import WitnessLang.Proofs.Ir.Descriptions
import WitnessLang.Proofs.Ir.Draft

set_option autoImplicit false

namespace WitnessLang.Ir

open Ownership (isWitness directUsage branches describedBy? Flows Allowed mem_operands)
open Sized (Roster)

section Expressions

variable {R : Roster} {c : Sized.Context} {generics vars : List Tag} {s s' : Lowering}

variable (R c) in
/-- Lowering an expression appends code, and keeps all descriptions where they are looked for. -/
def IsTold (e : Sized.Expr) : Prop :=
  ∀ {generics vars : List Tag} {s s' : Lowering} {dst : VarId} {tail : Bool}, e.Scoped c generics vars →
    (∀ part ∈ e.parts, part.Sound R c) → s.draft.Place dst → Ends (into tail e dst) s (.ok ()) s' →
    Appends R c s s' fun _ => True

/-- A new variable that is filled with the value of an expression. -/
theorem temporary_told {α : Type} {e : Sized.Expr} (apart : R.Apart) (ih : IsTold R c e) (inside : e.Scoped c generics vars)
    (sound : ∀ part ∈ e.parts, part.Sound R c) {make : VarId → α} {a : α}
    (ran : Ends (temporary e.shape >>= fun t => into false e t >>= fun _ => pure (make t)) s (.ok a) s') :
    Appends R c s s' fun _ => True := by
  rw [ends_bind_ok] at ran
  obtain ⟨t, s₁, first, ran⟩ := ran
  rw [ends_bind_ok] at ran
  obtain ⟨_, s₂, second, ran⟩ := ran
  obtain ⟨-, rfl⟩ := ends_pure.mp ran
  obtain ⟨⟨new, kind⟩, added⟩ := temporary_appends apart (sound e e.mem_parts).shape first
  refine added.next (ih inside sound ⟨new, ?_⟩ second)
  rw [← Bool.not_eq_true, kind]
  exact (scoped_shape inside).layout.value

theorem operand_told {e : Sized.Expr} (apart : R.Apart) (ih : IsTold R c e) (inside : e.Scoped c generics vars)
    (sound : ∀ part ∈ e.parts, part.Sound R c) {x : VarId} (ran : Ends (operand e (into false e)) s (.ok x) s') :
    Appends R c s s' fun _ => True := by
  rcases operand_eq e (into false e) with ⟨shape, name, rfl⟩ | other
  · obtain ⟨-, rfl⟩ := ends_lookup.mp ran
    exact .nothing _
  · rw [other] at ran
    exact temporary_told apart ih inside sound ran

theorem fieldValue_told {e : Sized.Expr} (apart : R.Apart) (ih : IsTold R c e) (inside : e.Scoped c generics vars)
    (sound : ∀ part ∈ e.parts, part.Sound R c) {v : Value} (ran : Ends (fieldValue e (into false e)) s (.ok v) s') :
    Appends R c s s' fun _ => True := by
  rcases fieldValue_eq e (into false e) with ⟨shape, name, rfl⟩ | other
  · rw [fieldValue, ends_bind_ok] at ran
    obtain ⟨x, s₁, found, ran⟩ := ran
    obtain ⟨-, rfl⟩ := ends_lookup.mp found
    obtain ⟨-, rfl⟩ := ends_pure.mp ran
    exact .nothing _
  · rw [other] at ran
    exact temporary_told apart ih inside sound ran

theorem operands_told {es : List Sized.Expr} (apart : R.Apart) (each : ∀ e ∈ es, IsTold R c e)
    (inside : Sized.Expr.ScopedAll c generics vars es) (sound : ∀ part ∈ Sized.Expr.partsAll es, part.Sound R c)
    {xs : List VarId} (ran : Ends (operands es) s (.ok xs) s') : Appends R c s s' fun _ => True := by
  induction es generalizing s xs with
  | nil =>
    obtain ⟨-, rfl⟩ := ends_pure.mp ran
    exact .nothing _
  | cons e rest ih =>
    rw [List.forall_mem_cons] at each
    rw [Sized.Expr.partsAll, List.forall_mem_append] at sound
    rw [operands, ends_bind_ok] at ran
    obtain ⟨x, s₁, first, ran⟩ := ran
    rw [ends_bind_ok] at ran
    obtain ⟨xs, s₂, others, ran⟩ := ran
    obtain ⟨-, rfl⟩ := ends_pure.mp ran
    exact (operand_told apart each.1 inside.1 sound.1 first).next (ih each.2 inside.2 sound.2 others)

theorem packFields_told {fs : List Sized.PackField} (apart : R.Apart) (each : ∀ f ∈ fs, IsTold R c f.value)
    (inside : Sized.Expr.FieldsScoped c generics vars fs) (sound : ∀ part ∈ Sized.Expr.fieldParts fs, part.Sound R c)
    {values : List PackField} (ran : Ends (packFields fs) s (.ok values) s') : Appends R c s s' fun _ => True := by
  induction fs generalizing s values with
  | nil =>
    obtain ⟨-, rfl⟩ := ends_pure.mp ran
    exact .nothing _
  | cons f rest ih =>
    obtain ⟨name, value⟩ := f
    rw [List.forall_mem_cons] at each
    rw [Sized.Expr.fieldParts, List.forall_mem_append] at sound
    rw [packFields, ends_bind_ok] at ran
    obtain ⟨v, s₁, first, ran⟩ := ran
    rw [ends_bind_ok] at ran
    obtain ⟨fields, s₂, others, ran⟩ := ran
    obtain ⟨-, rfl⟩ := ends_pure.mp ran
    exact (fieldValue_told apart each.1 inside.1 sound.1 first).next (ih each.2 inside.2 sound.2 others)

theorem lets_told {bs : List Sized.Let} (apart : R.Apart) (each : ∀ b ∈ bs, IsTold R c b.value)
    (inside : Sized.Expr.LetsScoped c generics vars bs) (listed : ∀ b ∈ bs, R.Lists c b.var)
    (sound : ∀ part ∈ Sized.Expr.letParts bs, part.Sound R c) (ran : Ends (lets bs) s (.ok ()) s') :
    Appends R c s s' fun _ => True := by
  induction bs generalizing s vars with
  | nil =>
    obtain ⟨-, rfl⟩ := ends_pure.mp ran
    exact .nothing _
  | cons b rest ih =>
    obtain ⟨v, value⟩ := b
    obtain ⟨shape, insideV, insideR⟩ := inside
    rw [List.forall_mem_cons] at each listed
    rw [Sized.Expr.letParts, List.forall_mem_append] at sound
    rw [lets, ends_bind_ok] at ran
    obtain ⟨x, s₁, first, ran⟩ := ran
    rw [ends_bind_ok] at ran
    obtain ⟨_, s₂, owned, ran⟩ := ran
    obtain ⟨-, rfl⟩ := ends_addLocal.mp owned
    rw [ends_bind_ok] at ran
    obtain ⟨_, s₃, second, others⟩ := ran
    obtain ⟨gains, declared⟩ := define_appends apart listed.1 first
    have place : (s₁.owning x).draft.Place x := (gains.place shape.layout.value).later (.refl _)
    have filled := each.1 insideV sound.1 place second
    exact ((declared.along (.owning x) rfl).next filled).next (ih each.2 insideR listed.2 sound.2 others)

end Expressions

section Declarations

variable {R : Roster} {c : Sized.Context} {s s' : Lowering}

/-- Captured variables are declared, and taken out of the environment. -/
theorem unpackCaptures_told (apart : R.Apart) {env : VarId} {us : List Sized.Variable} (listed : ∀ v ∈ us, R.Lists c v)
    (ran : Ends (us.forM (unpackCapture env)) s (.ok ()) s') : Appends R c s s' fun _ => True := by
  induction us generalizing s with
  | nil =>
    obtain ⟨-, rfl⟩ := ends_pure.mp ran
    exact .nothing _
  | cons v rest ih =>
    rw [List.forall_mem_cons] at listed
    have split : Ends (unpackCapture env v >>= fun _ => rest.forM (unpackCapture env)) s (.ok ()) s' := ran
    rw [ends_bind_ok] at split
    obtain ⟨_, s₁, first, others⟩ := split
    rw [unpackCapture, ends_bind_ok] at first
    obtain ⟨x, s₂, defined, first⟩ := first
    rw [ends_bind_ok] at first
    obtain ⟨_, s₃, owned, emitted⟩ := first
    obtain ⟨-, rfl⟩ := ends_addLocal.mp owned
    obtain ⟨-, rfl⟩ := ends_emit.mp emitted
    obtain ⟨gains, declared⟩ := define_appends apart listed.1 defined
    have taken := (declared.along (.owning x) rfl).emit (i := .unpack x env v.name.mangled) rfl
      (List.forall_mem_singleton.mpr gains.inside) (List.forall_mem_singleton.mpr fun _ => gains.new)
      fun code unwritten => List.forall_mem_singleton.mpr fun _ => unwritten
    exact taken.next (ih listed.2 others)

/-- Arguments are declared. -/
theorem arguments_told {α β : Type} (apart : R.Apart) (var : α → Sized.Variable) (make : α → VarId → β) {m : α → Lower β}
    (runs : ∀ a, m a = do return make a (← define (var a))) {as : List α} (listed : ∀ a ∈ as, R.Lists c (var a))
    {bs : List β} (ran : Ends (as.mapM m) s (.ok bs) s') :
    ∃ xs, bs = List.zipWith make as xs ∧ List.Forall₂ (fun a x =>
      (var a).shape.layout.witness ≠ .type → s'.draft.Place x) as xs ∧ Appends R c s s' fun _ => True := by
  induction as generalizing s bs with
  | nil =>
    obtain ⟨rfl, rfl⟩ := ends_mapM_nil.mp ran
    exact ⟨[], rfl, .nil, .nothing _⟩
  | cons a rest ih =>
    rw [List.forall_mem_cons] at listed
    obtain ⟨b, s₁, bs, first, others, rfl⟩ := ends_mapM_cons.mp ran
    rw [runs, ends_bind_ok] at first
    obtain ⟨x, s₂, defined, first⟩ := first
    obtain ⟨same, rfl⟩ := ends_pure.mp first
    obtain rfl := Except.ok.inj same
    obtain ⟨gains, declared⟩ := define_appends apart listed.1 defined
    obtain ⟨xs, rfl, places, more⟩ := ih listed.2 others
    exact ⟨x :: xs, rfl, .cons (fun value => (gains.place value).later more.vars) places, declared.next more⟩

end Declarations

section Lifting

variable {R : Roster} {c : Sized.Context} {s s' : Lowering}

/-- The function behind a closure is described, however it is called. -/
theorem liftClosure_told {name : String} {envType : Ty} {params own captures : List Sized.Variable} {body : Sized.Expr}
    {generics vars : List Tag} (apart : R.Apart) (ih : IsTold R c body) (inside : body.Scoped c generics vars)
    (sound : ∀ part ∈ body.parts, part.Sound R c) (listed : ∀ v ∈ params ++ (own ++ captures), R.Lists c v) {L : Function}
    (ran : Ends (liftClosure name envType params own captures body (into true body)) s (.ok L) s') :
    s'.draft = s.draft ∧ ((∀ f ∈ s.lifted, f.Described) → L.Described ∧ ∀ f ∈ s'.lifted, f.Described) := by
  obtain ⟨t, lifting, rfl⟩ := ends_beside ran
  clear ran
  refine ⟨rfl, fun before => ?_⟩
  rw [ends_get_bind] at lifting
  dsimp only at lifting
  generalize startIs : ({ s with draft := {} } : Lowering) = s₀ at lifting
  have empty : s₀.draft = {} := by rw [← startIs]
  have lifted : ∀ f ∈ s₀.lifted, f.Described := by rwa [← startIs]
  generalize variableIs : Variable.mk "_env" _ _ _ = x at lifting
  have plain : ∀ l, x.witness ≠ .dynamic l := by simp [← variableIs]
  rw [ends_bind_ok] at lifting
  obtain ⟨env, s₁, added, lifting⟩ := lifting
  obtain ⟨rfl, rfl⟩ := ends_addVariable.mp added
  rw [ends_bind_ok] at lifting
  obtain ⟨_, s₂, unpackedG, lifting⟩ := lifting
  rw [ends_bind_ok] at lifting
  obtain ⟨result, s₃, returned, lifting⟩ := lifting
  rw [ends_bind_ok] at lifting
  obtain ⟨arguments, s₄, passed, lifting⟩ := lifting
  rw [ends_bind_ok] at lifting
  obtain ⟨_, s₅, unpackedC, lifting⟩ := lifting
  rw [ends_bind_ok] at lifting
  obtain ⟨_, s₆, filled, finished⟩ := lifting
  rw [List.forall_mem_append, List.forall_mem_append] at listed
  obtain ⟨listedP, listedG, listedC⟩ := listed
  have first : Appends R c s₀ (s₀.adding x) fun _ => True :=
    (Appends.nothing s₀).adding fun _ _ l dynamic => absurd dynamic (plain l)
  obtain ⟨gains, place⟩ := newVariable_appends apart (sound body body.mem_parts).shape returned
  obtain ⟨-, -, -, taken⟩ := arguments_told apart id (fun _ x => Argument.mk x .borrowed) (m := borrowedArgument)
    (fun _ => rfl) listedP passed
  have captured := unpackCaptures_told apart listedC unpackedC
  have target := ((gains.place (scoped_shape inside).layout.value).later taken.vars).later captured.vars
  have opened := (first.next (unpackCaptures_told apart listedG unpackedG)).next place
  have whole := ((opened.next taken).next captured).next (ih inside sound target filled)
  obtain ⟨own, others⟩ := whole.finish empty lifted finished
  exact ⟨own, others⟩

/-- An environment is packed, and moved into the closure. -/
theorem makeClosure_told {dst : VarId} {name : String} {envShape : Sized.Shape} {env : Ident} {taken : List Sized.Variable}
    (apart : R.Apart) (describes : R.Describes c envShape) (value : envShape.layout.witness ≠ .type)
    (place : s.draft.Place dst) (ran : Ends (makeClosure dst name envShape env taken) s (.ok ()) s') :
    Appends R c s s' fun _ => True := by
  rw [makeClosure_eq, ends_bind_ok] at ran
  obtain ⟨e, s₁, first, ran⟩ := ran
  rw [ends_bind_ok] at ran
  obtain ⟨fields, s₂, found, ran⟩ := ran
  rw [ends_bind_ok] at ran
  obtain ⟨_, s₃, emitted, ran⟩ := ran
  obtain ⟨-, rfl⟩ := ends_emit.mp emitted
  obtain ⟨-, rfl⟩ := ends_emit.mp ran
  obtain ⟨rfl, -⟩ := taken_packs found
  obtain ⟨⟨inside, kind⟩, added⟩ := temporary_appends apart describes first
  have packed := added.fill (i := .pack e env.mangled fields) rfl rfl
    ⟨inside, by rwa [← Bool.not_eq_true, kind]⟩
  exact packed.fill rfl rfl (place.later added.vars)

end Lifting

section Whole

variable {R : Roster} {c : Sized.Context} {s s' : Lowering}

theorem var_isTold (shape : Sized.Shape) (name : Ident) : IsTold R c (.var shape name) := by
  intro generics vars s s' dst tail inside sound place ran
  rw [into, ends_bind_ok] at ran
  obtain ⟨src, s₁, found, ran⟩ := ran
  obtain ⟨-, rfl⟩ := ends_lookup.mp found
  have copied : ∀ {s'}, Ends (emit (.copy dst src)) s₁ (.ok ()) s' → Appends R c s₁ s' fun _ => True := by
    intro s' ran
    obtain ⟨-, rfl⟩ := ends_emit.mp ran
    exact (Appends.nothing s₁).fill rfl rfl place
  cases tail with
  | false => exact copied ran
  | true =>
    rw [ends_get_bind] at ran
    split at ran
    · obtain ⟨-, rfl⟩ := ends_emit.mp ran
      exact (Appends.nothing s₁).fill rfl rfl place
    · exact copied ran

theorem cond_isTold (apart : R.Apart) {shape : Sized.Shape} {test yes no : Sized.Expr} (tests : IsTold R c test)
    (accepts : IsTold R c yes) (refuses : IsTold R c no) : IsTold R c (.cond shape test yes no) := by
  intro generics vars s s' dst tail inside sound place ran
  obtain ⟨-, insideT, insideY, insideN⟩ := inside
  rw [Sized.Expr.parts, List.forall_mem_cons, List.forall_mem_append, List.forall_mem_append] at sound
  obtain ⟨-, soundT, soundY, soundN⟩ := sound
  rw [into, ends_bind_ok] at ran
  obtain ⟨t, s₁, tested, ran⟩ := ran
  rw [ends_bind_ok] at ran
  obtain ⟨y, s₂, first, ran⟩ := ran
  rw [ends_bind_ok] at ran
  obtain ⟨n, s₃, second, ran⟩ := ran
  obtain ⟨-, rfl⟩ := ends_emit.mp ran
  have testing := operand_told apart tests insideT soundT tested
  have here := place.later testing.vars
  have yesWrites := inBlock_writes (fun ran => accepts insideY soundY (here.later (.refl _)) ran) first
  have noWrites := inBlock_writes (fun ran => refuses insideN soundN (here.later yesWrites.2.vars) ran) second
  exact testing.cond here yesWrites noWrites

theorem closure_isTold (apart : R.Apart) {shape : Sized.Shape} {params own captures : List Sized.Variable} {env : Ident}
    {envShape : Sized.Shape} {body : Sized.Expr} (inner : IsTold R c body) :
    IsTold R c (.closure shape params own captures env envShape body) := by
  intro generics vars s s' dst tail inside sound place ran
  obtain ⟨-, insideE, -, -, -, insideB⟩ := inside
  rw [Sized.Expr.parts, List.forall_mem_cons] at sound
  rw [into, ends_get_bind] at ran
  dsimp only at ran
  rw [ends_modify_bind, ends_bind_ok] at ran
  obtain ⟨L, s₁, lifted, ran⟩ := ran
  rw [ends_modify_bind] at ran
  obtain ⟨same, told⟩ := liftClosure_told apart inner insideB sound.2 sound.1.listed lifted
  generalize behindIs : ({ s₁ with lifted := s₁.lifted ++ [L] } : Lowering) = s₂ at ran
  have draft : s₂.draft = s.draft := by rw [← behindIs, same]
  have lifting : Writes R c s [] s₂ := by
    refine ⟨draft ▸ .refl _, draft ▸ List.Subset.refl _, List.forall_mem_nil _, fun code known => ?_⟩
    obtain ⟨own, others⟩ := told known.lifted
    rw [List.append_nil]
    refine ⟨draft ▸ known.draft, ?_⟩
    rw [← behindIs]
    exact List.forall_mem_append.mpr ⟨others, List.forall_mem_singleton.mpr own⟩
  have begun := (Appends.nothing s).along lifting (by rw [draft])
  exact begun.next (makeClosure_told apart (sound.1.describes envShape (by simp [Sized.Expr.ownShapes]))
    insideE.layout.value (draft ▸ place) ran)

/-- Lowering an expression keeps all descriptions where they are looked for. -/
theorem into_told (apart : R.Apart) (e : Sized.Expr) : IsTold R c e := by
  induction e with
  | var shape name => exact var_isTold shape name
  | number shape text bits =>
    intro generics vars s s' dst tail inside sound place ran
    obtain ⟨-, rfl⟩ := ends_emit.mp ran
    exact (Appends.nothing s).fill rfl rfl place
  | bool shape value =>
    intro generics vars s s' dst tail inside sound place ran
    obtain ⟨-, rfl⟩ := ends_emit.mp ran
    exact (Appends.nothing s).fill rfl rfl place
  | callDirect shape function args witnesses ih =>
    intro generics vars s s' dst tail inside sound place ran
    rw [Sized.Expr.parts, List.forall_mem_cons] at sound
    rw [into, ends_bind_ok] at ran
    obtain ⟨xs, s₁, passed, ran⟩ := ran
    rw [ends_bind_ok] at ran
    obtain ⟨ws, s₂, described, ran⟩ := ran
    obtain ⟨-, rfl⟩ := ends_emit.mp ran
    have given := (operands_told apart ih inside.2.1 sound.2 passed).next (witnessOperands_appends apart witnesses described)
    exact given.fill rfl (by simp) (place.later given.vars)
  | callClosure shape callee args ihCallee ih =>
    intro generics vars s s' dst tail inside sound place ran
    obtain ⟨-, insideC, insideA⟩ := inside
    rw [Sized.Expr.parts, List.forall_mem_cons, List.forall_mem_append] at sound
    rw [into, ends_bind_ok] at ran
    obtain ⟨f, s₁, function, ran⟩ := ran
    rw [ends_bind_ok] at ran
    obtain ⟨xs, s₂, passed, ran⟩ := ran
    obtain ⟨-, rfl⟩ := ends_emit.mp ran
    have given := (operand_told apart ihCallee insideC sound.2.1 function).next
      (operands_told apart ih insideA sound.2.2 passed)
    exact given.fill rfl (by simp) (place.later given.vars)
  | primitive shape op left right ihLeft ihRight =>
    intro generics vars s s' dst tail inside sound place ran
    obtain ⟨-, insideL, insideR⟩ := inside
    rw [Sized.Expr.parts, List.forall_mem_cons, List.forall_mem_append] at sound
    rw [into, ends_bind_ok] at ran
    obtain ⟨l, s₁, left, ran⟩ := ran
    rw [ends_bind_ok] at ran
    obtain ⟨r, s₂, right, ran⟩ := ran
    obtain ⟨-, rfl⟩ := ends_emit.mp ran
    have given := (operand_told apart ihLeft insideL sound.2.1 left).next
      (operand_told apart ihRight insideR sound.2.2 right)
    exact given.fill rfl rfl (place.later given.vars)
  | block shape bs result ih ihResult =>
    intro generics vars s s' dst tail inside sound place ran
    obtain ⟨-, insideL, insideR⟩ := inside
    rw [Sized.Expr.parts, List.forall_mem_cons, List.forall_mem_append] at sound
    obtain ⟨own, soundL, soundR⟩ := sound
    rw [into, ends_bind_ok] at ran
    obtain ⟨_, s₁, bound, ran⟩ := ran
    have first := lets_told apart ih insideL (List.forall_mem_map.mp own.listed) soundL bound
    exact first.next (ihResult insideR soundR (place.later first.vars) ran)
  | pack shape name fields ih =>
    intro generics vars s s' dst tail inside sound place ran
    rw [Sized.Expr.parts, List.forall_mem_cons] at sound
    rw [into, ends_bind_ok] at ran
    obtain ⟨fs, s₁, packed, ran⟩ := ran
    obtain ⟨-, rfl⟩ := ends_emit.mp ran
    have given := packFields_told apart ih inside.2 sound.2 packed
    exact given.fill rfl rfl (place.later given.vars)
  | unpack shape value field ih =>
    intro generics vars s s' dst tail inside sound place ran
    rw [Sized.Expr.parts, List.forall_mem_cons] at sound
    rw [into, ends_bind_ok] at ran
    obtain ⟨src, s₁, whole, ran⟩ := ran
    obtain ⟨-, rfl⟩ := ends_emit.mp ran
    have given := operand_told apart ih inside.2 sound.2 whole
    exact given.fill rfl rfl (place.later given.vars)
  | cond shape test yes no ihTest ihYes ihNo => exact cond_isTold apart ihTest ihYes ihNo
  | closure shape params own captures env envShape body ih => exact closure_isTold apart ih

/-- Functions are described. -/
theorem lowerFunction_told {f : Sized.Function} {result : Sized.Variable} {params generics : List Sized.Variable}
    (apart : R.Apart) (inside : f.Scoped c result params generics) (listed : ∀ a ∈ f.arguments, R.Lists c a.var)
    (sound : ∀ part ∈ f.body.parts, part.Sound R c) {L : Function} (ran : Ends (lowerFunction f) s (.ok L) s')
    (before : ∀ g ∈ s.lifted, g.Described) : L.Described ∧ ∀ g ∈ s'.lifted, g.Described := by
  have shape : f.arguments = ⟨result, .out⟩ :: params.map borrowed ++ generics.map borrowed := inside.arguments
  have tags : ∀ vs : List Sized.Variable, (vs.map borrowed).map (fun a => a.var.name.tag) = Sized.variableTags vs := by
    simp [Sized.variableTags, borrowed]
  have once : (Sized.variableTags generics ++ Sized.variableTags (result :: params)).Nodup := by
    have all := (List.nodup_append'.mp inside.once).1
    rw [shape, List.map_append, tags, List.map_cons, tags] at all
    exact List.perm_append_comm.nodup_iff.mp all
  rw [lowerFunction] at ran
  obtain ⟨t, lowering, rfl⟩ := ends_beside ran
  clear ran
  rw [shape, partition_descriptions inside.descriptions fun v member => (inside.values v member).layout.value] at lowering
  dsimp only at lowering
  generalize startIs : ({ s with draft := {} } : Lowering) = s₀ at lowering
  have empty : s₀.draft = {} := by rw [← startIs]
  have lifted : ∀ f ∈ s₀.lifted, f.Described := by rwa [← startIs]
  rw [show (fun a : Sized.Argument => (do return (a.var.name.tag, Argument.mk (← define a.var) a.convention) :
    Lower (Tag × Argument))) = declareArgument from rfl, List.mapM_append, bind_assoc, ends_bind_ok] at lowering
  obtain ⟨gs, s₁, described, lowering⟩ := lowering
  rw [bind_assoc, ends_bind_ok] at lowering
  obtain ⟨bs, s₂, taken, lowering⟩ := lowering
  rw [pure_bind, ends_bind_ok] at lowering
  obtain ⟨_, s₃, filled, finished⟩ := lowering
  rw [shape, List.forall_mem_append] at listed
  have runs : ∀ a, declareArgument a = do return tagged a (← define a.var) := fun _ => rfl
  obtain ⟨xs, rfl, known, first⟩ := arguments_told apart Sized.Argument.var tagged runs listed.2 described
  obtain ⟨ys, rfl, places, second⟩ := arguments_told apart Sized.Argument.var tagged runs listed.1 taken
  obtain ⟨r, ys, place, others, rfl⟩ := List.forall₂_cons_left_iff.mp places
  rw [List.zipWith_cons_cons, arguments_eq (List.forall₂_map_left_iff.mp others) (List.forall₂_map_left_iff.mp known) once]
    at filled finished
  have target := place (inside.values result List.mem_cons_self).layout.value
  have whole := (first.next second).next (into_told apart f.body inside.body sound target filled)
  obtain ⟨own, others⟩ := whole.finish empty lifted finished
  exact ⟨own, others⟩

/-- So are the functions of a program, and the bodies of closures behind them. -/
theorem lowerFunctions_told {fs : List Sized.Function} (apart : R.Apart)
    (inside : ∀ f ∈ fs, ∃ result params generics, f.Scoped c result params generics)
    (listed : ∀ f ∈ fs, ∀ a ∈ f.arguments, R.Lists c a.var) (sound : ∀ f ∈ fs, ∀ part ∈ f.body.parts, part.Sound R c)
    (distinct : ∀ f ∈ fs, ∀ part ∈ f.body.parts, part.Distinct) (empty : s.lifted = []) {groups : List (List Function)}
    (ran : Ends (fs.mapM lowerWithClosures) s (.ok groups) s') : ∀ g ∈ groups.flatten, g.Described ∧ g.Owns := by
  induction fs generalizing s groups with
  | nil =>
    obtain ⟨rfl, rfl⟩ := ends_mapM_nil.mp ran
    exact List.forall_mem_nil _
  | cons f rest ih =>
    rw [List.forall_mem_cons] at inside listed sound distinct
    obtain ⟨group, s₁, groups, first, others, rfl⟩ := ends_mapM_cons.mp ran
    rw [lowerWithClosures, ends_bind_ok] at first
    obtain ⟨L, s₂, lowering, first⟩ := first
    rw [ends_get_bind] at first
    dsimp only at first
    rw [ends_modify_bind] at first
    obtain ⟨same, rfl⟩ := ends_pure.mp first
    obtain rfl := Except.ok.inj same
    obtain ⟨result, params, generics, own⟩ := inside.1
    obtain ⟨described, bodies⟩ := lowerFunction_told apart own listed.1 sound.1 lowering (by simp [empty])
    obtain ⟨⟨-, owns⟩, coded⟩ := lowerFunction_coded own distinct.1 lowering
    rw [empty] at owns
    rw [List.flatten_cons, List.forall_mem_append, List.forall_mem_cons]
    refine ⟨⟨⟨described, (coded _ fun _ => id).owned⟩, fun g member => ⟨bodies g member, ?_⟩⟩,
      ih inside.2 listed.2 sound.2 distinct.2 rfl others⟩
    exact (owns g member).resolve_left List.not_mem_nil

/-- All functions of a lowered program are described. -/
theorem lower_told {p : Sized.Program} (apart : R.Apart)
    (inside : ∀ f ∈ p.functions, ∃ result params generics, f.Scoped c result params generics)
    (listed : ∀ f ∈ p.functions, ∀ a ∈ f.arguments, R.Lists c a.var)
    (sound : ∀ f ∈ p.functions, ∀ part ∈ f.body.parts, part.Sound R c)
    (distinct : ∀ f ∈ p.functions, ∀ part ∈ f.body.parts, part.Distinct) {r : Program} (done : lower p = .ok r) :
    ∀ g ∈ r.functions, g.Described ∧ g.Owns := by
  have ended : ∃ s', Ends (do
      let structs ← p.structs.mapM lowerStruct
      let functions ← p.functions.mapM lowerWithClosures
      return (⟨p.unit, p.target, structs, functions.flatten⟩ : Program))
      { target := p.target, layouts := ⟨p.target, []⟩ } (.ok r) s' := ⟨_, Prod.ext done rfl⟩
  obtain ⟨s', ended⟩ := ended
  rw [ends_bind_ok] at ended
  obtain ⟨rs, s₁, structs, ended⟩ := ended
  rw [ends_bind_ok] at ended
  obtain ⟨groups, s₂, ran, ended⟩ := ended
  obtain ⟨same, -⟩ := ends_pure.mp ended
  obtain rfl := Except.ok.inj same
  exact lowerFunctions_told apart inside listed sound distinct (lowerStructs_lifted structs) ran

end Whole

section Order

variable {vs : Variables} {live known live' known' : Set VarId} {v l : VarId} {block : Block}

mutual

/-- Whether an instruction and what is inside it mentions a variable only if another one was written before. -/
def Instr.awaits (l v : VarId) (written : Bool) : Instr → Bool
  | .cond dst test yes no =>
    (written || !(Instr.cond dst test yes no).operands.contains v) && awaitsAll l v written yes && awaitsAll l v written no
  | i => written || !i.operands.contains v

/-- Whether all instructions of a block that mention a variable, at any depth, stand behind one that writes
another one, in the same block or in one around it. -/
def Instr.awaitsAll (l v : VarId) (written : Bool) : Block → Bool
  | [] => true
  | i :: rest => i.awaits l v written && awaitsAll l v (written || (directUsage i).writes.contains l) rest

end

theorem awaits_plain {i : Instr} (plain : branches i = false) (written : Bool) :
    i.awaits l v written = (written || !i.operands.contains v) := by
  cases i <;> first | rfl | simp [branches] at plain

/-- Where values flow, every variable that is mentioned has its description, which was written before. -/
theorem flows_awaits (flows : Flows vs live known block live' known') (described : describedBy? vs v = some l)
    {written : Bool} (held : l ∈ live → written = true) : Instr.awaitsAll l v written block = true := by
  have own : ∀ {live known : Set VarId} {i : Instr} {written : Bool}, Allowed vs live known i →
      (l ∈ live → written = true) → (written || !i.operands.contains v) = true := by
    intro live known i written allowed held
    by_cases mentioned : v ∈ i.operands
    · rw [held (allowed.described v (mem_operands mentioned) l described), Bool.true_or]
    · simp [mentioned]
  induction flows generalizing written with
  | nil => rfl
  | @plain live _ _ _ i rest plain allowed _ ih =>
    rw [Instr.awaitsAll, awaits_plain plain, own allowed held, Bool.true_and]
    refine ih fun member => ?_
    rcases member with old | new
    · rw [held old.1, Bool.true_or]
    · rw [List.contains_iff_mem.mpr new, Bool.or_true]
  | @cond _ _ _ _ _ _ _ _ dst test yes no rest allowed _ _ _ _ ihYes ihNo ih =>
    rw [Instr.awaitsAll, Instr.awaits, own allowed held, ihYes held, ihNo held]
    refine ih fun member => ?_
    rcases member with old | rfl
    · rw [held old.1, Bool.true_or]
    · simp [directUsage]

end Order

section Places

variable {N : Naming} {target : Target} {closures : Nat} {f : Function}

/-- A name stands for one variable of a lowered function. -/
theorem Function.Built.eq_of_name (built : f.Built N target closures) {u v : VarId} (first : f.Has u) (second : f.Has v)
    (same : nameOf f.vars u = nameOf f.vars v) : u = v := by
  have argument : ∀ {x}, x ∈ f.arguments.map (·.var) → ∃ a ∈ f.arguments, a.var = x := List.mem_map.mp
  rcases first with first | first <;> rcases second with second | second
  · obtain ⟨a, memberA, rfl⟩ := argument first
    obtain ⟨b, memberB, rfl⟩ := argument second
    rw [List.inj_on_of_nodup_map built.once memberA memberB same]
  · obtain ⟨a, memberA, rfl⟩ := argument first
    exact absurd same (built.apart a memberA v second)
  · obtain ⟨b, memberB, rfl⟩ := argument second
    exact absurd same.symm (built.apart b memberB u first)
  · exact List.inj_on_of_nodup_map built.local_names first second same

/-- Where a function has the description of the type of a variable. That of a type parameter is in the variable
of this name. Any other one is computed by one call, behind which all instructions stand that mention the variable. -/
inductive Function.Explains (f : Function) (v l : VarId) : Ty → Prop
  | parameter {g : Ident} (own : Entered f.vars l g.mangled Ty.witness)
      (only : ∀ u < f.vars.size, nameOf f.vars u = g.mangled → u = l) : f.Explains v l (.generic g)
  | computed {t : Ty} {w : WitnessExpr} (other : ∀ g, t ≠ .generic g) (finished : t.finishedWitness = .ok w)
      (spells : SpellsOut f.vars f.locals (Instr.flattenAll f.body) w l)
      (before : Instr.awaitsAll l v false f.body = true) : f.Explains v l t

/-- A lowered function that is described has the descriptions of all types where its variables name them. -/
theorem Function.Built.explains (built : f.Built N target closures) (described : f.Described) (owns : f.Owns) {v l : VarId}
    {x : Variable} (found : f.vars[v]? = some x) (dynamic : x.witness = .dynamic l) :
    ∃ t, x.type = some t ∧ f.Explains v l t := by
  obtain ⟨t, w, type, finished, spells⟩ := described v x l found dynamic
  refine ⟨t, type, ?_⟩
  have inside : l < f.vars.size := lt_of_isWitness (built.located v x found l (Witness.location?_eq_some.mpr dynamic))
  obtain rfl := Ty.eq_of_finishedWitness finished
  -- The description of anything else than a type parameter is in a local, and locals hold nothing at the start.
  have behind : l ∈ f.locals → Instr.awaitsAll l v false f.body = true := by
    intro own
    obtain ⟨live, known, flows⟩ := built.flows
    have describes : describedBy? f.vars v = some l := by
      simp [describedBy?, found, dynamic, Witness.location?, inside]
    refine flows_awaits flows describes fun given => ?_
    obtain ⟨a, argument, -, rfl⟩ := given
    exact absurd rfl (built.apart a argument _ own)
  cases t with
  | generic g =>
    have entered : Entered f.vars l g.mangled Ty.witness := spells
    obtain ⟨y, here, name, -⟩ := entered
    refine .parameter spells fun u place same => built.eq_of_name (owns u place) (owns l inside) ?_
    rw [same, nameOf, here, ← name]
  | cell cell => cases finished
  | named name args => exact .computed (fun _ => Ty.noConfusion) finished spells (behind spells.1)
  | func args result => exact .computed (fun _ => Ty.noConfusion) finished spells (behind spells.1)

end Places

end WitnessLang.Ir
