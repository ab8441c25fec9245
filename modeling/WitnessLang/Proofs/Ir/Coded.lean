import WitnessLang.Proofs.Ir.Emitted
import WitnessLang.Proofs.Ir.Program

set_option autoImplicit false

namespace WitnessLang

/-- What a closure takes along is told apart by tags, and by names. -/
def Sized.Expr.Distinct : Sized.Expr → Prop
  | .closure _ _ generics captures _ _ _ => (variableTags (generics ++ captures)).Nodup ∧
      ((generics ++ captures).map (·.name.mangled)).Nodup
  | _ => True

namespace Ir

open Ownership (isWitness)

/-- What is lowered can read its type parameters, and binds names that have not been declared. -/
structure Draft.Ready (generics binders : List Tag) (d : Draft) : Prop where
  known : d.Knows generics
  once : binders.Nodup
  fresh : ∀ t ∈ binders, d.scope.lookup t = none

section Ready

variable {generics binders part : List Tag} {args : List VarId} {s s' : Lowering}
  {post : List Function → Variables → Block → Prop}

theorem Draft.Ready.sublist {d : Draft} (ready : d.Ready generics binders) (within : part.Sublist binders) :
    d.Ready generics part :=
  ⟨ready.known, within.nodup ready.once, fun t member => ready.fresh t (within.subset member)⟩

theorem Draft.Ready.front {d : Draft} (ready : d.Ready generics (part ++ binders)) : d.Ready generics part :=
  ready.sublist (List.sublist_append_left _ _)

theorem Draft.Ready.apart {d : Draft} (ready : d.Ready generics binders) : binders.Disjoint generics := by
  intro t member generic
  obtain ⟨v, found, -⟩ := ready.known t generic
  rw [ready.fresh t member] at found
  cases found

theorem Draft.Ready.knowing {d : Draft} (ready : d.Ready generics binders) {generics' : List Tag}
    (known : d.Knows generics') : d.Ready generics' binders := ⟨known, ready.once, ready.fresh⟩

/-- What binds other names leaves everything ready. -/
theorem Draft.Ready.behind (ready : s.draft.Ready generics (part ++ binders)) (coded : Coded part args s s' post) :
    s'.draft.Ready generics binders := by
  have split := List.nodup_append'.mp ready.once
  refine ⟨ready.known.later coded ready.front.apart, split.2.1, fun t member => ?_⟩
  rw [coded.scope fun own => split.2.2 own member]
  exact ready.fresh t (List.mem_append_right _ member)

theorem Draft.Ready.along (ready : s.draft.Ready generics binders) (coded : Coded [] args s s' post) :
    s'.draft.Ready generics binders := by
  have split : s.draft.Ready generics ([] ++ binders) := ready
  exact split.behind coded

end Ready

section Expressions

variable {c : Sized.Context} {generics vars : List Tag} {s s' : Lowering}

variable (c) in
def IsCoded (e : Sized.Expr) : Prop :=
  ∀ {generics vars : List Tag} {s s' : Lowering} {dst : VarId} {tail : Bool}, e.Scoped c generics vars →
    (∀ part ∈ e.parts, part.Distinct) → s.draft.Ready generics e.binders →
    Ends (into tail e dst) s (.ok ()) s' →
    Coded e.binders [] s s' fun F vs is => Codes F e vs tail dst s.draft.mark is s'.draft.mark

/-- A new variable that is filled with the value of an expression. -/
theorem temporary_filled {α : Type} {e : Sized.Expr} (ih : IsCoded c e) (inside : e.Scoped c generics vars)
    (distinct : ∀ part ∈ e.parts, part.Distinct) (ready : s.draft.Ready generics e.binders)
    {make : VarId → α} {a : α}
    (ran : Ends (temporary e.shape >>= fun t => into false e t >>= fun _ => pure (make t)) s (.ok a) s') :
    ∃ t, a = make t ∧ s.draft.vars.size ≤ t ∧
      Coded e.binders [] s s' fun F vs is => Operand F e vs t s.draft.mark is s'.draft.mark := by
  rw [ends_bind_ok] at ran
  obtain ⟨t, s₁, first, ran⟩ := ran
  rw [ends_bind_ok] at ran
  obtain ⟨_, s₂, second, ran⟩ := ran
  obtain ⟨same, rfl⟩ := ends_pure.mp ran
  have shape := scoped_shape inside
  obtain ⟨scope, added⟩ := temporary_coded ready.known shape.layout.names first
  have filled := ih inside distinct (ready.along added) second
  obtain ⟨_, _, own⟩ := added.self
  refine ⟨t, Except.ok.inj same, own.new, (added.then filled).imp fun F vs is final code => ?_⟩
  obtain ⟨js, ks, rfl, ⟨name, adds⟩, filled⟩ := code
  have value : isWitness vs t = false := by
    rw [← Bool.not_eq_true, adds.kind]
    exact shape.layout.value
  exact .temporary adds value filled

theorem operand_coded {e : Sized.Expr} (ih : IsCoded c e) (inside : e.Scoped c generics vars)
    (distinct : ∀ part ∈ e.parts, part.Distinct) (ready : s.draft.Ready generics e.binders) {x : VarId}
    (ran : Ends (operand e (into false e)) s (.ok x) s') :
    Coded e.binders [] s s' fun F vs is => Operand F e vs x s.draft.mark is s'.draft.mark := by
  rcases operand_eq e (into false e) with ⟨shape, name, rfl⟩ | other
  · obtain ⟨found, rfl⟩ := ends_lookup.mp ran
    exact .refl _ fun F vs final => .named found
  · rw [other] at ran
    obtain ⟨t, rfl, -, coded⟩ := temporary_filled ih inside distinct ready ran
    exact coded

theorem operands_coded {es : List Sized.Expr} (each : ∀ e ∈ es, IsCoded c e)
    (inside : Sized.Expr.ScopedAll c generics vars es)
    (distinct : ∀ part ∈ Sized.Expr.partsAll es, part.Distinct)
    (ready : s.draft.Ready generics (Sized.Expr.bindersAll es)) {xs : List VarId}
    (ran : Ends (operands es) s (.ok xs) s') :
    Coded (Sized.Expr.bindersAll es) [] s s' fun F vs is => Operands F es vs xs s.draft.mark is s'.draft.mark := by
  induction es generalizing s xs with
  | nil =>
    obtain ⟨same, rfl⟩ := ends_pure.mp ran
    obtain rfl := Except.ok.inj same
    exact .refl _ fun F vs final => .nil
  | cons e rest ih =>
    rw [List.forall_mem_cons] at each
    rw [Sized.Expr.partsAll, List.forall_mem_append] at distinct
    rw [operands, ends_bind_ok] at ran
    obtain ⟨x, s₁, first, ran⟩ := ran
    rw [ends_bind_ok] at ran
    obtain ⟨xs, s₂, others, ran⟩ := ran
    obtain ⟨same, rfl⟩ := ends_pure.mp ran
    obtain rfl := Except.ok.inj same
    have own := operand_coded each.1 inside.1 distinct.1 ready.front first
    have more := ih each.2 inside.2 distinct.2 (ready.behind own) others
    refine (own.then more).imp fun F vs is final code => ?_
    obtain ⟨js, ks, rfl, first, others⟩ := code
    exact .cons first others

theorem fieldValue_coded {e : Sized.Expr} (ih : IsCoded c e) (inside : e.Scoped c generics vars)
    (distinct : ∀ part ∈ e.parts, part.Distinct) (ready : s.draft.Ready generics e.binders) {v : Value}
    (ran : Ends (fieldValue e (into false e)) s (.ok v) s') :
    (v.mode = .move → s.draft.vars.size ≤ v.var) ∧
      Coded e.binders [] s s' fun F vs is => Operand F e vs v.var s.draft.mark is s'.draft.mark := by
  rcases fieldValue_eq e (into false e) with ⟨shape, name, rfl⟩ | other
  · rw [fieldValue, ends_bind_ok] at ran
    obtain ⟨x, s₁, found, ran⟩ := ran
    obtain ⟨found, rfl⟩ := ends_lookup.mp found
    obtain ⟨same, rfl⟩ := ends_pure.mp ran
    obtain rfl := Except.ok.inj same
    exact ⟨fun moved => (by cases moved), .refl _ fun F vs final => .named found⟩
  · rw [other] at ran
    obtain ⟨t, rfl, new, coded⟩ := temporary_filled ih inside distinct ready ran
    exact ⟨fun _ => new, coded⟩

theorem packFields_coded {fs : List Sized.PackField} (each : ∀ f ∈ fs, IsCoded c f.value)
    (inside : Sized.Expr.FieldsScoped c generics vars fs)
    (distinct : ∀ part ∈ Sized.Expr.fieldParts fs, part.Distinct)
    (ready : s.draft.Ready generics (Sized.Expr.fieldBinders fs)) {values : List PackField}
    (ran : Ends (packFields fs) s (.ok values) s') :
    Coded (Sized.Expr.fieldBinders fs) [] s s' fun F vs is => FieldCodes F fs vs values s.draft.mark is s'.draft.mark := by
  induction fs generalizing s values with
  | nil =>
    obtain ⟨same, rfl⟩ := ends_pure.mp ran
    obtain rfl := Except.ok.inj same
    exact .refl _ fun F vs final => .nil
  | cons f rest ih =>
    obtain ⟨name, value⟩ := f
    rw [List.forall_mem_cons] at each
    rw [Sized.Expr.fieldParts, List.forall_mem_append] at distinct
    rw [packFields, ends_bind_ok] at ran
    obtain ⟨v, s₁, first, ran⟩ := ran
    rw [ends_bind_ok] at ran
    obtain ⟨fields, s₂, others, ran⟩ := ran
    obtain ⟨same, rfl⟩ := ends_pure.mp ran
    obtain rfl := Except.ok.inj same
    obtain ⟨new, own⟩ := fieldValue_coded each.1 inside.1 distinct.1 ready.front first
    have more := ih each.2 inside.2 distinct.2 (ready.behind own) others
    refine (own.then more).imp fun F vs is final code => ?_
    obtain ⟨js, ks, rfl, first, others⟩ := code
    exact .cons first new others

theorem lets_coded {bs : List Sized.Let} (each : ∀ b ∈ bs, IsCoded c b.value)
    (inside : Sized.Expr.LetsScoped c generics vars bs)
    (distinct : ∀ part ∈ Sized.Expr.letParts bs, part.Distinct)
    (ready : s.draft.Ready generics (Sized.Expr.letBinders bs)) (ran : Ends (lets bs) s (.ok ()) s') :
    Coded (Sized.Expr.letBinders bs) [] s s' fun F vs is => LetCodes F bs vs s.draft.mark is s'.draft.mark := by
  induction bs generalizing s vars with
  | nil =>
    obtain ⟨-, rfl⟩ := ends_pure.mp ran
    exact .refl _ fun F vs final => .nil
  | cons b rest ih =>
    obtain ⟨v, value⟩ := b
    obtain ⟨shape, insideV, insideR⟩ := inside
    rw [List.forall_mem_cons] at each
    rw [Sized.Expr.letParts, List.forall_mem_append] at distinct
    rw [lets, ends_bind_ok] at ran
    obtain ⟨x, s₁, first, ran⟩ := ran
    rw [ends_bind_ok] at ran
    obtain ⟨_, s₂, owned, ran⟩ := ran
    obtain ⟨-, rfl⟩ := ends_addLocal.mp owned
    rw [ends_bind_ok] at ran
    obtain ⟨_, s₃, second, others⟩ := ran
    -- The name is declared before its value is computed, and is not among those that the value binds.
    have order : ([v.name.tag] ++ value.binders ++ Sized.Expr.letBinders rest).Perm
        (Sized.Expr.letBinders (⟨v, value⟩ :: rest)) := by
      rw [Sized.Expr.letBinders, List.append_assoc, List.singleton_append]
      exact List.perm_middle.symm
    have ready' : s.draft.Ready generics ([v.name.tag] ++ value.binders ++ Sized.Expr.letBinders rest) :=
      ⟨ready.known, order.nodup_iff.mpr ready.once, fun t member => ready.fresh t (order.subset member)⟩
    obtain ⟨-, declared⟩ := define_coded ready.known shape.layout.names
      (ready'.fresh _ (by simp)) first
    have own := declared.own
    have readyV := ready'.front.behind own
    have filled := each.1 insideV distinct.1 readyV second
    have done := own.then filled
    have more := ih each.2 insideR distinct.2 (ready'.behind done) others
    refine ((done.then more).mono order.subset).imp fun F vs is final code => ?_
    obtain ⟨_, ls, rfl, ⟨js, ks, rfl, declared, filled⟩, others⟩ := code
    have value : isWitness vs x = false := by
      rw [← Bool.not_eq_true, declared.adds.kind]
      exact shape.layout.value
    exact .cons declared value filled others

/-- Instructions in a block of their own are not emitted, but returned. -/
theorem inBlock_coded {m : Lower Unit} {bound : List Tag} {block : Block}
    (post : Mark → List Function → Variables → Block → Prop)
    (inner : ∀ {s' : Lowering}, Ends m s.cleared (.ok ()) s' → Coded bound [] s.cleared s' (post s'.draft.mark))
    (ran : Ends (inBlock m) s (.ok block) s') :
    Coded bound [] s s' fun F vs is => is = [] ∧ post s'.draft.mark F vs block := by
  rw [inBlock, ends_get_bind, modifyDraft, ends_modify_bind, ends_bind_ok] at ran
  obtain ⟨_, s₁, first, ran⟩ := ran
  rw [ends_get_bind, modifyDraft, ends_modify_bind] at ran
  obtain ⟨same, rfl⟩ := ends_pure.mp ran
  obtain rfl := Except.ok.inj same
  obtain ⟨is, emits, code⟩ := inner first
  have whole : s₁.draft.instrs.toList = is := emits.code
  refine ⟨[], { emits with code := (List.append_nil _).symm }, fun F vs final => ⟨rfl, ?_⟩⟩
  rw [whole]
  exact code F vs ⟨final.lifted, final.vars⟩

end Expressions

section Declarations

variable {generics : List Tag} {s s' : Lowering}

/-- Captured variables are declared, and taken out of the environment. -/
theorem unpackCaptures_coded {env : VarId} {us : List Sized.Variable}
    (inside : ∀ v ∈ us, ∀ x ∈ v.shape.layout.names, x.tag ∈ generics)
    (ready : s.draft.Ready generics (Sized.variableTags us)) (ran : Ends (us.forM (unpackCapture env)) s (.ok ()) s') :
    ∃ xs, Coded (Sized.variableTags us) [] s s' fun _ vs is =>
      DeclaresAll vs (unpacked env) us s.draft.mark is xs s'.draft.mark := by
  induction us generalizing s with
  | nil =>
    obtain ⟨-, rfl⟩ := ends_pure.mp ran
    exact ⟨[], .refl _ fun F vs final => .nil⟩
  | cons v rest ih =>
    rw [List.forall_mem_cons] at inside
    have split : Ends (unpackCapture env v >>= fun _ => rest.forM (unpackCapture env)) s (.ok ()) s' := ran
    rw [ends_bind_ok] at split
    obtain ⟨_, s₁, first, others⟩ := split
    rw [unpackCapture, ends_bind_ok] at first
    obtain ⟨x, s₂, defined, first⟩ := first
    rw [ends_bind_ok] at first
    obtain ⟨_, s₃, owned, emitted⟩ := first
    obtain ⟨-, rfl⟩ := ends_addLocal.mp owned
    obtain ⟨-, rfl⟩ := ends_emit.mp emitted
    obtain ⟨-, declared⟩ := define_coded ready.known inside.1 (ready.fresh _ List.mem_cons_self) defined
    have own := declared.own.emit (.unpack x env v.name.mangled)
    have split : s.draft.Ready generics ([v.name.tag] ++ Sized.variableTags rest) := ready
    obtain ⟨xs, more⟩ := ih inside.2 (split.behind own) others
    refine ⟨x :: xs, (own.then more).imp fun F vs is final code => ?_⟩
    obtain ⟨_, ks, rfl, ⟨js, rfl, declared⟩, others⟩ := code
    exact .cons declared others

/-- Arguments are declared. -/
theorem arguments_coded {α β : Type} (var : α → Sized.Variable) (make : α → VarId → β) {m : α → Lower β}
    (runs : ∀ a, m a = do return make a (← define (var a))) {as : List α}
    (inside : ∀ a ∈ as, ∀ x ∈ (var a).shape.layout.names, x.tag ∈ generics)
    (ready : s.draft.Ready generics (as.map fun a => (var a).name.tag)) {bs : List β}
    (ran : Ends (as.mapM m) s (.ok bs) s') :
    ∃ xs, bs = List.zipWith make as xs ∧ Coded (as.map fun a => (var a).name.tag) xs s s' fun _ vs is =>
      DeclaresAll vs asIs (as.map var) s.draft.mark is xs s'.draft.mark := by
  induction as generalizing s bs with
  | nil =>
    obtain ⟨rfl, rfl⟩ := ends_mapM_nil.mp ran
    exact ⟨[], rfl, .refl _ fun F vs final => .nil⟩
  | cons a rest ih =>
    rw [List.forall_mem_cons] at inside
    obtain ⟨b, s₁, bs, first, others, rfl⟩ := ends_mapM_cons.mp ran
    rw [runs, ends_bind_ok] at first
    obtain ⟨x, s₂, defined, first⟩ := first
    obtain ⟨same, rfl⟩ := ends_pure.mp first
    obtain rfl := Except.ok.inj same
    obtain ⟨-, declared⟩ := define_coded ready.known inside.1 (ready.fresh _ List.mem_cons_self) defined
    have split : s.draft.Ready generics ([(var a).name.tag] ++ rest.map fun a => (var a).name.tag) := ready
    obtain ⟨xs, rfl, more⟩ := ih inside.2 (split.behind declared) others
    refine ⟨x :: xs, rfl, (declared.then more).imp fun F vs is final code => ?_⟩
    obtain ⟨js, ks, rfl, declared, others⟩ := code
    have all : DeclaresAll vs asIs _ _ _ _ _ := .cons declared others
    rwa [asIs, List.append_nil] at all

/-- The type parameters of a function are known once they have been declared. -/
theorem knows_of_declared {m : Mark} {us : List Sized.Variable} {xs : List VarId}
    (declared : List.Forall₂ (Declared s.draft.vars m s.draft.mark) us xs)
    (kinds : ∀ v ∈ us, v.shape.layout.witness = .type) : s.draft.Knows (Sized.variableTags us) := by
  intro g member
  obtain ⟨v, inside, rfl⟩ := List.mem_map.mp member
  obtain ⟨x, -, own⟩ := exists_of_forall₂ declared.flip v inside
  exact ⟨x, own.found, own.kind.mpr (kinds v inside)⟩

theorem ends_finish {name : String} {arguments : List Argument} {span : Span} {isClosure : Bool} {g : Function}
    (ran : Ends (finish name arguments span isClosure) s (.ok g) s') : s' = s ∧ g.name = name ∧
      g.arguments = arguments ∧ g.vars = s.draft.vars ∧ g.locals = s.draft.locals ∧ g.body = s.draft.instrs.toList := by
  rw [finish, ends_get_bind] at ran
  dsimp only at ran
  split at ran
  · cases (ends_throw.mp ran).1
  · obtain ⟨same, rfl⟩ := ends_pure.mp ran
    obtain rfl := Except.ok.inj same
    exact ⟨rfl, rfl, rfl, rfl, rfl, rfl⟩

end Declarations

section Lifting

variable {c : Sized.Context} {s s' : Lowering}

/-- Variables that no layout makes descriptions of hold values. -/
theorem values_of_declared {vs : Variables} {m m' : Mark} {us : List Sized.Variable} {xs : List VarId}
    (declared : List.Forall₂ (Declared vs m m') us xs) (values : ∀ v ∈ us, v.shape.layout.witness ≠ .type) :
    ∀ x ∈ xs, isWitness vs x = false := by
  intro x member
  obtain ⟨v, inside, own⟩ := exists_of_forall₂ declared x member
  rw [← Bool.not_eq_true, own.kind]
  exact values v inside

theorem descriptions_of_declared {vs : Variables} {m m' : Mark} {us : List Sized.Variable} {xs : List VarId}
    (declared : List.Forall₂ (Declared vs m m') us xs) (kinds : ∀ v ∈ us, v.shape.layout.witness = .type) :
    ∀ x ∈ xs, isWitness vs x = true := by
  intro x member
  obtain ⟨v, inside, own⟩ := exists_of_forall₂ declared x member
  exact own.kind.mpr (kinds v inside)

/-- The body of a closure becomes a function that takes its environment apart. -/
theorem liftClosure_coded {name : String} {envType : Ty} {params own captures : List Sized.Variable} {body : Sized.Expr}
    (ih : IsCoded c body) (kinds : ∀ v ∈ own, v.IsDescription c)
    (values : ∀ v ∈ captures ++ params, v.shape.Scoped c (Sized.variableTags own))
    (inside : body.Scoped c (Sized.variableTags own) (Sized.variableTags params ++ Sized.variableTags captures))
    (distinct : ∀ part ∈ body.parts, part.Distinct)
    (once : (Sized.variableTags own ++ (Sized.variableTags params ++ (Sized.variableTags captures ++ body.binders))).Nodup)
    (names : ((own ++ captures).map (·.name.mangled)).Nodup) {L : Function} (ran : Ends (liftClosure name envType params own captures body (into true body)) s (.ok L) s') :
    s'.draft = s.draft ∧ (s.lifted ⊆ s'.lifted ∧ ∀ g ∈ s'.lifted, g ∈ s.lifted ∨ g.Owns) ∧ L.name = name ∧
      ∀ F, s'.lifted ⊆ F → Lifted F params own captures envType body L := by
  obtain ⟨t, lifting, rfl⟩ := ends_beside ran
  clear ran
  rw [ends_get_bind] at lifting
  dsimp only at lifting
  generalize startIs : ({ s with draft := {} } : Lowering) = s₀ at lifting
  have empty : s₀.draft = {} := by rw [← startIs]
  have lifted : s₀.lifted = s.lifted := by rw [← startIs]
  generalize variableIs : Variable.mk "_env" _ _ _ = x at lifting
  have entered : x.name = "_env" ∧ x.type = some envType := by
    rw [← variableIs]
    exact ⟨rfl, rfl⟩
  have plain : x.witness ≠ .type := by simp [← variableIs]
  rw [ends_bind_ok] at lifting
  obtain ⟨env, s₁, added, lifting⟩ := lifting
  obtain ⟨rfl, rfl⟩ := ends_addVariable.mp added
  rw [ends_bind_ok] at lifting
  obtain ⟨_, s₂, unpackedG, lifting⟩ := lifting
  rw [ends_bind_ok] at lifting
  obtain ⟨result, s₃, returned, lifting⟩ := lifting
  rw [ends_bind_ok] at lifting
  obtain ⟨arguments, s₄, passed, lifting⟩ := lifting
  rw [ends_bind_ok] at lifting
  obtain ⟨_, s₅, unpackedC, lifting⟩ := lifting
  rw [ends_bind_ok] at lifting
  obtain ⟨_, s₆, filled, lifting⟩ := lifting
  obtain ⟨rfl, nameL, argumentsL, varsL, localsL, bodyL⟩ := ends_finish lifting
  rw [List.forall_mem_append] at values
  have kinds' : ∀ v ∈ own, v.shape.layout.witness = .type := fun v member => (kinds v member).layout.1
  have valuesP : ∀ v ∈ params, v.shape.layout.witness ≠ .type := fun v member => (values.2 v member).layout.value
  have valuesC : ∀ v ∈ captures, v.shape.layout.witness ≠ .type := fun v member => (values.1 v member).layout.value
  -- The environment is there from the start.
  have begun := coded_adding s₀ x
  have first : s₀.draft.vars.size = 0 := by rw [empty]; rfl
  have start : (s₀.adding x).draft.mark = ⟨[], 1⟩ := by
    rw [Draft.mark, Lowering.adding, empty]
    rfl
  rw [first] at begun unpackedG unpackedC argumentsL
  have ready₁ : Draft.Ready [] _ (s₀.adding x).draft := ⟨List.forall_mem_nil _, once, fun t _ => by
    change (s₀.adding x).draft.mark.scope.lookup t = none
    rw [start]
    rfl⟩
  -- Then the type parameters, in terms of which everything else is said.
  obtain ⟨xs, generics⟩ := unpackCaptures_coded (fun v member x named => by
    rw [(kinds v member).layout.2] at named
    cases named) ready₁.front unpackedG
  obtain ⟨_, declaredG⟩ := generics.self
  have ready₂ := (ready₁.behind generics).knowing (knows_of_declared declaredG.declared kinds')
  obtain ⟨-, place⟩ := newVariable_coded ready₂.known (scoped_shape inside).layout.names returned
  have ready₃ := ready₂.along (place.mono fun _ => id)
  obtain ⟨ys, rfl, parameters⟩ := arguments_coded id (fun _ x => Argument.mk x .borrowed) (m := borrowedArgument)
    (fun _ => rfl) (fun v member => (values.2 v member).layout.names) ready₃.front passed
  have ready₄ := ready₃.behind parameters
  obtain ⟨zs, captured⟩ := unpackCaptures_coded (fun v member => (values.1 v member).layout.names) ready₄.front unpackedC
  have last := ih inside distinct (ready₄.behind captured) filled
  obtain ⟨is, emits, code⟩ := ((((begun.then generics).then place).then parameters).then captured).then last
  refine ⟨rfl, ⟨fun f member => emits.lifted (by rwa [lifted]), fun g member => lifted ▸ emits.owns g member⟩, nameL,
    fun F known => ?_⟩
  obtain ⟨_, body', rfl, ⟨_, ls, rfl, ⟨_, ks, rfl, ⟨_, js, rfl, ⟨us, is, rfl, ⟨rfl, here⟩, described⟩, adds⟩,
    taken⟩, unpacked⟩, filling⟩ := code F L.vars ⟨known, varsL ▸ .refl _⟩
  rw [start] at described
  simp only [List.map_id] at taken
  rw [List.cons_append, zipWith_eq_map taken.declared fun y => (⟨y, .borrowed⟩ : Argument)] at argumentsL
  have arguments : L.arguments = ⟨result, .out⟩ :: (ys ++ [0]).map (⟨·, .borrowed⟩) := by
    rw [argumentsL, List.map_append]
    rfl
  refine .intro names ⟨x, here, entered⟩ ?_ described (descriptions_of_declared described.declared kinds') adds taken unpacked
    (List.forall_mem_cons.mpr ⟨?_, List.forall_mem_append.mpr ⟨values_of_declared taken.declared valuesP,
      values_of_declared unpacked.declared valuesC⟩⟩) filling arguments ?_ fun v inside => ?_
  · rw [← Bool.not_eq_true, isWitness_iff here]
    exact plain
  · rw [← Bool.not_eq_true, adds.kind]
    exact (scoped_shape inside).layout.value
  · rw [bodyL, emits.code, empty]
    simp
  · rw [varsL] at inside
    rw [Function.Has, arguments, localsL]
    rcases emits.owned v inside with old | own | new
    · rw [first] at old
      cases old
    · exact Or.inr own
    · left
      simp only [List.append_nil, List.mem_append, List.mem_singleton] at new
      simp only [List.map_cons, List.map_map, List.mem_cons, List.mem_map, List.mem_append]
      grind

/-- The fields of an environment are the variables that the closure takes along. -/
theorem taken_packs {taken : List Sized.Variable} {fields : List PackField} (ran : Ends (taken.mapM fun v => do
      return PackField.mk v.name.mangled (copyOf (← lookup v.name))) s (.ok fields) s') :
    s' = s ∧ Packs s.draft.mark taken fields := by
  induction taken generalizing s fields with
  | nil =>
    obtain ⟨rfl, rfl⟩ := ends_mapM_nil.mp ran
    exact ⟨rfl, .nil⟩
  | cons v rest ih =>
    obtain ⟨f, s₁, fs, first, others, rfl⟩ := ends_mapM_cons.mp ran
    rw [ends_bind_ok] at first
    obtain ⟨x, s₂, found, first⟩ := first
    obtain ⟨found, rfl⟩ := ends_lookup.mp found
    obtain ⟨same, rfl⟩ := ends_pure.mp first
    obtain rfl := Except.ok.inj same
    obtain ⟨rfl, packed⟩ := ih others
    exact ⟨rfl, .cons ⟨x, found, rfl⟩ packed⟩

/-- The environment of a closure is a temporary. -/
theorem makeClosure_eq (dst : VarId) (name : String) (envShape : Sized.Shape) (env : Ident) (taken : List Sized.Variable) :
    makeClosure dst name envShape env taken = (do
      let e ← temporary envShape
      let fields ← taken.mapM fun v => return PackField.mk v.name.mangled (copyOf (← lookup v.name))
      emit (.pack e env.mangled fields)
      emit (.makeClosure dst name ⟨.move, e⟩)) := by
  simp only [makeClosure, temporary, bind_assoc, pure_bind]

/-- An environment is packed, and moved into the closure. -/
theorem makeClosure_coded {generics : List Tag} {dst : VarId} {name : String} {envShape : Sized.Shape} {env : Ident}
    {taken : List Sized.Variable} (shape : envShape.Scoped c generics) (known : s.draft.Knows generics)
    (ran : Ends (makeClosure dst name envShape env taken) s (.ok ()) s') :
    ∃ e fields, Packs s.draft.mark taken fields ∧ Coded [] [] s s' fun _ vs is =>
      ∃ js, is = js ++ [.pack e env.mangled fields, .makeClosure dst name ⟨.move, e⟩] ∧
        (∃ n, Adds vs n envShape s.draft.mark js e s'.draft.mark) ∧ isWitness vs e = false := by
  rw [makeClosure_eq, ends_bind_ok] at ran
  obtain ⟨e, s₁, first, ran⟩ := ran
  rw [ends_bind_ok] at ran
  obtain ⟨fields, s₂, found, ran⟩ := ran
  rw [ends_bind_ok] at ran
  obtain ⟨_, s₃, emitted, ran⟩ := ran
  obtain ⟨-, rfl⟩ := ends_emit.mp emitted
  obtain ⟨-, rfl⟩ := ends_emit.mp ran
  obtain ⟨rfl, packed⟩ := taken_packs found
  obtain ⟨scope, added⟩ := temporary_coded known shape.layout.names first
  refine ⟨e, fields, ?_, ((added.emit _).emit _).imp fun F vs is final code => ?_⟩
  · refine packed.imp fun v f field => ?_
    obtain ⟨x, found, same⟩ := field
    exact ⟨x, (congrArg (List.lookup v.name.tag) scope.symm).trans found, same⟩
  · obtain ⟨_, rfl, js, rfl, n, adds⟩ := code
    refine ⟨js, by simp, ⟨n, adds⟩, ?_⟩
    rw [← Bool.not_eq_true, adds.kind]
    exact shape.layout.value

end Lifting

section Whole

variable {c : Sized.Context} {s s' : Lowering}

/-- Whatever is packed has a variable. -/
theorem Packs.found {m : Mark} {taken : List Sized.Variable} {fields : List PackField} (packs : Packs m taken fields) :
    ∀ t ∈ Sized.variableTags taken, m.scope.lookup t ≠ none := by
  intro t member
  obtain ⟨v, inside, rfl⟩ := List.mem_map.mp member
  obtain ⟨f, -, x, found, -⟩ := exists_of_forall₂ packs.flip v inside
  rw [found]
  exact Option.some_ne_none x

theorem var_isCoded (shape : Sized.Shape) (name : Ident) : IsCoded c (.var shape name) := by
  intro generics vars s s' dst tail inside distinct ready ran
  rw [into, ends_bind_ok] at ran
  obtain ⟨src, s₁, found, ran⟩ := ran
  obtain ⟨found, rfl⟩ := ends_lookup.mp found
  have copied : ∀ {s'}, Ends (emit (.copy dst src)) s₁ (.ok ()) s' →
      Coded [] [] s₁ s' fun F vs is => Codes F (.var shape name) vs tail dst s₁.draft.mark is s'.draft.mark := by
    intro s' ran
    obtain ⟨-, rfl⟩ := ends_emit.mp ran
    exact ⟨_, .appended s₁ _, fun F vs final => .copy found⟩
  cases tail with
  | false => exact copied ran
  | true =>
    rw [ends_get_bind] at ran
    split at ran
    · obtain ⟨-, rfl⟩ := ends_emit.mp ran
      exact ⟨_, .appended s₁ _, fun F vs final => .move found⟩
    · exact copied ran

theorem callDirect_isCoded {shape : Sized.Shape} {function : Ident} {args : List Sized.Expr} {witnesses : List WitnessExpr}
    (each : ∀ e ∈ args, IsCoded c e) : IsCoded c (.callDirect shape function args witnesses) := by
  intro generics vars s s' dst tail inside distinct ready ran
  obtain ⟨-, insideA, names⟩ := inside
  rw [Sized.Expr.binders] at ready ⊢
  rw [into, ends_bind_ok] at ran
  obtain ⟨xs, s₁, passed, ran⟩ := ran
  rw [ends_bind_ok] at ran
  obtain ⟨ws, s₂, described, ran⟩ := ran
  obtain ⟨-, rfl⟩ := ends_emit.mp ran
  have first := operands_coded each insideA (fun part member => distinct part (List.mem_cons_of_mem _ member)) ready passed
  have known : s₁.draft.Knows generics := ready.known.later first ready.apart
  obtain ⟨scope, second⟩ := witnessOperands_coded witnesses known (fun x member => by
    rw [WitnessExpr.namesAll_eq_flatMap] at member
    obtain ⟨w, argument, read⟩ := List.mem_flatMap.mp member
    exact names w argument x read) described
  refine (((first.then second).emit _).mono (by simp)).imp fun F vs is final code => ?_
  obtain ⟨_, rfl, js, ks, rfl, passed, quiet, kinds⟩ := code
  exact .callDirect passed ⟨quiet, scope, second.vars.size, kinds⟩

theorem cond_isCoded {shape : Sized.Shape} {test yes no : Sized.Expr} (tests : IsCoded c test) (accepts : IsCoded c yes)
    (refuses : IsCoded c no) : IsCoded c (.cond shape test yes no) := by
  intro generics vars s s' dst tail inside distinct ready ran
  obtain ⟨-, insideT, insideY, insideN⟩ := inside
  rw [Sized.Expr.parts, List.forall_mem_cons, List.forall_mem_append, List.forall_mem_append] at distinct
  obtain ⟨-, distinctT, distinctY, distinctN⟩ := distinct
  rw [Sized.Expr.binders] at ready ⊢
  rw [into, ends_bind_ok] at ran
  obtain ⟨t, s₁, tested, ran⟩ := ran
  rw [ends_bind_ok] at ran
  obtain ⟨y, s₂, first, ran⟩ := ran
  rw [ends_bind_ok] at ran
  obtain ⟨n, s₃, second, ran⟩ := ran
  obtain ⟨-, rfl⟩ := ends_emit.mp ran
  have testing := operand_coded tests insideT distinctT ready.front tested
  have readyB := ready.behind testing
  have cleared : ∀ {s : Lowering} {bs : List Tag}, s.draft.Ready generics bs → s.cleared.draft.Ready generics bs :=
    fun ready => ⟨ready.known, ready.once, ready.fresh⟩
  have yesCode := inBlock_coded (fun m F vs is => Codes F yes vs tail dst s₁.draft.mark is m)
    (fun ran => accepts insideY distinctY (cleared readyB.front) ran) first
  have noCode := inBlock_coded (fun m F vs is => Codes F no vs tail dst s₂.draft.mark is m)
    (fun ran => refuses insideN distinctN (cleared (readyB.behind yesCode)) ran) second
  refine (((testing.then (yesCode.then noCode)).emit _).mono fun _ => id).imp fun F vs is final code => ?_
  obtain ⟨_, rfl, js, _, rfl, tested, _, _, rfl, ⟨rfl, first⟩, rfl, second⟩ := code
  rw [List.append_nil, List.append_nil]
  exact .cond tested first second

/-- Functions that are lifted beside leave the code as it is. -/
theorem coded_of_lifted {fs : List Function} {L : Function} (draft : s'.draft = s.draft) (all : s'.lifted = fs ++ [L])
    (more : s.lifted ⊆ fs) (owns : ∀ g ∈ fs, g ∈ s.lifted ∨ g.Owns) (own : L.Owns) :
    Coded [] [] s s' fun F _ is => is = [] ∧ L ∈ F ∧ fs ⊆ F := by
  refine ⟨[], ?_, fun F vs final => ⟨rfl, final.lifted (by simp [all]), fun f member => final.lifted (by simp [all, member])⟩⟩
  exact { Emits.refl s with
    vars := draft ▸ .refl _
    scope := fun _ _ => by rw [draft]
    code := by rw [draft, List.append_nil]
    lifted := fun f member => by simp [all, more member]
    owns := by
      rw [all]
      exact List.forall_mem_append.mpr ⟨owns, List.forall_mem_singleton.mpr (Or.inr own)⟩
    locals := fun v member => draft ▸ member
    owned := fun v inside => Or.inl (draft ▸ inside) }

theorem closure_isCoded {shape : Sized.Shape} {params own captures : List Sized.Variable} {env : Ident} {envShape : Sized.Shape}
    {body : Sized.Expr} (inner : IsCoded c body) :
    IsCoded c (.closure shape params own captures env envShape body) := by
  intro generics vars s s' dst tail inside distinct ready ran
  obtain ⟨-, insideE, insideG, insideC, insideP, insideB⟩ := inside
  rw [Sized.Expr.parts, List.forall_mem_cons] at distinct
  rw [Sized.Expr.binders] at ready ⊢
  rw [into, ends_get_bind] at ran
  dsimp only at ran
  rw [ends_modify_bind, ends_bind_ok] at ran
  obtain ⟨L, s₁, lifted, ran⟩ := ran
  rw [ends_modify_bind] at ran
  have same : s₁.draft = s.draft := by
    obtain ⟨t, -, rfl⟩ := ends_beside lifted
    rfl
  generalize behindIs : ({ s₁ with lifted := s₁.lifted ++ [L] } : Lowering) = s₂ at ran
  have draft : s₂.draft = s.draft := by rw [← behindIs, same]
  have known : s₂.draft.Knows generics := draft.symm ▸ ready.known
  obtain ⟨e, fields, packed, packing⟩ := makeClosure_coded insideE known ran
  -- What a closure takes along has been declared before, unlike its parameters and what its body binds.
  have apart : (Sized.variableTags (own ++ captures)).Disjoint (Sized.variableTags params ++ body.binders) := by
    intro t taken bound
    refine packed.found t taken ?_
    rw [Draft.mark, draft]
    exact ready.fresh t bound
  have once : (Sized.variableTags own ++ (Sized.variableTags params ++
      (Sized.variableTags captures ++ body.binders))).Nodup := by
    have all := List.nodup_append'.mpr ⟨distinct.1.1, ready.once, apart⟩
    rw [Sized.variableTags, List.map_append, List.append_assoc] at all
    exact ((List.perm_append_comm_assoc _ _ _).append_left _).nodup_iff.mp all
  obtain ⟨-, ⟨more, owns⟩, name, lifted⟩ := liftClosure_coded inner (fun v member => (insideG v member).2)
    (List.forall_mem_append.mpr ⟨fun v member => (insideC v member).2, insideP⟩) insideB distinct.2 once
    distinct.1.2 lifted
  have lifting := coded_of_lifted draft (by rw [← behindIs]) more owns (lifted _ fun _ => id).owns
  have whole := (lifting.then packing).mono (List.nil_subset (Sized.variableTags params ++ body.binders))
  refine whole.imp fun F vs is final code => ?_
  obtain ⟨_, ks, rfl, ⟨rfl, inside, within⟩, js, rfl, ⟨n, adds⟩, value⟩ := code
  have packed := packed.behind adds.scope
  rw [Draft.mark, draft] at adds
  rw [List.nil_append, ← name]
  refine .closure inside (lifted F within) (fun g member => ?_) ⟨n, adds⟩ value packed
  obtain ⟨x, found, kind⟩ := ready.known g.name.tag (insideG g member).1
  exact ⟨x, found, by rw [(whole.vars.trans final.vars).isWitness (lt_of_isWitness kind), kind]⟩

/-- Lowering emits the code of expressions. -/
theorem into_coded (e : Sized.Expr) : IsCoded c e := by
  induction e with
  | var shape name => exact var_isCoded shape name
  | number shape text bits =>
    intro generics vars s s' dst tail inside distinct ready ran
    obtain ⟨-, rfl⟩ := ends_emit.mp ran
    exact ⟨_, .appended s _, fun F vs final => .number⟩
  | bool shape value =>
    intro generics vars s s' dst tail inside distinct ready ran
    obtain ⟨-, rfl⟩ := ends_emit.mp ran
    exact ⟨_, .appended s _, fun F vs final => .bool⟩
  | callDirect shape function args witnesses ih => exact callDirect_isCoded ih
  | callClosure shape callee args ihCallee ih =>
    intro generics vars s s' dst tail inside distinct ready ran
    obtain ⟨-, insideC, insideA⟩ := inside
    rw [Sized.Expr.parts, List.forall_mem_cons, List.forall_mem_append] at distinct
    rw [Sized.Expr.binders] at ready ⊢
    rw [into, ends_bind_ok] at ran
    obtain ⟨f, s₁, function, ran⟩ := ran
    rw [ends_bind_ok] at ran
    obtain ⟨xs, s₂, passed, ran⟩ := ran
    obtain ⟨-, rfl⟩ := ends_emit.mp ran
    have first := operand_coded ihCallee insideC distinct.2.1 ready.front function
    have second := operands_coded ih insideA distinct.2.2 (ready.behind first) passed
    refine ((first.then second).emit _).imp fun F vs is final code => ?_
    obtain ⟨_, rfl, js, ks, rfl, function, passed⟩ := code
    exact .callClosure function passed
  | primitive shape op left right ihLeft ihRight =>
    intro generics vars s s' dst tail inside distinct ready ran
    obtain ⟨-, insideL, insideR⟩ := inside
    rw [Sized.Expr.parts, List.forall_mem_cons, List.forall_mem_append] at distinct
    rw [Sized.Expr.binders] at ready ⊢
    rw [into, ends_bind_ok] at ran
    obtain ⟨l, s₁, left, ran⟩ := ran
    rw [ends_bind_ok] at ran
    obtain ⟨r, s₂, right, ran⟩ := ran
    obtain ⟨-, rfl⟩ := ends_emit.mp ran
    have first := operand_coded ihLeft insideL distinct.2.1 ready.front left
    have second := operand_coded ihRight insideR distinct.2.2 (ready.behind first) right
    refine ((first.then second).emit _).imp fun F vs is final code => ?_
    obtain ⟨_, rfl, js, ks, rfl, left, right⟩ := code
    exact .primitive left right
  | block shape bs result ih ihResult =>
    intro generics vars s s' dst tail inside distinct ready ran
    obtain ⟨-, insideL, insideR⟩ := inside
    rw [Sized.Expr.parts, List.forall_mem_cons, List.forall_mem_append] at distinct
    rw [Sized.Expr.binders] at ready ⊢
    rw [into, ends_bind_ok] at ran
    obtain ⟨_, s₁, bound, ran⟩ := ran
    have first := lets_coded ih insideL distinct.2.1 ready.front bound
    have second := ihResult insideR distinct.2.2 (ready.behind first) ran
    refine (first.then second).imp fun F vs is final code => ?_
    obtain ⟨js, ks, rfl, bound, last⟩ := code
    exact .block bound last
  | pack shape name fields ih =>
    intro generics vars s s' dst tail inside distinct ready ran
    rw [Sized.Expr.parts, List.forall_mem_cons] at distinct
    rw [Sized.Expr.binders] at ready ⊢
    rw [into, ends_bind_ok] at ran
    obtain ⟨fs, s₁, packed, ran⟩ := ran
    obtain ⟨-, rfl⟩ := ends_emit.mp ran
    refine ((packFields_coded ih inside.2 distinct.2 ready packed).emit _).imp fun F vs is final code => ?_
    obtain ⟨js, rfl, packed⟩ := code
    exact .pack packed
  | unpack shape value field ih =>
    intro generics vars s s' dst tail inside distinct ready ran
    rw [Sized.Expr.parts, List.forall_mem_cons] at distinct
    rw [Sized.Expr.binders] at ready ⊢
    rw [into, ends_bind_ok] at ran
    obtain ⟨src, s₁, whole, ran⟩ := ran
    obtain ⟨-, rfl⟩ := ends_emit.mp ran
    refine ((operand_coded ih inside.2 distinct.2 ready whole).emit _).imp fun F vs is final code => ?_
    obtain ⟨js, rfl, whole⟩ := code
    exact .unpack whole
  | cond shape test yes no ihTest ihYes ihNo => exact cond_isCoded ihTest ihYes ihNo
  | closure shape params own captures env envShape body ih => exact closure_isCoded ih

/-- Lowering emits the code of functions. -/
theorem lowerFunction_coded {f : Sized.Function} {result : Sized.Variable} {params generics : List Sized.Variable}
    (inside : f.Scoped c result params generics) (distinct : ∀ part ∈ f.body.parts, part.Distinct) {L : Function}
    (ran : Ends (lowerFunction f) s (.ok L) s') :
    (s.lifted ⊆ s'.lifted ∧ ∀ g ∈ s'.lifted, g ∈ s.lifted ∨ g.Owns) ∧
      ∀ F, s'.lifted ⊆ F → FunctionCodes F f result params generics L := by
  have shape : f.arguments = ⟨result, .out⟩ :: params.map borrowed ++ generics.map borrowed := inside.arguments
  have tags : ∀ vs : List Sized.Variable, (vs.map borrowed).map (fun a => a.var.name.tag) = Sized.variableTags vs := by
    simp [Sized.variableTags, borrowed]
  have once : (Sized.variableTags generics ++ (Sized.variableTags (result :: params) ++ f.body.binders)).Nodup := by
    have all := inside.once
    rw [shape, List.cons_append, List.map_cons, List.map_append, tags, tags, ← List.cons_append, List.append_assoc] at all
    exact (List.perm_append_comm_assoc _ _ _).nodup_iff.mp all
  rw [lowerFunction] at ran
  obtain ⟨t, lowering, rfl⟩ := ends_beside ran
  clear ran
  rw [shape, partition_descriptions inside.descriptions fun v member => (inside.values v member).layout.value] at lowering
  dsimp only at lowering
  generalize startIs : ({ s with draft := {} } : Lowering) = s₀ at lowering
  have empty : s₀.draft = {} := by rw [← startIs]
  have lifted : s₀.lifted = s.lifted := by rw [← startIs]
  rw [show (fun a : Sized.Argument => (do return (a.var.name.tag, Argument.mk (← define a.var) a.convention) :
    Lower (Tag × Argument))) = declareArgument from rfl, List.mapM_append, bind_assoc, ends_bind_ok] at lowering
  obtain ⟨gs, s₁, described, lowering⟩ := lowering
  rw [bind_assoc, ends_bind_ok] at lowering
  obtain ⟨bs, s₂, taken, lowering⟩ := lowering
  rw [pure_bind, ends_bind_ok] at lowering
  obtain ⟨_, s₃, filled, lowering⟩ := lowering
  obtain ⟨rfl, nameL, argumentsL, varsL, localsL, bodyL⟩ := ends_finish lowering
  have start : s₀.draft.mark = {} := by rw [empty]; rfl
  have ready : Draft.Ready [] _ s₀.draft := ⟨List.forall_mem_nil _, once, fun t _ => by
    change s₀.draft.mark.scope.lookup t = none
    rw [start]
    rfl⟩
  have runs : ∀ a, declareArgument a = do return tagged a (← define a.var) := fun _ => rfl
  have others : (Sized.Argument.mk result .out :: params.map borrowed).map (fun a => a.var.name.tag) =
      Sized.variableTags (result :: params) := by
    rw [List.map_cons, tags]
    rfl
  rw [← tags, ← others] at ready
  obtain ⟨xs, rfl, first⟩ := arguments_coded Sized.Argument.var tagged runs (List.forall_mem_map.mpr fun v member => by
    simp [borrowed, (inside.descriptions v member).layout.2]) ready.front described
  have vars : ∀ vs : List Sized.Variable, (vs.map borrowed).map Sized.Argument.var = vs := by
    simp [borrowed, Function.comp_def]
  rw [vars] at first
  obtain ⟨_, declared⟩ := first.self
  have kinds : ∀ v ∈ generics, v.shape.layout.witness = .type := fun v member => (inside.descriptions v member).layout.1
  have ready₁ := (ready.behind (first.mono fun _ => id)).knowing (knows_of_declared declared.declared kinds)
  obtain ⟨ys, rfl, second⟩ := arguments_coded Sized.Argument.var tagged runs
    (List.forall_mem_cons.mpr ⟨(inside.values _ List.mem_cons_self).layout.names, List.forall_mem_map.mpr fun v member =>
      (inside.values v (List.mem_cons_of_mem _ member)).layout.names⟩) ready₁.front taken
  have varsV : (Sized.Argument.mk result .out :: params.map borrowed).map Sized.Argument.var = result :: params :=
    congrArg _ (vars params)
  rw [varsV] at second
  obtain ⟨_, valued⟩ := second.self
  obtain ⟨r, ys, -, own, rfl⟩ := List.forall₂_cons_left_iff.mp valued.declared
  have places := arguments_eq (r := r) own declared.declared (List.nodup_append'.mpr
    ⟨(List.nodup_append'.mp once).1, (List.nodup_append'.mp (List.nodup_append'.mp once).2.1).1,
      fun t left right => (List.nodup_append'.mp once).2.2 left (List.mem_append_left _ right)⟩)
  rw [List.zipWith_cons_cons, places] at filled argumentsL
  have last := into_coded f.body inside.body distinct (ready₁.behind second) filled
  obtain ⟨is, emits, code⟩ := (first.then second).then last
  refine ⟨⟨fun f member => emits.lifted (by rwa [lifted]), fun g member => lifted ▸ emits.owns g member⟩,
    fun F known => ⟨nameL, fun v inside => ?_, ?_⟩⟩
  · rw [varsL] at inside
    rw [Function.Has, argumentsL, localsL]
    rcases emits.owned v inside with old | own | new
    · rw [empty] at old
      cases old
    · exact Or.inr own
    · left
      simp only [List.append_nil, List.mem_append] at new
      simp only [List.map_cons, List.map_map, List.mem_cons, List.mem_map, List.mem_append]
      grind
  · obtain ⟨_, ks, rfl, ⟨is, js, rfl, described, valued⟩, filling⟩ := code F L.vars ⟨known, varsL ▸ .refl _⟩
    rw [start] at described
    refine ⟨is, js, ks, r, xs, ys, _, _, _, described,
      descriptions_of_declared described.declared kinds, valued, values_of_declared valued.declared fun v member =>
      (inside.values v member).layout.value, filling, argumentsL, ?_⟩
    rw [bodyL, emits.code, empty]
    simp

/-- So it does with the functions of a program, each of which is followed by the bodies of its closures. -/
theorem lowerFunctions_coded {fs : List Sized.Function}
    (inside : ∀ f ∈ fs, ∃ result params generics, f.Scoped c result params generics)
    (distinct : ∀ f ∈ fs, ∀ part ∈ f.body.parts, part.Distinct) {groups : List (List Function)}
    (ran : Ends (fs.mapM lowerWithClosures) s (.ok groups) s') :
    ∀ f ∈ fs, ∃ result params generics, f.Scoped c result params generics ∧ ∃ L ∈ groups.flatten,
      ∀ F, groups.flatten ⊆ F → FunctionCodes F f result params generics L := by
  induction fs generalizing s groups with
  | nil => exact List.forall_mem_nil _
  | cons f rest ih =>
    rw [List.forall_mem_cons] at inside distinct
    obtain ⟨group, s₁, groups, first, others, rfl⟩ := ends_mapM_cons.mp ran
    rw [lowerWithClosures, ends_bind_ok] at first
    obtain ⟨L, s₂, lowering, first⟩ := first
    rw [ends_get_bind] at first
    dsimp only at first
    rw [ends_modify_bind] at first
    obtain ⟨same, rfl⟩ := ends_pure.mp first
    obtain rfl := Except.ok.inj same
    obtain ⟨result, params, generics, own⟩ := inside.1
    obtain ⟨-, coded⟩ := lowerFunction_coded own distinct.1 lowering
    rw [List.flatten_cons, List.forall_mem_cons]
    constructor
    · refine ⟨result, params, generics, own, L, List.mem_append_left _ List.mem_cons_self, fun F known => ?_⟩
      exact coded F fun g member => known (List.mem_append_left _ (List.mem_cons_of_mem _ member))
    · intro f member
      obtain ⟨result, params, generics, own, L, lowered, coded⟩ := ih inside.2 distinct.2 others f member
      refine ⟨result, params, generics, own, L, List.mem_append_right _ lowered, fun F known => ?_⟩
      exact coded F fun g member => known (List.mem_append_right _ member)

/-- The functions that a program is lowered to consist of the code of its functions. -/
theorem lower_coded {p : Sized.Program}
    (inside : ∀ f ∈ p.functions, ∃ result params generics, f.Scoped c result params generics)
    (distinct : ∀ f ∈ p.functions, ∀ part ∈ f.body.parts, part.Distinct) {r : Program} (done : lower p = .ok r) :
    ∀ f ∈ p.functions, ∃ result params generics, f.Scoped c result params generics ∧ ∃ L ∈ r.functions,
      FunctionCodes r.functions f result params generics L := by
  have ended : ∃ s', Ends (do
      let structs ← p.structs.mapM lowerStruct
      let functions ← p.functions.mapM lowerWithClosures
      return (⟨p.unit, p.target, structs, functions.flatten⟩ : Program))
      { target := p.target, layouts := ⟨p.target, []⟩ } (.ok r) s' := ⟨_, Prod.ext done rfl⟩
  obtain ⟨s', ended⟩ := ended
  rw [ends_bind_ok] at ended
  obtain ⟨rs, s₁, -, ended⟩ := ended
  rw [ends_bind_ok] at ended
  obtain ⟨groups, s₂, ran, ended⟩ := ended
  obtain ⟨same, -⟩ := ends_pure.mp ended
  obtain rfl := Except.ok.inj same
  intro f member
  obtain ⟨result, params, generics, own, L, lowered, coded⟩ := lowerFunctions_coded inside distinct ran f member
  exact ⟨result, params, generics, own, L, lowered, coded _ fun _ => id⟩

end Whole

end Ir

end WitnessLang
