import WitnessLang.Proofs.Ir.Described
import WitnessLang.Proofs.Layout.Order

set_option autoImplicit false

namespace WitnessLang.Ir

/-- A variable that holds a type description, and takes the same room whenever the function runs. -/
def HoldsDescription (vs : Variables) (v : VarId) : Prop :=
  ∃ x, vs[v]? = some x ∧ x.type = some Ty.witness ∧ x.witness = .type ∧ x.size.dynamic = []

/-- Variables that hold a value before a function does anything: its arguments, and what the body of a closure takes
out of its environment first. -/
inductive Function.Begins (f : Function) (v : VarId) : Prop
  | passed (argument : v ∈ f.arguments.map (·.var))
  | unpacked {env : VarId} {field : String} {before after : Block} (closure : f.isClosure = true) (own : v ∈ f.locals)
      (environment : f.arguments.getLast? = some ⟨env, .borrowed⟩) (named : nameOf f.vars env = "_env")
      (code : f.body = before ++ .unpack v env field :: after) (first : ∀ i ∈ before, ∃ x n, i = .unpack x env n)

/-- A function whose variables are as large as type descriptions say that are there from the beginning. -/
def Function.Measured (f : Function) : Prop :=
  ∀ x ∈ f.vars, ∀ u ∈ x.size.dynamic, HoldsDescription f.vars u ∧ f.Begins u

/-- The type parameters at hand are in some variables, which all sizes are in terms of. -/
structure Draft.Measures (generics : List Tag) (ws : List VarId) (d : Draft) : Prop where
  found : ∀ g ∈ generics, ∀ v, d.scope.lookup g = some v → v ∈ ws
  kinds : ∀ w ∈ ws, HoldsDescription d.vars w
  sizes : ∀ x ∈ d.vars, ∀ u ∈ x.size.dynamic, u ∈ ws

/-- A piece of lowering adds variables that are measured, and appends instructions. The functions that it lifts are
measured. -/
structure Sizing (generics : List Tag) (ws : List VarId) (s s' : Lowering) : Prop where
  code : s.draft.instrs.toList <+: s'.draft.instrs.toList
  locals : s.draft.locals ⊆ s'.draft.locals
  vars : Extends s.draft.vars s'.draft.vars
  measures : s.draft.Measures generics ws → s'.draft.Measures generics ws
  lifted : ∀ f ∈ s'.lifted, f ∈ s.lifted ∨ f.Measured

section Steps

variable {generics : List Tag} {ws : List VarId} {s s' s'' : Lowering} {vs vs' : Variables} {v : VarId}

theorem HoldsDescription.later (holds : HoldsDescription vs v) (vars : Extends vs vs') : HoldsDescription vs' v := by
  obtain ⟨x, found, own⟩ := holds
  exact ⟨x, by rw [vars.get (Array.getElem?_eq_some_iff.mp found).1, found], own⟩

theorem HoldsDescription.inside (holds : HoldsDescription vs v) : v < vs.size := by
  obtain ⟨x, found, -⟩ := holds
  exact (Array.getElem?_eq_some_iff.mp found).1

theorem Sizing.refl (s : Lowering) : Sizing generics ws s s :=
  ⟨List.prefix_rfl, List.Subset.refl _, .refl _, id, fun _ => Or.inl⟩

theorem Sizing.trans (first : Sizing generics ws s s') (second : Sizing generics ws s' s'') :
    Sizing generics ws s s'' where
  code := first.code.trans second.code
  locals := List.Subset.trans first.locals second.locals
  vars := first.vars.trans second.vars
  measures := second.measures ∘ first.measures
  lifted f member := (second.lifted f member).elim (first.lifted f) Or.inr

/-- Variables and declared names stay as they are. -/
theorem Sizing.quiet (code : s.draft.instrs.toList <+: s'.draft.instrs.toList)
    (locals : s.draft.locals ⊆ s'.draft.locals) (vars : s'.draft.vars = s.draft.vars)
    (scope : s'.draft.scope = s.draft.scope)
    (lifted : ∀ f ∈ s'.lifted, f ∈ s.lifted ∨ f.Measured) : Sizing generics ws s s' where
  code := code
  locals := locals
  vars := vars ▸ .refl _
  measures measures := ⟨scope ▸ measures.found, vars ▸ measures.kinds, vars ▸ measures.sizes⟩
  lifted := lifted

theorem Sizing.named (s : Lowering) : Sizing generics ws s s.named :=
  .quiet List.prefix_rfl (List.Subset.refl _) rfl rfl fun _ => Or.inl

theorem Sizing.owning (s : Lowering) (v : VarId) : Sizing generics ws s (s.owning v) :=
  .quiet List.prefix_rfl (List.subset_append_left _ _) rfl rfl fun _ => Or.inl

theorem Sizing.appended (s : Lowering) (i : Instr) : Sizing generics ws s (s.appended i) := by
  refine .quiet ?_ (List.Subset.refl _) rfl rfl fun _ => Or.inl
  rw [Lowering.appended, Array.toList_push]
  exact List.prefix_append _ _

/-- A variable is added whose size is in terms of the others. -/
theorem Sizing.adding {x : Variable} (own : s.draft.Measures generics ws → ∀ u ∈ x.size.dynamic, u ∈ ws) :
    Sizing generics ws s (s.adding x) where
  code := List.prefix_rfl
  locals := List.Subset.refl _
  vars := extends_push _ x
  measures measures := by
    refine ⟨measures.found, fun w member => (measures.kinds w member).later (extends_push _ x), fun y member => ?_⟩
    rcases Array.mem_push.mp member with old | rfl
    · exact measures.sizes y old
    · exact own measures
  lifted _ := Or.inl

/-- A name is declared that is no type parameter. -/
theorem Sizing.declaring (s : Lowering) {t : Tag} (other : t ∉ generics) (v : VarId) :
    Sizing generics ws s { s with draft := { s.draft with scope := (t, v) :: s.draft.scope } } where
  code := List.prefix_rfl
  locals := List.Subset.refl _
  vars := .refl _
  measures measures := by
    refine ⟨fun g member u found => measures.found g member u ?_, measures.kinds, measures.sizes⟩
    have apart : g ≠ t := fun same => other (same ▸ member)
    rwa [List.lookup_cons, beq_false_of_ne apart] at found
  lifted _ := Or.inl

/-- One more type parameter is declared. -/
theorem Draft.Measures.declare {d : Draft} (measures : d.Measures generics ws) {x : Variable}
    (type : x.type = some Ty.witness) (kind : x.witness = .type) (known : x.size.dynamic = []) (t : Tag) :
    Draft.Measures (t :: generics) (d.vars.size :: ws)
      { d with vars := d.vars.push x, scope := (t, d.vars.size) :: d.scope } where
  found := by
    intro g member v found
    change ((t, d.vars.size) :: d.scope).lookup g = some v at found
    by_cases same : g = t
    · rw [same, List.lookup_cons_self] at found
      exact Option.some.inj found ▸ List.mem_cons_self
    · rw [List.lookup_cons, beq_false_of_ne same] at found
      exact List.mem_cons_of_mem _ (measures.found g ((List.mem_cons.mp member).resolve_left same) v found)
  kinds := List.forall_mem_cons.mpr ⟨⟨x, get_push _ _, type, kind, known⟩, fun w member =>
    (measures.kinds w member).later (extends_push _ x)⟩
  sizes := by
    intro y member u part
    rcases Array.mem_push.mp member with old | rfl
    · exact List.mem_cons_of_mem _ (measures.sizes y old u part)
    · rw [known] at part
      cases part

end Steps

section Variables

variable {generics : List Tag} {ws : List VarId} {s s' : Lowering} {v : VarId}

mutual

/-- What computes a description is of a known size. -/
theorem witnessOperand_sizing : (w : WitnessExpr) → ∀ {s s' : Lowering} {v : VarId},
    Ends (witnessOperand w) s (.ok v) s' → Sizing generics ws s s'
  | .var name, s, s', v, ran => by
    rw [witnessOperand] at ran
    obtain ⟨-, rfl⟩ := ends_lookup.mp ran
    exact .refl _
  | .build constructor args, s, s', v, ran => by
    rw [witnessOperand, ends_bind_ok] at ran
    obtain ⟨name, s₁, first, ran⟩ := ran
    obtain ⟨-, rfl⟩ := ends_freshName.mp first
    rw [ends_get_bind, ends_bind_ok] at ran
    obtain ⟨dst, s₂, added, ran⟩ := ran
    obtain ⟨rfl, rfl⟩ := ends_addVariable.mp added
    rw [ends_bind_ok] at ran
    obtain ⟨_, s₃, owned, ran⟩ := ran
    obtain ⟨-, rfl⟩ := ends_addLocal.mp owned
    rw [ends_bind_ok] at ran
    obtain ⟨xs, s₄, given, ran⟩ := ran
    rw [ends_bind_ok] at ran
    obtain ⟨_, s₅, emitted, ran⟩ := ran
    obtain ⟨-, rfl⟩ := ends_emit.mp emitted
    obtain ⟨-, rfl⟩ := ends_pure.mp ran
    have placed : Sizing generics ws s.named
        (s.named.adding ⟨name, some Ty.witness, .type, ⟨s.named.target.witnessSize, []⟩⟩) :=
      .adding fun _ => List.forall_mem_nil _
    have passed : Sizing generics ws _ s₄ := witnessOperands_sizing args given
    exact ((((Sizing.named s).trans placed).trans (.owning _ _)).trans passed).trans (.appended _ _)

/-- So are several ones. -/
theorem witnessOperands_sizing : (es : List WitnessExpr) → ∀ {s s' : Lowering} {xs : List VarId},
    Ends (witnessOperands es) s (.ok xs) s' → Sizing generics ws s s'
  | [], s, s', xs, ran => by
    obtain ⟨-, rfl⟩ := ends_pure.mp ran
    exact .refl _
  | w :: rest, s, s', xs, ran => by
    rw [witnessOperands, ends_bind_ok] at ran
    obtain ⟨v, s₁, first, ran⟩ := ran
    rw [ends_bind_ok] at ran
    obtain ⟨vs, s₂, others, ran⟩ := ran
    obtain ⟨-, rfl⟩ := ends_pure.mp ran
    exact (witnessOperand_sizing w first).trans (witnessOperands_sizing rest others)

end

theorem lowerWitness_sizing {t : Ty} {w : Sized.Witness} {w' : Witness} (ran : Ends (lowerWitness t w) s (.ok w') s') :
    Sizing generics ws s s' := by
  cases w with
  | trivial size =>
    obtain ⟨-, rfl⟩ := ends_pure.mp ran
    exact .refl _
  | type =>
    obtain ⟨-, rfl⟩ := ends_pure.mp ran
    exact .refl _
  | dynamic value =>
    rw [lowerWitness, ends_get_bind] at ran
    split at ran
    · obtain ⟨-, rfl⟩ := ends_pure.mp ran
      exact .refl _
    · rw [ends_bind_ok] at ran
      obtain ⟨v, s₁, first, ran⟩ := ran
      rw [modifyDraft, ends_modify_bind] at ran
      obtain ⟨-, rfl⟩ := ends_pure.mp ran
      exact (witnessOperand_sizing value first).trans
        (.quiet List.prefix_rfl (List.Subset.refl _) rfl rfl fun _ => Or.inl)

theorem lookups_found {names : List Ident} {us : List VarId} (ran : Ends (names.mapM lookup) s (.ok us) s') :
    ∀ u ∈ us, ∃ x ∈ names, s.draft.scope.lookup x.tag = some u := by
  induction names generalizing us s with
  | nil =>
    obtain ⟨rfl, -⟩ := ends_mapM_nil.mp ran
    exact List.forall_mem_nil _
  | cons x rest ih =>
    obtain ⟨u, s₂, us, first, others, rfl⟩ := ends_mapM_cons.mp ran
    obtain ⟨found, rfl⟩ := ends_lookup.mp first
    refine List.forall_mem_cons.mpr ⟨⟨x, List.mem_cons_self, found⟩, fun w member => ?_⟩
    obtain ⟨y, inside, found⟩ := ih others w member
    exact ⟨y, List.mem_cons_of_mem _ inside, found⟩

/-- Sizes are in terms of the variables that are declared. -/
theorem lowerSize_sizing {size : Sized.Size} {size' : Size} (ran : Ends (lowerSize size) s (.ok size') s') :
    s' = s ∧ ∀ u ∈ size'.dynamic, ∃ x ∈ size.dynamic, s.draft.scope.lookup x.tag = some u := by
  rw [lowerSize, ends_bind_ok] at ran
  obtain ⟨us, s₁, looked, ran⟩ := ran
  obtain ⟨same, rfl⟩ := ends_pure.mp ran
  obtain rfl := Except.ok.inj same
  exact ⟨ends_lookups looked, lookups_found looked⟩

theorem newVariable_sizing {name : String} {shape : Sized.Shape} (inside : ∀ x ∈ shape.layout.names, x.tag ∈ generics)
    (ran : Ends (newVariable name shape) s (.ok v) s') : Sizing generics ws s s' := by
  rw [newVariable, ends_bind_ok] at ran
  obtain ⟨witness, s₁, first, ran⟩ := ran
  rw [ends_bind_ok] at ran
  obtain ⟨size, s₂, second, ran⟩ := ran
  obtain ⟨rfl, known⟩ := lowerSize_sizing second
  obtain ⟨rfl, rfl⟩ := ends_addVariable.mp ran
  refine (lowerWitness_sizing first).trans (.adding fun measures u part => ?_)
  obtain ⟨x, member, found⟩ := known u part
  exact measures.found x.tag (inside x (List.mem_append_right _ member)) u found

theorem define_sizing {x : Sized.Variable} (inside : ∀ y ∈ x.shape.layout.names, y.tag ∈ generics)
    (other : x.name.tag ∉ generics) (ran : Ends (define x) s (.ok v) s') : Sizing generics ws s s' := by
  rw [define, ends_bind_ok] at ran
  obtain ⟨u, s₁, first, ran⟩ := ran
  rw [modifyDraft, ends_modify_bind] at ran
  obtain ⟨-, rfl⟩ := ends_pure.mp ran
  exact (newVariable_sizing inside first).trans (.declaring s₁ other u)

theorem temporary_sizing {shape : Sized.Shape} (inside : ∀ x ∈ shape.layout.names, x.tag ∈ generics)
    (ran : Ends (temporary shape) s (.ok v) s') : Sizing generics ws s s' := by
  rw [temporary, ends_bind_ok] at ran
  obtain ⟨name, s₁, named, ran⟩ := ran
  obtain ⟨-, rfl⟩ := ends_freshName.mp named
  rw [ends_bind_ok] at ran
  obtain ⟨u, s₂, first, ran⟩ := ran
  rw [ends_bind_ok] at ran
  obtain ⟨_, s₃, owned, ran⟩ := ran
  obtain ⟨-, rfl⟩ := ends_addLocal.mp owned
  obtain ⟨-, rfl⟩ := ends_pure.mp ran
  exact ((Sizing.named s).trans (newVariable_sizing inside first)).trans (.owning _ _)

/-- The variable of a type parameter takes what a description takes, and nothing is computed for it. -/
theorem define_description {c : Sized.Context} {x : Sized.Variable} (kind : x.IsDescription c)
    (ran : Ends (define x) s (.ok v) s') : v = s.draft.vars.size ∧ ∃ y : Variable, y.name = x.name.mangled ∧
      y.type = some Ty.witness ∧ y.witness = .type ∧ y.size.dynamic = [] ∧ s' = { s with draft := { s.draft with
        vars := s.draft.vars.push y, scope := (x.name.tag, s.draft.vars.size) :: s.draft.scope } } := by
  rw [Sized.Variable.IsDescription] at kind
  rw [define, kind] at ran
  cases ran
  exact ⟨rfl, _, rfl, rfl, rfl, rfl, rfl⟩

end Variables

section Blocks

variable {generics : List Tag} {ws : List VarId} {s s' : Lowering}

/-- Instructions in a block of their own are not appended, but returned. -/
theorem inBlock_sizing {m : Lower Unit} {block : Block}
    (inner : ∀ {s'}, Ends m s.cleared (.ok ()) s' → Sizing generics ws s.cleared s')
    (ran : Ends (inBlock m) s (.ok block) s') : Sizing generics ws s s' := by
  rw [inBlock, ends_get_bind, modifyDraft, ends_modify_bind, ends_bind_ok] at ran
  obtain ⟨_, s₁, first, ran⟩ := ran
  rw [ends_get_bind, modifyDraft, ends_modify_bind] at ran
  obtain ⟨-, rfl⟩ := ends_pure.mp ran
  have sizing := inner first
  refine ⟨List.prefix_rfl, sizing.locals, sizing.vars, fun measures => ?_, sizing.lifted⟩
  have inside := sizing.measures ⟨measures.found, measures.kinds, measures.sizes⟩
  exact ⟨inside.found, inside.kinds, inside.sizes⟩

end Blocks

section Expressions

variable {c : Sized.Context} {generics vars : List Tag} {ws : List VarId} {s s' : Lowering}

variable (c) in
/-- Lowering an expression keeps all sizes in terms of the same variables. -/
def IsSized (e : Sized.Expr) : Prop :=
  ∀ {generics vars : List Tag} {ws : List VarId} {s s' : Lowering} {dst : VarId} {tail : Bool},
    e.Scoped c generics vars → e.binders.Disjoint generics → (∀ part ∈ e.parts, part.Distinct) →
    Ends (into tail e dst) s (.ok ()) s' → Sizing generics ws s s'

/-- A new variable that is filled with the value of an expression. -/
theorem temporary_filled_sizing {α : Type} {e : Sized.Expr} (ih : IsSized c e) (inside : e.Scoped c generics vars)
    (apart : e.binders.Disjoint generics) (distinct : ∀ part ∈ e.parts, part.Distinct) {make : VarId → α} {a : α}
    (ran : Ends (temporary e.shape >>= fun t => into false e t >>= fun _ => pure (make t)) s (.ok a) s') :
    Sizing generics ws s s' := by
  rw [ends_bind_ok] at ran
  obtain ⟨t, s₁, first, ran⟩ := ran
  rw [ends_bind_ok] at ran
  obtain ⟨_, s₂, second, ran⟩ := ran
  obtain ⟨-, rfl⟩ := ends_pure.mp ran
  exact (temporary_sizing (scoped_shape inside).layout.names first).trans (ih inside apart distinct second)

theorem operand_sizing {e : Sized.Expr} (ih : IsSized c e) (inside : e.Scoped c generics vars)
    (apart : e.binders.Disjoint generics) (distinct : ∀ part ∈ e.parts, part.Distinct) {x : VarId}
    (ran : Ends (operand e (into false e)) s (.ok x) s') : Sizing generics ws s s' := by
  rcases operand_eq e (into false e) with ⟨shape, name, rfl⟩ | other
  · obtain ⟨-, rfl⟩ := ends_lookup.mp ran
    exact .refl _
  · rw [other] at ran
    exact temporary_filled_sizing ih inside apart distinct ran

theorem fieldValue_sizing {e : Sized.Expr} (ih : IsSized c e) (inside : e.Scoped c generics vars)
    (apart : e.binders.Disjoint generics) (distinct : ∀ part ∈ e.parts, part.Distinct) {v : Value}
    (ran : Ends (fieldValue e (into false e)) s (.ok v) s') : Sizing generics ws s s' := by
  rcases fieldValue_eq e (into false e) with ⟨shape, name, rfl⟩ | other
  · rw [fieldValue, ends_bind_ok] at ran
    obtain ⟨x, s₁, found, ran⟩ := ran
    obtain ⟨-, rfl⟩ := ends_lookup.mp found
    obtain ⟨-, rfl⟩ := ends_pure.mp ran
    exact .refl _
  · rw [other] at ran
    exact temporary_filled_sizing ih inside apart distinct ran

theorem operands_sizing {es : List Sized.Expr} (each : ∀ e ∈ es, IsSized c e)
    (inside : Sized.Expr.ScopedAll c generics vars es) (apart : (Sized.Expr.bindersAll es).Disjoint generics)
    (distinct : ∀ part ∈ Sized.Expr.partsAll es, part.Distinct) {xs : List VarId}
    (ran : Ends (operands es) s (.ok xs) s') : Sizing generics ws s s' := by
  induction es generalizing s xs with
  | nil =>
    obtain ⟨-, rfl⟩ := ends_pure.mp ran
    exact .refl _
  | cons e rest ih =>
    rw [List.forall_mem_cons] at each
    rw [Sized.Expr.partsAll, List.forall_mem_append] at distinct
    rw [Sized.Expr.bindersAll, List.disjoint_append_left] at apart
    rw [operands, ends_bind_ok] at ran
    obtain ⟨x, s₁, first, ran⟩ := ran
    rw [ends_bind_ok] at ran
    obtain ⟨xs, s₂, others, ran⟩ := ran
    obtain ⟨-, rfl⟩ := ends_pure.mp ran
    exact (operand_sizing each.1 inside.1 apart.1 distinct.1 first).trans
      (ih each.2 inside.2 apart.2 distinct.2 others)

theorem packFields_sizing {fs : List Sized.PackField} (each : ∀ f ∈ fs, IsSized c f.value)
    (inside : Sized.Expr.FieldsScoped c generics vars fs) (apart : (Sized.Expr.fieldBinders fs).Disjoint generics)
    (distinct : ∀ part ∈ Sized.Expr.fieldParts fs, part.Distinct) {values : List PackField}
    (ran : Ends (packFields fs) s (.ok values) s') : Sizing generics ws s s' := by
  induction fs generalizing s values with
  | nil =>
    obtain ⟨-, rfl⟩ := ends_pure.mp ran
    exact .refl _
  | cons f rest ih =>
    obtain ⟨name, value⟩ := f
    rw [List.forall_mem_cons] at each
    rw [Sized.Expr.fieldParts, List.forall_mem_append] at distinct
    rw [Sized.Expr.fieldBinders, List.disjoint_append_left] at apart
    rw [packFields, ends_bind_ok] at ran
    obtain ⟨v, s₁, first, ran⟩ := ran
    rw [ends_bind_ok] at ran
    obtain ⟨fields, s₂, others, ran⟩ := ran
    obtain ⟨-, rfl⟩ := ends_pure.mp ran
    exact (fieldValue_sizing each.1 inside.1 apart.1 distinct.1 first).trans
      (ih each.2 inside.2 apart.2 distinct.2 others)

theorem lets_sizing {bs : List Sized.Let} (each : ∀ b ∈ bs, IsSized c b.value)
    (inside : Sized.Expr.LetsScoped c generics vars bs) (apart : (Sized.Expr.letBinders bs).Disjoint generics)
    (distinct : ∀ part ∈ Sized.Expr.letParts bs, part.Distinct) (ran : Ends (lets bs) s (.ok ()) s') :
    Sizing generics ws s s' := by
  induction bs generalizing s vars with
  | nil =>
    obtain ⟨-, rfl⟩ := ends_pure.mp ran
    exact .refl _
  | cons b rest ih =>
    obtain ⟨v, value⟩ := b
    obtain ⟨shape, insideV, insideR⟩ := inside
    rw [List.forall_mem_cons] at each
    rw [Sized.Expr.letParts, List.forall_mem_append] at distinct
    rw [Sized.Expr.letBinders, List.disjoint_append_left, List.disjoint_cons_left] at apart
    rw [lets, ends_bind_ok] at ran
    obtain ⟨x, s₁, first, ran⟩ := ran
    rw [ends_bind_ok] at ran
    obtain ⟨_, s₂, owned, ran⟩ := ran
    obtain ⟨-, rfl⟩ := ends_addLocal.mp owned
    rw [ends_bind_ok] at ran
    obtain ⟨_, s₃, second, others⟩ := ran
    have bound : Sizing generics ws s (s₁.owning x) :=
      (define_sizing shape.layout.names apart.2.1 first).trans (.owning s₁ x)
    exact (bound.trans (each.1 insideV apart.1 distinct.1 second)).trans (ih each.2 insideR apart.2.2 distinct.2 others)

end Expressions

section Declarations

variable {c : Sized.Context} {generics : List Tag} {ws : List VarId} {s s' : Lowering}

/-- The type parameters of a closure are taken out of its environment, with nothing in between. -/
theorem descriptions_unpacked {env : VarId} {us : List Sized.Variable} (kinds : ∀ v ∈ us, v.IsDescription c)
    (measures : s.draft.Measures generics ws) (ran : Ends (us.forM (unpackCapture env)) s (.ok ()) s') :
    ∃ xs fields, s'.draft.Measures ((Sized.variableTags us).reverse ++ generics) (xs.reverse ++ ws) ∧
      s'.draft.locals = s.draft.locals ++ xs ∧ Extends s.draft.vars s'.draft.vars ∧ s'.lifted = s.lifted ∧
      s'.draft.instrs.toList = s.draft.instrs.toList ++ List.zipWith (fun x field => .unpack x env field) xs fields ∧
      xs.length = fields.length := by
  induction us generalizing s generics ws with
  | nil =>
    obtain ⟨-, rfl⟩ := ends_pure.mp ran
    exact ⟨[], [], measures, (List.append_nil _).symm, .refl _, rfl, (List.append_nil _).symm, rfl⟩
  | cons v rest ih =>
    rw [List.forall_mem_cons] at kinds
    have split : Ends (unpackCapture env v >>= fun _ => rest.forM (unpackCapture env)) s (.ok ()) s' := ran
    rw [ends_bind_ok] at split
    obtain ⟨_, s₁, first, others⟩ := split
    rw [unpackCapture, ends_bind_ok] at first
    obtain ⟨x, s₂, defined, first⟩ := first
    rw [ends_bind_ok] at first
    obtain ⟨_, s₃, owned, emitted⟩ := first
    obtain ⟨-, rfl⟩ := ends_addLocal.mp owned
    obtain ⟨-, rfl⟩ := ends_emit.mp emitted
    obtain ⟨rfl, y, -, type, kind, known, rfl⟩ := define_description kinds.1 defined
    have own := measures.declare type kind known v.name.tag
    obtain ⟨xs, fields, all, locals, vars, lifted, code, length⟩ :=
      ih kinds.2 ⟨own.found, own.kinds, own.sizes⟩ others
    refine ⟨s.draft.vars.size :: xs, v.name.mangled :: fields, ?_, ?_, (extends_push _ y).trans vars, lifted, ?_,
      congrArg Nat.succ length⟩
    · simpa [Sized.variableTags] using all
    · rw [locals]
      simp [Lowering.appended, Lowering.owning]
    · rw [code]
      simp [Lowering.appended, Lowering.owning]

/-- Captured values are declared, and taken out of the environment. -/
theorem unpackCaptures_sizing {env : VarId} {us : List Sized.Variable} (shapes : ∀ v ∈ us, v.shape.Scoped c generics)
    (apart : (Sized.variableTags us).Disjoint generics) (ran : Ends (us.forM (unpackCapture env)) s (.ok ()) s') :
    Sizing generics ws s s' := by
  induction us generalizing s with
  | nil =>
    obtain ⟨-, rfl⟩ := ends_pure.mp ran
    exact .refl _
  | cons v rest ih =>
    rw [List.forall_mem_cons] at shapes
    rw [Sized.variableTags, List.map_cons, List.disjoint_cons_left] at apart
    have split : Ends (unpackCapture env v >>= fun _ => rest.forM (unpackCapture env)) s (.ok ()) s' := ran
    rw [ends_bind_ok] at split
    obtain ⟨_, s₁, first, others⟩ := split
    rw [unpackCapture, ends_bind_ok] at first
    obtain ⟨x, s₂, defined, first⟩ := first
    rw [ends_bind_ok] at first
    obtain ⟨_, s₃, owned, emitted⟩ := first
    obtain ⟨-, rfl⟩ := ends_addLocal.mp owned
    obtain ⟨-, rfl⟩ := ends_emit.mp emitted
    have declared : Sizing generics ws s s₂ := define_sizing shapes.1.layout.names apart.1 defined
    exact ((declared.trans (.owning s₂ x)).trans (.appended _ _)).trans (ih shapes.2 apart.2 others)

/-- Arguments that hold type descriptions are declared. -/
theorem descriptions_declared {α β : Type} (var : α → Sized.Variable) (make : α → VarId → β) {m : α → Lower β}
    (runs : ∀ a, m a = do return make a (← define (var a))) {as : List α} (kinds : ∀ a ∈ as, (var a).IsDescription c)
    (measures : s.draft.Measures generics ws) {bs : List β} (ran : Ends (as.mapM m) s (.ok bs) s') :
    ∃ xs, bs = List.zipWith make as xs ∧ xs.length = as.length ∧ s'.lifted = s.lifted ∧
      s'.draft.Measures ((as.map fun a => (var a).name.tag).reverse ++ generics) (xs.reverse ++ ws) := by
  induction as generalizing s generics ws bs with
  | nil =>
    obtain ⟨rfl, rfl⟩ := ends_mapM_nil.mp ran
    exact ⟨[], rfl, rfl, rfl, measures⟩
  | cons a rest ih =>
    rw [List.forall_mem_cons] at kinds
    obtain ⟨b, s₁, bs, first, others, rfl⟩ := ends_mapM_cons.mp ran
    rw [runs, ends_bind_ok] at first
    obtain ⟨x, s₂, defined, first⟩ := first
    obtain ⟨same, rfl⟩ := ends_pure.mp first
    obtain rfl := Except.ok.inj same
    obtain ⟨rfl, y, -, type, kind, known, rfl⟩ := define_description kinds.1 defined
    obtain ⟨xs, rfl, length, lifted, all⟩ := ih kinds.2 (measures.declare type kind known _) others
    exact ⟨s.draft.vars.size :: xs, rfl, congrArg Nat.succ length, lifted, by simpa using all⟩

/-- Arguments that hold values are declared. -/
theorem values_declared {α β : Type} (var : α → Sized.Variable) (make : α → VarId → β) {m : α → Lower β}
    (runs : ∀ a, m a = do return make a (← define (var a))) {as : List α}
    (shapes : ∀ a ∈ as, (var a).shape.Scoped c generics) (apart : ∀ a ∈ as, (var a).name.tag ∉ generics) {bs : List β}
    (ran : Ends (as.mapM m) s (.ok bs) s') :
    ∃ xs, bs = List.zipWith make as xs ∧ xs.length = as.length ∧ Sizing generics ws s s' := by
  induction as generalizing s bs with
  | nil =>
    obtain ⟨rfl, rfl⟩ := ends_mapM_nil.mp ran
    exact ⟨[], rfl, rfl, .refl _⟩
  | cons a rest ih =>
    rw [List.forall_mem_cons] at shapes apart
    obtain ⟨b, s₁, bs, first, others, rfl⟩ := ends_mapM_cons.mp ran
    rw [runs, ends_bind_ok] at first
    obtain ⟨x, s₂, defined, first⟩ := first
    obtain ⟨same, rfl⟩ := ends_pure.mp first
    obtain rfl := Except.ok.inj same
    obtain ⟨xs, rfl, length, more⟩ := ih shapes.2 apart.2 others
    exact ⟨x :: xs, rfl, congrArg Nat.succ length, (define_sizing shapes.1.layout.names apart.1 defined).trans more⟩

end Declarations

section Lifting

variable {c : Sized.Context} {generics generics' : List Tag} {ws : List VarId} {s s' : Lowering}

theorem Draft.Measures.sub {d : Draft} (measures : d.Measures generics ws) (less : generics' ⊆ generics) :
    d.Measures generics' ws := { measures with found := fun g member => measures.found g (less member) }

/-- Whatever is measured in terms of its beginning stays so when it is finished. -/
theorem Draft.Measures.finish {d : Draft} (measures : d.Measures generics ws) {f : Function} (vars : f.vars = d.vars)
    (begins : ∀ w ∈ ws, f.Begins w) : f.Measured := by
  intro x member u part
  rw [vars] at member ⊢
  have there := measures.sizes x member u part
  exact ⟨measures.kinds u there, begins u there⟩

theorem finish_isClosure {name : String} {arguments : List Argument} {span : Span} {isClosure : Bool} {f : Function}
    (ran : Ends (finish name arguments span isClosure) s (.ok f) s') : f.isClosure = isClosure := by
  rw [finish, ends_get_bind] at ran
  dsimp only at ran
  split at ran
  · cases (ends_throw.mp ran).1
  · obtain ⟨same, -⟩ := ends_pure.mp ran
    obtain rfl := Except.ok.inj same
    rfl

theorem exists_unpack {env : VarId} {xs : List VarId} {fields : List String} (length : xs.length = fields.length)
    {x : VarId} (member : x ∈ xs) :
    ∃ field, Instr.unpack x env field ∈ List.zipWith (fun x field => .unpack x env field) xs fields := by
  obtain ⟨i, inside, rfl⟩ := List.mem_iff_getElem.mp member
  exact ⟨fields[i], List.mem_iff_getElem.mpr ⟨i, by simpa [← length] using inside, List.getElem_zipWith ..⟩⟩

/-- The function behind a closure is measured by what it takes out of its environment at first. -/
theorem liftClosure_measured {name : String} {envType : Ty} {params own captures : List Sized.Variable}
    {body : Sized.Expr} (ih : IsSized c body) (kinds : ∀ v ∈ own, v.IsDescription c)
    (shapes : ∀ v ∈ params ++ captures, v.shape.Scoped c (Sized.variableTags own))
    (inside : body.Scoped c (Sized.variableTags own) (Sized.variableTags params ++ Sized.variableTags captures))
    (distinct : ∀ part ∈ body.parts, part.Distinct)
    (apart : (Sized.variableTags (params ++ captures) ++ body.binders).Disjoint (Sized.variableTags own)) {L : Function}
    (ran : Ends (liftClosure name envType params own captures body (into true body)) s (.ok L) s') :
    L.Measured ∧ ∀ f ∈ s'.lifted, f ∈ s.lifted ∨ f.Measured := by
  obtain ⟨t, lifting, rfl⟩ := ends_beside ran
  clear ran
  rw [ends_get_bind] at lifting
  dsimp only at lifting
  generalize startIs : ({ s with draft := {} } : Lowering) = s₀ at lifting
  have empty : s₀.draft = {} := by rw [← startIs]
  have lifted : s₀.lifted = s.lifted := by rw [← startIs]
  generalize variableIs : Variable.mk "_env" _ _ _ = x at lifting
  have named : x.name = "_env" := by rw [← variableIs]
  have known : x.size.dynamic = [] := by rw [← variableIs]
  rw [ends_bind_ok] at lifting
  obtain ⟨env, s₁, added, lifting⟩ := lifting
  obtain ⟨rfl, rfl⟩ := ends_addVariable.mp added
  rw [ends_bind_ok] at lifting
  obtain ⟨_, s₂, unpackedG, lifting⟩ := lifting
  rw [ends_bind_ok] at lifting
  obtain ⟨result, s₃, returned, lifting⟩ := lifting
  rw [ends_bind_ok] at lifting
  obtain ⟨arguments, s₄, passed, lifting⟩ := lifting
  rw [ends_bind_ok] at lifting
  obtain ⟨_, s₅, unpackedC, lifting⟩ := lifting
  rw [ends_bind_ok] at lifting
  obtain ⟨_, s₆, filled, finished⟩ := lifting
  rw [List.forall_mem_append] at shapes
  rw [Sized.variableTags, List.map_append, List.disjoint_append_left, List.disjoint_append_left] at apart
  obtain ⟨⟨apartP, apartC⟩, apartB⟩ := apart
  -- Nothing but the environment is there before the type parameters are.
  have start : (s₀.adding x).draft.Measures [] [] := by
    refine ⟨List.forall_mem_nil _, List.forall_mem_nil _, fun y member u part => ?_⟩
    rw [Lowering.adding, empty] at member
    obtain rfl := (Array.mem_push.mp member).resolve_left (Array.not_mem_empty y)
    rwa [known] at part
  obtain ⟨xs, fields, measures, locals, vars, same, code, length⟩ := descriptions_unpacked kinds start unpackedG
  have measures' : s₂.draft.Measures (Sized.variableTags own) (xs.reverse ++ []) := measures.sub fun g member =>
    List.mem_append_left _ (List.mem_reverse.mpr member)
  -- All sizes behind them are in terms of these.
  have place : Sizing (Sized.variableTags own) (xs.reverse ++ []) s₂ s₃ :=
    newVariable_sizing (scoped_shape inside).layout.names returned
  obtain ⟨_, -, -, taken⟩ := values_declared id (fun _ x => Argument.mk x .borrowed) (m := borrowedArgument)
    (fun _ => rfl) shapes.1 (fun v member again => apartP (List.mem_map_of_mem member) again) passed
  have captured : Sizing (Sized.variableTags own) (xs.reverse ++ []) s₄ s₅ :=
    unpackCaptures_sizing shapes.2 apartC unpackedC
  have whole := ((place.trans taken).trans captured).trans (ih inside apartB distinct filled)
  obtain ⟨rfl, -, argumentsL, varsL, localsL, bodyL⟩ := ends_finish finished
  refine ⟨(whole.measures measures').finish varsL fun w member => ?_, fun f member => ?_⟩
  · rw [List.append_nil, List.mem_reverse] at member
    obtain ⟨field, instr⟩ := exists_unpack length member
    obtain ⟨before, after, split⟩ := List.append_of_mem instr
    obtain ⟨rest, body⟩ := whole.code
    refine @Function.Begins.unpacked L w s₀.draft.vars.size field before (after ++ rest) (finish_isClosure finished)
      ?_ ?_ ?_ ?_ fun i early => ?_
    · rw [localsL]
      exact whole.locals (locals ▸ List.mem_append_right _ member)
    · rw [argumentsL, List.getLast?_append]
      rfl
    · rw [varsL, (vars.trans whole.vars).nameOf (by simp [Lowering.adding])]
      exact (nameOf_push _ _).trans named
    · rw [bodyL, ← body, code, split]
      simp [Lowering.adding, empty]
    · have member : i ∈ before ++ .unpack w s₀.draft.vars.size field :: after := List.mem_append_left _ early
      rw [← split] at member
      obtain ⟨k, -, rfl⟩ := List.mem_iff_getElem.mp member
      rw [List.getElem_zipWith]
      exact ⟨_, _, rfl⟩
  · refine (whole.lifted f member).imp_left fun old => ?_
    rw [same] at old
    rwa [← lifted]

/-- An environment is packed, and moved into the closure. -/
theorem makeClosure_sizing {dst : VarId} {name : String} {envShape : Sized.Shape} {env : Ident}
    {taken : List Sized.Variable} (inside : ∀ x ∈ envShape.layout.names, x.tag ∈ generics)
    (ran : Ends (makeClosure dst name envShape env taken) s (.ok ()) s') : Sizing generics ws s s' := by
  rw [makeClosure_eq, ends_bind_ok] at ran
  obtain ⟨e, s₁, first, ran⟩ := ran
  rw [ends_bind_ok] at ran
  obtain ⟨fields, s₂, found, ran⟩ := ran
  rw [ends_bind_ok] at ran
  obtain ⟨_, s₃, emitted, ran⟩ := ran
  obtain ⟨-, rfl⟩ := ends_emit.mp emitted
  obtain ⟨-, rfl⟩ := ends_emit.mp ran
  obtain ⟨rfl, -⟩ := taken_packs found
  exact ((temporary_sizing inside first).trans (.appended _ _)).trans (.appended _ _)

end Lifting

section Whole

variable {c : Sized.Context} {s s' : Lowering}

theorem var_isSized (shape : Sized.Shape) (name : Ident) : IsSized c (.var shape name) := by
  intro generics vars ws s s' dst tail inside apart distinct ran
  rw [into, ends_bind_ok] at ran
  obtain ⟨src, s₁, found, ran⟩ := ran
  obtain ⟨-, rfl⟩ := ends_lookup.mp found
  have copied : ∀ {s'}, Ends (emit (.copy dst src)) s₁ (.ok ()) s' → Sizing generics ws s₁ s' := by
    intro s' ran
    obtain ⟨-, rfl⟩ := ends_emit.mp ran
    exact .appended _ _
  cases tail with
  | false => exact copied ran
  | true =>
    rw [ends_get_bind] at ran
    split at ran
    · obtain ⟨-, rfl⟩ := ends_emit.mp ran
      exact .appended _ _
    · exact copied ran

theorem cond_isSized {shape : Sized.Shape} {test yes no : Sized.Expr} (tests : IsSized c test) (accepts : IsSized c yes)
    (refuses : IsSized c no) : IsSized c (.cond shape test yes no) := by
  intro generics vars ws s s' dst tail inside apart distinct ran
  obtain ⟨-, insideT, insideY, insideN⟩ := inside
  rw [Sized.Expr.parts, List.forall_mem_cons, List.forall_mem_append, List.forall_mem_append] at distinct
  rw [Sized.Expr.binders, List.disjoint_append_left, List.disjoint_append_left] at apart
  obtain ⟨-, distinctT, distinctY, distinctN⟩ := distinct
  rw [into, ends_bind_ok] at ran
  obtain ⟨t, s₁, tested, ran⟩ := ran
  rw [ends_bind_ok] at ran
  obtain ⟨y, s₂, first, ran⟩ := ran
  rw [ends_bind_ok] at ran
  obtain ⟨n, s₃, second, ran⟩ := ran
  obtain ⟨-, rfl⟩ := ends_emit.mp ran
  have testing : Sizing generics ws s s₁ := operand_sizing tests insideT apart.1 distinctT tested
  have yesSizing : Sizing generics ws s₁ s₂ := inBlock_sizing (fun ran => accepts insideY apart.2.1 distinctY ran) first
  have noSizing : Sizing generics ws s₂ s₃ := inBlock_sizing (fun ran => refuses insideN apart.2.2 distinctN ran) second
  exact ((testing.trans yesSizing).trans noSizing).trans (.appended _ _)

theorem closure_isSized {shape : Sized.Shape} {params own captures : List Sized.Variable} {env : Ident} {envShape : Sized.Shape}
    {body : Sized.Expr} (inner : IsSized c body) : IsSized c (.closure shape params own captures env envShape body) := by
  intro generics vars ws s s' dst tail inside apart distinct ran
  obtain ⟨-, insideE, insideG, insideC, insideP, insideB⟩ := inside
  rw [Sized.Expr.parts, List.forall_mem_cons] at distinct
  obtain ⟨⟨once, -⟩, distinct⟩ := distinct
  rw [Sized.Expr.binders] at apart
  rw [into, ends_get_bind] at ran
  dsimp only at ran
  rw [ends_modify_bind, ends_bind_ok] at ran
  obtain ⟨L, s₁, lifted, ran⟩ := ran
  rw [ends_modify_bind] at ran
  have same : s₁.draft = s.draft := by
    obtain ⟨t, -, rfl⟩ := ends_beside lifted
    rfl
  -- What is bound in the closure is none of the type parameters that it takes along, for these are at hand outside.
  have bound : (Sized.variableTags (params ++ captures) ++ body.binders).Disjoint (Sized.variableTags own) := by
    have taken : Sized.variableTags own ⊆ generics := fun t member => by
      obtain ⟨v, here, rfl⟩ := List.mem_map.mp member
      exact (insideG v here).1
    rw [Sized.variableTags, List.map_append] at once ⊢
    have apart' := List.disjoint_append_left.mp (List.disjoint_of_subset_right taken apart)
    rw [List.disjoint_append_left, List.disjoint_append_left]
    exact ⟨⟨apart'.1, List.disjoint_symm (List.nodup_append'.mp once).2.2⟩, apart'.2⟩
  obtain ⟨measured, others⟩ := liftClosure_measured inner (fun v member => (insideG v member).2)
    (List.forall_mem_append.mpr ⟨insideP, fun v member => (insideC v member).2⟩) insideB distinct bound lifted
  refine Sizing.trans (.quiet ?_ ?_ ?_ ?_ ?_) (makeClosure_sizing insideE.layout.names ran)
  · exact same ▸ List.prefix_rfl
  · exact same ▸ List.Subset.refl _
  · exact congrArg Draft.vars same
  · exact congrArg Draft.scope same
  · exact List.forall_mem_append.mpr ⟨others, List.forall_mem_singleton.mpr (Or.inr measured)⟩

/-- Lowering an expression keeps all sizes in terms of the same variables. -/
theorem into_sizing (e : Sized.Expr) : IsSized c e := by
  induction e with
  | var shape name => exact var_isSized shape name
  | number shape text bits =>
    intro generics vars ws s s' dst tail inside apart distinct ran
    obtain ⟨-, rfl⟩ := ends_emit.mp ran
    exact .appended _ _
  | bool shape value =>
    intro generics vars ws s s' dst tail inside apart distinct ran
    obtain ⟨-, rfl⟩ := ends_emit.mp ran
    exact .appended _ _
  | callDirect shape function args witnesses ih =>
    intro generics vars ws s s' dst tail inside apart distinct ran
    rw [Sized.Expr.parts, List.forall_mem_cons] at distinct
    rw [Sized.Expr.binders] at apart
    rw [into, ends_bind_ok] at ran
    obtain ⟨xs, s₁, passed, ran⟩ := ran
    rw [ends_bind_ok] at ran
    obtain ⟨us, s₂, described, ran⟩ := ran
    obtain ⟨-, rfl⟩ := ends_emit.mp ran
    exact ((operands_sizing ih inside.2.1 apart distinct.2 passed).trans
      (witnessOperands_sizing witnesses described)).trans (.appended _ _)
  | callClosure shape callee args ihCallee ih =>
    intro generics vars ws s s' dst tail inside apart distinct ran
    obtain ⟨-, insideC, insideA⟩ := inside
    rw [Sized.Expr.parts, List.forall_mem_cons, List.forall_mem_append] at distinct
    rw [Sized.Expr.binders, List.disjoint_append_left] at apart
    rw [into, ends_bind_ok] at ran
    obtain ⟨f, s₁, function, ran⟩ := ran
    rw [ends_bind_ok] at ran
    obtain ⟨xs, s₂, passed, ran⟩ := ran
    obtain ⟨-, rfl⟩ := ends_emit.mp ran
    exact ((operand_sizing ihCallee insideC apart.1 distinct.2.1 function).trans
      (operands_sizing ih insideA apart.2 distinct.2.2 passed)).trans (.appended _ _)
  | primitive shape op left right ihLeft ihRight =>
    intro generics vars ws s s' dst tail inside apart distinct ran
    obtain ⟨-, insideL, insideR⟩ := inside
    rw [Sized.Expr.parts, List.forall_mem_cons, List.forall_mem_append] at distinct
    rw [Sized.Expr.binders, List.disjoint_append_left] at apart
    rw [into, ends_bind_ok] at ran
    obtain ⟨l, s₁, left, ran⟩ := ran
    rw [ends_bind_ok] at ran
    obtain ⟨r, s₂, right, ran⟩ := ran
    obtain ⟨-, rfl⟩ := ends_emit.mp ran
    exact ((operand_sizing ihLeft insideL apart.1 distinct.2.1 left).trans
      (operand_sizing ihRight insideR apart.2 distinct.2.2 right)).trans (.appended _ _)
  | block shape bs result ih ihResult =>
    intro generics vars ws s s' dst tail inside apart distinct ran
    obtain ⟨-, insideL, insideR⟩ := inside
    rw [Sized.Expr.parts, List.forall_mem_cons, List.forall_mem_append] at distinct
    rw [Sized.Expr.binders, List.disjoint_append_left] at apart
    rw [into, ends_bind_ok] at ran
    obtain ⟨_, s₁, bound, ran⟩ := ran
    exact (lets_sizing ih insideL apart.1 distinct.2.1 bound).trans (ihResult insideR apart.2 distinct.2.2 ran)
  | pack shape name fields ih =>
    intro generics vars ws s s' dst tail inside apart distinct ran
    rw [Sized.Expr.parts, List.forall_mem_cons] at distinct
    rw [Sized.Expr.binders] at apart
    rw [into, ends_bind_ok] at ran
    obtain ⟨fs, s₁, packed, ran⟩ := ran
    obtain ⟨-, rfl⟩ := ends_emit.mp ran
    exact (packFields_sizing ih inside.2 apart distinct.2 packed).trans (.appended _ _)
  | unpack shape value field ih =>
    intro generics vars ws s s' dst tail inside apart distinct ran
    rw [Sized.Expr.parts, List.forall_mem_cons] at distinct
    rw [Sized.Expr.binders] at apart
    rw [into, ends_bind_ok] at ran
    obtain ⟨src, s₁, whole, ran⟩ := ran
    obtain ⟨-, rfl⟩ := ends_emit.mp ran
    exact (operand_sizing ih inside.2 apart distinct.2 whole).trans (.appended _ _)
  | cond shape test yes no ihTest ihYes ihNo => exact cond_isSized ihTest ihYes ihNo
  | closure shape params own captures env envShape body ih => exact closure_isSized ih

/-- Functions are measured by the descriptions that are passed to them. -/
theorem lowerFunction_measured {f : Sized.Function} {result : Sized.Variable} {params generics : List Sized.Variable}
    (inside : f.Scoped c result params generics) (distinct : ∀ part ∈ f.body.parts, part.Distinct) {L : Function}
    (ran : Ends (lowerFunction f) s (.ok L) s') : L.Measured ∧ ∀ g ∈ s'.lifted, g ∈ s.lifted ∨ g.Measured := by
  have shape : f.arguments = ⟨result, .out⟩ :: params.map borrowed ++ generics.map borrowed := inside.arguments
  have tags : ∀ vs : List Sized.Variable, (vs.map borrowed).map (fun a => a.var.name.tag) = Sized.variableTags vs := by
    simp [Sized.variableTags, borrowed]
  have once : (Sized.variableTags generics ++ (Sized.variableTags (result :: params) ++ f.body.binders)).Nodup := by
    have all := inside.once
    rw [shape, List.map_append, tags, List.map_cons, tags] at all
    refine (List.Perm.nodup_iff ?_).mp all
    rw [List.append_assoc]
    exact List.perm_append_comm_assoc _ _ _
  obtain ⟨-, onceR, apart⟩ := List.nodup_append'.mp once
  rw [List.disjoint_append_right] at apart
  rw [lowerFunction] at ran
  obtain ⟨t, lowering, rfl⟩ := ends_beside ran
  clear ran
  rw [shape, partition_descriptions inside.descriptions fun v member => (inside.values v member).layout.value]
    at lowering
  dsimp only at lowering
  generalize startIs : ({ s with draft := {} } : Lowering) = s₀ at lowering
  have empty : s₀.draft = {} := by rw [← startIs]
  have lifted : s₀.lifted = s.lifted := by rw [← startIs]
  rw [show (fun a : Sized.Argument => (do return (a.var.name.tag, Argument.mk (← define a.var) a.convention) :
    Lower (Tag × Argument))) = declareArgument from rfl, List.mapM_append, bind_assoc, ends_bind_ok] at lowering
  obtain ⟨gs, s₁, described, lowering⟩ := lowering
  rw [bind_assoc, ends_bind_ok] at lowering
  obtain ⟨bs, s₂, taken, lowering⟩ := lowering
  rw [pure_bind, ends_bind_ok] at lowering
  obtain ⟨_, s₃, filled, finished⟩ := lowering
  have runs : ∀ a, declareArgument a = do return tagged a (← define a.var) := fun _ => rfl
  have start : s₀.draft.Measures [] [] := by
    rw [empty]
    exact ⟨List.forall_mem_nil _, List.forall_mem_nil _, fun y member => absurd member (Array.not_mem_empty y)⟩
  obtain ⟨xs, rfl, lengthX, same, measures⟩ := descriptions_declared (c := c) Sized.Argument.var tagged runs
    (List.forall_mem_map.mpr inside.descriptions) start described
  have measures' : s₁.draft.Measures (Sized.variableTags generics) (xs.reverse ++ []) := measures.sub fun g member => by
    rw [tags]
    exact List.mem_append_left _ (List.mem_reverse.mpr member)
  have values : ∀ a ∈ (⟨result, .out⟩ :: params.map borrowed : List Sized.Argument),
      a.var.shape.Scoped c (Sized.variableTags generics) ∧ a.var.name.tag ∉ Sized.variableTags generics := by
    have each : ∀ v ∈ result :: params, v.shape.Scoped c (Sized.variableTags generics) ∧
        v.name.tag ∉ Sized.variableTags generics := fun v member =>
      ⟨inside.values v member, fun again => apart.1 again (List.mem_map_of_mem member)⟩
    rw [List.forall_mem_cons] at each ⊢
    exact ⟨each.1, List.forall_mem_map.mpr each.2⟩
  obtain ⟨ys, rfl, lengthY, second⟩ := values_declared Sized.Argument.var tagged runs
    (fun a member => (values a member).1) (fun a member => (values a member).2) taken
  cases ys with
  | nil => cases lengthY
  | cons r ys =>
    have together : ∀ {vs : List Sized.Variable} {us : List VarId}, us.length = (vs.map borrowed).length →
        List.Forall₂ (fun _ _ => True) vs us := fun length =>
      List.forall₂_iff_zip.mpr ⟨by rw [length, List.length_map], fun _ => trivial⟩
    rw [List.zipWith_cons_cons, arguments_eq (together (Nat.succ.inj lengthY)) (together lengthX)
      (List.nodup_append'.mpr ⟨(List.nodup_append'.mp once).1, (List.nodup_append'.mp onceR).1, apart.1⟩)]
      at filled finished
    have whole := second.trans (into_sizing f.body inside.body (List.disjoint_symm apart.2) distinct filled)
    obtain ⟨rfl, -, argumentsL, varsL, -, -⟩ := ends_finish finished
    refine ⟨(whole.measures measures').finish varsL fun w member => .passed ?_, fun g member => ?_⟩
    · rw [List.append_nil, List.mem_reverse] at member
      rw [argumentsL, List.map_cons, List.map_map]
      refine List.mem_cons_of_mem _ (List.mem_map.mpr ⟨w, List.mem_append_right _ member, rfl⟩)
    · refine (whole.lifted g member).imp_left fun old => ?_
      rw [same] at old
      rwa [← lifted]

/-- So are the functions of a program, and the bodies of closures behind them. -/
theorem lowerFunctions_measured {fs : List Sized.Function}
    (inside : ∀ f ∈ fs, ∃ result params generics, f.Scoped c result params generics)
    (distinct : ∀ f ∈ fs, ∀ part ∈ f.body.parts, part.Distinct) (empty : s.lifted = []) {groups : List (List Function)}
    (ran : Ends (fs.mapM lowerWithClosures) s (.ok groups) s') : ∀ g ∈ groups.flatten, g.Measured := by
  induction fs generalizing s groups with
  | nil =>
    obtain ⟨rfl, rfl⟩ := ends_mapM_nil.mp ran
    exact List.forall_mem_nil _
  | cons f rest ih =>
    rw [List.forall_mem_cons] at inside distinct
    obtain ⟨group, s₁, groups, first, others, rfl⟩ := ends_mapM_cons.mp ran
    rw [lowerWithClosures, ends_bind_ok] at first
    obtain ⟨L, s₂, lowering, first⟩ := first
    rw [ends_get_bind] at first
    dsimp only at first
    rw [ends_modify_bind] at first
    obtain ⟨same, rfl⟩ := ends_pure.mp first
    obtain rfl := Except.ok.inj same
    obtain ⟨result, params, generics, own⟩ := inside.1
    obtain ⟨measured, bodies⟩ := lowerFunction_measured own distinct.1 lowering
    rw [empty] at bodies
    rw [List.flatten_cons, List.forall_mem_append, List.forall_mem_cons]
    exact ⟨⟨measured, fun g member => (bodies g member).resolve_left List.not_mem_nil⟩,
      ih inside.2 distinct.2 rfl others⟩

end Whole

section Structs

variable {c : Sized.Context} {generics : List Tag} {ws : List VarId} {s s' : Lowering}

/-- A struct whose fields are as large as descriptions say that are passed to its builder. -/
def Struct.Measured (r : Struct) : Prop :=
  ∀ f ∈ r.fields, ∀ u ∈ f.size.dynamic, HoldsDescription r.vars u ∧ u ∈ r.arguments.map (·.var)

theorem fields_sizing {fs : List Sized.Field} (inside : ∀ f ∈ fs, ∀ x ∈ f.shape.layout.names, x.tag ∈ generics)
    {fs' : List Field} (ran : Ends (fs.mapM fun f => do
      let witness ← lowerWitness f.shape.type f.shape.layout.witness
      return Field.mk f.name f.shape.type witness (← lowerSize f.shape.layout.size)) s (.ok fs') s') :
    Sizing generics ws s s' ∧ (s.draft.Measures generics ws → ∀ f ∈ fs', ∀ u ∈ f.size.dynamic, u ∈ ws) := by
  induction fs generalizing s fs' with
  | nil =>
    obtain ⟨rfl, rfl⟩ := ends_mapM_nil.mp ran
    exact ⟨.refl _, fun _ => List.forall_mem_nil _⟩
  | cons f rest ih =>
    rw [List.forall_mem_cons] at inside
    obtain ⟨f', s₁, fs', first, others, rfl⟩ := ends_mapM_cons.mp ran
    rw [ends_bind_ok] at first
    obtain ⟨witness, s₂, described, first⟩ := first
    rw [ends_bind_ok] at first
    obtain ⟨size, s₃, measured, first⟩ := first
    obtain ⟨same, rfl⟩ := ends_pure.mp first
    obtain rfl := Except.ok.inj same
    obtain ⟨rfl, known⟩ := lowerSize_sizing measured
    have own : Sizing generics ws s _ := lowerWitness_sizing described
    obtain ⟨more, later⟩ := ih inside.2 others
    refine ⟨own.trans more, fun measures => List.forall_mem_cons.mpr ⟨fun u part => ?_, later (own.measures measures)⟩⟩
    obtain ⟨x, member, found⟩ := known u part
    exact (own.measures measures).found x.tag (inside.1 x (List.mem_append_right _ member)) u found

/-- Structs are measured by the descriptions that are passed to their builders. -/
theorem lowerStruct_measured {st : Sized.Struct} (inside : st.Scoped c) {r : Struct}
    (ran : Ends (lowerStruct st) s (.ok r) s') : r.Measured := by
  rw [lowerStruct] at ran
  obtain ⟨t, inner, -⟩ := ends_beside ran
  clear ran
  rw [ends_get_bind] at inner
  dsimp only at inner
  generalize startIs : ({ s with draft := {} } : Lowering) = s₀ at inner
  have empty : s₀.draft = {} := by rw [← startIs]
  generalize variableIs : Variable.mk "_result" _ _ _ = x at inner
  have known : x.size.dynamic = [] := by rw [← variableIs]
  rw [ends_bind_ok] at inner
  obtain ⟨result, s₁, added, inner⟩ := inner
  obtain ⟨rfl, rfl⟩ := ends_addVariable.mp added
  rw [ends_bind_ok] at inner
  obtain ⟨args, s₂, declared, inner⟩ := inner
  rw [ends_bind_ok] at inner
  obtain ⟨fields, s₃, lowered, inner⟩ := inner
  have start : (s₀.adding x).draft.Measures [] [] := by
    refine ⟨List.forall_mem_nil _, List.forall_mem_nil _, fun y member u part => ?_⟩
    rw [Lowering.adding, empty] at member
    obtain rfl := (Array.mem_push.mp member).resolve_left (Array.not_mem_empty y)
    rwa [known] at part
  obtain ⟨xs, rfl, length, -, measures⟩ := descriptions_declared (c := c) id (fun _ x => Argument.mk x .borrowed)
    (m := borrowedArgument) (fun _ => rfl) inside.arguments start declared
  have measures' : s₂.draft.Measures (Sized.variableTags st.arguments) (xs.reverse ++ []) :=
    measures.sub fun g member => List.mem_append_left _ (List.mem_reverse.mpr member)
  obtain ⟨sizing, sizes⟩ := fields_sizing inside.fields lowered
  simp only [ends_get_bind] at inner
  generalize s₃.layouts.struct st.name.mangled (fields.map fun f => slotOf s₃.draft.vars f.name f.size) = answer
    at inner
  obtain ⟨layout, layouts⟩ := answer
  simp only [ends_modify_bind] at inner
  cases layout with
  | error e => simp at inner
  | ok layout =>
    obtain ⟨same, -⟩ := ends_pure.mp inner
    obtain rfl := Except.ok.inj same
    intro f member u part
    have there := sizes measures' f member u part
    refine ⟨(sizing.measures measures').kinds u there, ?_⟩
    rw [List.append_nil, List.mem_reverse] at there
    obtain ⟨k, here, rfl⟩ := List.mem_iff_getElem.mp there
    refine List.mem_cons_of_mem _ (List.mem_map.mpr ⟨⟨xs[k], .borrowed⟩, List.mem_iff_getElem.mpr ⟨k, ?_, ?_⟩, rfl⟩)
    · simpa [← length] using here
    · simp

theorem lowerStructs_measured {sts : List Sized.Struct} (inside : ∀ st ∈ sts, st.Scoped c) {rs : List Struct}
    (ran : Ends (sts.mapM lowerStruct) s (.ok rs) s') : ∀ r ∈ rs, r.Measured := by
  induction sts generalizing s rs with
  | nil =>
    obtain ⟨rfl, -⟩ := ends_mapM_nil.mp ran
    exact List.forall_mem_nil _
  | cons st rest ih =>
    rw [List.forall_mem_cons] at inside
    obtain ⟨r, s₁, rs, first, others, rfl⟩ := ends_mapM_cons.mp ran
    exact List.forall_mem_cons.mpr ⟨lowerStruct_measured inside.1 first, ih inside.2 others⟩

/-- All sizes in a lowered program are in terms of descriptions that are there from the beginning. -/
theorem lower_measured {p : Sized.Program} (structs : ∀ st ∈ p.structs, st.Scoped c)
    (functions : ∀ f ∈ p.functions, ∃ result params generics, f.Scoped c result params generics)
    (distinct : ∀ f ∈ p.functions, ∀ part ∈ f.body.parts, part.Distinct) {r : Program} (done : lower p = .ok r) :
    (∀ f ∈ r.functions, f.Measured) ∧ ∀ d ∈ r.structs, d.Measured := by
  have ended : ∃ s', Ends (do
      let structs ← p.structs.mapM lowerStruct
      let functions ← p.functions.mapM lowerWithClosures
      return (⟨p.unit, p.target, structs, functions.flatten⟩ : Program))
      { target := p.target, layouts := ⟨p.target, []⟩ } (.ok r) s' := ⟨_, Prod.ext done rfl⟩
  obtain ⟨s', ended⟩ := ended
  rw [ends_bind_ok] at ended
  obtain ⟨rs, s₁, first, ended⟩ := ended
  rw [ends_bind_ok] at ended
  obtain ⟨groups, s₂, ran, ended⟩ := ended
  obtain ⟨same, -⟩ := ends_pure.mp ended
  obtain rfl := Except.ok.inj same
  exact ⟨lowerFunctions_measured functions distinct (lowerStructs_lifted first) ran,
    lowerStructs_measured structs first⟩

end Structs

section Layouts

/-- A function that knows how to lay out its frame when it begins: the descriptions of what the frame is a sum over have
names of their own and are there, and where a value of a known size stands does not depend on them. -/
structure Function.LaysOut (f : Function) : Prop where
  terms : ∀ n ∈ f.frame.terms, ∃ v, nameOf f.vars v = n ∧ HoldsDescription f.vars v ∧ f.Begins v ∧
    ∀ u < f.vars.size, nameOf f.vars u = n → u = v
  known : ∀ p ∈ f.frame.slots, p.slot.isStatic = true → p.offset.dynamic = []

/-- A struct that is laid out by descriptions that are passed to its builder. -/
structure Struct.LaysOut (r : Struct) : Prop where
  terms : ∀ n ∈ r.layout.terms, ∃ v, nameOf r.vars v = n ∧ HoldsDescription r.vars v ∧ v ∈ r.arguments.map (·.var)
  known : ∀ p ∈ r.layout.slots, p.slot.isStatic = true → p.offset.dynamic = []

/-- A measured function lays out its frame when it begins. -/
theorem Function.Measured.laysOut {N : Naming} {target : Target} {closures : Nat} {f : Function} (measured : f.Measured)
    (built : f.Built N target closures) (owns : f.Owns) : f.LaysOut where
  terms := by
    intro n member
    obtain ⟨slot, placed, part⟩ := Frame.mem_terms_of_compute built.frame member
    obtain ⟨v, own, rfl⟩ := List.mem_map.mp placed
    rw [Array.getElem?_eq_getElem (built.inside.2 v own), Option.getD_some] at part
    obtain ⟨u, takes, rfl⟩ := List.mem_map.mp part
    obtain ⟨holds, begins⟩ := measured _ (Array.getElem_mem _) u takes
    exact ⟨u, rfl, holds, begins, fun w inside same => built.eq_of_name (owns w inside) (owns u holds.inside) same⟩
  known := Frame.static_of_compute built.frame

/-- A measured struct with a layout of its own is laid out by its builder. -/
theorem Struct.Measured.laysOut {r : Struct} (measured : r.Measured) {target : Target}
    (done : Frame.compute r.name r.slots target = .ok r.layout) : r.LaysOut where
  terms := by
    intro n member
    obtain ⟨slot, placed, part⟩ := Frame.mem_terms_of_compute done member
    obtain ⟨f, field, rfl⟩ := List.mem_map.mp placed
    obtain ⟨u, takes, rfl⟩ := List.mem_map.mp part
    exact ⟨u, rfl, measured f field u takes⟩
  known := Frame.static_of_compute done

end Layouts

end WitnessLang.Ir
