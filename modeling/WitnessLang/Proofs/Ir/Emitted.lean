import WitnessLang.Proofs.Ir.Codes
import WitnessLang.Proofs.Ir.Witness
import WitnessLang.Proofs.Sized.Kept

set_option autoImplicit false

namespace WitnessLang.Ir

open Ownership (isWitness)

/-- Where the function under construction is. -/
def Draft.mark (d : Draft) : Mark := ⟨d.scope, d.vars.size⟩

/-- What a piece of lowering does to the function under construction: it declares names under some tags, adds
variables, of which all but some arguments become locals, and appends instructions. The functions that it lifts
are finished. -/
structure Emits (bound : List Tag) (args : List VarId) (s : Lowering) (is : Block) (s' : Lowering) : Prop where
  vars : Extends s.draft.vars s'.draft.vars
  scope : ∀ t, t ∉ bound → s'.draft.scope.lookup t = s.draft.scope.lookup t
  code : s'.draft.instrs.toList = s.draft.instrs.toList ++ is
  lifted : s.lifted ⊆ s'.lifted
  owns : ∀ g ∈ s'.lifted, g ∈ s.lifted ∨ g.Owns
  locals : s.draft.locals ⊆ s'.draft.locals
  owned : ∀ v < s'.draft.vars.size, v < s.draft.vars.size ∨ v ∈ s'.draft.locals ∨ v ∈ args

/-- A finished program has the lifted functions, and a finished function has the variables of a draft. -/
structure Final (F : List Function) (vs : Variables) (s : Lowering) : Prop where
  lifted : s.lifted ⊆ F
  vars : Extends s.draft.vars vs

/-- A piece of lowering emits code that is as said in the finished program. -/
def Coded (bound : List Tag) (args : List VarId) (s s' : Lowering) (post : List Function → Variables → Block → Prop) :
    Prop :=
  ∃ is, Emits bound args s is s' ∧ ∀ F vs, Final F vs s' → post F vs is

section Pieces

variable {bound bound' : List Tag} {args args' : List VarId} {s s' s'' : Lowering} {is js : Block}

theorem Emits.refl (s : Lowering) : Emits [] [] s [] s :=
  ⟨.refl _, fun _ _ => rfl, (List.append_nil _).symm, fun _ => id, fun _ => Or.inl, fun _ => id, fun _ => Or.inl⟩

theorem Emits.trans (first : Emits bound args s is s') (second : Emits bound' args' s' js s'') :
    Emits (bound ++ bound') (args ++ args') s (is ++ js) s'' where
  vars := first.vars.trans second.vars
  scope t outside := by
    rw [List.mem_append, not_or] at outside
    rw [second.scope t outside.2, first.scope t outside.1]
  code := by rw [second.code, first.code, List.append_assoc]
  lifted f member := second.lifted (first.lifted member)
  owns g member := (second.owns g member).elim (first.owns g) Or.inr
  locals v member := second.locals (first.locals member)
  owned v inside := by
    rcases second.owned v inside with old | own | new
    · rcases first.owned v old with older | own | new
      · exact Or.inl older
      · exact Or.inr (Or.inl (second.locals own))
      · exact Or.inr (Or.inr (List.mem_append_left _ new))
    · exact Or.inr (Or.inl own)
    · exact Or.inr (Or.inr (List.mem_append_right _ new))

/-- The only new argument becomes a local. -/
theorem Emits.own {v : VarId} (emits : Emits bound [v] s is s') : Emits bound [] s is (s'.owning v) :=
  { emits with
    locals := fun u member => List.mem_append_left _ (emits.locals member)
    owned := fun u inside => by
      rcases emits.owned u inside with old | own | new
      · exact Or.inl old
      · exact Or.inr (Or.inl (List.mem_append_left _ own))
      · exact Or.inr (Or.inl (List.mem_append_right _ new)) }

theorem Emits.named (s : Lowering) : Emits [] [] s [] s.named := { Emits.refl s with }

theorem Emits.appended (s : Lowering) (i : Instr) : Emits [] [] s [i] (s.appended i) :=
  { Emits.refl s with code := Array.toList_push }

theorem Emits.adding (s : Lowering) (x : Variable) : Emits [] [s.draft.vars.size] s [] (s.adding x) :=
  { Emits.refl s with
    vars := extends_push _ x
    owned := fun v inside => by
      have size : (s.adding x).draft.vars.size = s.draft.vars.size + 1 := Array.size_push x
      rw [size] at inside
      by_cases old : v < s.draft.vars.size
      · exact Or.inl old
      · exact Or.inr (Or.inr (List.mem_singleton.mpr (by omega))) }

theorem Final.before {F : List Function} {vs : Variables} (final : Final F vs s') (emits : Emits bound args s is s') :
    Final F vs s :=
  ⟨fun _ member => final.lifted (emits.lifted member), emits.vars.trans final.vars⟩

/-- What is known of a variable stays true in the finished function. -/
theorem Final.isWitness {F : List Function} {vs : Variables} (final : Final F vs s) {v : VarId}
    (inside : v < s.draft.vars.size) : isWitness vs v = isWitness s.draft.vars v := final.vars.isWitness inside

section Codes

variable {post post' : List Function → Variables → Block → Prop}

theorem Coded.refl (s : Lowering) (nothing : ∀ F vs, Final F vs s → post F vs []) : Coded [] [] s s post :=
  ⟨[], .refl s, nothing⟩

theorem Coded.imp (coded : Coded bound args s s' post) (weaker : ∀ F vs is, Final F vs s' → post F vs is → post' F vs is) :
    Coded bound args s s' post' := by
  obtain ⟨is, emits, code⟩ := coded
  exact ⟨is, emits, fun F vs final => weaker F vs is final (code F vs final)⟩

theorem Coded.mono (coded : Coded bound args s s' post) (tags : bound ⊆ bound') : Coded bound' args s s' post := by
  obtain ⟨is, emits, code⟩ := coded
  exact ⟨is, { emits with scope := fun t outside => emits.scope t fun member => outside (tags member) }, code⟩

/-- What is emitted later stands behind what was emitted before. -/
theorem Coded.then (first : Coded bound args s s' post) (second : Coded bound' args' s' s'' post') :
    Coded (bound ++ bound') (args ++ args') s s'' fun F vs is => ∃ js ks, is = js ++ ks ∧ post F vs js ∧ post' F vs ks := by
  obtain ⟨js, emits, code⟩ := first
  obtain ⟨ks, emits', code'⟩ := second
  exact ⟨js ++ ks, emits.trans emits', fun F vs final => ⟨js, ks, rfl, code F vs (final.before emits'), code' F vs final⟩⟩

/-- One more instruction. -/
theorem Coded.emit (coded : Coded bound args s s' post) (i : Instr) :
    Coded bound args s (s'.appended i) fun F vs is => ∃ js, is = js ++ [i] ∧ post F vs js := by
  obtain ⟨js, emits, code⟩ := coded
  have all := emits.trans (.appended s' i)
  rw [List.append_nil, List.append_nil] at all
  exact ⟨js ++ [i], all, fun F vs final => ⟨js, rfl, code F vs (final.before (.appended s' i))⟩⟩

/-- The only new argument becomes a local. -/
theorem Coded.own {v : VarId} (coded : Coded bound [v] s s' post) : Coded bound [] s (s'.owning v) post := by
  obtain ⟨is, emits, code⟩ := coded
  exact ⟨is, emits.own, fun F vs final => code F vs ⟨final.lifted, final.vars⟩⟩

/-- Only what is remembered of type descriptions changes. -/
theorem Coded.remember (coded : Coded bound args s s' post) (witnesses : List (String × VarId)) :
    Coded bound args s { s' with draft := { s'.draft with witnesses := witnesses } } post := by
  obtain ⟨is, emits, code⟩ := coded
  exact ⟨is, { emits with }, fun F vs final => code F vs ⟨final.lifted, final.vars⟩⟩

/-- The program may be finished as it is. -/
theorem Coded.self (coded : Coded bound args s s' post) : ∃ is, post s'.lifted s'.draft.vars is := by
  obtain ⟨is, -, code⟩ := coded
  exact ⟨is, code _ _ ⟨fun _ => id, .refl _⟩⟩

theorem Coded.vars (coded : Coded bound args s s' post) : Extends s.draft.vars s'.draft.vars := by
  obtain ⟨is, emits, -⟩ := coded
  exact emits.vars

theorem Coded.scope (coded : Coded bound args s s' post) {t : Tag} (outside : t ∉ bound) :
    s'.draft.scope.lookup t = s.draft.scope.lookup t := by
  obtain ⟨is, emits, -⟩ := coded
  exact emits.scope t outside

end Codes

theorem Quiet.append {vs : Variables} (first : Quiet vs is) (second : Quiet vs js) : Quiet vs (is ++ js) :=
  List.forall_mem_append.mpr ⟨first, second⟩

end Pieces

section Steps

variable {s s' : Lowering}

theorem ends_emit {i : Instr} {r : Except LowerFailure Unit} :
    Ends (emit i) s r s' ↔ r = .ok () ∧ s' = s.appended i := ends_modify

theorem ends_addLocal {v : VarId} {r : Except LowerFailure Unit} :
    Ends (addLocal v) s r s' ↔ r = .ok () ∧ s' = s.owning v := ends_modify

theorem ends_addVariable {x : Variable} {v : VarId} :
    Ends (addVariable x) s (.ok v) s' ↔ v = s.draft.vars.size ∧ s' = s.adding x := by
  constructor
  · intro ran
    cases ran
    exact ⟨rfl, rfl⟩
  · rintro ⟨rfl, rfl⟩
    rfl

theorem ends_freshName {name : String} :
    Ends freshName s (.ok name) s' ↔ name = temporaryName s.draft.temporaries ∧ s' = s.named := by
  constructor
  · intro ran
    cases ran
    exact ⟨rfl, rfl⟩
  · rintro ⟨rfl, rfl⟩
    rfl

theorem ends_lookup {name : Ident} {v : VarId} :
    Ends (lookup name) s (.ok v) s' ↔ s.draft.scope.lookup name.tag = some v ∧ s' = s := by
  rw [lookup, ends_get_bind]
  split
  · rename_i found
    rw [ends_pure, found, Except.ok.injEq, Option.some.injEq, eq_comm]
  · rename_i missing
    rw [ends_throw, missing]
    simp

/-- Looking for variables changes nothing. -/
theorem ends_lookups {names : List Ident} {vs : List VarId} (ran : Ends (names.mapM lookup) s (.ok vs) s') : s' = s := by
  induction names generalizing vs s with
  | nil => exact (ends_mapM_nil.mp ran).2
  | cons name rest ih =>
    obtain ⟨v, s₁, others, first, second, -⟩ := ends_mapM_cons.mp ran
    rw [ih second, (ends_lookup.mp first).2]

end Steps

/-- The type parameters at hand are declared, and their variables hold descriptions. -/
def Draft.Knows (generics : List Tag) (d : Draft) : Prop :=
  ∀ g ∈ generics, ∃ v, d.scope.lookup g = some v ∧ isWitness d.vars v = true

section Descriptions

variable {generics bound : List Tag} {args : List VarId} {s s' : Lowering} {is : Block}

theorem Draft.Knows.later {post : List Function → Variables → Block → Prop} (known : s.draft.Knows generics)
    (coded : Coded bound args s s' post) (apart : bound.Disjoint generics) : s'.draft.Knows generics := by
  intro g member
  obtain ⟨v, found, kind⟩ := known g member
  refine ⟨v, ?_, by rwa [coded.vars.isWitness (lt_of_isWitness kind)]⟩
  rw [coded.scope fun new => apart new member, found]

theorem Draft.Knows.along {post : List Function → Variables → Block → Prop} (known : s.draft.Knows generics)
    (coded : Coded [] args s s' post) : s'.draft.Knows generics := known.later coded (List.disjoint_nil_left _)

/-- A variable that is nobody's yet. -/
theorem coded_adding (s : Lowering) (x : Variable) : Coded [] [s.draft.vars.size] s (s.adding x)
    fun _ vs is => is = [] ∧ vs[s.draft.vars.size]? = some x := by
  refine ⟨[], Emits.adding s x, fun F vs final => ⟨rfl, ?_⟩⟩
  rw [final.vars.get]
  · exact get_push _ _
  · simp [Lowering.adding]

/-- A new variable becomes a local at once. -/
theorem coded_temporary (s : Lowering) (x : Variable) : Coded [] [] s ((s.named.adding x).owning s.draft.vars.size)
    fun _ vs is => is = [] ∧ vs[s.draft.vars.size]? = some x := by
  obtain ⟨is, emits, code⟩ := coded_adding s.named x
  exact ⟨is, ((Emits.named s).trans emits).own, fun F vs final => code F vs ⟨final.lifted, final.vars⟩⟩

theorem isWitness_of_type {vs : Variables} {v : VarId} {x : Variable} (here : vs[v]? = some x)
    (kind : x.witness = .type) : isWitness vs v = true := isWitness_eq_true.mpr ⟨x, here, kind⟩

mutual

/-- A type description is computed by quiet instructions, into a variable for descriptions. -/
theorem witnessOperand_coded : (w : WitnessExpr) → ∀ {s s' : Lowering} {v : VarId}, s.draft.Knows generics →
    (∀ x ∈ w.names, x.tag ∈ generics) → Ends (witnessOperand w) s (.ok v) s' →
    s'.draft.scope = s.draft.scope ∧ Coded [] [] s s' fun _ vs is => Quiet vs is ∧ isWitness vs v = true
  | .var name, s, s', v, known, inside, ran => by
    rw [witnessOperand] at ran
    obtain ⟨found, rfl⟩ := ends_lookup.mp ran
    obtain ⟨u, found', kind⟩ := known name.tag (inside name List.mem_cons_self)
    obtain rfl := Option.some.inj (found.symm.trans found')
    refine ⟨rfl, .refl _ fun F vs final => ⟨List.forall_mem_nil _, ?_⟩⟩
    rw [final.isWitness (lt_of_isWitness kind), kind]
  | .build constructor args, s, s', v, known, inside, ran => by
    rw [witnessOperand, ends_bind_ok] at ran
    obtain ⟨name, s₁, first, ran⟩ := ran
    obtain ⟨-, rfl⟩ := ends_freshName.mp first
    rw [ends_get_bind, ends_bind_ok] at ran
    obtain ⟨dst, s₂, added, ran⟩ := ran
    obtain ⟨rfl, rfl⟩ := ends_addVariable.mp added
    rw [ends_bind_ok] at ran
    obtain ⟨_, s₃, owned, ran⟩ := ran
    obtain ⟨-, rfl⟩ := ends_addLocal.mp owned
    rw [ends_bind_ok] at ran
    obtain ⟨xs, s₄, given, ran⟩ := ran
    rw [ends_bind_ok] at ran
    obtain ⟨_, s₅, emitted, ran⟩ := ran
    obtain ⟨-, rfl⟩ := ends_emit.mp emitted
    obtain ⟨same, rfl⟩ := ends_pure.mp ran
    obtain rfl := Except.ok.inj same
    have start := coded_temporary s ⟨name, some Ty.witness, .type, ⟨s.named.target.witnessSize, []⟩⟩
    obtain ⟨scope, inner⟩ := witnessOperands_coded args (known.along start) inside given
    refine ⟨scope, ((start.then inner).emit _).imp fun F vs is final code => ?_⟩
    obtain ⟨_, rfl, js, ks, rfl, ⟨rfl, here⟩, quiet, -⟩ := code
    have kind := isWitness_of_type here rfl
    exact ⟨quiet.append (List.forall_mem_singleton.mpr ⟨_, _, _, rfl, kind⟩), kind⟩

/-- So are several ones. -/
theorem witnessOperands_coded : (ws : List WitnessExpr) → ∀ {s s' : Lowering} {xs : List VarId}, s.draft.Knows generics →
    (∀ x ∈ WitnessExpr.namesAll ws, x.tag ∈ generics) → Ends (witnessOperands ws) s (.ok xs) s' →
    s'.draft.scope = s.draft.scope ∧ Coded [] [] s s' fun _ vs is => Quiet vs is ∧ ∀ x ∈ xs, isWitness vs x = true
  | [], s, s', xs, known, inside, ran => by
    obtain ⟨same, rfl⟩ := ends_pure.mp ran
    obtain rfl := Except.ok.inj same
    exact ⟨rfl, .refl _ fun F vs _ => ⟨List.forall_mem_nil _, List.forall_mem_nil _⟩⟩
  | w :: rest, s, s', xs, known, inside, ran => by
    rw [WitnessExpr.namesAll, List.forall_mem_append] at inside
    rw [witnessOperands, ends_bind_ok] at ran
    obtain ⟨v, s₁, first, ran⟩ := ran
    rw [ends_bind_ok] at ran
    obtain ⟨vs, s₂, others, ran⟩ := ran
    obtain ⟨same, rfl⟩ := ends_pure.mp ran
    obtain rfl := Except.ok.inj same
    obtain ⟨scope, own⟩ := witnessOperand_coded w known inside.1 first
    obtain ⟨scope', more⟩ := witnessOperands_coded rest (known.along own) inside.2 others
    refine ⟨scope'.trans scope, (own.then more).imp fun F vs is final code => ?_⟩
    obtain ⟨js, ks, rfl, ⟨quiet, kind⟩, quiet', kinds⟩ := code
    exact ⟨quiet.append quiet', List.forall_mem_cons.mpr ⟨kind, kinds⟩⟩

end

end Descriptions

section Variables

variable {generics : List Tag} {s s' : Lowering}

theorem isWitness_iff {vs : Variables} {v : VarId} {x : Variable} (here : vs[v]? = some x) :
    isWitness vs v = true ↔ x.witness = .type := by
  rw [isWitness_eq_true, here]
  constructor
  · rintro ⟨y, same, kind⟩
    rwa [Option.some.inj same]
  · exact fun kind => ⟨x, rfl, kind⟩

theorem lowerWitness_coded {t : Ty} {w : Sized.Witness} {w' : Witness} (known : s.draft.Knows generics)
    (inside : ∀ x ∈ w.names, x.tag ∈ generics) (ran : Ends (lowerWitness t w) s (.ok w') s') :
    s'.draft.scope = s.draft.scope ∧ (w' = .type ↔ w = .type) ∧ Coded [] [] s s' fun _ vs is => Quiet vs is := by
  have quiet : Coded [] [] s s fun _ vs is => Quiet vs is := .refl s fun _ _ _ => List.forall_mem_nil _
  cases w with
  | trivial size =>
    obtain ⟨same, rfl⟩ := ends_pure.mp ran
    obtain rfl := Except.ok.inj same
    exact ⟨rfl, by simp, quiet⟩
  | type =>
    obtain ⟨same, rfl⟩ := ends_pure.mp ran
    obtain rfl := Except.ok.inj same
    exact ⟨rfl, by simp, quiet⟩
  | dynamic value =>
    rw [lowerWitness, ends_get_bind] at ran
    split at ran
    · obtain ⟨same, rfl⟩ := ends_pure.mp ran
      obtain rfl := Except.ok.inj same
      exact ⟨rfl, by simp, quiet⟩
    · rw [ends_bind_ok] at ran
      obtain ⟨v, s₁, first, ran⟩ := ran
      rw [modifyDraft, ends_modify_bind] at ran
      obtain ⟨same, rfl⟩ := ends_pure.mp ran
      obtain rfl := Except.ok.inj same
      obtain ⟨scope, computed⟩ := witnessOperand_coded value known inside first
      exact ⟨scope, by simp, (computed.imp fun F vs is final code => code.1).remember _⟩

/-- A variable for values of a shape is added behind what computes its description. -/
theorem newVariable_coded {name : String} {shape : Sized.Shape} {v : VarId} (known : s.draft.Knows generics)
    (inside : ∀ x ∈ shape.layout.names, x.tag ∈ generics) (ran : Ends (newVariable name shape) s (.ok v) s') :
    s'.draft.scope = s.draft.scope ∧
      Coded [] [v] s s' fun _ vs is => Adds vs name shape s.draft.mark is v s'.draft.mark := by
  rw [newVariable, ends_bind_ok] at ran
  obtain ⟨witness, s₀, first, ran⟩ := ran
  rw [ends_bind_ok] at ran
  obtain ⟨size, s₁, second, ran⟩ := ran
  rw [lowerSize, ends_bind_ok] at second
  obtain ⟨dynamic, s₂, looked, second⟩ := second
  obtain ⟨-, rfl⟩ := ends_pure.mp second
  obtain rfl := ends_lookups looked
  obtain ⟨rfl, rfl⟩ := ends_addVariable.mp ran
  obtain ⟨scope, kind, computed⟩ := lowerWitness_coded known (fun x member => inside x (List.mem_append_left _ member)) first
  obtain ⟨is, emits, quiet⟩ := computed
  have all := emits.trans (Emits.adding s₁ ⟨name, some shape.type, witness, size⟩)
  rw [List.append_nil is] at all
  refine ⟨scope, is, all, fun F vs final => ?_⟩
  have inside : s₁.draft.vars.size < (s₁.draft.vars.push ⟨name, some shape.type, witness, size⟩).size := by simp
  have here : vs[s₁.draft.vars.size]? = some ⟨name, some shape.type, witness, size⟩ :=
    (final.vars.get inside).trans (get_push _ _)
  exact {
    quiet := quiet F vs (final.before (Emits.adding s₁ _))
    scope := scope
    new := emits.vars.size
    size := Array.size_push _
    entered := ⟨_, here, rfl, rfl⟩
    kind := (isWitness_iff here).trans kind }

/-- The variable of a declared name. -/
theorem define_coded {v : Sized.Variable} {x : VarId} (known : s.draft.Knows generics)
    (inside : ∀ y ∈ v.shape.layout.names, y.tag ∈ generics) (fresh : s.draft.scope.lookup v.name.tag = none)
    (ran : Ends (define v) s (.ok x) s') : s'.draft.scope = (v.name.tag, x) :: s.draft.scope ∧
      Coded [v.name.tag] [x] s s' fun _ vs is => Declares vs v s.draft.mark is x s'.draft.mark := by
  rw [define, ends_bind_ok] at ran
  obtain ⟨x', s₁, first, ran⟩ := ran
  rw [modifyDraft, ends_modify_bind] at ran
  obtain ⟨same, rfl⟩ := ends_pure.mp ran
  obtain rfl := Except.ok.inj same
  obtain ⟨scope, is, emits, adds⟩ := newVariable_coded known inside first
  have declared : (v.name.tag, x) :: s₁.draft.scope = (v.name.tag, x) :: s.draft.scope := by rw [scope]
  refine ⟨declared, is, { emits with scope := fun t outside => ?_ }, fun F vs final => ⟨fresh, ?_, declared⟩⟩
  · rw [declared, List.lookup_cons, beq_false_of_ne (List.ne_of_not_mem_cons outside)]
  · have own := adds F vs ⟨final.lifted, final.vars⟩
    exact { own with scope := rfl }

/-- A variable for the value of an expression, which nobody else knows. -/
theorem temporary_coded {shape : Sized.Shape} {t : VarId} (known : s.draft.Knows generics)
    (inside : ∀ x ∈ shape.layout.names, x.tag ∈ generics) (ran : Ends (temporary shape) s (.ok t) s') :
    s'.draft.scope = s.draft.scope ∧
      Coded [] [] s s' fun _ vs is => ∃ name, Adds vs name shape s.draft.mark is t s'.draft.mark := by
  rw [temporary, ends_bind_ok] at ran
  obtain ⟨name, s₁, named, ran⟩ := ran
  obtain ⟨-, rfl⟩ := ends_freshName.mp named
  rw [ends_bind_ok] at ran
  obtain ⟨v, s₂, first, ran⟩ := ran
  rw [ends_bind_ok] at ran
  obtain ⟨_, s₃, owned, ran⟩ := ran
  obtain ⟨-, rfl⟩ := ends_addLocal.mp owned
  obtain ⟨same, rfl⟩ := ends_pure.mp ran
  obtain rfl := Except.ok.inj same
  obtain ⟨scope, is, emits, adds⟩ := newVariable_coded (s := s.named) known inside first
  exact ⟨scope, is, ((Emits.named s).trans emits).own, fun F vs final => ⟨name, adds F vs ⟨final.lifted, final.vars⟩⟩⟩

end Variables

end WitnessLang.Ir
