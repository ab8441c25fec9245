import WitnessLang.Proofs.Explicit.Passed
import WitnessLang.Proofs.Types.Formed

set_option autoImplicit false

namespace WitnessLang.Explicit

open Typed (Globals Env)
open Resolved (Declared)

variable {g : Globals} {env : Env} {generics : List Tag} {s : Supply}

structure Entry (g : Globals) (env : Env) (generics : List Tag) (s : Supply)
    (e : Typed.Expr) : Prop where
  typed : e.WellTyped g env
  once : e.binders.Nodup
  apart : e.binders.Disjoint env.tags
  foreign : ∀ t ∈ e.binders, t.unit ≠ s.tags.unit
  types : ∀ t ∈ e.types, t.Formed g.arity generics []

/-- What making an expression explicit leaves. -/
structure Explained (g : Globals) (env : Env) (generics : List Tag) (s : Supply) (e : Typed.Expr)
    (e' : Expr) (s' : Supply) : Prop where
  type : e'.type = e.type
  passed : Passed g.arity generics e.binders s s' e'.binders
  inside : ∀ structs vars, s'.structs ⊆ structs → env ⊆ vars →
    e'.Scoped g.arity structs generics vars

/-- An expression is made explicit wherever it can be. -/
def Explains (g : Globals) (e : Typed.Expr) : Prop :=
  ∀ env generics s, Entry g env generics s e →
    Leaves (expr e) s (Explained g env generics s e)

theorem Passed.subset {arity : Arity} {known own bound : List Tag}
    {s s' : Supply} (passed : Passed arity known own s s' bound) : s.structs ⊆ s'.structs := by
  obtain ⟨new, added, -⟩ := passed.structs
  rw [added]
  exact List.subset_append_left _ _

/-- A part of an expression that binds and mentions no more than the whole. -/
theorem Entry.part {e part : Typed.Expr} (entry : Entry g env generics s e)
    (typed : part.WellTyped g env) (binders : List.Sublist part.binders e.binders)
    (types : part.types ⊆ e.types) : Entry g env generics s part where
  typed := typed
  once := entry.once.sublist binders
  apart := fun _ own seen => entry.apart (binders.subset own) seen
  foreign := fun t own => entry.foreign t (binders.subset own)
  types := fun t inside => entry.types t (types inside)

theorem Entry.later {e : Typed.Expr} {s' : Supply} (entry : Entry g env generics s e)
    (unit : s'.tags.unit = s.tags.unit) : Entry g env generics s' e :=
  { entry with foreign := unit ▸ entry.foreign }

section Lists

/-- Expressions one after the other. -/
theorem exprs_passed {es : List Typed.Expr} (each : ∀ e ∈ es, Explains g e)
    (entries : ∀ e ∈ es, Entry g env generics s e) (once : (Typed.Expr.bindersAll es).Nodup) :
    Leaves (exprs es) s fun es' s' =>
      Passed g.arity generics (Typed.Expr.bindersAll es) s s' (Expr.bindersAll es') ∧
      ∀ structs vars, s'.structs ⊆ structs → env ⊆ vars →
        Expr.ScopedAll g.arity structs generics vars es' := by
  induction es generalizing s with
  | nil =>
    rw [exprs, leaves_pure]
    exact ⟨Passed.refl _ _ s, fun _ _ _ _ => trivial⟩
  | cons e rest ih =>
    rw [List.forall_mem_cons] at each entries
    rw [Typed.Expr.bindersAll, List.nodup_append'] at once
    rw [exprs, leaves_bind]
    refine (each.1 env generics s entries.1).imp fun e' s₁ first => ?_
    rw [leaves_bind]
    refine (ih each.2 (fun e member => (entries.2 e member).later first.passed.unit) once.2.1).imp
      fun rest' s₂ post => ?_
    obtain ⟨passed, others⟩ := post
    rw [leaves_pure]
    refine ⟨first.passed.append passed once.2.2 fun t own => ?_, fun structs vars more known => ?_⟩
    · rcases List.mem_append.mp own with own | own
      · exact entries.1.foreign t own
      · rw [Typed.Expr.bindersAll_eq_flatMap] at own
        obtain ⟨e, member, own⟩ := List.mem_flatMap.mp own
        exact (entries.2 e member).foreign t own
    · exact ⟨first.inside structs vars (fun d member => more (passed.subset member)) known,
        others structs vars more known⟩

/-- Field values one after the other. -/
theorem packFields_passed {is : List Typed.FieldInit} (each : ∀ i ∈ is, Explains g i.value)
    (entries : ∀ i ∈ is, Entry g env generics s i.value)
    (once : (Typed.Expr.fieldBinders is).Nodup) :
    Leaves (packFields is) s fun fs s' =>
      Passed g.arity generics (Typed.Expr.fieldBinders is) s s' (Expr.fieldBinders fs) ∧
      ∀ structs vars, s'.structs ⊆ structs → env ⊆ vars →
        Expr.FieldsScoped g.arity structs generics vars fs := by
  induction is generalizing s with
  | nil =>
    rw [packFields, leaves_pure]
    exact ⟨Passed.refl _ _ s, fun _ _ _ _ => trivial⟩
  | cons i rest ih =>
    obtain ⟨name, value⟩ := i
    rw [List.forall_mem_cons] at each entries
    rw [Typed.Expr.fieldBinders, List.nodup_append'] at once
    rw [packFields, leaves_bind]
    refine (each.1 env generics s entries.1).imp fun e' s₁ first => ?_
    rw [leaves_bind]
    refine (ih each.2 (fun i member => (entries.2 i member).later first.passed.unit) once.2.1).imp
      fun rest' s₂ post => ?_
    obtain ⟨passed, others⟩ := post
    rw [leaves_pure]
    refine ⟨first.passed.append passed once.2.2 fun t own => ?_, fun structs vars more known => ?_⟩
    · rcases List.mem_append.mp own with own | own
      · exact entries.1.foreign t own
      · rw [Typed.Expr.fieldBinders_eq_flatMap] at own
        obtain ⟨i, member, own⟩ := List.mem_flatMap.mp own
        exact (entries.2 i member).foreign t own
    · exact ⟨first.inside structs vars (fun d member => more (passed.subset member)) known,
        others structs vars more known⟩

/-- Bindings one after the other, each of which sees those before it. -/
theorem lets_passed {bs : List Typed.Let} (each : ∀ b ∈ bs, Explains g b.value)
    (typed : Typed.Expr.LetsTyped g env bs) (once : (Typed.Expr.letBinders bs).Nodup)
    (apart : (Typed.Expr.letBinders bs).Disjoint env.tags)
    (foreign : ∀ t ∈ Typed.Expr.letBinders bs, t.unit ≠ s.tags.unit)
    (types : ∀ t ∈ Typed.Expr.letTypes bs, t.Formed g.arity generics []) :
    Leaves (lets bs) s fun bs' s' =>
      Passed g.arity generics (Typed.Expr.letBinders bs) s s' (Expr.letBinders bs') ∧
      ∀ structs vars, s'.structs ⊆ structs → env ⊆ vars →
        Expr.LetsScoped g.arity structs generics vars bs' ∧
          Typed.letScope bs env ⊆ letEnv bs' vars := by
  induction bs generalizing s env with
  | nil =>
    rw [lets, leaves_pure]
    exact ⟨Passed.refl _ _ s, fun _ _ _ known => ⟨trivial, known⟩⟩
  | cons b rest ih =>
    obtain ⟨p, value⟩ := b
    obtain ⟨typedV, fits, typedR⟩ := typed
    rw [List.forall_mem_cons] at each
    simp only [Typed.Expr.letBinders, List.nodup_append', List.disjoint_append_left,
      List.disjoint_append_right, List.mem_append] at once apart foreign
    simp only [Typed.Expr.letTypes, List.mem_append] at types
    have entry : Entry g env generics s value := ⟨typedV, once.1, apart.1,
      fun t own => foreign t (Or.inl own), fun t inside => types t (Or.inl (Or.inr inside))⟩
    rw [lets, leaves_bind]
    refine (each.1 env generics s entry).imp fun e' s₁ first => ?_
    rw [leaves_bind]
    refine (bindValue_passed g.arity generics p e' s₁ once.2.1.1 fun t own => ?_).imp
      fun bound s₂ post => ?_
    · rw [first.passed.unit]
      exact foreign t (Or.inr (Or.inl own))
    obtain ⟨⟨names, split, passed⟩, taken⟩ := post
    rw [leaves_bind]
    refine (ih each.2 typedR once.2.1.2.1 (fun t left right => ?_) (fun t own => ?_)
      fun t inside => types t (Or.inr inside)).imp fun rest' s₃ post => ?_
    · exact (Typed.mem_tags_scope.mp right).elim (fun own => once.2.1.2.2 own left)
        fun outer => apart.2.2 left outer
    · rw [passed.unit, first.passed.unit]
      exact foreign t (Or.inr (Or.inr own))
    obtain ⟨passed', others⟩ := post
    rw [leaves_pure, letBinders_append, split, List.append_assoc, Typed.Expr.letBinders]
    have named := passed.append passed' once.2.1.2.2 fun t own => by
      rw [first.passed.unit]
      exact foreign t (Or.inr (List.mem_append.mp own))
    refine ⟨first.passed.append named (List.disjoint_append_right.mpr once.2.2) fun t own => ?_,
      fun structs vars more known => ?_⟩
    · exact foreign t ((List.mem_append.mp own).imp id fun own => List.mem_append.mp own)
    · have inside := first.inside structs vars
        (fun d member => more (passed'.subset (passed.subset member))) known
      obtain ⟨boundV, added⟩ := taken structs generics vars inside fun t inside =>
        types t (Or.inl (Or.inl inside))
      obtain ⟨boundR, addedR⟩ := others structs (letEnv bound vars) more fun e member =>
        added (p.scope_mono known member)
      rw [letsScoped_append, letEnv_append]
      exact ⟨⟨boundV, boundR⟩, addedR⟩

end Lists

section Closures

variable {structs : Declared} {params : List Typed.Param} {body : Typed.Expr} {span : Span}
  {captured : List Typed.Capture}

/-- The type parameters that a closure keeps. -/
abbrev keptGenerics (params : List Typed.Param) (captured : List Typed.Capture)
    (body : Typed.Expr) : List Ident :=
  closureGenerics (.func (params.map (·.type)) body.type) captured body

/-- The types that decide which type parameters a closure keeps occur in it. -/
theorem keptGenerics_subset
    (types : ∀ t ∈ (Typed.Expr.closure span params captured body).types,
      t.Formed g.arity generics []) : tagsOf (keptGenerics params captured body) ⊆ generics := by
  intro tag member
  obtain ⟨u, origin, parameter⟩ := mem_closureGenerics.mp member
  obtain ⟨q, within, rfl⟩ := List.mem_map.mp parameter
  refine (types u ?_).mem_parameters within
  simp only [Typed.Expr.types, Typed.Expr.type, List.mem_cons, List.mem_append]
  rcases origin with capture | rfl | needed
  · exact Or.inr (Or.inl (Or.inr capture))
  · exact Or.inl rfl
  · exact Or.inr (Or.inr (neededTypes_subset body needed))

/-- Types that a closure covers are over the type parameters it keeps. -/
theorem formed_of_covers {t : Ty} (formed : t.Formed g.arity generics [])
    (covers : Covers (captured.map (·.type) ++
      .func (params.map (·.type)) body.type :: neededTypes body) t) :
    t.Formed g.arity (tagsOf (keptGenerics params captured body)) [] := by
  refine formed.restrict (fun q parameter => ?_) fun c inside => formed.mem_cells inside
  rw [tagsOf, mem_closureGenerics]
  obtain ⟨r, known, same⟩ := List.mem_map.mp (covers q parameter)
  obtain ⟨u, member, within⟩ := List.mem_flatMap.mp known
  refine ⟨u, by simpa using member, same ▸ List.mem_map_of_mem within⟩

/-- Every type of a closure is over the type parameters it keeps. -/
theorem closure_formed (whole : g.Formed structs)
    (typed : (Typed.Expr.closure span params captured body).WellTyped g env)
    (types : ∀ t ∈ (Typed.Expr.closure span params captured body).types,
      t.Formed g.arity generics []) :
    (∀ c ∈ captured, c.type.Formed g.arity (tagsOf (keptGenerics params captured body)) []) ∧
    (∀ p ∈ params, ∀ t ∈ p.type :: p.pattern.types,
      t.Formed g.arity (tagsOf (keptGenerics params captured body)) []) ∧
    ∀ t ∈ body.types, t.Formed g.arity (tagsOf (keptGenerics params captured body)) [] := by
  obtain ⟨fits, typed, -⟩ := typed
  simp only [Typed.Expr.types, List.mem_cons, List.mem_append, List.mem_flatMap, List.mem_map]
    at types
  have arrow : ∀ p ∈ params, Covers [.func (params.map (·.type)) body.type] p.type := by
    intro p member q parameter
    rw [List.flatMap_cons, List.flatMap_nil, List.append_nil, Ty.parameters_func]
    exact List.mem_map_of_mem (List.mem_append_left _ (List.mem_flatMap.mpr
      ⟨p.type, List.mem_map_of_mem member, parameter⟩))
  refine ⟨fun c member => ?_, fun p member t inside => ?_, fun t inside => ?_⟩
  · refine formed_of_covers (types c.type (Or.inr (Or.inl (Or.inr ⟨c, member, rfl⟩)))) ?_
    exact covers_of_mem (List.mem_append_left _ (List.mem_map_of_mem member))
  · have formed := types t (Or.inr (Or.inl (Or.inl ⟨p, member, List.mem_cons.mp inside⟩)))
    refine formed_of_covers formed fun q parameter => ?_
    have tag : q.tag ∈ p.type.parameters.map (·.tag) := by
      rcases List.mem_cons.mp inside with rfl | inside
      · exact List.mem_map_of_mem parameter
      · exact mem_tags_of_covers (covers_pattern whole (fits p member) t inside) parameter
    obtain ⟨r, parameter, same⟩ := List.mem_map.mp tag
    exact same ▸ (arrow p member).trans (by simp) r parameter
  · refine formed_of_covers (types t (Or.inr (Or.inr inside))) ?_
    refine (covers_needed whole typed t inside).mono fun u needed => ?_
    exact List.mem_append_right _ (List.mem_cons_of_mem _ needed)

end Closures

section Expressions

attribute [local simp] expr

variable {span : Span}

/-- The values that a function is called with bind and mention no more than the call. -/
theorem Entry.args {e : Typed.Expr} {args : List Typed.Expr} {types : List Ty} (entry : Entry g env generics s e)
    (typed : Typed.Expr.ArgsTyped g env args types) (binders : List.Sublist (Typed.Expr.bindersAll args) e.binders)
    (inside : Typed.Expr.typesAll args ⊆ e.types) : ∀ a ∈ args, Entry g env generics s a := by
  rw [Typed.Expr.bindersAll_eq_flatMap] at binders
  rw [Typed.Expr.typesAll_eq_flatMap] at inside
  exact fun a member => entry.part (Typed.wellTyped_of_args typed a member) ((sublist_flatMap member).trans binders)
    fun t own => inside (List.mem_flatMap.mpr ⟨a, member, own⟩)

theorem callDirect_explains {type : Ty} {function : Ident} {given : List Ty} {args : List Typed.Expr}
    (each : ∀ e ∈ args, Explains g e) : Explains g (.callDirect span type function given args) := by
  intro env generics s entry
  obtain ⟨f, -, -, -, typed⟩ := entry.typed
  have entries := entry.args typed (List.Sublist.refl _) fun t inside =>
    List.mem_cons_of_mem _ (List.mem_append_right _ inside)
  rw [expr, leaves_bind]
  refine (exprs_passed each entries entry.once).imp fun args' s' post => ?_
  obtain ⟨passed, inside⟩ := post
  rw [leaves_pure]
  refine ⟨rfl, passed, fun structs vars more known => ⟨entry.types type (by
    simp [Typed.Expr.types, Typed.Expr.type]), inside structs vars more known, ?_⟩⟩
  intro w member x name
  obtain ⟨t, arg, rfl⟩ := List.mem_map.mp member
  exact (entry.types t (by simp [Typed.Expr.types, arg])).mem_names name

theorem callClosure_explains {type : Ty} {callee : Typed.Expr} {args : List Typed.Expr} (called : Explains g callee)
    (each : ∀ e ∈ args, Explains g e) : Explains g (.callClosure span type callee args) := by
  intro env generics s entry
  obtain ⟨typedC, params, -, typed⟩ := entry.typed
  have entryC : Entry g env generics s callee :=
    entry.part typedC (List.sublist_append_left _ _) fun t inside => by
      simp [Typed.Expr.types, inside]
  have entries := entry.args typed (List.sublist_append_right _ _) fun t inside =>
    List.mem_cons_of_mem _ (List.mem_append_right _ inside)
  have once := List.nodup_append'.mp entry.once
  rw [expr, leaves_bind]
  refine (called env generics s entryC).imp fun callee' s₁ first => ?_
  rw [leaves_bind]
  refine (exprs_passed each (fun a member => (entries a member).later first.passed.unit)
    once.2.1).imp fun args' s₂ post => ?_
  obtain ⟨passed, inside⟩ := post
  rw [leaves_pure]
  exact ⟨rfl, first.passed.append passed once.2.2 entry.foreign, fun structs vars more known =>
    ⟨entry.types type (by simp [Typed.Expr.types, Typed.Expr.type]),
      first.inside structs vars (fun d member => more (passed.subset member)) known,
      inside structs vars more known⟩⟩

theorem record_explains {name : Ident} {args : List Ty} {fields : List Typed.FieldInit}
    (each : ∀ i ∈ fields, Explains g i.value) : Explains g (.record span name args fields) := by
  intro env generics s entry
  obtain ⟨d, -, -, typed⟩ := entry.typed
  have entries : ∀ i ∈ fields, Entry g env generics s i.value := by
    intro i member
    refine entry.part (Typed.wellTyped_of_fields typed i member) ?_ fun t inside => ?_
    · rw [Typed.Expr.binders, Typed.Expr.fieldBinders_eq_flatMap]
      exact sublist_flatMap (f := fun i : Typed.FieldInit => i.value.binders) member
    · simp only [Typed.Expr.types, Typed.Expr.fieldTypes_eq_flatMap, List.mem_cons, List.mem_append,
        List.mem_flatMap]
      exact Or.inr (Or.inr ⟨i, member, inside⟩)
  rw [expr, leaves_bind]
  refine (packFields_passed each entries entry.once).imp fun fields' s' post => ?_
  obtain ⟨passed, inside⟩ := post
  rw [leaves_pure]
  exact ⟨rfl, passed, fun structs vars more known => ⟨entry.types _ (by
    simp [Typed.Expr.types, Typed.Expr.type]), inside structs vars more known⟩⟩

theorem block_explains {bs : List Typed.Let} {result : Typed.Expr} (each : ∀ b ∈ bs, Explains g b.value)
    (last : Explains g result) : Explains g (.block span bs result) := by
  intro env generics s entry
  obtain ⟨typedB, typedR⟩ := entry.typed
  have once := List.nodup_append'.mp entry.once
  have types := entry.types
  simp only [Typed.Expr.types, List.mem_cons, List.mem_append] at types
  rw [expr, leaves_bind]
  refine (lets_passed each typedB once.1 (fun t own seen => entry.apart (List.mem_append_left _ own)
    seen) (fun t own => entry.foreign t (List.mem_append_left _ own)) fun t inside =>
      types t (Or.inr (Or.inl inside))).imp fun bs' s₁ post => ?_
  obtain ⟨passed, bound⟩ := post
  have entryR : Entry g (Typed.letScope bs env) generics s₁ result := by
    refine ⟨typedR, once.2.1, fun t own seen => ?_, fun t own => ?_, fun t inside =>
      types t (Or.inr (Or.inr inside))⟩
    · refine (Typed.mem_tags_letScope.mp seen).elim (fun bound => once.2.2 ?_ own) fun outer =>
        entry.apart (List.mem_append_right _ own) outer
      obtain ⟨b, member, bound⟩ := List.mem_flatMap.mp bound
      rw [Typed.Expr.letBinders_eq_flatMap]
      exact List.mem_flatMap.mpr ⟨b, member, List.mem_append_right _ bound⟩
    · rw [passed.unit]
      exact entry.foreign t (List.mem_append_right _ own)
  rw [leaves_bind]
  refine (last _ generics s₁ entryR).imp fun result' s₂ last => ?_
  rw [leaves_pure]
  refine ⟨last.type, passed.append last.passed once.2.2 entry.foreign,
    fun structs vars more known => ?_⟩
  obtain ⟨boundB, added⟩ := bound structs vars (fun d member => more (last.passed.subset member)) known
  exact ⟨boundB, last.inside structs _ more added⟩

theorem cond_explains {test yes no : Typed.Expr} (tests : Explains g test) (accepts : Explains g yes)
    (refuses : Explains g no) : Explains g (.cond span test yes no) := by
  intro env generics s entry
  obtain ⟨typedT, typedY, typedN, -⟩ := entry.typed
  have once := List.nodup_append'.mp entry.once
  have onceB := List.nodup_append'.mp once.2.1
  have entryT : Entry g env generics s test :=
    entry.part typedT (List.sublist_append_left _ _) fun t inside => by
      simp [Typed.Expr.types, inside]
  have entryY : Entry g env generics s yes :=
    entry.part typedY ((List.sublist_append_left _ _).trans (List.sublist_append_right _ _))
      fun t inside => by simp [Typed.Expr.types, inside]
  have entryN : Entry g env generics s no :=
    entry.part typedN ((List.sublist_append_right _ _).trans (List.sublist_append_right _ _))
      fun t inside => by simp [Typed.Expr.types, inside]
  rw [expr, leaves_bind]
  refine (tests env generics s entryT).imp fun test' s₁ first => ?_
  rw [leaves_bind]
  refine (accepts env generics s₁ (entryY.later first.passed.unit)).imp fun yes' s₂ second => ?_
  have unit := second.passed.unit.trans first.passed.unit
  rw [leaves_bind]
  refine (refuses env generics s₂ (entryN.later unit)).imp fun no' s₃ third => ?_
  rw [leaves_pure]
  have branches := second.passed.append third.passed onceB.2.2 fun t own => by
    rw [first.passed.unit]
    exact entry.foreign t (List.mem_append_right _ own)
  exact ⟨second.type, first.passed.append branches once.2.2 entry.foreign,
    fun structs vars more known =>
      ⟨first.inside structs vars (fun d member => more (branches.subset member)) known,
        second.inside structs vars (fun d member => more (third.passed.subset member)) known,
        third.inside structs vars more known⟩⟩

end Expressions

section Closure

variable {structs : Declared} {span : Span} {params : List Typed.Param} {body : Typed.Expr}

/-- The body of a closure mentions its parameters, what it takes along and the type parameters it keeps. -/
theorem Entry.inner {s' : Supply} {captured : List Typed.Capture} (whole : g.Formed structs)
    (entry : Entry g env generics s (.closure span params captured body)) (unit : s'.tags.unit = s.tags.unit) :
    Entry g (Typed.paramScope params (Typed.captureEnv (Typed.captures params body)))
      (tagsOf (keptGenerics params captured body)) s' body := by
  obtain ⟨-, -, formed⟩ := closure_formed whole entry.typed entry.types
  obtain ⟨-, typed, rfl⟩ := entry.typed
  have once := List.nodup_append'.mp entry.once
  have apart : body.binders.Disjoint (Typed.paramTags params) := fun t own bound => once.2.2 bound own
  have outside : body.binders.Disjoint env.tags := fun t own seen =>
    entry.apart (List.mem_append_right _ own) seen
  refine ⟨Typed.closureBody_typed typed once.2.1 apart outside, once.2.1, fun t own seen => ?_, fun t own => ?_, formed⟩
  · refine (Typed.mem_tags_paramScope.mp seen).elim (fun bound => apart own bound) fun outer => ?_
    obtain ⟨e, member, rfl⟩ := List.mem_map.mp outer
    obtain ⟨c, captured, rfl⟩ := List.mem_map.mp member
    exact outside own (Typed.mem_tags_of_lookup (Typed.captures_known typed captured))
  · rw [unit]
    exact entry.foreign t (List.mem_append_right _ own)

theorem closure_explains {captured : List Typed.Capture} (whole : g.Formed structs) (inner : Explains g body) :
    Explains g (.closure span params captured body) := by
  intro env generics s entry
  have subset := keptGenerics_subset entry.types
  obtain ⟨formedC, formedP, -⟩ := closure_formed whole entry.typed entry.types
  obtain ⟨fits, typed, rfl⟩ := entry.typed
  have once := List.nodup_append'.mp entry.once
  have enclosed : Enclosed g.arity (keptGenerics params (Typed.captures params body) body)
      ((Typed.captures params body).map fun c => Capture.mk c.name c.type) := by
    refine ⟨nodup_closureGenerics _ _ _, ?_, fun c member => ?_⟩
    · rw [List.map_map]
      exact Typed.nodup_captureTags _ _
    · obtain ⟨c, captured, rfl⟩ := List.mem_map.mp member
      exact formedC c captured
  rw [expr, leaves_bind]
  refine (bindParams_passed g.arity generics (fun p member => (fits p member).type) once.1 fun t own =>
    entry.foreign t (List.mem_append_left _ own)).imp
    fun made s₁ post => ?_
  obtain ⟨arguments, unpacked⟩ := made
  obtain ⟨types, conventions, passed, taken⟩ := post
  rw [leaves_bind]
  refine (addEnvironment_passed g.arity generics enclosed subset).imp fun name s₂ post => ?_
  obtain ⟨passedE, added⟩ := post
  rw [leaves_bind]
  refine (inner _ _ s₂ (entry.inner whole (passedE.unit.trans passed.unit))).imp fun body' s₃ last => ?_
  rw [leaves_pure]
  have passedB := (passedE.append (last.passed.more subset) (List.disjoint_nil_left _) fun t own => by
    rw [passed.unit]
    exact entry.foreign t (List.mem_append_right _ own))
  refine ⟨?_, ?_, fun structs vars more known => ⟨subset, ?_, enclosed, ⟨span, more ?_⟩, ?_, ?_⟩⟩
  · rw [Expr.type, Typed.Expr.type, type_withLets, last.type, types]
  · rw [Expr.binders, binders_withLets, ← List.append_assoc]
    exact passed.append passedB once.2.2 entry.foreign
  · intro e member
    simp only [captureEnv, List.map_map, List.mem_map, Function.comp_apply] at member
    obtain ⟨c, member, rfl⟩ := member
    refine known ?_
    obtain ⟨before, behind, split, -⟩ := List.lookup_eq_some_iff.mp (Typed.captures_known typed member)
    simp [split]
  · exact last.passed.subset added
  · intro a member
    have kind : a.type ∈ params.map (·.type) := types ▸ List.mem_map_of_mem member
    obtain ⟨p, member, same⟩ := List.mem_map.mp kind
    exact same ▸ formedP p member p.type (List.mem_cons_self ..)
  · obtain ⟨boundP, addedP⟩ := taken structs
      (tagsOf (keptGenerics params (Typed.captures params body) body))
      (argumentEnv arguments ++ captureEnv ((Typed.captures params body).map fun c => ⟨c.name, c.type⟩))
      (List.subset_append_left _ _) fun p member t inside =>
        formedP p member t (List.mem_cons_of_mem _ inside)
    refine scoped_withLets boundP (last.inside structs _ more fun e member => addedP ?_)
    refine Typed.paramScope_mono params (fun e member => List.mem_append_right _ ?_) member
    obtain ⟨c, captured, rfl⟩ := List.mem_map.mp member
    exact List.mem_map.mpr ⟨⟨c.name, c.type⟩, List.mem_map_of_mem captured, rfl⟩

end Closure

/-- What comes out of an expression is scoped. The induction follows the expression. -/
theorem expr_passed {structs : Declared} (whole : g.Formed structs) (e : Typed.Expr) :
    Explains g e := by
  induction e with
  | number | bool =>
    intro env generics s entry
    rw [expr, leaves_pure]
    exact ⟨rfl, Passed.refl _ _ s, fun _ _ _ _ => trivial⟩
  | var span name type =>
    intro env generics s entry
    rw [expr, leaves_pure]
    refine ⟨rfl, Passed.refl _ _ s, fun structs vars _ known => ⟨entry.types type (by
      simp [Typed.Expr.types, Typed.Expr.type]), known ?_⟩⟩
    obtain ⟨before, behind, split, -⟩ := List.lookup_eq_some_iff.mp entry.typed
    simp [split]
  | callDirect span type function given args ih => exact callDirect_explains ih
  | callClosure span type callee args ihCallee ih => exact callClosure_explains ihCallee ih
  | operation span op left right ihLeft ihRight =>
    intro env generics s entry
    obtain ⟨typedL, typedR, -⟩ := entry.typed
    have entryL : Entry g env generics s left :=
      entry.part typedL (List.sublist_append_left _ _) fun t inside => by
        simp [Typed.Expr.types, inside]
    have entryR : Entry g env generics s right :=
      entry.part typedR (List.sublist_append_right _ _) fun t inside => by
        simp [Typed.Expr.types, inside]
    have once := List.nodup_append'.mp entry.once
    rw [expr, leaves_bind]
    refine (ihLeft env generics s entryL).imp fun left' s₁ first => ?_
    rw [leaves_bind]
    refine (ihRight env generics s₁ (entryR.later first.passed.unit)).imp fun right' s₂ second => ?_
    rw [leaves_pure]
    exact ⟨rfl, first.passed.append second.passed once.2.2 entry.foreign,
      fun structs vars more known =>
        ⟨first.inside structs vars (fun d member => more (second.passed.subset member)) known,
          second.inside structs vars more known⟩⟩
  | record span name args fields ih => exact record_explains ih
  | block span bs result ih ihResult => exact block_explains ih ihResult
  | cond span test yes no ihTest ihYes ihNo => exact cond_explains ihTest ihYes ihNo
  | closure span ps cs body ih => exact closure_explains whole ih

end WitnessLang.Explicit
