import WitnessLang.Explicit.Pass
import WitnessLang.Proofs.Explicit.Scoped
import WitnessLang.Proofs.Typed.Reads
import WitnessLang.Proofs.Types.Substitution

set_option autoImplicit false

namespace WitnessLang.Explicit

open Typed (Globals Env)
open Resolved (Declared)

/-- Every parameter of a type occurs in one of some types. -/
def Covers (ts : List Ty) (t : Ty) : Prop :=
  ∀ q ∈ t.parameters, q.tag ∈ (ts.flatMap Ty.parameters).map (·.tag)

section Covers

variable {ts us : List Ty} {t u : Ty}

theorem covers_of_mem (member : t ∈ ts) : Covers ts t := fun _ inside =>
  List.mem_map_of_mem (List.mem_flatMap.mpr ⟨t, member, inside⟩)

theorem Covers.mono (covers : Covers ts t) (more : ts ⊆ us) : Covers us t := by
  intro q inside
  obtain ⟨r, known, same⟩ := List.mem_map.mp (covers q inside)
  obtain ⟨v, member, within⟩ := List.mem_flatMap.mp known
  exact List.mem_map.mpr ⟨r, List.mem_flatMap.mpr ⟨v, more member, within⟩, same⟩

theorem Covers.trans (covers : Covers [t] u) (member : t ∈ ts) : Covers ts u :=
  covers.mono (by simpa using member)

theorem mem_tags_of_covers (covers : Covers [t] u) {q : Ident} (inside : q ∈ u.parameters) :
    q.tag ∈ t.parameters.map (·.tag) := by
  simpa using covers q inside

end Covers

section Patterns

variable {structs : Declared} {g : Globals}

/-- The type of a field, in an application of its struct. -/
theorem covers_field (whole : g.Formed structs) {d : Typed.Struct} (member : d ∈ g.structs)
    {f : Typed.Field} (field : f ∈ d.fields) {name : Ident} {args : List Ty}
    (length : args.length = d.generics.length) :
    Covers [.named name args] (f.type.substitute (Typed.instantiation d.generics args)) := by
  intro q inside
  obtain ⟨t, arg, inside⟩ := (whole.fields d member f field).mem_parameters_instantiate
    (by simpa using length) inside
  rw [List.flatMap_cons, List.flatMap_nil, List.append_nil, Ty.parameters_named]
  exact List.mem_map_of_mem (List.mem_flatMap.mpr ⟨t, arg, inside⟩)

/-- The parts of a value are of types over the parameters of its own type. -/
theorem covers_pattern (whole : g.Formed structs) {p : Typed.Pattern} {t : Ty} (fits : p.Fits g t) :
    ∀ u ∈ p.types, Covers [t] u := by
  induction p generalizing t with
  | var span name type =>
    obtain rfl : type = t := fits
    have own : Covers [type] type := covers_of_mem (by simp)
    simpa [Typed.Pattern.types] using own
  | record span name type fields ih =>
    rw [Typed.Pattern.Fits] at fits
    obtain ⟨rfl, d, found, args, length, alike, fits⟩ := fits
    obtain ⟨member, -⟩ := g.mem_of_struct? found
    have whole_type : Covers [type] (.named name args) := by
      intro q inside
      have tags := alike.parameters
      rw [List.flatMap_cons, List.flatMap_nil, List.append_nil, ← tags]
      exact List.mem_map_of_mem inside
    have each : ∀ (fs : List Typed.FieldPattern) (ds : List Typed.Field),
        (∀ f ∈ fs, f ∈ fields) → (∀ f ∈ ds, f ∈ d.fields) →
        Typed.Pattern.FieldsFit g (Typed.instantiation d.generics args) fs ds →
        ∀ f ∈ fs, ∀ u ∈ f.pattern.types, Covers [type] u := by
      intro fs
      induction fs with
      | nil => simp
      | cons f rest ihRest =>
        obtain ⟨fieldName, p⟩ := f
        intro ds known declared fits
        cases ds with
        | nil => exact absurd fits (by simp [Typed.Pattern.FieldsFit])
        | cons e ds =>
          rw [List.forall_mem_cons] at known declared
          obtain ⟨-, fitsP, fitsR⟩ := fits
          refine List.forall_mem_cons.mpr ⟨fun u inside q parameter => ?_,
            ihRest ds known.2 declared.2 fitsR⟩
          have first := mem_tags_of_covers (ih _ known.1 fitsP u inside) parameter
          obtain ⟨r, parameter, same⟩ := List.mem_map.mp first
          have field : Covers [.named name args] _ := covers_field whole member declared.1 length
          have second := mem_tags_of_covers field parameter
          obtain ⟨r', parameter, same'⟩ := List.mem_map.mp second
          rw [← same, ← same']
          exact whole_type r' parameter
    intro u inside
    simp only [Typed.Pattern.types, Typed.Pattern.fieldTypes_eq_flatMap, List.mem_cons,
      List.mem_flatMap] at inside
    rcases inside with rfl | ⟨f, field, inside⟩
    · exact covers_of_mem (by simp)
    · exact each fields d.fields (fun _ known => known) (fun _ known => known) fits f field u inside

end Patterns

section Lists

attribute [local simp] neededTypes

theorem neededTypesAll_eq_flatMap (es : List Typed.Expr) :
    neededTypesAll es = es.flatMap neededTypes := by
  induction es with
  | nil => rfl
  | cons e rest ih => exact congrArg (neededTypes e ++ ·) ih

theorem neededFieldTypes_eq_flatMap (is : List Typed.FieldInit) :
    neededFieldTypes is = is.flatMap fun i => neededTypes i.value := by
  induction is with
  | nil => rfl
  | cons i rest ih =>
    obtain ⟨name, value⟩ := i
    exact congrArg (neededTypes value ++ ·) ih

theorem neededLetTypes_eq_flatMap (bs : List Typed.Let) :
    neededLetTypes bs = bs.flatMap fun b => neededTypes b.value := by
  induction bs with
  | nil => rfl
  | cons b rest ih =>
    obtain ⟨p, value⟩ := b
    exact congrArg (neededTypes value ++ ·) ih

theorem type_mem_neededTypes (e : Typed.Expr) : e.type ∈ neededTypes e := by
  cases e <;> simp

/-- The patterns and values of bindings that follow the rules. -/
theorem lets_parts {g : Globals} {env : Env} {bs : List Typed.Let}
    (typed : Typed.Expr.LetsTyped g env bs) :
    ∀ b ∈ bs, b.pattern.Fits g b.value.type ∧ ∃ env, b.value.WellTyped g env := by
  induction bs generalizing env with
  | nil => simp
  | cons b rest ih =>
    obtain ⟨p, value⟩ := b
    obtain ⟨typedV, fits, typedR⟩ := typed
    exact List.forall_mem_cons.mpr ⟨⟨fits, env, typedV⟩, ih typedR⟩

end Lists

section Expressions

variable {structs : Declared} {g : Globals}

/-- What an expression needs are types that occur in it. -/
theorem neededTypes_subset (e : Typed.Expr) : neededTypes e ⊆ e.types := by
  induction e with
  | number | bool | var => simp [neededTypes, Typed.Expr.types]
  | callDirect span type function generics args ih =>
    intro t
    simp only [neededTypes, neededTypesAll_eq_flatMap, Typed.Expr.types,
      Typed.Expr.typesAll_eq_flatMap, List.mem_cons, List.mem_append, List.mem_flatMap]
    rintro (own | generic | ⟨a, member, needed⟩)
    · exact Or.inl own
    · exact Or.inr (Or.inl generic)
    · exact Or.inr (Or.inr ⟨a, member, ih a member needed⟩)
  | callClosure span type callee args ihCallee ih =>
    intro t
    simp only [neededTypes, neededTypesAll_eq_flatMap, Typed.Expr.types,
      Typed.Expr.typesAll_eq_flatMap, List.mem_cons, List.mem_append, List.mem_flatMap]
    rintro (own | needed | ⟨a, member, needed⟩)
    · exact Or.inl own
    · exact Or.inr (Or.inl (ihCallee needed))
    · exact Or.inr (Or.inr ⟨a, member, ih a member needed⟩)
  | operation span op left right ihLeft ihRight =>
    intro t
    simp only [neededTypes, Typed.Expr.types, List.mem_cons, List.mem_append]
    exact Or.imp id (Or.imp (fun needed => ihLeft needed) fun needed => ihRight needed)
  | record span name args fields ih =>
    intro t
    simp only [neededTypes, neededFieldTypes_eq_flatMap, Typed.Expr.types,
      Typed.Expr.fieldTypes_eq_flatMap, List.mem_cons, List.mem_append, List.mem_flatMap]
    rintro (own | ⟨i, member, needed⟩)
    · exact Or.inl own
    · exact Or.inr (Or.inr ⟨i, member, ih i member needed⟩)
  | block span lets result ih ihResult =>
    intro t
    simp only [neededTypes, neededLetTypes_eq_flatMap, Typed.Expr.types,
      Typed.Expr.letTypes_eq_flatMap, List.mem_cons, List.mem_append, List.mem_flatMap]
    rintro (own | ⟨b, member, needed⟩ | needed)
    · exact Or.inl own
    · exact Or.inr (Or.inl ⟨b, member, Or.inr (ih b member needed)⟩)
    · exact Or.inr (Or.inr (ihResult needed))
  | cond span test yes no ihTest ihYes ihNo =>
    intro t
    simp only [neededTypes, Typed.Expr.types, List.mem_cons, List.mem_append]
    exact Or.imp id (Or.imp (Or.imp (fun needed => ihTest needed) fun needed => ihYes needed)
      fun needed => ihNo needed)
  | closure span params captured body ih =>
    intro t
    simp only [neededTypes, Typed.Expr.types, List.mem_cons, List.mem_append]
    exact Or.imp id fun needed => Or.inr (ih needed)

/-- What an expression reads it needs the type of. -/
theorem read_needed {e : Typed.Expr} {env : Env} (typed : e.WellTyped g env) :
    ∀ c ∈ e.reads, c.type ∈ neededTypes e := by
  induction e generalizing env with
  | number | bool => simp [Typed.Expr.reads]
  | var span name type => simp [Typed.Expr.reads, neededTypes, Typed.Expr.type]
  | callDirect span type function generics args ih =>
    obtain ⟨f, -, -, -, typed⟩ := typed
    intro c
    simp only [Typed.Expr.reads, Typed.Expr.readsAll_eq_flatMap, List.mem_flatMap, neededTypes,
      neededTypesAll_eq_flatMap, List.mem_cons, List.mem_append]
    rintro ⟨a, member, read⟩
    exact Or.inr (Or.inr ⟨a, member, ih a member (Typed.wellTyped_of_args typed a member) c read⟩)
  | callClosure span type callee args ihCallee ih =>
    obtain ⟨typedC, params, -, typed⟩ := typed
    intro c
    simp only [Typed.Expr.reads, Typed.Expr.readsAll_eq_flatMap, List.mem_append, List.mem_flatMap,
      neededTypes, neededTypesAll_eq_flatMap, List.mem_cons]
    rintro (read | ⟨a, member, read⟩)
    · exact Or.inr (Or.inl (ihCallee typedC c read))
    · exact Or.inr (Or.inr
        ⟨a, member, ih a member (Typed.wellTyped_of_args typed a member) c read⟩)
  | operation span op left right ihLeft ihRight =>
    intro c
    simp only [Typed.Expr.reads, neededTypes, List.mem_cons, List.mem_append]
    rintro (read | read)
    · exact Or.inr (Or.inl (ihLeft typed.1 c read))
    · exact Or.inr (Or.inr (ihRight typed.2.1 c read))
  | record span name args fields ih =>
    obtain ⟨d, -, -, typed⟩ := typed
    intro c
    simp only [Typed.Expr.reads, Typed.Expr.fieldReads_eq_flatMap, List.mem_flatMap, neededTypes,
      neededFieldTypes_eq_flatMap, List.mem_cons]
    rintro ⟨i, member, read⟩
    exact Or.inr ⟨i, member, ih i member (Typed.wellTyped_of_fields typed i member) c read⟩
  | block span lets result ih ihResult =>
    intro c
    simp only [Typed.Expr.reads, Typed.Expr.letReads_eq_flatMap, List.mem_append, List.mem_flatMap,
      neededTypes, neededLetTypes_eq_flatMap, List.mem_cons]
    rintro (⟨b, member, read⟩ | read)
    · obtain ⟨-, env, typedB⟩ := lets_parts typed.1 b member
      exact Or.inr (Or.inl ⟨b, member, ih b member typedB c read⟩)
    · exact Or.inr (Or.inr (ihResult typed.2 c read))
  | cond span test yes no ihTest ihYes ihNo =>
    intro c
    simp only [Typed.Expr.reads, neededTypes, List.mem_cons, List.mem_append]
    rintro ((read | read) | read)
    · exact Or.inr (Or.inl (Or.inl (ihTest typed.1 c read)))
    · exact Or.inr (Or.inl (Or.inr (ihYes typed.2.1 c read)))
    · exact Or.inr (Or.inr (ihNo typed.2.2.1 c read))
  | closure span params captured body ih =>
    obtain ⟨-, typed, rfl⟩ := typed
    intro c read
    rw [neededTypes]
    exact List.mem_cons_of_mem _ (ih typed c (Typed.mem_of_firstReads read).1)

/-- Every type in an expression is over the parameters of the types it needs. -/
theorem covers_needed (whole : g.Formed structs) {e : Typed.Expr} {env : Env}
    (typed : e.WellTyped g env) : ∀ t ∈ e.types, Covers (neededTypes e) t := by
  have own : ∀ e : Typed.Expr, Covers (neededTypes e) e.type := fun e =>
    covers_of_mem (type_mem_neededTypes e)
  induction e generalizing env with
  | number | bool | var => simpa [Typed.Expr.types] using own _
  | callDirect span type function generics args ih =>
    obtain ⟨f, -, -, -, typed⟩ := typed
    intro t
    simp only [Typed.Expr.types, Typed.Expr.typesAll_eq_flatMap, List.mem_cons, List.mem_append,
      List.mem_flatMap]
    rintro (rfl | generic | ⟨a, member, inside⟩)
    · exact own _
    · exact covers_of_mem (by simp [neededTypes, generic])
    · refine (ih a member (Typed.wellTyped_of_args typed a member) t inside).mono fun u needed => ?_
      simp only [neededTypes, neededTypesAll_eq_flatMap, List.mem_cons, List.mem_append,
        List.mem_flatMap]
      exact Or.inr (Or.inr ⟨a, member, needed⟩)
  | callClosure span type callee args ihCallee ih =>
    obtain ⟨typedC, params, -, typed⟩ := typed
    intro t
    simp only [Typed.Expr.types, Typed.Expr.typesAll_eq_flatMap, List.mem_cons, List.mem_append,
      List.mem_flatMap]
    rintro (rfl | inside | ⟨a, member, inside⟩)
    · exact own _
    · refine (ihCallee typedC t inside).mono fun u needed => ?_
      simp only [neededTypes, List.mem_cons, List.mem_append]
      exact Or.inr (Or.inl needed)
    · refine (ih a member (Typed.wellTyped_of_args typed a member) t inside).mono fun u needed => ?_
      simp only [neededTypes, neededTypesAll_eq_flatMap, List.mem_cons, List.mem_append,
        List.mem_flatMap]
      exact Or.inr (Or.inr ⟨a, member, needed⟩)
  | operation span op left right ihLeft ihRight =>
    intro t
    simp only [Typed.Expr.types, List.mem_cons, List.mem_append]
    rintro (rfl | inside | inside)
    · exact own _
    · refine (ihLeft typed.1 t inside).mono fun u needed => ?_
      simp [neededTypes, needed]
    · refine (ihRight typed.2.1 t inside).mono fun u needed => ?_
      simp [neededTypes, needed]
  | record span name args fields ih =>
    obtain ⟨d, -, -, typed⟩ := typed
    intro t
    simp only [Typed.Expr.types, Typed.Expr.fieldTypes_eq_flatMap, List.mem_cons, List.mem_append,
      List.mem_flatMap]
    rintro (rfl | arg | ⟨i, member, inside⟩)
    · exact own _
    · intro q inside
      refine own (.record span name args fields) q ?_
      rw [Typed.Expr.type, Ty.parameters_named]
      exact List.mem_flatMap.mpr ⟨t, arg, inside⟩
    · refine (ih i member (Typed.wellTyped_of_fields typed i member) t inside).mono fun u needed => ?_
      simp only [neededTypes, neededFieldTypes_eq_flatMap, List.mem_cons, List.mem_flatMap]
      exact Or.inr ⟨i, member, needed⟩
  | block span lets result ih ihResult =>
    intro t
    simp only [Typed.Expr.types, Typed.Expr.letTypes_eq_flatMap, List.mem_cons, List.mem_append,
      List.mem_flatMap]
    have inLets : ∀ b ∈ lets, neededTypes b.value ⊆ neededTypes (.block span lets result) := by
      intro b member u needed
      simp only [neededTypes, neededLetTypes_eq_flatMap, List.mem_cons, List.mem_append,
        List.mem_flatMap]
      exact Or.inr (Or.inl ⟨b, member, needed⟩)
    rintro (rfl | ⟨b, member, inside | inside⟩ | inside)
    · exact own _
    · obtain ⟨fits, -⟩ := lets_parts typed.1 b member
      exact (covers_pattern whole fits t inside).trans
        (inLets b member (type_mem_neededTypes b.value))
    · obtain ⟨-, env, typedB⟩ := lets_parts typed.1 b member
      exact (ih b member typedB t inside).mono (inLets b member)
    · refine (ihResult typed.2 t inside).mono fun u needed => ?_
      simp [neededTypes, needed]
  | cond span test yes no ihTest ihYes ihNo =>
    intro t
    simp only [Typed.Expr.types, List.mem_cons, List.mem_append]
    rintro (rfl | (inside | inside) | inside)
    · exact own _
    · refine (ihTest typed.1 t inside).mono fun u needed => ?_
      simp [neededTypes, needed]
    · refine (ihYes typed.2.1 t inside).mono fun u needed => ?_
      simp [neededTypes, needed]
    · refine (ihNo typed.2.2.1 t inside).mono fun u needed => ?_
      simp [neededTypes, needed]
  | closure span params captured body ih =>
    have reads := read_needed typed
    obtain ⟨fits, typed, -⟩ := typed
    have arrow := type_mem_neededTypes (.closure span params captured body)
    have param : ∀ p ∈ params, Covers (neededTypes (.closure span params captured body)) p.type := by
      intro p member q inside
      refine covers_of_mem arrow q ?_
      rw [Typed.Expr.type, Ty.parameters_func]
      exact List.mem_append_left _ (List.mem_flatMap.mpr
        ⟨p.type, List.mem_map_of_mem member, inside⟩)
    intro t
    simp only [Typed.Expr.types, List.mem_cons, List.mem_append, List.mem_flatMap, List.mem_map]
    rintro (rfl | (⟨p, member, rfl | inside⟩ | ⟨c, taken, rfl⟩) | inside)
    · exact own _
    · exact param p member
    · intro q parameter
      have tag := mem_tags_of_covers (covers_pattern whole (fits p member) t inside) parameter
      obtain ⟨r, parameter, same⟩ := List.mem_map.mp tag
      exact same ▸ param p member r parameter
    · exact covers_of_mem (reads c taken)
    · refine (ih typed t inside).mono fun u needed => ?_
      rw [neededTypes]
      exact List.mem_cons_of_mem _ needed

end Expressions

section Generics

/-- What a closure keeps is exactly what its captures, its type and its body need. -/
theorem mem_closureGenerics {t : Ty} {captures : List Typed.Capture} {body : Typed.Expr}
    {tag : Tag} :
    tag ∈ (closureGenerics t captures body).map (·.tag) ↔ ∃ u, (u ∈ captures.map (·.type) ∨ u = t ∨
      u ∈ neededTypes body) ∧ tag ∈ u.parameters.map (·.tag) := by
  rw [closureGenerics, mem_addIdents]
  simp only [List.map_nil, List.not_mem_nil, false_or, List.map_flatMap, List.mem_flatMap,
    List.mem_append, List.mem_cons]

theorem nodup_closureGenerics (t : Ty) (captures : List Typed.Capture) (body : Typed.Expr) :
    ((closureGenerics t captures body).map (·.tag)).Nodup := nodup_addIdents (by simp)

end Generics

/-- A tag that was made up between two supplies. -/
structure Minted (s s' : Supply) (tag : Tag) : Prop where
  unit : tag.unit = s.tags.unit
  lower : s.tags.next ≤ tag.key
  upper : tag.key < s'.tags.next

/-- The struct of what a closure takes along, where some type parameters are known. -/
def Struct.IsEnvironment (arity : Arity) (known : List Tag) (d : Struct) : Prop :=
  ∃ generics captures, d = environment d.span d.name generics captures ∧
    Enclosed arity generics captures ∧ tagsOf generics ⊆ known

/-- From one supply to the next, closure environments are added; what is bound is one of `own`
or was made up, each once. -/
structure Passed (arity : Arity) (known own : List Tag) (s s' : Supply) (bound : List Tag) :
    Prop where
  unit : s'.tags.unit = s.tags.unit
  next : s.tags.next ≤ s'.tags.next
  structs : ∃ new, s'.structs = s.structs ++ new ∧ s'.builders = s.builders ++ new.map builderOf ∧
    (new.map (·.name.tag)).Nodup ∧
    ∀ d ∈ new, Minted s s' d.name.tag ∧ d.IsEnvironment arity known
  once : bound.Nodup
  origin : ∀ t ∈ bound, t ∈ own ∨ Minted s s' t

section Passed

variable {arity : Arity} {known own own' bound bound' : List Tag} {s s' s'' : Supply}

theorem Passed.refl (arity : Arity) (known : List Tag) (s : Supply) :
    Passed arity known [] s s [] where
  unit := rfl
  next := Nat.le_refl _
  structs := ⟨[], by simp⟩
  once := List.nodup_nil
  origin := by simp

theorem Minted.early {tag : Tag} (minted : Minted s s' tag) (next : s'.tags.next ≤ s''.tags.next) :
    Minted s s'' tag := ⟨minted.unit, minted.lower, Nat.lt_of_lt_of_le minted.upper next⟩

theorem Minted.late {tag : Tag} (minted : Minted s' s'' tag) (unit : s'.tags.unit = s.tags.unit)
    (next : s.tags.next ≤ s'.tags.next) : Minted s s'' tag :=
  ⟨minted.unit.trans unit, Nat.le_trans next minted.lower, minted.upper⟩

theorem Minted.ne {t u : Tag} (first : Minted s s' t) (second : Minted s' s'' u) : t ≠ u := by
  rintro rfl
  exact absurd first.upper (Nat.not_lt.mpr second.lower)

/-- What is bound in two parts one after the other. -/
theorem Passed.append (first : Passed arity known own s s' bound) (second : Passed arity known own' s' s'' bound')
    (apart : own.Disjoint own') (foreign : ∀ t ∈ own ++ own', t.unit ≠ s.tags.unit) :
    Passed arity known (own ++ own') s s'' (bound ++ bound') := by
  obtain ⟨new, structs, builders, once, added⟩ := first.structs
  obtain ⟨more, structs', builders', once', added'⟩ := second.structs
  refine ⟨second.unit.trans first.unit, Nat.le_trans first.next second.next, ⟨new ++ more, ?_, ?_, ?_, ?_⟩,
    ?_, ?_⟩
  · rw [structs', structs, List.append_assoc]
  · rw [builders', builders, List.map_append, List.append_assoc]
  · rw [List.map_append, List.nodup_append']
    refine ⟨once, once', fun t left right => ?_⟩
    obtain ⟨d, member, rfl⟩ := List.mem_map.mp left
    obtain ⟨d', member', same⟩ := List.mem_map.mp right
    exact (added d member).1.ne (added' d' member').1 same.symm
  · intro d member
    rcases List.mem_append.mp member with old | later
    · exact ⟨(added d old).1.early second.next, (added d old).2⟩
    · exact ⟨(added' d later).1.late first.unit first.next, (added' d later).2⟩
  · refine List.nodup_append'.mpr ⟨first.once, second.once, fun t left right => ?_⟩
    rcases first.origin t left with mine | made
    · rcases second.origin t right with yours | made
      · exact apart mine yours
      · exact foreign t (List.mem_append_left _ mine) (made.unit.trans first.unit)
    · rcases second.origin t right with yours | made'
      · exact foreign t (List.mem_append_right _ yours) made.unit
      · exact made.ne made' rfl
  · intro t member
    rcases List.mem_append.mp member with left | right
    · exact (first.origin t left).imp (List.mem_append_left _) fun made => made.early second.next
    · exact (second.origin t right).imp (List.mem_append_right _) fun made =>
        made.late first.unit first.next

theorem Passed.perm (passed : Passed arity known own s s' bound) (perm : bound.Perm bound') :
    Passed arity known own s s' bound' :=
  { passed with
    once := perm.nodup_iff.mp passed.once
    origin := fun t member => passed.origin t (perm.mem_iff.mpr member) }

theorem Passed.widen (passed : Passed arity known own s s' bound) (more : own ⊆ own') :
    Passed arity known own' s s' bound :=
  { passed with origin := fun t member => (passed.origin t member).imp (fun mine => more mine) id }

theorem Passed.more {known' : List Tag} (passed : Passed arity known own s s' bound)
    (more : known ⊆ known') : Passed arity known' own s s' bound := by
  obtain ⟨new, structs, builders, once, added⟩ := passed.structs
  refine { passed with structs := ⟨new, structs, builders, once, fun d member => ?_⟩ }
  obtain ⟨minted, generics, captures, shape, enclosed, inside⟩ := added d member
  exact ⟨minted, generics, captures, shape, enclosed, fun t own => more (inside own)⟩

/-- Only the names and structs made up so far count. -/
theorem Passed.same (passed : Passed arity known own s s' bound) (tags : s''.tags = s'.tags)
    (structs : s''.structs = s'.structs) (builders : s''.builders = s'.builders) :
    Passed arity known own s s'' bound := by
  have minted : ∀ t, Minted s s' t → Minted s s'' t := fun t minted =>
    minted.early (Nat.le_of_eq (congrArg _ tags.symm))
  obtain ⟨new, added, built, once, all⟩ := passed.structs
  refine ⟨tags ▸ passed.unit, tags ▸ passed.next, ⟨new, structs ▸ added, builders ▸ built, once,
    fun d member => ⟨minted _ (all d member).1, (all d member).2⟩⟩, passed.once, fun t member => ?_⟩
  exact (passed.origin t member).imp id (minted t)

/-- Binding names of one's own makes nothing up. -/
theorem Passed.of_own (arity : Arity) (known : List Tag) (s : Supply) {own : List Tag} (once : own.Nodup) :
    Passed arity known own s s own :=
  { Passed.refl arity known s with once := once, origin := fun _ member => Or.inl member }

end Passed

section Supply

variable (arity : Arity) (known : List Tag) {s : Supply}

theorem synthetic_passed (name : String) :
    Leaves (synthetic name) s fun id s' => Passed arity known [] s s' [id.tag] := by
  rw [synthetic, leaves_get_bind, leaves_modify_bind, leaves_pure]
  refine ⟨rfl, Nat.le_succ _, ⟨[], by simp⟩, by simp, fun t member => ?_⟩
  obtain rfl := List.mem_singleton.mp member
  exact Or.inr ⟨rfl, Nat.le_refl _, Nat.lt_succ_self _⟩

theorem temporary_passed : Leaves temporary s fun id s' => Passed arity known [] s s' [id.tag] := by
  rw [temporary, leaves_get_bind, leaves_bind]
  refine (synthetic_passed arity known _).imp fun id s' passed => ?_
  rw [leaves_modify_bind, leaves_pure]
  exact passed.same rfl rfl rfl

/-- The environment of a closure has a name of its own. -/
theorem addEnvironment_passed {span : Span} {generics : List Ident} {captures : List Capture}
    (enclosed : Enclosed arity generics captures) (inside : tagsOf generics ⊆ known) :
    Leaves (addEnvironment span generics captures) s fun env s' => Passed arity known [] s s' [] ∧
      environment span env generics captures ∈ s'.structs := by
  rw [addEnvironment, leaves_get_bind, leaves_bind, synthetic, leaves_get_bind, leaves_modify_bind,
    leaves_pure, leaves_modify_bind, addStruct, leaves_modify_bind, leaves_pure]
  refine ⟨⟨rfl, Nat.le_succ _, ⟨_, rfl, rfl, by simp, fun d member => ?_⟩, by simp, by simp⟩,
    by simp⟩
  obtain rfl := List.mem_singleton.mp member
  exact ⟨⟨rfl, Nat.le_refl _, Nat.lt_succ_self _⟩, generics, captures, rfl, enclosed, inside⟩

end Supply

section Patterns

variable {arity : Arity} {known : List Tag}

/-- What binding a pattern to a value has to do. -/
def Binds (arity : Arity) (known : List Tag) (p : Typed.Pattern) : Prop :=
  ∀ (value : Expr) (s : Supply), (p.names.map (·.tag)).Nodup →
    (∀ t ∈ p.names.map (·.tag), t.unit ≠ s.tags.unit) →
    Leaves (bindValue p value) s fun lets s' =>
      (∃ bound, Expr.letBinders lets = value.binders ++ bound ∧
        Passed arity known (p.names.map (·.tag)) s s' bound) ∧
      ∀ structs generics vars, value.Scoped arity structs generics vars →
        (∀ t ∈ p.types, t.Formed arity generics []) →
        Expr.LetsScoped arity structs generics vars lets ∧ p.scope vars ⊆ letEnv lets vars

/-- Fields are taken out of a variable at hand. -/
theorem unpackFields_passed {span : Span} {type : Ty} {source : Ident}
    {fs : List Typed.FieldPattern} (each : ∀ f ∈ fs, Binds arity known f.pattern) {s : Supply}
    (once : ((Typed.Pattern.fieldNames fs).map (·.tag)).Nodup)
    (foreign : ∀ t ∈ (Typed.Pattern.fieldNames fs).map (·.tag), t.unit ≠ s.tags.unit) :
    Leaves (unpackFields span type source fs) s fun lets s' =>
      Passed arity known ((Typed.Pattern.fieldNames fs).map (·.tag)) s s' (Expr.letBinders lets) ∧
      ∀ structs generics vars, (source.tag, type) ∈ vars → type.Formed arity generics [] →
        (∀ t ∈ Typed.Pattern.fieldTypes fs, t.Formed arity generics []) →
        Expr.LetsScoped arity structs generics vars lets ∧
          Typed.Pattern.fieldScope fs vars ⊆ letEnv lets vars := by
  induction fs generalizing s with
  | nil =>
    rw [unpackFields, leaves_pure]
    exact ⟨Passed.refl arity known s, fun structs generics vars _ _ _ => ⟨trivial, fun _ member => member⟩⟩
  | cons f rest ih =>
    obtain ⟨name, p⟩ := f
    rw [List.forall_mem_cons] at each
    simp only [Typed.Pattern.fieldNames, List.map_append, List.nodup_append', List.mem_append]
      at once foreign
    rw [unpackFields, leaves_bind]
    refine (each.1 _ s once.1 fun t own => foreign t (Or.inl own)).imp fun lets s₁ post => ?_
    obtain ⟨bound, first⟩ := post
    obtain ⟨bound, split, passed⟩ := bound
    obtain rfl : Expr.letBinders lets = bound := split
    rw [leaves_bind]
    refine (ih each.2 once.2.1 fun t own => ?_).imp fun more s₂ post => ?_
    · rw [passed.unit]
      exact foreign t (Or.inr own)
    obtain ⟨passed', others⟩ := post
    rw [leaves_pure, letBinders_append, Typed.Pattern.fieldNames, List.map_append]
    refine ⟨passed.append passed' once.2.2 fun t own => foreign t (List.mem_append.mp own), ?_⟩
    intro structs generics vars held formed types
    simp only [Typed.Pattern.fieldTypes, List.mem_append] at types
    obtain ⟨bound, added⟩ := first structs generics vars
      ⟨types p.type (Or.inl p.type_mem_types), formed, held⟩ fun t inside => types t (Or.inl inside)
    obtain ⟨boundRest, addedRest⟩ := others structs generics (letEnv lets vars)
      (subset_letEnv lets held) formed fun t inside => types t (Or.inr inside)
    rw [letsScoped_append, letEnv_append]
    refine ⟨⟨bound, boundRest⟩, fun e member => addedRest ?_⟩
    exact Typed.Pattern.fieldScope_mono rest added member

theorem bindValue_passed (arity : Arity) (known : List Tag) (p : Typed.Pattern) : Binds arity known p := by
  induction p with
  | var span name type =>
    intro value s once foreign
    rw [bindValue, leaves_pure]
    refine ⟨⟨[name.tag], rfl, Passed.of_own arity known s once⟩, fun structs generics vars inside types => ?_⟩
    exact ⟨⟨types type (by simp [Typed.Pattern.types]), inside, trivial⟩, fun _ member => member⟩
  | record span name type fields ih =>
    intro value s once foreign
    rw [bindValue, leaves_bind]
    refine (temporary_passed arity known).imp fun t s₁ passed => ?_
    rw [leaves_bind]
    refine (unpackFields_passed ih once fun t own => ?_).imp fun lets s₂ post => ?_
    · rw [passed.unit]
      exact foreign t own
    obtain ⟨passed', others⟩ := post
    rw [leaves_pure]
    refine ⟨⟨t.tag :: Expr.letBinders lets, rfl, ?_⟩, fun structs generics vars inside types => ?_⟩
    · exact passed.append passed' (List.disjoint_nil_left _) foreign
    · have formed := types type (by simp [Typed.Pattern.types])
      obtain ⟨bound, added⟩ := others structs generics ((t.tag, type) :: vars) (by simp) formed
        fun u inside => types u (List.mem_cons_of_mem _ inside)
      refine ⟨⟨formed, inside, bound⟩, fun e member => added ?_⟩
      exact Typed.Pattern.fieldScope_mono fields (fun e member => List.mem_cons_of_mem _ member) member

theorem bindParam_passed (arity : Arity) (known : List Tag) (p : Typed.Pattern) {s : Supply}
    (once : (p.names.map (·.tag)).Nodup)
    (foreign : ∀ t ∈ p.names.map (·.tag), t.unit ≠ s.tags.unit) :
    Leaves (bindParam p) s fun (name, lets) s' =>
      Passed arity known (p.names.map (·.tag)) s s' (name.tag :: Expr.letBinders lets) ∧
      ∀ structs generics vars, (name.tag, p.type) ∈ vars →
        (∀ t ∈ p.types, t.Formed arity generics []) →
        Expr.LetsScoped arity structs generics vars lets ∧ p.scope vars ⊆ letEnv lets vars := by
  cases p with
  | var span name type =>
    rw [bindParam, leaves_pure]
    refine ⟨Passed.of_own arity known s once, fun structs generics vars held _ => ⟨trivial, ?_⟩⟩
    exact List.cons_subset.mpr ⟨held, fun _ member => member⟩
  | record span name type fields =>
    rw [bindParam, leaves_bind]
    refine (temporary_passed arity known).imp fun t s₁ passed => ?_
    rw [leaves_bind]
    refine (unpackFields_passed (fun f _ => bindValue_passed arity known f.pattern) once fun t own => ?_).imp
      fun lets s₂ post => ?_
    · rw [passed.unit]
      exact foreign t own
    obtain ⟨passed', others⟩ := post
    rw [leaves_pure]
    refine ⟨passed.append passed' (List.disjoint_nil_left _) foreign,
      fun structs generics vars held types => ?_⟩
    exact others structs generics vars held (types type (by simp [Typed.Pattern.types]))
      fun u inside => types u (List.mem_cons_of_mem _ inside)

/-- Parameters keep their types, and what they bind is taken out of them. -/
theorem bindParams_passed (arity : Arity) (known : List Tag) {ps : List Typed.Param}
    (kept : ∀ p ∈ ps, p.pattern.type = p.type) {s : Supply} (once : (Typed.paramTags ps).Nodup)
    (foreign : ∀ t ∈ Typed.paramTags ps, t.unit ≠ s.tags.unit) :
    Leaves (bindParams ps) s fun (args, lets) s' =>
      args.map (·.type) = ps.map (·.type) ∧ (∀ a ∈ args, a.convention = .borrowed) ∧
      Passed arity known (Typed.paramTags ps) s s' (args.map (·.name.tag) ++ Expr.letBinders lets) ∧
      ∀ structs generics vars, argumentEnv args ⊆ vars →
        (∀ p ∈ ps, ∀ t ∈ p.pattern.types, t.Formed arity generics []) →
        Expr.LetsScoped arity structs generics vars lets ∧
          Typed.paramScope ps vars ⊆ letEnv lets vars := by
  induction ps generalizing s with
  | nil =>
    rw [bindParams, leaves_pure]
    exact ⟨rfl, by simp, Passed.refl arity known s,
      fun structs generics vars _ _ => ⟨trivial, fun _ member => member⟩⟩
  | cons p rest ih =>
    rw [List.forall_mem_cons] at kept
    simp only [Typed.paramTags, List.flatMap_cons, List.nodup_append', List.mem_append] at once foreign
    rw [bindParams, leaves_bind]
    refine (bindParam_passed arity known p.pattern once.1 fun t own =>
      foreign t (Or.inl own)).imp fun made s₁ post => ?_
    obtain ⟨name, lets⟩ := made
    obtain ⟨passed, first⟩ := post
    rw [leaves_bind]
    refine (ih kept.2 once.2.1 fun t own => ?_).imp
      fun made s₂ post => ?_
    · rw [passed.unit]
      exact foreign t (Or.inr own)
    obtain ⟨args, more⟩ := made
    obtain ⟨types, conventions, passed', others⟩ := post
    rw [leaves_pure]
    refine ⟨by simp [types], by simpa using conventions, ?_, ?_⟩
    · refine (passed.append passed' once.2.2 fun t own => foreign t (List.mem_append.mp own)).perm ?_
      rw [letBinders_append, List.map_cons, List.cons_append, List.cons_append, List.perm_cons,
        ← List.append_assoc, ← List.append_assoc, List.perm_append_right_iff]
      exact List.perm_append_comm
    · intro structs generics vars held formed
      rw [List.forall_mem_cons] at formed
      rw [argumentEnv, List.map_cons, List.cons_subset] at held
      obtain ⟨bound, added⟩ := first structs generics vars (kept.1 ▸ held.1) formed.1
      obtain ⟨boundRest, addedRest⟩ := others structs generics (letEnv lets vars)
        (fun e member => subset_letEnv lets (held.2 member)) formed.2
      rw [letsScoped_append, letEnv_append]
      exact ⟨⟨bound, boundRest⟩, fun e member => addedRest (Typed.paramScope_mono rest added member)⟩

end Patterns

end WitnessLang.Explicit
