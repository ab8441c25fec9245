import WitnessLang.Proofs.Resolved.Spelled
import WitnessLang.Proofs.Typed.Program

set_option autoImplicit false

namespace WitnessLang.Typed

section Spelled

variable (S : Spelling)

/-- A pattern in which all names are those of the program. -/
structure Pattern.Spelled (p : Pattern) : Prop where
  names : ∀ i ∈ p.names, S.bound i
  types : ∀ t ∈ p.types, t.Spelled S

/-- A parameter in which all names are those of the program. -/
structure Param.Spelled (p : Param) : Prop where
  pattern : p.pattern.Spelled S
  type : p.type.Spelled S

structure Capture.Spelled (c : Capture) : Prop where
  name : S.bound c.name
  type : c.type.Spelled S

mutual

/-- An expression in which all names are those of the program. -/
def Expr.Spelled : Expr → Prop
  | .number _ _ _ | .bool _ _ => True
  | .var _ name type => S.bound name ∧ type.Spelled S
  | .callDirect _ type function generics args =>
    type.Spelled S ∧ S.function function ∧ (∀ t ∈ generics, t.Spelled S) ∧ SpelledAll args
  | .callClosure _ type callee args => type.Spelled S ∧ callee.Spelled ∧ SpelledAll args
  | .operation _ _ left right => left.Spelled ∧ right.Spelled
  | .record _ name args fields => S.type name ∧ (∀ t ∈ args, t.Spelled S) ∧ FieldsSpelled fields
  | .block _ lets result => LetsSpelled lets ∧ result.Spelled
  | .cond _ test yes no => test.Spelled ∧ yes.Spelled ∧ no.Spelled
  | .closure _ params captures body =>
    (∀ p ∈ params, p.Spelled S) ∧ (∀ c ∈ captures, c.Spelled S) ∧ body.Spelled

def Expr.SpelledAll : List Expr → Prop
  | [] => True
  | e :: rest => e.Spelled ∧ SpelledAll rest

def Expr.FieldsSpelled : List FieldInit → Prop
  | [] => True
  | ⟨_, value⟩ :: rest => value.Spelled ∧ FieldsSpelled rest

def Expr.LetsSpelled : List Let → Prop
  | [] => True
  | ⟨p, value⟩ :: rest => p.Spelled S ∧ value.Spelled ∧ LetsSpelled rest

end

/-- A struct in which all names are those of the program. -/
structure Struct.Spelled (s : Struct) : Prop where
  name : S.type s.name
  generics : ∀ g ∈ s.generics, S.bound g
  fields : ∀ f ∈ s.fields, f.type.Spelled S

/-- A signature in which all names are those of the program. -/
structure Signature.Spelled (f : Signature) : Prop where
  name : S.function f.name
  params : ∀ t ∈ f.params, t.Spelled S
  result : f.result.Spelled S

/-- A function in which all names are those of the program. -/
structure Function.Spelled (f : Function) : Prop where
  name : S.function f.name
  generics : ∀ g ∈ f.generics, S.bound g
  params : ∀ p ∈ f.params, p.Spelled S
  result : f.result.Spelled S
  body : f.body.Spelled S

/-- A program in which all names are its own. -/
structure Program.Spelled (p : Program) : Prop where
  structs : ∀ s ∈ p.structs, s.Spelled S
  functions : ∀ f ∈ p.functions, f.Spelled S

end Spelled

section Lists

variable {S : Spelling}

theorem spelledAll_iff {es : List Expr} : Expr.SpelledAll S es ↔ ∀ e ∈ es, e.Spelled S := by
  induction es with
  | nil => simp [Expr.SpelledAll]
  | cons e rest ih => simp [Expr.SpelledAll, ih]

theorem fieldsSpelled_iff {fs : List FieldInit} :
    Expr.FieldsSpelled S fs ↔ ∀ f ∈ fs, f.value.Spelled S := by
  induction fs with
  | nil => simp [Expr.FieldsSpelled]
  | cons f rest ih =>
    cases f
    simp [Expr.FieldsSpelled, ih]

theorem letsSpelled_iff {bs : List Let} :
    Expr.LetsSpelled S bs ↔ ∀ b ∈ bs, b.pattern.Spelled S ∧ b.value.Spelled S := by
  induction bs with
  | nil => simp [Expr.LetsSpelled]
  | cons b rest ih =>
    cases b
    simp [Expr.LetsSpelled, ih, and_assoc]

end Lists

section Rewriting

variable {S : Spelling} {f : Ty → Ty}

theorem Pattern.Spelled.mapTypes {p : Pattern} (spelled : p.Spelled S)
    (keeps : ∀ t : Ty, t.Spelled S → (f t).Spelled S) : (p.mapTypes f).Spelled S where
  names := by
    rw [Pattern.names_mapTypes]
    exact spelled.names
  types := by
    rw [Pattern.types_mapTypes, List.forall_mem_map]
    exact fun t member => keeps t (spelled.types t member)

theorem Expr.Spelled.mapTypes {e : Expr} (spelled : e.Spelled S)
    (keeps : ∀ t : Ty, t.Spelled S → (f t).Spelled S) : (e.mapTypes f).Spelled S := by
  induction e with
  | number | bool => trivial
  | var span name type => exact ⟨spelled.1, keeps _ spelled.2⟩
  | callDirect span type function generics args ih =>
    obtain ⟨own, name, types, all⟩ := spelled
    rw [spelledAll_iff] at all
    rw [Expr.mapTypes, mapTypesAll_eq_map]
    refine ⟨keeps _ own, name, List.forall_mem_map.mpr fun t member => keeps t (types t member), ?_⟩
    exact spelledAll_iff.mpr (List.forall_mem_map.mpr fun a member => ih a member (all a member))
  | callClosure span type callee args ihCallee ih =>
    obtain ⟨own, target, all⟩ := spelled
    rw [spelledAll_iff] at all
    rw [Expr.mapTypes, mapTypesAll_eq_map]
    refine ⟨keeps _ own, ihCallee target, ?_⟩
    exact spelledAll_iff.mpr (List.forall_mem_map.mpr fun a member => ih a member (all a member))
  | operation span op left right ihLeft ihRight => exact ⟨ihLeft spelled.1, ihRight spelled.2⟩
  | record span name args fields ih =>
    obtain ⟨own, types, all⟩ := spelled
    rw [fieldsSpelled_iff] at all
    rw [Expr.mapTypes, mapFieldTypes_eq_map]
    refine ⟨own, List.forall_mem_map.mpr fun t member => keeps t (types t member), ?_⟩
    exact fieldsSpelled_iff.mpr (List.forall_mem_map.mpr fun a member => ih a member (all a member))
  | block span lets result ih ihResult =>
    obtain ⟨all, last⟩ := spelled
    rw [letsSpelled_iff] at all
    rw [Expr.mapTypes, mapLetTypes_eq_map]
    refine ⟨letsSpelled_iff.mpr (List.forall_mem_map.mpr fun b member => ?_), ihResult last⟩
    exact ⟨(all b member).1.mapTypes keeps, ih b member (all b member).2⟩
  | cond span test yes no ihTest ihYes ihNo =>
    exact ⟨ihTest spelled.1, ihYes spelled.2.1, ihNo spelled.2.2⟩
  | closure span params captures body ih =>
    obtain ⟨own, taken, inside⟩ := spelled
    refine ⟨List.forall_mem_map.mpr fun p member => ?_, List.forall_mem_map.mpr fun c member => ?_, ih inside⟩
    · exact ⟨(own p member).pattern.mapTypes keeps, keeps _ (own p member).type⟩
    · exact ⟨(taken c member).name, keeps _ (taken c member).type⟩

theorem Expr.Spelled.type (basic : Ty.float.Spelled S ∧ Ty.bool.Spelled S) {e : Expr}
    (spelled : e.Spelled S) : e.type.Spelled S := by
  induction e with
  | number => exact basic.1
  | bool => exact basic.2
  | var => exact spelled.2
  | callDirect | callClosure => exact spelled.1
  | operation span op left right =>
    rw [Expr.type, operationType]
    split
    · exact basic.2
    · exact basic.1
  | record => exact Ty.spelled_named.mpr ⟨spelled.1, spelled.2.1⟩
  | block span lets result ih ihResult => exact ihResult spelled.2
  | cond span test yes no ihTest ihYes ihNo => exact ihYes spelled.2.1
  | closure span params captures body ih =>
    rw [Expr.type, Ty.spelled_func, List.forall_mem_map]
    exact ⟨fun p member => (spelled.1 p member).type, ih spelled.2.2⟩

theorem Pattern.Spelled.fields {span : Span} {name : Ident} {type : Ty} {fs : List FieldPattern}
    (spelled : (Pattern.record span name type fs).Spelled S) : ∀ f ∈ fs, f.pattern.Spelled S := by
  obtain ⟨names, types⟩ := spelled
  rw [Pattern.names, Pattern.fieldNames_eq_flatMap, List.forall_mem_flatMap] at names
  rw [Pattern.types, Pattern.fieldTypes_eq_flatMap, List.forall_mem_cons, List.forall_mem_flatMap] at types
  exact fun f member => ⟨names f member, types.2 f member⟩

/-- All types in an expression are spelled like the rest of it. -/
theorem Expr.Spelled.types (basic : Ty.float.Spelled S ∧ Ty.bool.Spelled S) {e : Expr}
    (spelled : e.Spelled S) : ∀ t ∈ e.types, t.Spelled S := by
  have own := spelled.type basic
  induction e with
  | number | bool | var => exact List.forall_mem_singleton.mpr own
  | callDirect span type function generics args ih =>
    have all := spelledAll_iff.mp spelled.2.2.2
    rw [Expr.types, typesAll_eq_flatMap, List.forall_mem_cons, List.forall_mem_append, List.forall_mem_flatMap]
    exact ⟨own, spelled.2.2.1, fun a member => ih a member (all a member) ((all a member).type basic)⟩
  | callClosure span type callee args ihCallee ih =>
    have all := spelledAll_iff.mp spelled.2.2
    rw [Expr.types, typesAll_eq_flatMap, List.forall_mem_cons, List.forall_mem_append, List.forall_mem_flatMap]
    exact ⟨own, ihCallee spelled.2.1 (spelled.2.1.type basic),
      fun a member => ih a member (all a member) ((all a member).type basic)⟩
  | operation span op left right ihLeft ihRight =>
    rw [Expr.types, List.forall_mem_cons, List.forall_mem_append]
    exact ⟨own, ihLeft spelled.1 (spelled.1.type basic), ihRight spelled.2 (spelled.2.type basic)⟩
  | record span name args fields ih =>
    have all := fieldsSpelled_iff.mp spelled.2.2
    rw [Expr.types, fieldTypes_eq_flatMap, List.forall_mem_cons, List.forall_mem_append, List.forall_mem_flatMap]
    exact ⟨own, spelled.2.1, fun a member => ih a member (all a member) ((all a member).type basic)⟩
  | block span lets result ih ihResult =>
    have all := letsSpelled_iff.mp spelled.1
    rw [Expr.types, letTypes_eq_flatMap, List.forall_mem_cons, List.forall_mem_append, List.forall_mem_flatMap]
    refine ⟨own, fun b member => ?_, ihResult spelled.2 (spelled.2.type basic)⟩
    rw [List.forall_mem_append]
    exact ⟨(all b member).1.types, ih b member (all b member).2 ((all b member).2.type basic)⟩
  | cond span test yes no ihTest ihYes ihNo =>
    rw [Expr.types, List.forall_mem_cons, List.forall_mem_append, List.forall_mem_append]
    exact ⟨own, ⟨ihTest spelled.1 (spelled.1.type basic), ihYes spelled.2.1 (spelled.2.1.type basic)⟩,
      ihNo spelled.2.2 (spelled.2.2.type basic)⟩
  | closure span params captures body ih =>
    rw [Expr.types, List.forall_mem_cons, List.forall_mem_append, List.forall_mem_append, List.forall_mem_flatMap,
      List.forall_mem_map]
    refine ⟨own, ⟨fun p member => ?_, fun c member => (spelled.2.1 c member).type⟩,
      ih spelled.2.2 (spelled.2.2.type basic)⟩
    exact List.forall_mem_cons.mpr ⟨(spelled.1 p member).type, (spelled.1 p member).pattern.types⟩

/-- What an expression reads is spelled like the rest of it. -/
theorem Expr.Spelled.reads {e : Expr} (spelled : e.Spelled S) : ∀ c ∈ e.reads, c.Spelled S := by
  induction e with
  | number | bool => simp [Expr.reads]
  | var span name type =>
    rw [Expr.reads, List.forall_mem_singleton]
    exact ⟨spelled.1, spelled.2⟩
  | callDirect span type function generics args ih =>
    have all := spelledAll_iff.mp spelled.2.2.2
    rw [Expr.reads, readsAll_eq_flatMap, List.forall_mem_flatMap]
    exact fun a member => ih a member (all a member)
  | callClosure span type callee args ihCallee ih =>
    have all := spelledAll_iff.mp spelled.2.2
    rw [Expr.reads, readsAll_eq_flatMap, List.forall_mem_append, List.forall_mem_flatMap]
    exact ⟨ihCallee spelled.2.1, fun a member => ih a member (all a member)⟩
  | operation span op left right ihLeft ihRight =>
    rw [Expr.reads, List.forall_mem_append]
    exact ⟨ihLeft spelled.1, ihRight spelled.2⟩
  | record span name args fields ih =>
    have all := fieldsSpelled_iff.mp spelled.2.2
    rw [Expr.reads, fieldReads_eq_flatMap, List.forall_mem_flatMap]
    exact fun a member => ih a member (all a member)
  | block span lets result ih ihResult =>
    have all := letsSpelled_iff.mp spelled.1
    rw [Expr.reads, letReads_eq_flatMap, List.forall_mem_append, List.forall_mem_flatMap]
    exact ⟨fun b member => ih b member (all b member).2, ihResult spelled.2⟩
  | cond span test yes no ihTest ihYes ihNo =>
    rw [Expr.reads, List.forall_mem_append, List.forall_mem_append]
    exact ⟨⟨ihTest spelled.1, ihYes spelled.2.1⟩, ihNo spelled.2.2⟩
  | closure span params captures body ih =>
    rw [Expr.reads]
    exact spelled.2.1

theorem Expr.Spelled.captures {body : Expr} (spelled : body.Spelled S) (params : List Param) :
    ∀ c ∈ captures params body, c.Spelled S := fun c member =>
  spelled.reads c (mem_of_firstReads member).1

end Rewriting

end WitnessLang.Typed
