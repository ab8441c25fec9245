import WitnessLang.Proofs.Typed.Rules

set_option autoImplicit false

namespace WitnessLang.Typed

namespace Pattern

attribute [local simp] type names types mapTypes scope

variable (f : Ty → Ty)

@[simp] theorem mapFieldTypes_eq_map (fs : List FieldPattern) :
    mapFieldTypes f fs = fs.map fun p => ⟨p.name, p.pattern.mapTypes f⟩ := by
  induction fs with
  | nil => rfl
  | cons p rest ih =>
    obtain ⟨name, p⟩ := p
    exact congrArg (⟨name, p.mapTypes f⟩ :: ·) ih

@[simp] theorem fieldNames_eq_flatMap (fs : List FieldPattern) :
    fieldNames fs = fs.flatMap (·.pattern.names) := by
  induction fs with
  | nil => rfl
  | cons p rest ih =>
    obtain ⟨name, p⟩ := p
    exact congrArg (p.names ++ ·) ih

@[simp] theorem fieldTypes_eq_flatMap (fs : List FieldPattern) :
    fieldTypes fs = fs.flatMap (·.pattern.types) := by
  induction fs with
  | nil => rfl
  | cons p rest ih =>
    obtain ⟨name, p⟩ := p
    exact congrArg (p.types ++ ·) ih

theorem fieldScope_eq_foldl (fs : List FieldPattern) (env : Env) :
    fieldScope fs env = fs.foldl (fun env p => p.pattern.scope env) env := by
  induction fs generalizing env with
  | nil => rfl
  | cons p rest ih =>
    obtain ⟨name, p⟩ := p
    exact ih (p.scope env)

@[simp] theorem names_mapTypes (p : Pattern) : (p.mapTypes f).names = p.names := by
  induction p with
  | var span name t => simp
  | record span name t fields ih =>
    simp only [mapTypes, names, mapFieldTypes_eq_map, fieldNames_eq_flatMap, List.flatMap_map]
    exact List.flatMap_congr ih

theorem types_mapTypes (p : Pattern) : (p.mapTypes f).types = p.types.map f := by
  induction p with
  | var span name t => simp
  | record span name t fields ih =>
    simp only [mapTypes, types, mapFieldTypes_eq_map, fieldTypes_eq_flatMap, List.flatMap_map,
      List.map_cons, List.map_flatMap]
    rw [List.flatMap_congr ih]

theorem type_mem_types (p : Pattern) : p.type ∈ p.types := by
  cases p <;> simp

theorem scope_mapTypes (p : Pattern) (env : Env) :
    (p.mapTypes f).scope (env.map fun e => (e.1, f e.2)) =
      (p.scope env).map fun e => (e.1, f e.2) := by
  induction p generalizing env with
  | var span name t => simp
  | record span name t fields ih =>
    simp only [mapTypes, scope, mapFieldTypes_eq_map, fieldScope_eq_foldl]
    induction fields generalizing env with
    | nil => rfl
    | cons p rest ihRest =>
      rw [List.forall_mem_cons] at ih
      simp only [List.map_cons, List.foldl_cons, ih.1, ihRest ih.2]

/-- What a pattern adds to the variables in scope. -/
theorem exists_scope (p : Pattern) : ∃ own : Env, own.map (·.1) = (p.names.map (·.tag)).reverse ∧
    (∀ e ∈ own, e.2 ∈ p.types) ∧ ∀ env, p.scope env = own ++ env := by
  induction p with
  | var span name t => exact ⟨[(name.tag, t)], by simp, by simp, fun env => rfl⟩
  | record span name t fields ih =>
    have each : ∀ fs : List FieldPattern, (∀ f ∈ fs, f ∈ fields) →
        ∃ own : Env, own.map (·.1) = ((fieldNames fs).map (·.tag)).reverse ∧
          (∀ e ∈ own, e.2 ∈ fieldTypes fs) ∧ ∀ env, fieldScope fs env = own ++ env := by
      intro fs
      induction fs with
      | nil => exact fun _ => ⟨[], rfl, by simp, fun env => rfl⟩
      | cons p rest ihRest =>
        intro known
        rw [List.forall_mem_cons] at known
        obtain ⟨own, tags, kinds, scope⟩ := ih p known.1
        obtain ⟨others, tags', kinds', scope'⟩ := ihRest known.2
        refine ⟨others ++ own, ?_, fun e member => ?_, fun env => ?_⟩
        · simpa [fieldNames, tags] using tags'
        · rw [fieldTypes_eq_flatMap, List.flatMap_cons, ← fieldTypes_eq_flatMap, List.mem_append]
          exact (List.mem_append.mp member).elim (fun inside => Or.inr (kinds' e inside))
            fun inside => Or.inl (kinds e inside)
        · rw [fieldScope_eq_foldl, List.foldl_cons, ← fieldScope_eq_foldl, scope, scope',
            List.append_assoc]
    obtain ⟨own, tags, kinds, scope⟩ := each fields fun _ member => member
    exact ⟨own, tags, fun e member => List.mem_cons_of_mem _ (kinds e member), scope⟩

end Pattern

section Scopes

variable (f : Ty → Ty)

def Param.mapTypes (p : Param) : Param := ⟨p.pattern.mapTypes f, f p.type⟩

theorem paramScope_mapTypes (ps : List Param) (env : Env) :
    paramScope (ps.map (Param.mapTypes f)) (env.map fun e => (e.1, f e.2)) =
      (paramScope ps env).map fun e => (e.1, f e.2) := by
  induction ps generalizing env with
  | nil => rfl
  | cons p rest ih => simp only [List.map_cons, paramScope, Param.mapTypes, Pattern.scope_mapTypes, ih]

theorem letScope_mapTypes (bs : List Let) (env : Env) :
    letScope (bs.map fun b => ⟨b.pattern.mapTypes f, b.value.mapTypes f⟩)
      (env.map fun e => (e.1, f e.2)) = (letScope bs env).map fun e => (e.1, f e.2) := by
  induction bs generalizing env with
  | nil => rfl
  | cons b rest ih =>
    cases b
    simp only [List.map_cons, letScope, Pattern.scope_mapTypes, ih]

end Scopes

namespace Expr

attribute [local simp] type types bound reads binders mapTypes

section Lists

variable (f : Ty → Ty)

@[simp] theorem mapTypesAll_eq_map (es : List Expr) : mapTypesAll f es = es.map (mapTypes f) := by
  induction es with
  | nil => rfl
  | cons e rest ih => exact congrArg (e.mapTypes f :: ·) ih

@[simp] theorem mapFieldTypes_eq_map (fs : List FieldInit) :
    mapFieldTypes f fs = fs.map fun i => ⟨i.name, i.value.mapTypes f⟩ := by
  induction fs with
  | nil => rfl
  | cons i rest ih =>
    obtain ⟨name, value⟩ := i
    exact congrArg (⟨name, value.mapTypes f⟩ :: ·) ih

@[simp] theorem mapLetTypes_eq_map (bs : List Let) :
    mapLetTypes f bs = bs.map fun b => ⟨b.pattern.mapTypes f, b.value.mapTypes f⟩ := by
  induction bs with
  | nil => rfl
  | cons b rest ih =>
    obtain ⟨p, value⟩ := b
    exact congrArg (⟨p.mapTypes f, value.mapTypes f⟩ :: ·) ih

@[simp] theorem typesAll_eq_flatMap (es : List Expr) : typesAll es = es.flatMap types := by
  induction es with
  | nil => rfl
  | cons e rest ih => exact congrArg (e.types ++ ·) ih

@[simp] theorem fieldTypes_eq_flatMap (fs : List FieldInit) :
    fieldTypes fs = fs.flatMap (·.value.types) := by
  induction fs with
  | nil => rfl
  | cons i rest ih =>
    obtain ⟨name, value⟩ := i
    exact congrArg (value.types ++ ·) ih

@[simp] theorem letTypes_eq_flatMap (bs : List Let) :
    letTypes bs = bs.flatMap fun b => b.pattern.types ++ b.value.types := by
  induction bs with
  | nil => rfl
  | cons b rest ih =>
    obtain ⟨p, value⟩ := b
    exact congrArg (p.types ++ value.types ++ ·) ih

@[simp] theorem boundAll_eq_flatMap (es : List Expr) : boundAll es = es.flatMap bound := by
  induction es with
  | nil => rfl
  | cons e rest ih => exact congrArg (e.bound ++ ·) ih

@[simp] theorem fieldBound_eq_flatMap (fs : List FieldInit) :
    fieldBound fs = fs.flatMap (·.value.bound) := by
  induction fs with
  | nil => rfl
  | cons i rest ih =>
    obtain ⟨name, value⟩ := i
    exact congrArg (value.bound ++ ·) ih

@[simp] theorem letBound_eq_flatMap (bs : List Let) :
    letBound bs = bs.flatMap fun b => b.pattern.names ++ b.value.bound := by
  induction bs with
  | nil => rfl
  | cons b rest ih =>
    obtain ⟨p, value⟩ := b
    exact congrArg (p.names ++ value.bound ++ ·) ih

@[simp] theorem readsAll_eq_flatMap (es : List Expr) : readsAll es = es.flatMap reads := by
  induction es with
  | nil => rfl
  | cons e rest ih => exact congrArg (e.reads ++ ·) ih

@[simp] theorem fieldReads_eq_flatMap (fs : List FieldInit) :
    fieldReads fs = fs.flatMap (·.value.reads) := by
  induction fs with
  | nil => rfl
  | cons i rest ih =>
    obtain ⟨name, value⟩ := i
    exact congrArg (value.reads ++ ·) ih

@[simp] theorem letReads_eq_flatMap (bs : List Let) :
    letReads bs = bs.flatMap (·.value.reads) := by
  induction bs with
  | nil => rfl
  | cons b rest ih =>
    obtain ⟨p, value⟩ := b
    exact congrArg (value.reads ++ ·) ih

@[simp] theorem bindersAll_eq_flatMap (es : List Expr) : bindersAll es = es.flatMap binders := by
  induction es with
  | nil => rfl
  | cons e rest ih => exact congrArg (e.binders ++ ·) ih

@[simp] theorem fieldBinders_eq_flatMap (fs : List FieldInit) :
    fieldBinders fs = fs.flatMap (·.value.binders) := by
  induction fs with
  | nil => rfl
  | cons i rest ih =>
    obtain ⟨name, value⟩ := i
    exact congrArg (value.binders ++ ·) ih

@[simp] theorem letBinders_eq_flatMap (bs : List Let) :
    letBinders bs = bs.flatMap fun b => b.value.binders ++ b.pattern.names.map (·.tag) := by
  induction bs with
  | nil => rfl
  | cons b rest ih =>
    obtain ⟨p, value⟩ := b
    exact (List.append_assoc _ _ _).symm.trans (congrArg (value.binders ++ p.names.map (·.tag) ++ ·) ih)

end Lists

theorem type_mem_types (e : Expr) : e.type ∈ e.types := by
  cases e <;> simp

theorem bound_mapTypes (f : Ty → Ty) (e : Expr) : (e.mapTypes f).bound = e.bound := by
  induction e with
  | number | bool | var | closure => simp
  | callDirect span type function generics args ih =>
    simp only [mapTypes, bound, mapTypesAll_eq_map, boundAll_eq_flatMap, List.flatMap_map]
    exact List.flatMap_congr ih
  | callClosure span type callee args ihCallee ih =>
    simp only [mapTypes, bound, mapTypesAll_eq_map, boundAll_eq_flatMap, List.flatMap_map, ihCallee]
    rw [List.flatMap_congr ih]
  | operation span op left right ihLeft ihRight => simp [ihLeft, ihRight]
  | record span name args fields ih =>
    simp only [mapTypes, bound, mapFieldTypes_eq_map, fieldBound_eq_flatMap, List.flatMap_map]
    exact List.flatMap_congr ih
  | block span lets result ih ihResult =>
    simp only [mapTypes, bound, mapLetTypes_eq_map, letBound_eq_flatMap, List.flatMap_map, ihResult,
      Pattern.names_mapTypes]
    rw [List.flatMap_congr fun b member => congrArg (b.pattern.names ++ ·) (ih b member)]
  | cond span test yes no ihTest ihYes ihNo => simp [ihTest, ihYes, ihNo]

/-- A captured variable with its type rewritten. -/
def mapCapture (f : Ty → Ty) (c : Capture) : Capture := ⟨c.name, f c.type⟩

theorem reads_mapTypes (f : Ty → Ty) (e : Expr) :
    (e.mapTypes f).reads = e.reads.map (mapCapture f) := by
  induction e with
  | number | bool | var => simp [mapCapture]
  | closure => simp only [mapTypes, reads]; rfl
  | callDirect span type function generics args ih =>
    simp only [mapTypes, reads, mapTypesAll_eq_map, readsAll_eq_flatMap, List.flatMap_map,
      List.map_flatMap]
    exact List.flatMap_congr ih
  | callClosure span type callee args ihCallee ih =>
    simp only [mapTypes, reads, mapTypesAll_eq_map, readsAll_eq_flatMap, List.flatMap_map, ihCallee,
      List.map_append, List.map_flatMap]
    rw [List.flatMap_congr ih]
  | operation span op left right ihLeft ihRight => simp [ihLeft, ihRight]
  | record span name args fields ih =>
    simp only [mapTypes, reads, mapFieldTypes_eq_map, fieldReads_eq_flatMap, List.flatMap_map,
      List.map_flatMap]
    exact List.flatMap_congr ih
  | block span lets result ih ihResult =>
    simp only [mapTypes, reads, mapLetTypes_eq_map, letReads_eq_flatMap, List.flatMap_map, ihResult,
      List.map_append, List.map_flatMap]
    rw [List.flatMap_congr ih]
  | cond span test yes no ihTest ihYes ihNo => simp [ihTest, ihYes, ihNo]

theorem binders_mapTypes (f : Ty → Ty) (e : Expr) : (e.mapTypes f).binders = e.binders := by
  induction e with
  | number | bool | var => simp
  | callDirect span type function generics args ih =>
    simp only [mapTypes, binders, mapTypesAll_eq_map, bindersAll_eq_flatMap, List.flatMap_map]
    exact List.flatMap_congr ih
  | callClosure span type callee args ihCallee ih =>
    simp only [mapTypes, binders, mapTypesAll_eq_map, bindersAll_eq_flatMap, List.flatMap_map,
      ihCallee]
    rw [List.flatMap_congr ih]
  | operation span op left right ihLeft ihRight => simp [ihLeft, ihRight]
  | record span name args fields ih =>
    simp only [mapTypes, binders, mapFieldTypes_eq_map, fieldBinders_eq_flatMap, List.flatMap_map]
    exact List.flatMap_congr ih
  | block span lets result ih ihResult =>
    simp only [mapTypes, binders, mapLetTypes_eq_map, letBinders_eq_flatMap, List.flatMap_map,
      ihResult, Pattern.names_mapTypes]
    rw [List.flatMap_congr fun b member => congrArg (· ++ _) (ih b member)]
  | cond span test yes no ihTest ihYes ihNo => simp [ihTest, ihYes, ihNo]
  | closure span params captures body ih =>
    simp [List.flatMap_map, ih]

end Expr

/-- What an expression reads is read at one of its types. -/
theorem Expr.type_mem_of_reads {e : Expr} {c : Capture} (read : c ∈ e.reads) :
    c.type ∈ e.types := by
  induction e with
  | number | bool => simp [reads] at read
  | var span name type =>
    simp only [reads, List.mem_singleton] at read
    subst read
    simp [types, Expr.type]
  | callDirect span type function generics args ih =>
    simp only [reads, readsAll_eq_flatMap, List.mem_flatMap] at read
    simp only [types, typesAll_eq_flatMap, List.mem_cons, List.mem_append, List.mem_flatMap]
    grind
  | callClosure span type callee args ihCallee ih =>
    simp only [reads, readsAll_eq_flatMap, List.mem_append, List.mem_flatMap] at read
    simp only [types, typesAll_eq_flatMap, List.mem_cons, List.mem_append, List.mem_flatMap]
    grind
  | operation span op left right ihLeft ihRight =>
    simp only [reads, List.mem_append] at read
    simp only [types, List.mem_cons, List.mem_append]
    grind
  | record span name args fields ih =>
    simp only [reads, fieldReads_eq_flatMap, List.mem_flatMap] at read
    simp only [types, fieldTypes_eq_flatMap, List.mem_cons, List.mem_append, List.mem_flatMap]
    grind
  | block span lets result ih ihResult =>
    simp only [reads, letReads_eq_flatMap, List.mem_append, List.mem_flatMap] at read
    simp only [types, letTypes_eq_flatMap, List.mem_cons, List.mem_append, List.mem_flatMap]
    grind
  | cond span test yes no ihTest ihYes ihNo =>
    simp only [reads, List.mem_append] at read
    simp only [types, List.mem_cons, List.mem_append]
    grind
  | closure span params captures body ih =>
    simp only [reads] at read
    simp only [types, List.mem_cons, List.mem_append, List.mem_map]
    exact Or.inr (Or.inl (Or.inr ⟨c, read, rfl⟩))

/-- What is captured is read, and not bound inside. -/
theorem mem_of_firstReads {bound : List Tag} {reads : List Capture} {c : Capture}
    (first : c ∈ firstReads bound reads) : c ∈ reads ∧ c.name.tag ∉ bound := by
  induction reads generalizing bound with
  | nil => simp [firstReads] at first
  | cons d rest ih =>
    rw [firstReads] at first
    split at first
    · exact ⟨List.mem_cons_of_mem _ (ih first).1, (ih first).2⟩
    · rename_i fresh
      rcases List.mem_cons.mp first with rfl | later
      · exact ⟨List.mem_cons_self, by simpa using fresh⟩
      · obtain ⟨read, apart⟩ := ih later
        exact ⟨List.mem_cons_of_mem _ read, fun old => apart (List.mem_cons_of_mem _ old)⟩

theorem firstReads_map (f : Ty → Ty) (bound : List Tag) (reads : List Capture) :
    firstReads bound (reads.map (Expr.mapCapture f)) =
      (firstReads bound reads).map (Expr.mapCapture f) := by
  induction reads generalizing bound with
  | nil => rfl
  | cons c rest ih =>
    simp only [List.map_cons, firstReads, Expr.mapCapture]
    split <;> simp [← ih, Expr.mapCapture]

theorem captures_mapTypes (f : Ty → Ty) (params : List Param) (body : Expr) :
    captures (params.map (Param.mapTypes f)) (body.mapTypes f) =
      (captures params body).map (Expr.mapCapture f) := by
  simp only [captures, Expr.bound_mapTypes, Expr.reads_mapTypes, firstReads_map, List.flatMap_map,
    Param.mapTypes, Pattern.names_mapTypes]

namespace Expr

/-- Filling in cells fills them in in the type of an expression. -/
theorem type_mapCells (f : Cell → Ty) (e : Expr) :
    (e.mapTypes (·.mapCells f)).type = e.type.mapCells f := by
  induction e with
  | number | bool | var | callDirect | callClosure => simp [mapTypes, type]
  | operation span op left right =>
    simp only [mapTypes, type, operationType]
    split <;> simp
  | record span name args fields => simp [mapTypes, type]
  | block span lets result ih ihResult => simpa [mapTypes, type] using ihResult
  | cond span test yes no ihTest ihYes ihNo => simpa [mapTypes, type] using ihYes
  | closure span params captures body ih => simp [mapTypes, type, ih]

theorem types_mapCells (f : Cell → Ty) (e : Expr) :
    (e.mapTypes (·.mapCells f)).types = e.types.map (·.mapCells f) := by
  have head := type_mapCells f e
  induction e with
  | number | bool | var => simp [mapTypes, types, type]
  | callDirect span type function generics args ih =>
    have each := List.flatMap_congr fun a member => ih a member (type_mapCells f a)
    simp only [mapTypes, types, Expr.type, mapTypesAll_eq_map, typesAll_eq_flatMap, List.flatMap_map,
      each, List.map_cons, List.map_append, List.map_flatMap]
  | callClosure span type callee args ihCallee ih =>
    have each := List.flatMap_congr fun a member => ih a member (type_mapCells f a)
    simp only [mapTypes, types, Expr.type, mapTypesAll_eq_map, typesAll_eq_flatMap, List.flatMap_map,
      each, ihCallee (type_mapCells f callee), List.map_cons, List.map_append, List.map_flatMap]
  | operation span op left right ihLeft ihRight =>
    rw [mapTypes, types, types, ihLeft (type_mapCells f left), ihRight (type_mapCells f right)]
    simpa [mapTypes] using head
  | record span name args fields ih =>
    have each := List.flatMap_congr fun i member => ih i member (type_mapCells f i.value)
    simp only [mapTypes, types, type, mapFieldTypes_eq_map, fieldTypes_eq_flatMap, List.flatMap_map,
      each, List.map_cons, List.map_append, List.map_flatMap, Ty.mapCells_named]
  | block span lets result ih ihResult =>
    have each := List.flatMap_congr fun b member =>
      congrArg (b.pattern.types.map (·.mapCells f) ++ ·) (ih b member (type_mapCells f b.value))
    simp only [mapTypes, type] at head
    simp only [mapTypes, types, type, head, mapLetTypes_eq_map, letTypes_eq_flatMap,
      List.flatMap_map, Pattern.types_mapTypes, each, ihResult (type_mapCells f result),
      List.map_cons, List.map_append, List.map_flatMap]
  | cond span test yes no ihTest ihYes ihNo =>
    rw [mapTypes, types, types, ihTest (type_mapCells f test), ihYes (type_mapCells f yes),
      ihNo (type_mapCells f no)]
    simpa [mapTypes] using head
  | closure span params captures body ih =>
    simp only [mapTypes] at head
    simp only [mapTypes, types, head, ih (type_mapCells f body), List.flatMap_map, List.map_map,
      List.map_cons, List.map_append, List.map_flatMap, Pattern.types_mapTypes]
    rfl

end Expr

end WitnessLang.Typed
