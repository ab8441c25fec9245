import WitnessLang.Proofs.Resolved.Agreement

set_option autoImplicit false

namespace WitnessLang.Resolved

/-- A name in a written type, applied to so many types. -/
structure Application where
  span : Span
  name : Ident
  given : Nat
  /-- Whether the name is that of a type parameter. -/
  parameter : Bool
  deriving DecidableEq

/-- How many types the name of an application takes, where those of structs are listed; a type parameter
takes none. -/
def Application.want (arities : List (Tag × Nat)) (a : Application) : Option Nat :=
  if a.parameter || a.name.tag.isBuiltin then some 0 else arities.lookup a.name.tag

/-- A name is applied to as many types as it takes, or it is that of a type parameter. -/
def Application.Counted (arities : List (Tag × Nat)) (a : Application) : Prop :=
  a.parameter = false → a.want arities = some a.given

mutual

/-- The applications in a written type, each before those in its arguments. What a type parameter is
applied to is passed over. -/
def TypeExpr.applications : TypeExpr → List Application
  | .named span name args => ⟨span, name, args.length, false⟩ :: applicationsAll args
  | .generic span name args => [⟨span, name, args.length, true⟩]
  | .func _ args result => applicationsAll args ++ result.applications

def TypeExpr.applicationsAll : List TypeExpr → List Application
  | [] => []
  | t :: rest => t.applications ++ applicationsAll rest

end

mutual

/-- The types that are written in an expression. -/
def Expr.written : Expr → List TypeExpr
  | .number _ _ _ | .bool _ _ | .var _ _ => []
  | .call _ callee args => callee.written ++ writtenAll args
  | .operation _ _ left right => left.written ++ right.written
  | .record _ _ fields => fieldWritten fields
  | .block _ lets result => letWritten lets ++ result.written
  | .annotated _ value type => type :: value.written
  | .case _ scrutinee arms => scrutinee.written ++ armWritten arms
  | .cond _ test yes no => test.written ++ (yes.written ++ no.written)
  | .closure _ params body => params.map (·.type) ++ body.written

/-- The types that are written in several expressions. -/
def Expr.writtenAll : List Expr → List TypeExpr
  | [] => []
  | e :: rest => e.written ++ writtenAll rest

/-- The types that are written in field values. -/
def Expr.fieldWritten : List FieldInit → List TypeExpr
  | [] => []
  | ⟨_, _, value⟩ :: rest => value.written ++ fieldWritten rest

/-- The types that are written in bound values. -/
def Expr.letWritten : List Let → List TypeExpr
  | [] => []
  | ⟨_, _, value⟩ :: rest => value.written ++ letWritten rest

/-- The types that are written in alternatives. -/
def Expr.armWritten : List Arm → List TypeExpr
  | [] => []
  | ⟨_, _, body⟩ :: rest => body.written ++ armWritten rest

end

mutual

/-- An expression with other types in the place of those that are written in it. -/
def Expr.mapWritten (f : TypeExpr → TypeExpr) : Expr → Expr
  | .number span text bits => .number span text bits
  | .bool span value => .bool span value
  | .var span name => .var span name
  | .call span callee args => .call span (callee.mapWritten f) (mapWrittenAll f args)
  | .operation span op left right => .operation span op (left.mapWritten f) (right.mapWritten f)
  | .record span name fields => .record span name (mapFieldWritten f fields)
  | .block span lets result => .block span (mapLetWritten f lets) (result.mapWritten f)
  | .annotated span value type => .annotated span (value.mapWritten f) (f type)
  | .case span scrutinee arms => .case span (scrutinee.mapWritten f) (mapArmWritten f arms)
  | .cond span test yes no => .cond span (test.mapWritten f) (yes.mapWritten f) (no.mapWritten f)
  | .closure span params body =>
    .closure span (params.map fun p => { p with type := f p.type }) (body.mapWritten f)

def Expr.mapWrittenAll (f : TypeExpr → TypeExpr) : List Expr → List Expr
  | [] => []
  | e :: rest => e.mapWritten f :: mapWrittenAll f rest

def Expr.mapFieldWritten (f : TypeExpr → TypeExpr) : List FieldInit → List FieldInit
  | [] => []
  | ⟨span, name, value⟩ :: rest => ⟨span, name, value.mapWritten f⟩ :: mapFieldWritten f rest

def Expr.mapLetWritten (f : TypeExpr → TypeExpr) : List Let → List Let
  | [] => []
  | ⟨span, p, value⟩ :: rest => ⟨span, p, value.mapWritten f⟩ :: mapLetWritten f rest

def Expr.mapArmWritten (f : TypeExpr → TypeExpr) : List Arm → List Arm
  | [] => []
  | ⟨span, p, body⟩ :: rest => ⟨span, p, body.mapWritten f⟩ :: mapArmWritten f rest

end

theorem Expr.span_mapWritten (f : TypeExpr → TypeExpr) (e : Expr) : (e.mapWritten f).span = e.span := by
  cases e <;> simp [Expr.mapWritten, Expr.span]

theorem Expr.length_mapWrittenAll (f : TypeExpr → TypeExpr) (es : List Expr) :
    (Expr.mapWrittenAll f es).length = es.length := by
  induction es with
  | nil => rfl
  | cons e rest ih => simp [Expr.mapWrittenAll, ih]

/-- The types of the signature of a function. -/
def Function.declaredTypes (f : Function) : List TypeExpr := f.params.map (·.type) ++ [f.result]

/-- A function with other types in the place of those that are written in it. -/
def Function.mapWritten (h : TypeExpr → TypeExpr) (f : Function) : Function :=
  { f with
    params := f.params.map fun p => { p with type := h p.type }
    result := h f.result
    body := f.body.mapWritten h }

/-- The types of fields and signatures in the order in which they are looked at, with the names of the
definitions they stand in. -/
def Program.declaredTypes (p : Program) : List (Ident × TypeExpr) :=
  (p.structs.flatMap fun s => s.fields.map fun f => (s.name, f.type)) ++
    p.functions.flatMap fun f => f.declaredTypes.map (f.name, ·)

/-- All types that are written in a program, with the names of the definitions they stand in. -/
def Program.written (p : Program) : List (Ident × TypeExpr) :=
  p.declaredTypes ++ p.functions.flatMap fun f => f.body.written.map (f.name, ·)

/-- A program with other types in the place of those that are written in it. -/
def Program.mapWritten (h : TypeExpr → TypeExpr) (p : Program) : Program :=
  { p with
    structs := p.structs.map fun s => { s with fields := s.fields.map fun f => { f with type := h f.type } }
    functions := p.functions.map (·.mapWritten h) }

theorem TypeExpr.applicationsAll_eq_flatMap (ts : List TypeExpr) :
    applicationsAll ts = ts.flatMap applications := by
  induction ts with
  | nil => rfl
  | cons t rest ih => exact congrArg (t.applications ++ ·) ih

/-- A written type in which every name is a type parameter, built in or among some others. -/
def TypeExpr.Known (structs : List Tag) (t : TypeExpr) : Prop :=
  ∀ a ∈ t.applications, a.parameter = false → a.name.tag.isBuiltin = true ∨ a.name.tag ∈ structs

namespace Reference

def Yields {α : Type} (m : Numbered α) (good : α → Prop) : Prop := ∀ n a n', m n = .ok (a, n') → good a

section Yields

variable {α β : Type} {m : Numbered α} {f : α → Numbered β} {good : α → Prop} {good' : β → Prop}

theorem yields_pure {a : α} (own : good a) : Yields (pure a) good := by
  intro n b n' done
  obtain ⟨rfl, rfl⟩ := Prod.mk.inj (Except.ok.inj done)
  exact own

theorem Yields.bind (first : Yields m good) (next : ∀ a, good a → Yields (f a) good') :
    Yields (m >>= f) good' := by
  intro n b n' done
  obtain ⟨⟨a, k⟩, ran, done⟩ := Except.bind_eq_ok.mp done
  exact next a (first n a k ran) k b n' done

theorem yields_any (m : Numbered α) : Yields m fun _ => True := fun _ _ _ _ => trivial

theorem yields_throw {e : Error} : Yields (throw e : Numbered α) good := fun _ _ _ done => by cases done

theorem yields_demand {found : Option α} {cause : Cause} {name : String} {span : Span}
    (known : ∀ a, found = some a → good a) : Yields (demand found cause name span) good := by
  cases found with
  | none => exact yields_throw
  | some a => exact yields_pure (known a rfl)

end Yields

/-- Every type in sight that is no type parameter is built in or among some others. -/
def Names.Known (structs : List Tag) (names : Names) : Prop :=
  ∀ t ∈ names.types, t.meaning ≠ .parameter → t.ident.tag.isBuiltin = true ∨ t.ident.tag ∈ structs

section Known

variable {unit : Nat} {S : List Tag} {names outer own : Names}

theorem Names.Known.within (inner : own.Known S) (around : outer.Known S) : (own.within outer).Known S :=
  fun t member => (List.mem_append.mp member).elim (inner t) (around t)

theorem Names.Known.congr {own' : Names} (known : own.Known S) (same : own'.types = own.types) :
    own'.Known S := by
  rw [Names.Known, same]
  exact known

theorem Names.known_empty : Names.Known S {} := fun t member => by cases member

theorem applied_known (span : Span) {t : TypeName} {args : List TypeExpr} {name : String}
    (known : names.Known S) (found : names.type? name = some t) (inside : ∀ u ∈ args, u.Known S) :
    (t.applied span args).Known S := by
  rw [TypeName.applied]
  split
  · rw [TypeExpr.Known, TypeExpr.applications, List.forall_mem_singleton]
    exact fun other => by cases other
  · rename_i other
    rw [TypeExpr.Known, TypeExpr.applications, TypeExpr.applicationsAll_eq_flatMap, List.forall_mem_cons]
    refine ⟨fun _ => known t (List.mem_of_find?_eq_some found) other, fun a member => ?_⟩
    obtain ⟨u, arg, member⟩ := List.mem_flatMap.mp member
    exact inside u arg a member

mutual

theorem typeExpr_known (known : names.Known S) : (t : Surface.TypeExpr) →
    Yields (typeExpr names t) (TypeExpr.Known S)
  | .named span name => by
    rw [typeExpr]
    exact (yields_demand fun _ found => found).bind fun t found =>
      yields_pure (applied_known span known found (List.forall_mem_nil _))
  | .apply span name args => by
    rw [typeExpr]
    exact (yields_demand fun _ found => found).bind fun t found =>
      (typeExprs_known known args).bind fun us inside => yields_pure (applied_known span known found inside)
  | .func span args result => by
    rw [typeExpr]
    refine (typeExprs_known known args).bind fun us inside =>
      (typeExpr_known known result).bind fun u own => yields_pure fun a member => ?_
    rw [TypeExpr.applications, TypeExpr.applicationsAll_eq_flatMap] at member
    rcases List.mem_append.mp member with member | member
    · obtain ⟨u, arg, member⟩ := List.mem_flatMap.mp member
      exact inside u arg a member
    · exact own a member

theorem typeExprs_known (known : names.Known S) : (ts : List Surface.TypeExpr) →
    Yields (typeExprs names ts) fun us => ∀ u ∈ us, u.Known S
  | [] => yields_pure (List.forall_mem_nil _)
  | t :: rest => by
    rw [typeExprs]
    exact (typeExpr_known known t).bind fun u own => (typeExprs_known known rest).bind fun us inside =>
      yields_pure (List.forall_mem_cons.mpr ⟨own, inside⟩)

end

theorem declareValue_types {kind : SymbolKind} {name : String} {span : Span} :
    Yields (declareValue unit kind own name span) fun r => r.2.types = own.types :=
  (yields_any _).bind fun _ _ => (yields_any _).bind fun _ _ => yields_pure rfl

mutual

/-- Patterns declare no types. -/
theorem pattern_types {kind : SymbolKind} (outer own : Names) : (p : Surface.Pattern) →
    Yields (pattern unit kind outer own p) fun r => r.2.types = own.types
  | .var span name => by
    rw [pattern]
    exact declareValue_types.bind fun r same => yields_pure same
  | .record span name fields => by
    rw [pattern]
    exact (yields_any _).bind fun _ _ => (yields_any _).bind fun _ _ =>
      (fieldPatterns_types outer own fields).bind fun r same => yields_pure same

theorem fieldPatterns_types {kind : SymbolKind} (outer own : Names) : (ps : List Surface.FieldPattern) →
    Yields (fieldPatterns unit kind outer own ps) fun r => r.2.types = own.types
  | [] => yields_pure rfl
  | ⟨span, name, p⟩ :: rest => by
    rw [fieldPatterns]
    refine (pattern_types outer own p).bind ?_
    rintro ⟨q, own'⟩ same
    exact (fieldPatterns_types outer own' rest).bind fun r same' => yields_pure (same'.trans same)

end

theorem params_known (around : outer.Known S) (ps : List Surface.Param) (inner : own.Known S) :
    Yields (params unit outer own ps) fun r => (∀ p ∈ r.1, p.type.Known S) ∧ r.2.types = own.types := by
  induction ps generalizing own with
  | nil => exact yields_pure ⟨List.forall_mem_nil _, rfl⟩
  | cons p rest ih =>
    rw [params]
    refine (typeExpr_known (inner.within around) p.type).bind fun t type =>
      (pattern_types outer own p.pattern).bind ?_
    rintro ⟨q, own'⟩ same
    exact (ih (inner.congr same)).bind fun r inside =>
      yields_pure ⟨List.forall_mem_cons.mpr ⟨type, inside.1⟩, inside.2.trans same⟩

/-- All types written in an expression are known. -/
abbrev ExprKnown (S : List Tag) (ts : List TypeExpr) : Prop := ∀ t ∈ ts, t.Known S

mutual

theorem expr_known {names : Names} (known : names.Known S) : (e : Surface.Expr) →
    Yields (expr unit names e) fun e' => ExprKnown S e'.written
  | .number span text bits => yields_pure (List.forall_mem_nil _)
  | .bool span value => yields_pure (List.forall_mem_nil _)
  | .var span name => by
    rw [expr]
    exact (yields_any _).bind fun _ _ => yields_pure (List.forall_mem_nil _)
  | .call span callee args => by
    rw [expr]
    exact (expr_known known callee).bind fun f first => (exprs_known known args).bind fun es later =>
      yields_pure (List.forall_mem_append.mpr ⟨first, later⟩)
  | .operation span op left right => by
    rw [expr]
    exact (expr_known known left).bind fun l first => (expr_known known right).bind fun r later =>
      yields_pure (List.forall_mem_append.mpr ⟨first, later⟩)
  | .record span name nameSpan fields => by
    rw [expr]
    exact (yields_any _).bind fun _ _ => (yields_any _).bind fun _ _ =>
      (fieldInits_known known fields).bind fun fs inside => yields_pure inside
  | .block span bs result => by
    rw [expr]
    refine (lets_known known bs Names.known_empty).bind ?_
    rintro ⟨bs', own⟩ ⟨first, inner⟩
    exact (expr_known (inner.within known) result).bind fun e later =>
      yields_pure (List.forall_mem_append.mpr ⟨first, later⟩)
  | .annotated span value type => by
    rw [expr]
    exact (expr_known known value).bind fun e own => (typeExpr_known known type).bind fun t written =>
      yields_pure (List.forall_mem_cons.mpr ⟨written, own⟩)
  | .case span scrutinee as => by
    rw [expr]
    exact (expr_known known scrutinee).bind fun s first => (arms_known known as).bind fun as' later =>
      yields_pure (List.forall_mem_append.mpr ⟨first, later⟩)
  | .cond span test yes no => by
    rw [expr]
    exact (expr_known known test).bind fun t first => (expr_known known yes).bind fun y second =>
      (expr_known known no).bind fun n third =>
        yields_pure (List.forall_mem_append.mpr ⟨first, List.forall_mem_append.mpr ⟨second, third⟩⟩)
  | .closure span ps body => by
    rw [expr]
    refine (params_known known ps Names.known_empty).bind ?_
    rintro ⟨ps', own⟩ ⟨first, same⟩
    exact (expr_known ((Names.known_empty.congr same).within known) body).bind fun e later =>
      yields_pure (List.forall_mem_append.mpr ⟨List.forall_mem_map.mpr first, later⟩)

theorem exprs_known {names : Names} (known : names.Known S) : (es : List Surface.Expr) →
    Yields (exprs unit names es) fun es' => ExprKnown S (Expr.writtenAll es')
  | [] => yields_pure (List.forall_mem_nil _)
  | e :: rest => by
    rw [exprs]
    exact (expr_known known e).bind fun e' first => (exprs_known known rest).bind fun es' later =>
      yields_pure (List.forall_mem_append.mpr ⟨first, later⟩)

theorem fieldInits_known {names : Names} (known : names.Known S) : (fs : List Surface.FieldInit) →
    Yields (fieldInits unit names fs) fun fs' => ExprKnown S (Expr.fieldWritten fs')
  | [] => yields_pure (List.forall_mem_nil _)
  | ⟨span, name, value⟩ :: rest => by
    rw [fieldInits]
    exact (expr_known known value).bind fun e' first => (fieldInits_known known rest).bind fun es' later =>
      yields_pure (List.forall_mem_append.mpr ⟨first, later⟩)

theorem lets_known {outer own : Names} (around : outer.Known S) : (bs : List Surface.Let) → (inner : own.Known S) →
    Yields (lets unit outer own bs) fun r => ExprKnown S (Expr.letWritten r.1) ∧ r.2.Known S
  | [], inner => yields_pure ⟨List.forall_mem_nil _, inner⟩
  | ⟨span, p, value⟩ :: rest, inner => by
    rw [lets]
    refine (expr_known (inner.within around) value).bind fun e' first => (pattern_types outer own p).bind ?_
    rintro ⟨q, own'⟩ same
    exact (lets_known around rest (inner.congr same)).bind fun r later =>
      yields_pure ⟨List.forall_mem_append.mpr ⟨first, later.1⟩, later.2⟩

theorem arms_known {names : Names} (known : names.Known S) : (as : List Surface.Arm) →
    Yields (arms unit names as) fun as' => ExprKnown S (Expr.armWritten as')
  | [] => yields_pure (List.forall_mem_nil _)
  | ⟨span, p, body⟩ :: rest => by
    rw [arms]
    have first : Yields (arm unit names ⟨span, p, body⟩) fun a => ExprKnown S a.body.written := by
      refine (pattern_types names {} p).bind ?_
      rintro ⟨q, own⟩ same
      exact (expr_known ((Names.known_empty.congr same).within known) body).bind fun e' first => yields_pure first
    refine first.bind ?_
    rintro ⟨span', p', body'⟩ first
    exact (arms_known known rest).bind fun as' later => yields_pure (List.forall_mem_append.mpr ⟨first, later⟩)

end

/-- Only type parameters are declared by a definition. -/
theorem generics_known (gs : List Surface.Generic) (inner : own.Known S) :
    Yields (generics unit own gs) fun r => r.2.Known S := by
  induction gs generalizing own with
  | nil => exact yields_pure inner
  | cons g rest ih =>
    have declared : Yields (declareType unit .parameter own g.name g.span) fun r => r.2.Known S :=
      (yields_any _).bind fun _ _ => (yields_any _).bind fun tag _ => yields_pure fun t member other => by
        rcases List.mem_cons.mp member with rfl | old
        · exact absurd rfl other
        · exact inner t old other
    rw [generics]
    refine declared.bind ?_
    rintro ⟨i, own'⟩ inner'
    refine (ih inner').bind ?_
    rintro ⟨is, own''⟩ inner''
    exact yields_pure inner''

theorem structFields_known (known : names.Known S) (fs : List Surface.Field) :
    Yields (structFields unit names fs) fun fs' => ∀ f ∈ fs', f.type.Known S := by
  induction fs with
  | nil => exact yields_pure (List.forall_mem_nil _)
  | cons f rest ih =>
    rw [structFields]
    exact (typeExpr_known known f.type).bind fun t own => (yields_any _).bind fun tag _ =>
      ih.bind fun fs' later => yields_pure (List.forall_mem_cons.mpr ⟨own, later⟩)

theorem struct_known (known : names.Known S) (name : Ident) (s : Surface.Struct) :
    Yields (struct unit names name s) fun s' => s'.name = name ∧ ∀ f ∈ s'.fields, f.type.Known S := by
  refine (generics_known s.generics (Names.known_empty (S := S))).bind ?_
  rintro ⟨gs, own⟩ inner
  exact (structFields_known (inner.within known) s.fields).bind fun fs inside => yields_pure ⟨rfl, inside⟩

theorem function_known (known : names.Known S) (name : Ident) (f : Surface.Function) :
    Yields (function unit names name f) fun f' => ExprKnown S f'.declaredTypes ∧ ExprKnown S f'.body.written := by
  refine (generics_known f.generics (Names.known_empty (S := S))).bind ?_
  rintro ⟨gs, own⟩ inner
  refine (params_known known f.params inner).bind ?_
  rintro ⟨ps, own'⟩ ⟨inside, same⟩
  have known' := (inner.congr same).within known
  exact (typeExpr_known known' f.result).bind fun result own => (expr_known known' f.body).bind fun body later =>
    yields_pure ⟨List.forall_mem_append.mpr
      ⟨List.forall_mem_map.mpr inside, List.forall_mem_singleton.mpr own⟩, later⟩

/-- The tags of the struct definitions among some definitions. -/
def structTags : List (Ident × Surface.Item) → List Tag
  | [] => []
  | (name, .struct _) :: rest => name.tag :: structTags rest
  | (_, .func _) :: rest => structTags rest

theorem structs_known (known : names.Known S) (items : List (Ident × Surface.Item)) :
    Yields (structs unit names items) fun ss => ss.map (·.name.tag) = structTags items ∧
      ∀ s ∈ ss, ∀ f ∈ s.fields, f.type.Known S := by
  induction items with
  | nil => exact yields_pure ⟨rfl, List.forall_mem_nil _⟩
  | cons item rest ih =>
    match item with
    | (name, .struct s) =>
      rw [structs]
      exact (struct_known known name s).bind fun s' first => ih.bind fun ss later =>
        yields_pure ⟨congrArg₂ List.cons (congrArg Ident.tag first.1) later.1,
          List.forall_mem_cons.mpr ⟨first.2, later.2⟩⟩
    | (_, .func _) => exact ih

theorem functions_known (known : names.Known S) (items : List (Ident × Surface.Item)) :
    Yields (functions unit names items) fun fs =>
      ∀ f ∈ fs, ExprKnown S f.declaredTypes ∧ ExprKnown S f.body.written := by
  induction items with
  | nil => exact yields_pure (List.forall_mem_nil _)
  | cons item rest ih =>
    match item with
    | (name, .func f) =>
      rw [functions]
      exact (function_known known name f).bind fun f' first => ih.bind fun fs later =>
        yields_pure (List.forall_mem_cons.mpr ⟨first, later⟩)
    | (_, .struct _) => exact ih

/-- The types that the definitions of a file declare are its structs. -/
theorem declareItems_known (items : List Surface.Item) (inner : own.Known S) :
    Yields (declareItems unit own items) fun r => r.2.Known (S ++ structTags (r.1.zip items)) := by
  induction items generalizing own S with
  | nil => exact yields_pure (by rwa [List.zip_nil_right, structTags, List.append_nil])
  | cons item rest ih =>
    rw [declareItems]
    cases item with
    | struct s =>
      have declared : Yields (declareItem unit own (.struct s)) fun r => r.2.Known (S ++ [r.1.tag]) := by
        rw [declareItem]
        split
        · exact yields_throw
        · refine (yields_any _).bind fun _ _ => (yields_any _).bind fun tag _ => yields_pure ?_
          intro t member other
          rcases List.mem_cons.mp member with rfl | old
          · exact Or.inr (List.mem_append_right _ (List.mem_singleton.mpr rfl))
          · exact (inner t old other).imp_right (List.mem_append_left _)
      refine declared.bind ?_
      rintro ⟨i, own'⟩ inner'
      refine (ih inner').bind ?_
      rintro ⟨is, own''⟩ inner''
      rw [List.append_assoc] at inner''
      exact yields_pure inner''
    | func f =>
      refine declareValue_types.bind ?_
      rintro ⟨i, own'⟩ same
      refine (ih (inner.congr same)).bind ?_
      rintro ⟨is, own''⟩ inner''
      exact yields_pure inner''

/-- Every name in a written type is a type parameter, built in or that of a struct of the program. -/
theorem program_known (items : List Surface.Item) : Yields (program unit items) fun p =>
    ∀ w ∈ p.written, w.2.Known (p.structs.map (·.name.tag)) := by
  refine (declareItems_known (S := []) items Names.known_empty).bind ?_
  rintro ⟨is, own⟩ inner
  have basic : Names.basic.Known (structTags (is.zip items)) := by
    intro t member _
    simp only [Names.basic, List.mem_cons, List.not_mem_nil, or_false] at member
    rcases member with rfl | rfl
    · exact Or.inl rfl
    · exact Or.inl rfl
  have known := Names.Known.within inner basic
  refine (structs_known known _).bind fun ss first => (functions_known known _).bind fun fs later =>
    yields_pure fun w member => ?_
  rw [first.1]
  simp only [Program.written, Program.declaredTypes, List.mem_append, List.mem_flatMap, List.mem_map] at member
  rcases member with (⟨s, struct, f, field, rfl⟩ | ⟨f, function, t, declared, rfl⟩) | ⟨f, function, t, inside, rfl⟩
  · exact first.2 s struct f field
  · exact (later f function).1 t declared
  · exact (later f function).2 t inside

end Known

end Reference

/-- Every name in a written type is a type parameter, built in or that of a struct of the program. -/
theorem resolve_known {file : Surface.File} {names : List String} {unit : Nat} {p : Program}
    {table : SymbolTable} (own : unit ≠ Tag.builtinUnit)
    (resolved : resolve file (names.foldl SymbolTable.intern .start) unit = (.ok p, table)) :
    ∀ w ∈ p.written, w.2.Known (p.structs.map (·.name.tag)) := by
  have same := resolve_eq_reference own file names
  rw [resolved] at same
  change .ok p = (·.1) <$> Reference.program unit file.items 0 at same
  cases ran : Reference.program unit file.items 0 with
  | error e => rw [ran] at same; cases same
  | ok r =>
    rw [ran] at same
    obtain rfl := Except.ok.inj same
    exact Reference.program_known file.items 0 r.1 r.2 ran

end WitnessLang.Resolved
