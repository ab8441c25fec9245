import WitnessLang.Resolved.Tree

set_option autoImplicit false

namespace WitnessLang.Resolved

section Induction

set_option linter.unusedSectionVars false

variable {motive : Expr → Prop}
  (number : ∀ span text bits, motive (.number span text bits))
  (bool : ∀ span value, motive (.bool span value))
  (var : ∀ span name, motive (.var span name))
  (call : ∀ span callee args, motive callee → (∀ a ∈ args, motive a) →
    motive (.call span callee args))
  (operation : ∀ span op left right, motive left → motive right →
    motive (.operation span op left right))
  (record : ∀ span name fields, (∀ f ∈ fields, motive f.value) → motive (.record span name fields))
  (block : ∀ span lets result, (∀ b ∈ lets, motive b.value) → motive result →
    motive (.block span lets result))
  (annotated : ∀ span value type, motive value → motive (.annotated span value type))
  (case : ∀ span scrutinee arms, motive scrutinee → (∀ a ∈ arms, motive a.body) →
    motive (.case span scrutinee arms))
  (cond : ∀ span test yes no, motive test → motive yes → motive no →
    motive (.cond span test yes no))
  (closure : ∀ span params body, motive body → motive (.closure span params body))

include number bool var call operation record block annotated case cond closure

mutual

/-- Induction over expressions; what is shown for the parts is known of each element of a
list. -/
@[elab_as_elim, induction_eliminator]
theorem Expr.induct : (e : Expr) → motive e
  | .number span text bits => number span text bits
  | .bool span value => bool span value
  | .var span name => var span name
  | .call span callee args => call span callee args (Expr.induct callee) (Expr.inductAll args)
  | .operation span op left right =>
    operation span op left right (Expr.induct left) (Expr.induct right)
  | .record span name fields => record span name fields (Expr.inductFields fields)
  | .block span lets result =>
    block span lets result (Expr.inductLets lets) (Expr.induct result)
  | .annotated span value type => annotated span value type (Expr.induct value)
  | .case span scrutinee arms =>
    case span scrutinee arms (Expr.induct scrutinee) (Expr.inductArms arms)
  | .cond span test yes no =>
    cond span test yes no (Expr.induct test) (Expr.induct yes) (Expr.induct no)
  | .closure span params body => closure span params body (Expr.induct body)

theorem Expr.inductAll : (es : List Expr) → ∀ e ∈ es, motive e
  | [] => fun _ member => absurd member List.not_mem_nil
  | e :: rest => List.forall_mem_cons.mpr ⟨Expr.induct e, Expr.inductAll rest⟩

theorem Expr.inductFields : (fs : List FieldInit) → ∀ f ∈ fs, motive f.value
  | [] => fun _ member => absurd member List.not_mem_nil
  | ⟨_, _, value⟩ :: rest =>
    List.forall_mem_cons.mpr ⟨Expr.induct value, Expr.inductFields rest⟩

theorem Expr.inductLets : (bs : List Let) → ∀ b ∈ bs, motive b.value
  | [] => fun _ member => absurd member List.not_mem_nil
  | ⟨_, _, value⟩ :: rest =>
    List.forall_mem_cons.mpr ⟨Expr.induct value, Expr.inductLets rest⟩

theorem Expr.inductArms : (as : List Arm) → ∀ a ∈ as, motive a.body
  | [] => fun _ member => absurd member List.not_mem_nil
  | ⟨_, _, body⟩ :: rest => List.forall_mem_cons.mpr ⟨Expr.induct body, Expr.inductArms rest⟩

end

end Induction

section Induction

set_option linter.unusedSectionVars false

variable {motive : Pattern → Prop} (var : ∀ span name, motive (.var span name))
  (record : ∀ span name fields, (∀ f ∈ fields, motive f.pattern) → motive (.record span name fields))

include var record

mutual

/-- Induction over patterns. -/
@[elab_as_elim, induction_eliminator]
theorem Pattern.induct : (p : Pattern) → motive p
  | .var span name => var span name
  | .record span name fields => record span name fields (Pattern.inductFields fields)

theorem Pattern.inductFields : (fs : List FieldPattern) → ∀ f ∈ fs, motive f.pattern
  | [] => fun _ member => absurd member List.not_mem_nil
  | ⟨_, _, p⟩ :: rest => List.forall_mem_cons.mpr ⟨Pattern.induct p, Pattern.inductFields rest⟩

end

end Induction

mutual

/-- A written type refers to type parameters at hand only, and knows two built-in types. -/
def TypeExpr.Over (generics : List Tag) : TypeExpr → Prop
  | .named _ name args =>
    (name.tag.isBuiltin = true → name.tag = .float ∨ name.tag = .bool) ∧ OverAll generics args
  | .generic _ name _ => name.tag ∈ generics
  | .func _ args result => OverAll generics args ∧ result.Over generics

def TypeExpr.OverAll (generics : List Tag) : List TypeExpr → Prop
  | [] => True
  | t :: rest => t.Over generics ∧ OverAll generics rest

end

mutual

/-- The tags of the variables that a pattern binds, from left to right. -/
def Pattern.tags : Pattern → List Tag
  | .var _ name => [name.tag]
  | .record _ _ fields => fieldTags fields

/-- The tags of the variables that field patterns bind. -/
def Pattern.fieldTags : List FieldPattern → List Tag
  | [] => []
  | ⟨_, _, p⟩ :: rest => p.tags ++ fieldTags rest

end

/-- The fields that structs are declared with. -/
abbrev Declared := List (Tag × List String)

/-- Exactly the fields of a struct are given, each once. -/
def Complete (structs : Declared) (name : Ident) (given : List String) : Prop :=
  ∃ fields, (name.tag, fields) ∈ structs ∧ given.Nodup ∧ ∀ n, n ∈ given ↔ n ∈ fields

mutual

/-- A pattern names all fields of the structs it takes apart. -/
def Pattern.Scoped (structs : Declared) : Pattern → Prop
  | .var _ _ => True
  | .record _ name fields => Complete structs name (fields.map (·.name)) ∧ FieldsScoped structs fields

def Pattern.FieldsScoped (structs : Declared) : List FieldPattern → Prop
  | [] => True
  | ⟨_, _, p⟩ :: rest => p.Scoped structs ∧ FieldsScoped structs rest

end

def paramTags (ps : List Param) : List Tag := ps.flatMap (·.pattern.tags)

def bindLets (vars : List Tag) : List Let → List Tag
  | [] => vars
  | ⟨_, p, _⟩ :: rest => bindLets (p.tags ++ vars) rest

mutual

/-- The tags of all variables that are bound in an expression, in the order in which they
are declared. -/
def Expr.binders : Expr → List Tag
  | .number _ _ _ | .bool _ _ | .var _ _ => []
  | .call _ callee args => callee.binders ++ bindersAll args
  | .operation _ _ left right => left.binders ++ right.binders
  | .record _ _ fields => fieldBinders fields
  | .block _ lets result => letBinders lets ++ result.binders
  | .annotated _ value _ => value.binders
  | .case _ scrutinee arms => scrutinee.binders ++ armBinders arms
  | .cond _ test yes no => test.binders ++ (yes.binders ++ no.binders)
  | .closure _ params body => paramTags params ++ body.binders

def Expr.bindersAll : List Expr → List Tag
  | [] => []
  | e :: rest => e.binders ++ bindersAll rest

def Expr.fieldBinders : List FieldInit → List Tag
  | [] => []
  | ⟨_, _, value⟩ :: rest => value.binders ++ fieldBinders rest

def Expr.letBinders : List Let → List Tag
  | [] => []
  | ⟨_, p, value⟩ :: rest => value.binders ++ (p.tags ++ letBinders rest)

def Expr.armBinders : List Arm → List Tag
  | [] => []
  | ⟨_, p, body⟩ :: rest => (p.tags ++ body.binders) ++ armBinders rest

end

section Scoping

variable (structs : Declared) (generics : List Tag)

mutual

/-- An expression refers to variables and type parameters at hand only. -/
def Expr.Scoped (vars : List Tag) : Expr → Prop
  | .number _ _ _ | .bool _ _ => True
  | .var _ name => name.tag ∈ vars
  | .call _ callee args => callee.Scoped vars ∧ ScopedAll vars args
  | .operation _ _ left right => left.Scoped vars ∧ right.Scoped vars
  | .record _ name fields =>
    Complete structs name (fields.map (·.name)) ∧ FieldsScoped vars fields
  | .block _ lets result =>
    LetsScoped vars lets ∧ result.Scoped (bindLets vars lets)
  | .annotated _ value type => value.Scoped vars ∧ type.Over generics
  | .case _ scrutinee arms => scrutinee.Scoped vars ∧ ArmsScoped vars arms
  | .cond _ test yes no =>
    test.Scoped vars ∧ yes.Scoped vars ∧ no.Scoped vars
  | .closure _ params body =>
    (∀ p ∈ params, p.type.Over generics ∧ p.pattern.Scoped structs) ∧
      body.Scoped (paramTags params ++ vars)

def Expr.ScopedAll (vars : List Tag) : List Expr → Prop
  | [] => True
  | e :: rest => e.Scoped vars ∧ ScopedAll vars rest

def Expr.FieldsScoped (vars : List Tag) : List FieldInit → Prop
  | [] => True
  | ⟨_, _, value⟩ :: rest => value.Scoped vars ∧ FieldsScoped vars rest

/-- The same for bindings, each of which sees those before it. -/
def Expr.LetsScoped (vars : List Tag) : List Let → Prop
  | [] => True
  | ⟨_, p, value⟩ :: rest =>
    value.Scoped vars ∧ p.Scoped structs ∧ LetsScoped (p.tags ++ vars) rest

/-- The same for alternatives, each of which sees what its own pattern binds. -/
def Expr.ArmsScoped (vars : List Tag) : List Arm → Prop
  | [] => True
  | ⟨_, p, body⟩ :: rest =>
    p.Scoped structs ∧ body.Scoped (p.tags ++ vars) ∧ ArmsScoped vars rest

end

end Scoping

structure Struct.Scoped (s : Struct) : Prop where
  names : (s.fields.map (·.name.name)).Nodup
  fields : ∀ f ∈ s.fields, f.type.Over (s.generics.map (·.tag))

/-- What a scoped definition of a function is; `functions` are those of the file. -/
structure Function.Scoped (structs : Declared) (functions : List Tag) (f : Function) : Prop where
  params : ∀ p ∈ f.params, p.type.Over (f.generics.map (·.tag)) ∧ p.pattern.Scoped structs
  result : f.result.Over (f.generics.map (·.tag))
  body : f.body.Scoped structs (f.generics.map (·.tag)) (paramTags f.params ++ functions)

/-- The tags that a function declares besides its own. -/
def Function.binders (f : Function) : List Tag :=
  f.generics.map (·.tag) ++ (paramTags f.params ++ f.body.binders)

/-- All tags that the definitions of a program declare. -/
def Program.binders (p : Program) : List Tag :=
  (p.structs.map (·.name.tag) ++ p.functions.map (·.name.tag))
    ++ (p.structs.flatMap fun s => s.generics.map (·.tag)) ++ p.functions.flatMap (·.binders)

/-- The tags of all declarations of a program, those of the fields of structs among them. -/
def Program.minted (p : Program) : List Tag :=
  (p.structs.map (·.name.tag) ++ p.functions.map (·.name.tag))
    ++ (p.structs.flatMap fun s => s.generics.map (·.tag) ++ s.fields.map (·.name.tag))
    ++ p.functions.flatMap (·.binders)

def Program.declared (p : Program) : Declared :=
  p.structs.map fun s => (s.name.tag, s.fields.map (·.name.name))

/-- What a scoped program is: all its definitions are, and no tag is declared twice. -/
structure Program.Scoped (p : Program) : Prop where
  structs : ∀ s ∈ p.structs, s.Scoped
  functions : ∀ f ∈ p.functions, f.Scoped p.declared (p.functions.map (·.name.tag))
  once : p.binders.Nodup
  unit : ∀ t ∈ p.binders, t.unit = p.unit

end WitnessLang.Resolved
