import WitnessLang.Proofs.Types.Formed
import WitnessLang.Typed.Infer

set_option autoImplicit false

namespace WitnessLang.Typed

section Induction

set_option linter.unusedSectionVars false

variable {motive : Pattern → Prop} (var : ∀ span name type, motive (.var span name type))
  (record : ∀ span name type fields, (∀ f ∈ fields, motive f.pattern) →
    motive (.record span name type fields))

include var record

mutual

/-- Induction over patterns. -/
@[elab_as_elim, induction_eliminator]
theorem Pattern.induct : (p : Pattern) → motive p
  | .var span name type => var span name type
  | .record span name type fields => record span name type fields (Pattern.inductFields fields)

theorem Pattern.inductFields : (fs : List FieldPattern) → ∀ f ∈ fs, motive f.pattern
  | [] => fun _ member => absurd member List.not_mem_nil
  | ⟨_, p⟩ :: rest => List.forall_mem_cons.mpr ⟨Pattern.induct p, Pattern.inductFields rest⟩

end

end Induction

section Induction

set_option linter.unusedSectionVars false

variable {motive : Expr → Prop}
  (number : ∀ span text bits, motive (.number span text bits))
  (bool : ∀ span value, motive (.bool span value))
  (var : ∀ span name type, motive (.var span name type))
  (callDirect : ∀ span type function generics args, (∀ a ∈ args, motive a) →
    motive (.callDirect span type function generics args))
  (callClosure : ∀ span type callee args, motive callee → (∀ a ∈ args, motive a) →
    motive (.callClosure span type callee args))
  (operation : ∀ span op left right, motive left → motive right →
    motive (.operation span op left right))
  (record : ∀ span name args fields, (∀ f ∈ fields, motive f.value) →
    motive (.record span name args fields))
  (block : ∀ span lets result, (∀ b ∈ lets, motive b.value) → motive result →
    motive (.block span lets result))
  (cond : ∀ span test yes no, motive test → motive yes → motive no →
    motive (.cond span test yes no))
  (closure : ∀ span params captures body, motive body →
    motive (.closure span params captures body))

include number bool var callDirect callClosure operation record block cond closure

mutual

/-- Induction over expressions. -/
@[elab_as_elim, induction_eliminator]
theorem Expr.induct : (e : Expr) → motive e
  | .number span text bits => number span text bits
  | .bool span value => bool span value
  | .var span name type => var span name type
  | .callDirect span type function generics args =>
    callDirect span type function generics args (Expr.inductAll args)
  | .callClosure span type callee args =>
    callClosure span type callee args (Expr.induct callee) (Expr.inductAll args)
  | .operation span op left right =>
    operation span op left right (Expr.induct left) (Expr.induct right)
  | .record span name args fields => record span name args fields (Expr.inductFields fields)
  | .block span lets result =>
    block span lets result (Expr.inductLets lets) (Expr.induct result)
  | .cond span test yes no =>
    cond span test yes no (Expr.induct test) (Expr.induct yes) (Expr.induct no)
  | .closure span params captures body => closure span params captures body (Expr.induct body)

theorem Expr.inductAll : (es : List Expr) → ∀ e ∈ es, motive e
  | [] => fun _ member => absurd member List.not_mem_nil
  | e :: rest => List.forall_mem_cons.mpr ⟨Expr.induct e, Expr.inductAll rest⟩

theorem Expr.inductFields : (fs : List FieldInit) → ∀ f ∈ fs, motive f.value
  | [] => fun _ member => absurd member List.not_mem_nil
  | ⟨_, value⟩ :: rest => List.forall_mem_cons.mpr ⟨Expr.induct value, Expr.inductFields rest⟩

theorem Expr.inductLets : (bs : List Let) → ∀ b ∈ bs, motive b.value
  | [] => fun _ member => absurd member List.not_mem_nil
  | ⟨_, value⟩ :: rest => List.forall_mem_cons.mpr ⟨Expr.induct value, Expr.inductLets rest⟩

end

end Induction

/-- Variables with their types, the innermost first. -/
abbrev Env := List (Tag × Ty)

mutual

def Pattern.scope : Pattern → Env → Env
  | .var _ name type, env => (name.tag, type) :: env
  | .record _ _ _ fields, env => fieldScope fields env

/-- The variables in scope behind field patterns. -/
def Pattern.fieldScope : List FieldPattern → Env → Env
  | [], env => env
  | ⟨_, p⟩ :: rest, env => fieldScope rest (p.scope env)

end

/-- The variables in scope behind parameters. -/
def paramScope : List Param → Env → Env
  | [], env => env
  | p :: rest, env => paramScope rest (p.pattern.scope env)

def letScope : List Let → Env → Env
  | [], env => env
  | ⟨p, _⟩ :: rest, env => letScope rest (p.scope env)

/-- How many types a name of a type is applied to. -/
def Globals.arity (g : Globals) : Arity := fun tag =>
  if tag.isBuiltin then if tag = .float ∨ tag = .bool then some 0 else none
  else (g.structs.find? fun s => s.name.tag == tag).map (·.generics.length)

/-- What the type parameters of a definition stand for. -/
def instantiation (generics : List Ident) (args : List Ty) : Substitution :=
  (generics.map (·.tag)).zip args

section Rules

variable (g : Globals)

mutual

/-- A pattern takes apart the values of a type: the parts of a struct have the types of its
fields, in the order of the declaration. -/
def Pattern.Fits : Pattern → Ty → Prop
  | .var _ _ type, t => type = t
  | .record _ name type fields, t => type = t ∧ ∃ s, g.struct? name = some s ∧
      ∃ args : List Ty, args.length = s.generics.length ∧ (Ty.named name args).Alike t ∧
        FieldsFit (instantiation s.generics args) fields s.fields

def Pattern.FieldsFit (sub : Substitution) : List FieldPattern → List Field → Prop
  | [], fs => fs = []
  | ⟨_, _⟩ :: _, [] => False
  | ⟨name, p⟩ :: rest, f :: fs =>
    name = f.name ∧ p.Fits (f.type.substitute sub) ∧ FieldsFit sub rest fs

end

mutual

/-- An expression follows the rules, where variables have the types of `env`. -/
def Expr.WellTyped (env : Env) : Expr → Prop
  | .number _ _ _ | .bool _ _ => True
  | .var _ name type => env.lookup name.tag = some type
  | .callDirect _ type function generics args => ∃ f, g.function? function = some f ∧
      generics.length = f.generics.length ∧
      type = f.result.substitute (instantiation f.generics generics) ∧
      ArgsTyped env args (f.params.map (·.substitute (instantiation f.generics generics)))
  | .callClosure _ type callee args => callee.WellTyped env ∧
      ∃ params, callee.type.Alike (.func params type) ∧ ArgsTyped env args params
  | .operation _ _ left right => left.WellTyped env ∧ right.WellTyped env ∧
      left.type.Alike Ty.float ∧ right.type.Alike Ty.float
  | .record _ name args fields => ∃ s, g.struct? name = some s ∧
      args.length = s.generics.length ∧
      FieldsTyped env (instantiation s.generics args) fields s.fields
  | .block _ lets result => LetsTyped env lets ∧ result.WellTyped (letScope lets env)
  | .cond _ test yes no => test.WellTyped env ∧ yes.WellTyped env ∧ no.WellTyped env ∧
      test.type.Alike Ty.bool ∧ yes.type.Alike no.type
  | .closure _ params captured body =>
    (∀ p ∈ params, p.pattern.Fits g p.type) ∧ body.WellTyped (paramScope params env) ∧
      captured = captures params body

def Expr.ArgsTyped (env : Env) : List Expr → List Ty → Prop
  | [], ts => ts = []
  | _ :: _, [] => False
  | e :: rest, t :: ts => e.WellTyped env ∧ e.type.Alike t ∧ ArgsTyped env rest ts

/-- All fields of a struct are given in the order of the declaration, with the types of the
declaration. -/
def Expr.FieldsTyped (env : Env) (sub : Substitution) : List FieldInit → List Field → Prop
  | [], fs => fs = []
  | ⟨_, _⟩ :: _, [] => False
  | ⟨name, e⟩ :: rest, f :: fs => name = f.name ∧ e.WellTyped env ∧
      e.type.Alike (f.type.substitute sub) ∧ FieldsTyped env sub rest fs

/-- The same for bindings, each of which sees those before it. -/
def Expr.LetsTyped (env : Env) : List Let → Prop
  | [] => True
  | ⟨p, value⟩ :: rest =>
    value.WellTyped env ∧ p.Fits g value.type ∧ LetsTyped (p.scope env) rest

end

end Rules

mutual

/-- The tags of all variables that are bound in an expression. -/
def Expr.binders : Expr → List Tag
  | .number _ _ _ | .bool _ _ | .var _ _ _ => []
  | .callDirect _ _ _ _ args => bindersAll args
  | .callClosure _ _ callee args => callee.binders ++ bindersAll args
  | .operation _ _ left right => left.binders ++ right.binders
  | .record _ _ _ fields => fieldBinders fields
  | .block _ lets result => letBinders lets ++ result.binders
  | .cond _ test yes no => test.binders ++ (yes.binders ++ no.binders)
  | .closure _ params _ body =>
    params.flatMap (fun p => p.pattern.names.map (·.tag)) ++ body.binders

def Expr.bindersAll : List Expr → List Tag
  | [] => []
  | e :: rest => e.binders ++ bindersAll rest

def Expr.fieldBinders : List FieldInit → List Tag
  | [] => []
  | ⟨_, value⟩ :: rest => value.binders ++ fieldBinders rest

def Expr.letBinders : List Let → List Tag
  | [] => []
  | ⟨p, value⟩ :: rest => value.binders ++ (p.names.map (·.tag) ++ letBinders rest)

end

end WitnessLang.Typed
