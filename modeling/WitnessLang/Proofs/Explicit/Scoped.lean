import WitnessLang.Explicit.Pass
import WitnessLang.Proofs.Lists
import WitnessLang.Proofs.Typed.Rules

set_option autoImplicit false

namespace WitnessLang.Explicit

open Typed (Env)

section Induction

set_option linter.unusedSectionVars false

variable {motive : Expr → Prop}
  (var : ∀ span type name, motive (.var span type name))
  (number : ∀ span text bits, motive (.number span text bits))
  (bool : ∀ span value, motive (.bool span value))
  (callDirect : ∀ span type function args witnesses, (∀ a ∈ args, motive a) →
    motive (.callDirect span type function args witnesses))
  (callClosure : ∀ span type callee args, motive callee → (∀ a ∈ args, motive a) →
    motive (.callClosure span type callee args))
  (primitive : ∀ span op left right, motive left → motive right →
    motive (.primitive span op left right))
  (block : ∀ span lets result, (∀ b ∈ lets, motive b.value) → motive result →
    motive (.block span lets result))
  (pack : ∀ span name args fields, (∀ f ∈ fields, motive f.value) →
    motive (.pack span name args fields))
  (unpack : ∀ span type value field, motive value → motive (.unpack span type value field))
  (cond : ∀ span test yes no, motive test → motive yes → motive no →
    motive (.cond span test yes no))
  (closure : ∀ span params generics captures env body, motive body →
    motive (.closure span params generics captures env body))

include var number bool callDirect callClosure primitive block pack unpack cond closure

mutual

/-- Induction over expressions. -/
@[elab_as_elim, induction_eliminator]
theorem Expr.induct : (e : Expr) → motive e
  | .var span type name => var span type name
  | .number span text bits => number span text bits
  | .bool span value => bool span value
  | .callDirect span type function args witnesses =>
    callDirect span type function args witnesses (Expr.inductAll args)
  | .callClosure span type callee args =>
    callClosure span type callee args (Expr.induct callee) (Expr.inductAll args)
  | .primitive span op left right =>
    primitive span op left right (Expr.induct left) (Expr.induct right)
  | .block span lets result =>
    block span lets result (Expr.inductLets lets) (Expr.induct result)
  | .pack span name args fields => pack span name args fields (Expr.inductFields fields)
  | .unpack span type value field => unpack span type value field (Expr.induct value)
  | .cond span test yes no =>
    cond span test yes no (Expr.induct test) (Expr.induct yes) (Expr.induct no)
  | .closure span params generics captures env body =>
    closure span params generics captures env body (Expr.induct body)

theorem Expr.inductAll : (es : List Expr) → ∀ e ∈ es, motive e
  | [] => fun _ member => absurd member List.not_mem_nil
  | e :: rest => List.forall_mem_cons.mpr ⟨Expr.induct e, Expr.inductAll rest⟩

theorem Expr.inductLets : (bs : List Let) → ∀ b ∈ bs, motive b.value
  | [] => fun _ member => absurd member List.not_mem_nil
  | ⟨_, _, value⟩ :: rest =>
    List.forall_mem_cons.mpr ⟨Expr.induct value, Expr.inductLets rest⟩

theorem Expr.inductFields : (fs : List PackField) → ∀ f ∈ fs, motive f.value
  | [] => fun _ member => absurd member List.not_mem_nil
  | ⟨_, value⟩ :: rest => List.forall_mem_cons.mpr ⟨Expr.induct value, Expr.inductFields rest⟩

end

end Induction

def tagsOf (names : List Ident) : List Tag := names.map (·.tag)

def argumentEnv (as : List Argument) : Env := as.map fun a => (a.name.tag, a.type)

def captureEnv (cs : List Capture) : Env := cs.map fun c => (c.name.tag, c.type)

def letEnv : List Let → Env → Env
  | [], vars => vars
  | ⟨name, type, _⟩ :: rest, vars => letEnv rest ((name.tag, type) :: vars)

/-- What a closure takes along is made of the type parameters it takes along. -/
structure Enclosed (arity : Arity) (generics : List Ident) (captures : List Capture) : Prop where
  once : (tagsOf generics).Nodup
  single : (captures.map (·.name.tag)).Nodup
  formed : ∀ c ∈ captures, c.type.Formed arity (tagsOf generics) []

section Scoped

variable (arity : Arity) (structs : List Struct)

mutual

/-- An expression is made of type parameters and variables at hand; every closure has an
environment that holds what it takes along. -/
def Expr.Scoped (generics : List Tag) (vars : Env) : Expr → Prop
  | .var _ type name => type.Formed arity generics [] ∧ (name.tag, type) ∈ vars
  | .number _ _ _ | .bool _ _ => True
  | .callDirect _ type _ args witnesses => type.Formed arity generics [] ∧
      ScopedAll generics vars args ∧ ∀ w ∈ witnesses, ∀ x ∈ w.names, x.tag ∈ generics
  | .callClosure _ type callee args => type.Formed arity generics [] ∧
      callee.Scoped generics vars ∧ ScopedAll generics vars args
  | .primitive _ _ left right => left.Scoped generics vars ∧ right.Scoped generics vars
  | .block _ lets result =>
    LetsScoped generics vars lets ∧ result.Scoped generics (letEnv lets vars)
  | .pack _ name args fields => (Ty.named name args).Formed arity generics [] ∧
      FieldsScoped generics vars fields
  | .unpack _ type value _ => type.Formed arity generics [] ∧ value.Scoped generics vars
  | .cond _ test yes no => test.Scoped generics vars ∧ yes.Scoped generics vars ∧
      no.Scoped generics vars
  | .closure _ params own captures env body =>
    tagsOf own ⊆ generics ∧ captureEnv captures ⊆ vars ∧ Enclosed arity own captures ∧
      (∃ span, environment span env own captures ∈ structs) ∧
      (∀ p ∈ params, p.type.Formed arity (tagsOf own) []) ∧
      body.Scoped (tagsOf own) (argumentEnv params ++ captureEnv captures)

def Expr.ScopedAll (generics : List Tag) (vars : Env) : List Expr → Prop
  | [] => True
  | e :: rest => e.Scoped generics vars ∧ ScopedAll generics vars rest

def Expr.FieldsScoped (generics : List Tag) (vars : Env) : List PackField → Prop
  | [] => True
  | ⟨_, value⟩ :: rest => value.Scoped generics vars ∧ FieldsScoped generics vars rest

/-- The same for bindings, each of which sees those before it. -/
def Expr.LetsScoped (generics : List Tag) (vars : Env) : List Let → Prop
  | [] => True
  | ⟨name, type, value⟩ :: rest => type.Formed arity generics [] ∧
      value.Scoped generics vars ∧ LetsScoped generics ((name.tag, type) :: vars) rest

end

end Scoped

mutual

/-- The tags of all variables that are bound in an expression. -/
def Expr.binders : Expr → List Tag
  | .var _ _ _ | .number _ _ _ | .bool _ _ => []
  | .callDirect _ _ _ args _ => bindersAll args
  | .callClosure _ _ callee args => callee.binders ++ bindersAll args
  | .primitive _ _ left right => left.binders ++ right.binders
  | .block _ lets result => letBinders lets ++ result.binders
  | .pack _ _ _ fields => fieldBinders fields
  | .unpack _ _ value _ => value.binders
  | .cond _ test yes no => test.binders ++ (yes.binders ++ no.binders)
  | .closure _ params _ _ _ body => params.map (·.name.tag) ++ body.binders

def Expr.bindersAll : List Expr → List Tag
  | [] => []
  | e :: rest => e.binders ++ bindersAll rest

def Expr.fieldBinders : List PackField → List Tag
  | [] => []
  | ⟨_, value⟩ :: rest => value.binders ++ fieldBinders rest

def Expr.letBinders : List Let → List Tag
  | [] => []
  | ⟨name, _, value⟩ :: rest => value.binders ++ name.tag :: letBinders rest

end

/-- A function is made of its type parameters and its arguments, of which the first is the
result. -/
structure Function.Scoped (arity : Arity) (structs : List Struct) (result : Argument)
    (params : List Argument) (generics : List Ident) (f : Function) : Prop where
  arguments : f.arguments = result :: params ++ generics.map (⟨·, Ty.witness, .borrowed⟩)
  conventions : result.convention = .out ∧ ∀ p ∈ params, p.convention = .borrowed
  formed : ∀ a ∈ result :: params, a.type.Formed arity (tagsOf generics) []
  once : (tagsOf generics).Nodup
  body : f.body.Scoped arity structs (tagsOf generics) (argumentEnv params)
  type : f.body.type.Alike result.type

section Lists

variable {arity : Arity} {structs : List Struct} {generics : List Tag} {vars : Env}

theorem bindersAll_eq_flatMap (es : List Expr) : Expr.bindersAll es = es.flatMap (·.binders) := by
  induction es with
  | nil => rfl
  | cons e rest ih => simp [Expr.bindersAll, ih]

theorem fieldBinders_eq_flatMap (fs : List PackField) :
    Expr.fieldBinders fs = fs.flatMap (·.value.binders) := by
  induction fs with
  | nil => rfl
  | cons f rest ih =>
    cases f
    simp [Expr.fieldBinders, ih]

@[simp] theorem letBinders_append (bs cs : List Let) :
    Expr.letBinders (bs ++ cs) = Expr.letBinders bs ++ Expr.letBinders cs := by
  induction bs with
  | nil => rfl
  | cons b rest ih =>
    cases b
    simp [Expr.letBinders, ih]

theorem scopedAll_iff {es : List Expr} :
    Expr.ScopedAll arity structs generics vars es ↔
      ∀ e ∈ es, e.Scoped arity structs generics vars := by
  induction es with
  | nil => simp [Expr.ScopedAll]
  | cons e rest ih => simp [Expr.ScopedAll, ih]

theorem fieldsScoped_iff {fs : List PackField} :
    Expr.FieldsScoped arity structs generics vars fs ↔
      ∀ f ∈ fs, f.value.Scoped arity structs generics vars := by
  induction fs with
  | nil => simp [Expr.FieldsScoped]
  | cons f rest ih =>
    cases f
    simp [Expr.FieldsScoped, ih]

theorem letEnv_append (bs cs : List Let) : letEnv (bs ++ cs) vars = letEnv cs (letEnv bs vars) := by
  induction bs generalizing vars with
  | nil => rfl
  | cons b rest ih =>
    cases b
    exact ih

theorem subset_letEnv (bs : List Let) : vars ⊆ letEnv bs vars := by
  induction bs generalizing vars with
  | nil => exact fun _ member => member
  | cons b rest ih =>
    cases b
    exact fun e member => ih (List.mem_cons_of_mem _ member)

theorem letsScoped_append {bs cs : List Let} :
    Expr.LetsScoped arity structs generics vars (bs ++ cs) ↔
      Expr.LetsScoped arity structs generics vars bs ∧
        Expr.LetsScoped arity structs generics (letEnv bs vars) cs := by
  induction bs generalizing vars with
  | nil => simp [Expr.LetsScoped, letEnv]
  | cons b rest ih =>
    cases b
    simp [Expr.LetsScoped, letEnv, ih, and_assoc]

end Lists

/-- The type of an expression is made of the type parameters at hand. -/
theorem Expr.Scoped.type_formed {arity : Arity} {structs : List Struct} (numbers : arity .float = some 0)
    (truths : arity .bool = some 0) {e : Expr} {generics : List Tag} {vars : Env}
    (inside : e.Scoped arity structs generics vars) : e.type.Formed arity generics [] := by
  have float : ∀ generics, Ty.float.Formed arity generics [] := fun _ => Ty.formed_named.mpr
    ⟨numbers, by simp⟩
  have bool : ∀ generics, Ty.bool.Formed arity generics [] := fun _ => Ty.formed_named.mpr
    ⟨truths, by simp⟩
  induction e generalizing generics vars with
  | number => exact float generics
  | bool => exact bool generics
  | var | callDirect | callClosure | pack | unpack => exact inside.1
  | primitive span op left right =>
    rw [Expr.type, primitiveType]
    split
    · exact bool generics
    · exact float generics
  | block span lets result ih ihResult => exact ihResult inside.2
  | cond span test yes no ihTest ihYes ihNo => exact ihYes inside.2.1
  | closure span params own captures env body ih =>
    obtain ⟨known, -, -, -, formed, inside⟩ := inside
    refine Ty.formed_func.mpr ⟨fun t member => ?_, ?_⟩
    · obtain ⟨p, member, rfl⟩ := List.mem_map.mp member
      exact (formed p ‹_›).mono (fun _ _ same => same) known fun _ same => same
    · exact (ih inside).mono (fun _ _ same => same) known fun _ same => same

section Front

variable {arity : Arity} {structs : List Struct} {generics : List Tag} {vars : Env}
  (lets : List Let) (body : Expr)

theorem type_withLets : (withLets lets body).type = body.type := by
  rw [withLets]
  split
  · rfl
  · rfl

theorem binders_withLets : (withLets lets body).binders = Expr.letBinders lets ++ body.binders := by
  cases lets with
  | nil => rfl
  | cons b rest => rfl

theorem scoped_withLets {lets : List Let} {body : Expr}
    (bound : Expr.LetsScoped arity structs generics vars lets)
    (inside : body.Scoped arity structs generics (letEnv lets vars)) :
    (withLets lets body).Scoped arity structs generics vars := by
  cases lets with
  | nil => exact inside
  | cons b rest => exact ⟨bound, inside⟩

end Front

end WitnessLang.Explicit
