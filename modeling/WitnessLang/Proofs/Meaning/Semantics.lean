import Mathlib.Data.List.Forall2
import Mathlib.Logic.Function.Basic
import WitnessLang.Ir.Lower
import WitnessLang.Ownership.Count
import WitnessLang.Proofs.Explicit.Scoped
import WitnessLang.Sized.Measure
import WitnessLang.Typed.Tree

set_option autoImplicit false

/-! What programs mean, in front of the stages that take them apart and behind them. Typed expressions
are evaluated, arguments first; lowered instructions are executed on a store. Nothing is said about what
numbers are. -/
namespace WitnessLang

inductive Scalar (F : Type) where
  | number (x : F)
  | truth (b : Bool)

structure Arithmetic (F : Type) where
  /-- The number that is written so, and has these bits. -/
  number : String → Nat → F
  add : F → F → F
  sub : F → F → F
  mul : F → F → F
  less : F → F → Bool

def Arithmetic.apply {F : Type} (A : Arithmetic F) : Operator → F → F → Scalar F
  | .add, a, b => .number (A.add a b)
  | .sub, a, b => .number (A.sub a b)
  | .mul, a, b => .number (A.mul a b)
  | .less, a, b => .truth (A.less a b)

/-- What the evaluation of an expression gives. A closure is its code, and the values of the variables
that it captured. -/
inductive Value (F C : Type) where
  | scalar (x : Scalar F)
  /-- The fields of a struct value in order. -/
  | record (names : List String) (fields : List (Value F C))
  | closure (code : C) (captured : List (Value F C))

def Value.field? {F C : Type} : Value F C → String → Option (Value F C)
  | .record names fields, name => (names.zip fields).lookup name
  | _, _ => none

/-- The values of variables, the latest first. -/
abbrev Locals (F C : Type) := List (Tag × Value F C)

namespace Typed

structure Code where
  params : List Param
  captures : List Capture
  body : Expr

section Patterns

variable {F : Type}

mutual

/-- Binds the variables of a pattern to the parts of a value. -/
def Pattern.bind : Pattern → Value F Code → Locals F Code → Option (Locals F Code)
  | .var _ name _, v, ρ => some ((name.tag, v) :: ρ)
  | .record _ _ _ fields, v, ρ => bindFields fields v ρ

def Pattern.bindFields : List FieldPattern → Value F Code → Locals F Code → Option (Locals F Code)
  | [], _, ρ => some ρ
  | ⟨name, p⟩ :: rest, v, ρ => do
    let part ← v.field? name
    bindFields rest v (← p.bind part ρ)

end

def bindArguments : List Param → List (Value F Code) → Locals F Code → Option (Locals F Code)
  | [], [], ρ => some ρ
  | p :: rest, v :: vs, ρ => do bindArguments rest vs (← p.pattern.bind v ρ)
  | _, _, _ => none

end Patterns

/-- The variables that the code of a closure finds in its environment. -/
def Code.locals {F : Type} (c : Code) (captured : List (Value F Code)) : Locals F Code :=
  (c.captures.map (·.name.tag)).zip captured

section Evaluation

variable {F : Type} (p : Program) (A : Arithmetic F)

mutual

/-- The evaluation of an expression where some variables have values. -/
inductive Eval : Locals F Code → Expr → Value F Code → Prop
  | number {ρ span text bits} : Eval ρ (.number span text bits) (.scalar (.number (A.number text bits)))
  | bool {ρ span value} : Eval ρ (.bool span value) (.scalar (.truth value))
  | var {ρ span name type v} (found : ρ.lookup name.tag = some v) : Eval ρ (.var span name type) v
  | callDirect {ρ span type generics args vs ρ' v} {f : Function} (known : f ∈ p.functions)
      (given : EvalAll ρ args vs) (bound : bindArguments f.params vs [] = some ρ') (body : Eval ρ' f.body v) :
      Eval ρ (.callDirect span type f.name generics args) v
  | callClosure {ρ span type callee args captured vs ρ' v} {c : Code} (function : Eval ρ callee (.closure c captured))
      (given : EvalAll ρ args vs) (bound : bindArguments c.params vs (c.locals captured) = some ρ')
      (body : Eval ρ' c.body v) : Eval ρ (.callClosure span type callee args) v
  | operation {ρ span op left right a b} (first : Eval ρ left (.scalar (.number a)))
      (second : Eval ρ right (.scalar (.number b))) :
      Eval ρ (.operation span op left right) (.scalar (A.apply op a b))
  | record {ρ span name args fields vs} (given : EvalAll ρ (fields.map (·.value)) vs) :
      Eval ρ (.record span name args fields) (.record (fields.map (·.name)) vs)
  | block {ρ span lets result ρ' v} (bound : EvalLets ρ lets ρ') (last : Eval ρ' result v) :
      Eval ρ (.block span lets result) v
  | cond {ρ span test yes no b v} (tested : Eval ρ test (.scalar (.truth b)))
      (chosen : Eval ρ (if b then yes else no) v) : Eval ρ (.cond span test yes no) v
  | closure {ρ span params captures body captured}
      (taken : List.Forall₂ (fun (c : Capture) v => ρ.lookup c.name.tag = some v) captures captured) :
      Eval ρ (.closure span params captures body) (.closure ⟨params, captures, body⟩ captured)

inductive EvalAll : Locals F Code → List Expr → List (Value F Code) → Prop
  | nil {ρ} : EvalAll ρ [] []
  | cons {ρ e rest v vs} (first : Eval ρ e v) (others : EvalAll ρ rest vs) : EvalAll ρ (e :: rest) (v :: vs)

/-- The evaluation of bindings, each of which sees those before it. -/
inductive EvalLets : Locals F Code → List Let → Locals F Code → Prop
  | nil {ρ} : EvalLets ρ [] ρ
  | cons {ρ value rest v ρ₁ ρ₂} {pattern : Pattern} (first : Eval ρ value v) (bound : pattern.bind v ρ = some ρ₁)
      (others : EvalLets ρ₁ rest ρ₂) : EvalLets ρ (⟨pattern, value⟩ :: rest) ρ₂

end

end Evaluation

end Typed

namespace Ir

open Ownership (isWitness)

/-- What a variable of a lowered function may hold. -/
inductive Datum (F : Type) where
  | scalar (x : Scalar F)
  /-- The fields of a struct value in order. -/
  | record (names : List String) (fields : List (Datum F))
  /-- The name of a function, with what it is given as its last argument. -/
  | closure (function : String) (env : Datum F)
  /-- A type description: none is told from another. -/
  | description

abbrev Store (F : Type) := VarId → Option (Datum F)

section Execution

variable {F : Type}

def Literal.value (A : Arithmetic F) : Literal → Scalar F
  | .number text bits => .number (A.number text bits)
  | .bool value => .truth value

def read (vs : Variables) (σ : Store F) (v : VarId) : Option (Datum F) :=
  if isWitness vs v then some .description else σ v

def Store.put (σ : Store F) (v : VarId) (x : Option (Datum F)) : Store F := Function.update σ v x

/-- What is left of a store when operands have been taken out of it. -/
def Store.without (σ : Store F) (operands : List Value) : Store F := fun v =>
  if operands.contains ⟨.move, v⟩ then none else σ v

def enter (params : List VarId) (given : List (Datum F)) : Store F := fun v => (params.zip given).lookup v

/-- The execution of a block from one store to another. A function runs on a store of its own. -/
inductive Exec (p : Program) (A : Arithmetic F) : Variables → Block → Store F → Store F → Prop
  | done {vs σ} : Exec p A vs [] σ σ
  | set {vs dst literal rest σ τ} (behind : Exec p A vs rest (σ.put dst (some (.scalar (literal.value A)))) τ) :
      Exec p A vs (.set dst literal :: rest) σ τ
  | copy {vs dst src rest σ τ x} (found : read vs σ src = some x)
      (behind : Exec p A vs rest (σ.put dst (some x)) τ) : Exec p A vs (.copy dst src :: rest) σ τ
  | move {vs dst src rest σ τ x} (found : read vs σ src = some x)
      (behind : Exec p A vs rest ((σ.put src none).put dst (some x)) τ) :
      Exec p A vs (.move dst src :: rest) σ τ
  | destroy {vs var rest σ τ} (behind : Exec p A vs rest (σ.put var none) τ) :
      Exec p A vs (.destroy var :: rest) σ τ
  | primitive {vs dst op left right rest σ τ a b} (first : read vs σ left = some (.scalar (.number a)))
      (second : read vs σ right = some (.scalar (.number b)))
      (behind : Exec p A vs rest (σ.put dst (some (.scalar (A.apply op a b)))) τ) :
      Exec p A vs (.primitive dst (some op) left right :: rest) σ τ
  /-- What builds a type description leaves nothing else. -/
  | describe {vs function dst args rest σ τ} (kind : isWitness vs dst = true) (behind : Exec p A vs rest σ τ) :
      Exec p A vs (.callDirect function (callArgs dst args) :: rest) σ τ
  | callDirect {vs function dst args rest σ σ' τ given x result params} {f : Function}
      (kind : isWitness vs dst = false) (known : p.functions.find? (·.name == function) = some f)
      (shape : f.arguments = ⟨result, .out⟩ :: params.map (⟨·, .borrowed⟩))
      (found : List.Forall₂ (fun a x => read vs σ a = some x) args given)
      (body : Exec p A f.vars f.body (enter params given) σ') (returned : read f.vars σ' result = some x)
      (behind : Exec p A vs rest (σ.put dst (some x)) τ) :
      Exec p A vs (.callDirect function (callArgs dst args) :: rest) σ τ
  | callClosure {vs closure dst args rest σ σ' τ function env given x result params} {f : Function}
      (value : read vs σ closure = some (.closure function env))
      (known : p.functions.find? (·.name == function) = some f)
      (shape : f.arguments = ⟨result, .out⟩ :: params.map (⟨·, .borrowed⟩))
      (found : List.Forall₂ (fun a x => read vs σ a = some x) args given)
      (body : Exec p A f.vars f.body (enter params (given ++ [env])) σ')
      (returned : read f.vars σ' result = some x) (behind : Exec p A vs rest (σ.put dst (some x)) τ) :
      Exec p A vs (.callClosure closure (callArgs dst args) :: rest) σ τ
  | pack {vs dst struct rest σ τ given} {fields : List PackField}
      (found : List.Forall₂ (fun (f : PackField) x => read vs σ f.value.var = some x) fields given)
      (behind : Exec p A vs rest
        ((σ.without (fields.map (·.value))).put dst (some (.record (fields.map (·.name)) given))) τ) :
      Exec p A vs (.pack dst struct fields :: rest) σ τ
  | unpack {vs dst src field rest σ τ names fields x} (value : read vs σ src = some (.record names fields))
      (part : (names.zip fields).lookup field = some x) (behind : Exec p A vs rest (σ.put dst (some x)) τ) :
      Exec p A vs (.unpack dst src field :: rest) σ τ
  | makeClosure {vs dst function env rest σ τ x} (found : read vs σ env.var = some x)
      (behind : Exec p A vs rest ((σ.without [env]).put dst (some (.closure function x))) τ) :
      Exec p A vs (.makeClosure dst function env :: rest) σ τ
  | cond {vs dst test yes no rest σ σ' τ b} (tested : read vs σ test = some (.scalar (.truth b)))
      (chosen : Exec p A vs (if b then yes else no) σ σ') (behind : Exec p A vs rest σ' τ) :
      Exec p A vs (.cond dst test yes no :: rest) σ τ

/-- A function that is given some data, and leaves a datum in the place of its result. -/
def Returns (p : Program) (A : Arithmetic F) (f : Function) (given : List (Datum F)) (x : Datum F) : Prop :=
  ∃ result params σ, f.arguments = ⟨result, .out⟩ :: params.map (⟨·, .borrowed⟩) ∧
    Exec p A f.vars f.body (enter params given) σ ∧ read f.vars σ result = some x

variable {p : Program} {A : Arithmetic F} {vs : Variables} {is js : Block} {σ σ' τ τ' : Store F}

/-- Blocks one after the other. -/
theorem Exec.append (first : Exec p A vs is σ σ') (second : Exec p A vs js σ' τ) : Exec p A vs (is ++ js) σ τ := by
  induction first with
  | done => exact second
  | set _ ih => exact .set (ih second)
  | copy found _ ih => exact .copy found (ih second)
  | move found _ ih => exact .move found (ih second)
  | destroy _ ih => exact .destroy (ih second)
  | primitive l r _ ih => exact .primitive l r (ih second)
  | describe kind _ ih => exact .describe kind (ih second)
  | callDirect kind known shape found body returned _ _ ih =>
    exact .callDirect kind known shape found body returned (ih second)
  | callClosure value known shape found body returned _ _ ih =>
    exact .callClosure value known shape found body returned (ih second)
  | pack found _ ih => exact .pack found (ih second)
  | unpack value part _ ih => exact .unpack value part (ih second)
  | makeClosure found _ ih => exact .makeClosure found (ih second)
  | cond tested chosen _ _ ih => exact .cond tested chosen (ih second)

theorem found_unique {α β : Type} {f : α → Option β} {as : List α} {bs bs' : List β}
    (first : List.Forall₂ (fun a b => f a = some b) as bs) (second : List.Forall₂ (fun a b => f a = some b) as bs') :
    bs = bs' := by
  induction first generalizing bs' with
  | nil => cases second; rfl
  | cons found _ ih =>
    cases second with
    | cons found' others => rw [Option.some.inj (found.symm.trans found'), ih others]

theorem callArgs_inj {dst dst' : VarId} {args args' : List VarId} :
    callArgs dst args = callArgs dst' args' ↔ dst = dst' ∧ args = args' := by
  have inj : Function.Injective fun a => CallArg.mk (copyOf a) .borrowed := fun a b same => by
    simpa [copyOf] using same
  rw [callArgs, callArgs, List.cons.injEq, (List.map_injective_iff.mpr inj).eq_iff]
  simp [copyOf]

theorem arguments_inj {result result' : VarId} {params params' : List VarId}
    (same : Argument.mk result .out :: params.map (⟨·, .borrowed⟩) =
      Argument.mk result' .out :: params'.map (⟨·, .borrowed⟩)) : result = result' ∧ params = params' := by
  have inj : Function.Injective fun v => Argument.mk v .borrowed := fun a b same => by simpa using same
  simpa [(List.map_injective_iff.mpr inj).eq_iff] using same

/-- A block is executed in one way only. -/
theorem Exec.unique (first : Exec p A vs is σ τ) (second : Exec p A vs is σ τ') : τ = τ' := by
  induction first generalizing τ' with
  | done => cases second; rfl
  | set _ ih =>
    cases second with
    | set behind => exact ih behind
  | copy found _ ih =>
    cases second with
    | copy found' behind =>
      obtain rfl := Option.some.inj (found.symm.trans found')
      exact ih behind
  | move found _ ih =>
    cases second with
    | move found' behind =>
      obtain rfl := Option.some.inj (found.symm.trans found')
      exact ih behind
  | destroy _ ih =>
    cases second with
    | destroy behind => exact ih behind
  | primitive l r _ ih =>
    cases second with
    | primitive l' r' behind =>
      cases Option.some.inj (l.symm.trans l')
      cases Option.some.inj (r.symm.trans r')
      exact ih behind
  | describe kind _ ih =>
    generalize same : callArgs _ _ = given at second
    cases second with
    | describe kind' behind => exact ih behind
    | callDirect kind' =>
      obtain ⟨rfl, rfl⟩ := callArgs_inj.mp same
      rw [kind] at kind'
      cases kind'
  | callDirect kind known shape found body returned _ ihBody ih =>
    generalize same : callArgs _ _ = args at second
    cases second with
    | describe kind' =>
      obtain ⟨rfl, rfl⟩ := callArgs_inj.mp same
      rw [kind] at kind'
      cases kind'
    | callDirect kind' known' shape' found' body' returned' behind =>
      obtain ⟨rfl, rfl⟩ := callArgs_inj.mp same
      obtain rfl := Option.some.inj (known.symm.trans known')
      obtain ⟨rfl, rfl⟩ := arguments_inj (shape.symm.trans shape')
      obtain rfl := found_unique found found'
      obtain rfl := ihBody body'
      obtain rfl := Option.some.inj (returned.symm.trans returned')
      exact ih behind
  | callClosure value known shape found body returned _ ihBody ih =>
    generalize same : callArgs _ _ = args at second
    cases second with
    | callClosure value' known' shape' found' body' returned' behind =>
      obtain ⟨rfl, rfl⟩ := callArgs_inj.mp same
      cases Option.some.inj (value.symm.trans value')
      obtain rfl := Option.some.inj (known.symm.trans known')
      obtain ⟨rfl, rfl⟩ := arguments_inj (shape.symm.trans shape')
      obtain rfl := found_unique found found'
      obtain rfl := ihBody body'
      obtain rfl := Option.some.inj (returned.symm.trans returned')
      exact ih behind
  | pack found _ ih =>
    cases second with
    | pack found' behind =>
      obtain rfl := found_unique (f := fun f : PackField => read _ _ f.value.var) found found'
      exact ih behind
  | unpack value part _ ih =>
    cases second with
    | unpack value' part' behind =>
      cases Option.some.inj (value.symm.trans value')
      obtain rfl := Option.some.inj (part.symm.trans part')
      exact ih behind
  | makeClosure found _ ih =>
    cases second with
    | makeClosure found' behind =>
      obtain rfl := Option.some.inj (found.symm.trans found')
      exact ih behind
  | cond tested _ _ ihChosen ih =>
    cases second with
    | cond tested' chosen' behind =>
      cases Option.some.inj (tested.symm.trans tested')
      obtain rfl := ihChosen chosen'
      exact ih behind

end Execution

end Ir

namespace Plain

mutual

/-- An expression with nothing but what is computed. -/
inductive Expr where
  | var (tag : Tag)
  | number (text : String) (bits : Nat)
  | bool (value : Bool)
  | callDirect (function : Ident) (args : List Expr)
  | callClosure (callee : Expr) (args : List Expr)
  | primitive (op : Operator) (left right : Expr)
  | block (lets : List Let) (result : Expr)
  | pack (names : List String) (fields : List Expr)
  | unpack (value : Expr) (field : String)
  | cond (test yes no : Expr)
  | closure (params captures : List Tag) (body : Expr)

structure Let where
  tag : Tag
  value : Expr

end

structure Code where
  params : List Tag
  captures : List Tag
  body : Expr

/-- A function. Its parameters are those that values are passed to. -/
structure Function where
  name : Ident
  params : List Tag
  body : Expr

section Evaluation

variable {F : Type} (P : List Function) (A : Arithmetic F)

mutual

/-- The evaluation of an expression where some variables have values. -/
inductive Eval : Locals F Code → Expr → Value F Code → Prop
  | number {ρ text bits} : Eval ρ (.number text bits) (.scalar (.number (A.number text bits)))
  | bool {ρ value} : Eval ρ (.bool value) (.scalar (.truth value))
  | var {ρ tag v} (found : ρ.lookup tag = some v) : Eval ρ (.var tag) v
  | callDirect {ρ args vs v} {f : Function} (known : f ∈ P) (given : EvalAll ρ args vs)
      (count : vs.length = f.params.length) (body : Eval (f.params.zip vs) f.body v) : Eval ρ (.callDirect f.name args) v
  | callClosure {ρ callee args captured vs v} {c : Code} (function : Eval ρ callee (.closure c captured))
      (given : EvalAll ρ args vs) (count : vs.length = c.params.length)
      (body : Eval (c.params.zip vs ++ c.captures.zip captured) c.body v) : Eval ρ (.callClosure callee args) v
  | primitive {ρ op left right a b} (first : Eval ρ left (.scalar (.number a)))
      (second : Eval ρ right (.scalar (.number b))) : Eval ρ (.primitive op left right) (.scalar (A.apply op a b))
  | block {ρ lets result ρ' v} (bound : EvalLets ρ lets ρ') (last : Eval ρ' result v) : Eval ρ (.block lets result) v
  | pack {ρ names fields vs} (given : EvalAll ρ fields vs) : Eval ρ (.pack names fields) (.record names vs)
  | unpack {ρ value field v part} (whole : Eval ρ value v) (found : v.field? field = some part) :
      Eval ρ (.unpack value field) part
  | cond {ρ test yes no b v} (tested : Eval ρ test (.scalar (.truth b))) (chosen : Eval ρ (if b then yes else no) v) :
      Eval ρ (.cond test yes no) v
  | closure {ρ params captures body captured} (taken : List.Forall₂ (fun t v => ρ.lookup t = some v) captures captured) :
      Eval ρ (.closure params captures body) (.closure ⟨params, captures, body⟩ captured)

inductive EvalAll : Locals F Code → List Expr → List (Value F Code) → Prop
  | nil {ρ} : EvalAll ρ [] []
  | cons {ρ e rest v vs} (first : Eval ρ e v) (others : EvalAll ρ rest vs) : EvalAll ρ (e :: rest) (v :: vs)

/-- The evaluation of bindings, each of which sees those before it. -/
inductive EvalLets : Locals F Code → List Let → Locals F Code → Prop
  | nil {ρ} : EvalLets ρ [] ρ
  | cons {ρ tag value rest v ρ'} (first : Eval ρ value v) (others : EvalLets ((tag, v) :: ρ) rest ρ') :
      EvalLets ρ (⟨tag, value⟩ :: rest) ρ'

end

variable {P} {A} {ρ ρ' ρ'' : Locals F Code} {bs cs : List Let}

theorem EvalLets.append (first : EvalLets P A ρ bs ρ') (second : EvalLets P A ρ' cs ρ'') :
    EvalLets P A ρ (bs ++ cs) ρ'' := by
  induction bs generalizing ρ with
  | nil =>
    cases first
    exact second
  | cons b rest ih =>
    cases first with
    | cons own others => exact .cons own (ih others)

/-- Bindings put variables in front of those that are there. -/
theorem EvalLets.exists_front (bound : EvalLets P A ρ bs ρ') :
    ∃ front, ρ' = front ++ ρ ∧ front.map (·.1) = (bs.map (·.tag)).reverse := by
  induction bs generalizing ρ with
  | nil =>
    cases bound
    exact ⟨[], rfl, rfl⟩
  | cons b rest ih =>
    cases bound with
    | cons own others =>
      obtain ⟨front, rfl, tags⟩ := ih others
      exact ⟨front ++ [_], List.append_cons .., by simp [tags]⟩

end Evaluation

end Plain

namespace Explicit

mutual

def Expr.plain : Expr → Plain.Expr
  | .var _ _ name => .var name.tag
  | .number _ text bits => .number text bits
  | .bool _ value => .bool value
  | .callDirect _ _ function args _ => .callDirect function (plainAll args)
  | .callClosure _ _ callee args => .callClosure callee.plain (plainAll args)
  | .primitive _ op left right => .primitive op left.plain right.plain
  | .block _ lets result => .block (plainLets lets) result.plain
  | .pack _ _ _ fields => .pack (fields.map (·.name)) (plainFields fields)
  | .unpack _ _ value field => .unpack value.plain field
  | .cond _ test yes no => .cond test.plain yes.plain no.plain
  | .closure _ params _ captures _ body =>
    .closure (params.map (·.name.tag)) (captures.map (·.name.tag)) body.plain

def Expr.plainAll : List Expr → List Plain.Expr
  | [] => []
  | e :: rest => e.plain :: plainAll rest

def Expr.plainFields : List PackField → List Plain.Expr
  | [] => []
  | ⟨_, value⟩ :: rest => value.plain :: plainFields rest

def Expr.plainLets : List Let → List Plain.Let
  | [] => []
  | ⟨name, _, value⟩ :: rest => ⟨name.tag, value.plain⟩ :: plainLets rest

end

/-- What a function computes. Its first argument is its result; descriptions are no values. -/
def Function.plain (f : Function) : Plain.Function :=
  ⟨f.name, ((f.arguments.filter (!Sized.isWitnessType ·.type)).drop 1).map (·.name.tag), f.body.plain⟩

@[simp] theorem plainLets_append (bs cs : List Let) :
    Expr.plainLets (bs ++ cs) = Expr.plainLets bs ++ Expr.plainLets cs := by
  induction bs with
  | nil => rfl
  | cons b rest ih =>
    cases b
    simp [Expr.plainLets, ih]

theorem plainLets_tags (bs : List Let) : (Expr.plainLets bs).map (·.tag) = bs.map (·.name.tag) := by
  induction bs with
  | nil => rfl
  | cons b rest ih =>
    cases b
    simp [Expr.plainLets, ih]

theorem plainFields_eq (fs : List PackField) : Expr.plainFields fs = Expr.plainAll (fs.map (·.value)) := by
  induction fs with
  | nil => rfl
  | cons f rest ih =>
    cases f
    simp [Expr.plainFields, Expr.plainAll, ih]

theorem letTags_sublist (bs : List Let) : (bs.map (·.name.tag)).Sublist (Expr.letBinders bs) := by
  induction bs with
  | nil => exact .slnil
  | cons b rest ih =>
    cases b
    exact (ih.cons_cons _).trans (List.sublist_append_right _ _)

end Explicit

namespace Sized

mutual

def Expr.plain : Expr → Plain.Expr
  | .var _ name => .var name.tag
  | .number _ text bits => .number text bits
  | .bool _ value => .bool value
  | .callDirect _ function args _ => .callDirect function (plainAll args)
  | .callClosure _ callee args => .callClosure callee.plain (plainAll args)
  | .primitive _ op left right => .primitive op left.plain right.plain
  | .block _ lets result => .block (plainLets lets) result.plain
  | .pack _ _ fields => .pack (fields.map (·.name)) (plainFields fields)
  | .unpack _ value field => .unpack value.plain field
  | .cond _ test yes no => .cond test.plain yes.plain no.plain
  | .closure _ params _ captures _ _ body =>
    .closure (params.map (·.name.tag)) (captures.map (·.name.tag)) body.plain

def Expr.plainAll : List Expr → List Plain.Expr
  | [] => []
  | e :: rest => e.plain :: plainAll rest

def Expr.plainFields : List PackField → List Plain.Expr
  | [] => []
  | ⟨_, value⟩ :: rest => value.plain :: plainFields rest

def Expr.plainLets : List Let → List Plain.Let
  | [] => []
  | ⟨v, value⟩ :: rest => ⟨v.name.tag, value.plain⟩ :: plainLets rest

end

/-- What a function computes. Its first argument is its result; descriptions are no values. -/
def Function.plain (f : Function) : Plain.Function :=
  ⟨f.name, ((f.arguments.filter (!isWitnessType ·.var.shape.type)).drop 1).map (·.var.name.tag), f.body.plain⟩

theorem plainFields_eq (fs : List PackField) : Expr.plainFields fs = Expr.plainAll (fs.map (·.value)) := by
  induction fs with
  | nil => rfl
  | cons f rest ih =>
    cases f
    simp [Expr.plainFields, Expr.plainAll, ih]

end Sized

end WitnessLang
