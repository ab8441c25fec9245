import Mathlib.Logic.Basic
import WitnessLang.Proofs.Types.Formed
import WitnessLang.Sized.Measure

set_option autoImplicit false

namespace WitnessLang.Sized

structure Space where
  bytes : Int := 0
  /-- The type parameters whose values come on top, in order. -/
  parts : List Tag := []
  /-- Whether values are copied and destroyed as plain bytes. -/
  plain : Bool := true
  deriving DecidableEq, Repr

def Space.add (x y : Space) : Space := ⟨x.bytes + y.bytes, x.parts ++ y.parts, x.plain && y.plain⟩

/-- The types of the fields of an applied struct. -/
def fieldTypes (s : Explicit.Struct) (args : List Ty) : List Ty :=
  s.fields.map fun f => f.type.substitute ((s.generics.map (·.tag)).zip args)

/-- The types of the values that a value of a type holds: those of the fields of an applied
struct. -/
def parts (structs : List Explicit.Struct) : Ty → List Ty
  | .named name args =>
    if (name.tag = .float ∨ name.tag = .bool) ∨ name.tag = .witness then []
    else match structs.reverse.find? fun s => s.name.tag == name.tag with
      | some s => fieldTypes s args
      | none => []
  | _ => []

/-- What types take together on top of what there is. -/
def totalSpace? (self : Ty → Option Space) : Space → List Ty → Option Space
  | x, [] => some x
  | x, t :: rest => do totalSpace? self (x.add (← self t)) rest

section Space

variable (target : Target) (structs : List Explicit.Struct)

/-- What the values of a type take, if its parts nest at most `n` deep. -/
def space? : Nat → Ty → Option Space
  | 0, _ => none
  | n + 1, .named name args =>
    if name.tag = .float ∨ name.tag = .bool then some ⟨8, [], true⟩
    else if name.tag = .witness then some ⟨5 * target.pointerSize.toInt, [], false⟩
    else do
      let s ← structs.reverse.find? fun s => s.name.tag == name.tag
      totalSpace? (space? n) {} (fieldTypes s args)
  | _ + 1, .generic name => some ⟨0, [name.tag], false⟩
  | _ + 1, .func _ _ => some ⟨2 * target.pointerSize.toInt, [], false⟩
  | _ + 1, .cell _ => none

def Takes (t : Ty) (x : Space) : Prop := ∃ n, space? target structs n t = some x

end Space

section Totals

variable {self self' : Ty → Option Space} {x y : Space} {ts us : List Ty}

theorem totalSpace?_cons (self : Ty → Option Space) (x : Space) (t : Ty) (rest : List Ty) :
    totalSpace? self x (t :: rest) = (self t).bind fun y => totalSpace? self (x.add y) rest := rfl

theorem totalSpace?_mono (more : ∀ t x, self t = some x → self' t = some x)
    (total : totalSpace? self x ts = some y) : totalSpace? self' x ts = some y := by
  induction ts generalizing x with
  | nil => exact total
  | cons t rest ih =>
    rw [totalSpace?_cons, Option.bind_eq_some_iff] at total ⊢
    obtain ⟨z, first, total⟩ := total
    exact ⟨z, more t z first, ih total⟩

/-- The room of a list is the sum of the rooms of its items. -/
theorem totalSpace?_eq_some : totalSpace? self x ts = some y ↔
    ∃ xs, List.Forall₂ (fun t z => self t = some z) ts xs ∧ y = xs.foldl Space.add x := by
  induction ts generalizing x with
  | nil => simp [totalSpace?, eq_comm]
  | cons t rest ih =>
    rw [totalSpace?_cons, Option.bind_eq_some_iff]
    simp only [ih]
    constructor
    · rintro ⟨z, first, xs, others, sum⟩
      exact ⟨z :: xs, .cons first others, sum⟩
    · rintro ⟨_ | ⟨z, xs⟩, all, sum⟩
      · cases all
      · obtain ⟨first, others⟩ := List.forall₂_cons.mp all
        exact ⟨z, first, xs, others, sum⟩

theorem totalSpace?_congr (same : List.Forall₂ (fun t u => self t = self' u) ts us) :
    totalSpace? self x ts = totalSpace? self' x us := by
  induction same generalizing x with
  | nil => rfl
  | cons first _ ih =>
    rw [totalSpace?_cons, totalSpace?_cons, first]
    exact Option.bind_congr fun z _ => ih

end Totals

section Space

variable {target : Target} {structs : List Explicit.Struct} {t u : Ty} {ts : List Ty} {x y : Space}
  {n m : Nat}

theorem space?_named (n : Nat) (name : Ident) (args : List Ty) : space? target structs (n + 1) (.named name args) =
    if name.tag = .float ∨ name.tag = .bool then some ⟨8, [], true⟩
    else if name.tag = .witness then some ⟨5 * target.pointerSize.toInt, [], false⟩
    else (structs.reverse.find? fun s => s.name.tag == name.tag).bind fun s =>
      totalSpace? (space? target structs n) {} (fieldTypes s args) := rfl

/-- Looking deeper finds the same. -/
theorem space?_mono (found : space? target structs n t = some x) (deeper : n ≤ m) :
    space? target structs m t = some x := by
  induction n generalizing m t x with
  | zero => cases found
  | succ n ih =>
    obtain ⟨m, rfl⟩ : ∃ k, m = k + 1 := ⟨m - 1, by omega⟩
    cases t with
    | named name args =>
      rw [space?_named] at found ⊢
      split at found
      · rwa [if_pos ‹_›]
      rw [if_neg ‹_›]
      split at found
      · rwa [if_pos ‹_›]
      rw [if_neg ‹_›]
      rw [Option.bind_eq_some_iff] at found ⊢
      obtain ⟨s, declared, found⟩ := found
      exact ⟨s, declared, totalSpace?_mono (fun t x within => ih within (by omega)) found⟩
    | generic name => exact found
    | func args result => exact found
    | cell c => exact found

/-- Values of a type take only one amount. -/
theorem Takes.unique (first : Takes target structs t x) (second : Takes target structs t y) :
    x = y := by
  obtain ⟨n, first⟩ := first
  obtain ⟨m, second⟩ := second
  have deeper := space?_mono first (Nat.le_max_left n m)
  rw [space?_mono second (Nat.le_max_right n m)] at deeper
  exact (Option.some.inj deeper).symm

theorem parts_struct {name : Ident} {args : List Ty} {s : Explicit.Struct}
    (basic : ¬ (name.tag = .float ∨ name.tag = .bool)) (other : name.tag ≠ .witness)
    (declared : structs.reverse.find? (fun s => s.name.tag == name.tag) = some s) :
    parts structs (.named name args) = fieldTypes s args := by
  rw [parts, if_neg (not_or.mpr ⟨basic, other⟩), declared]

theorem fieldTypes_alike {s : Explicit.Struct} {args args' : List Ty}
    (alike : args.map Ty.erase = args'.map Ty.erase) :
    List.Forall₂ Ty.Alike (fieldTypes s args) (fieldTypes s args') := by
  rw [fieldTypes, fieldTypes, List.forall₂_map_left_iff, List.forall₂_map_right_iff,
    List.forall₂_same]
  intro f _
  have pairs : ∀ args : List Ty, ((s.generics.map (·.tag)).zip args).map
      (fun e => (e.1, e.2.erase)) = (s.generics.map (·.tag)).zip (args.map Ty.erase) := by
    intro args
    rw [List.zip_map_right]
    rfl
  rw [Ty.Alike, Ty.erase_substitute, Ty.erase_substitute, pairs, pairs, alike]

/-- Only tags matter. -/
theorem space?_alike (alike : t.Alike u) : space? target structs n t = space? target structs n u := by
  induction n generalizing t u with
  | zero => rfl
  | succ n ih =>
    cases t with
    | named name args =>
      cases u with
      | named name' args' =>
        obtain ⟨tag, args⟩ := Ty.alike_named.mp alike
        have inside : ∀ s : Explicit.Struct,
            totalSpace? (space? target structs n) {} (fieldTypes s _) =
              totalSpace? (space? target structs n) {} (fieldTypes s _) := fun s =>
          totalSpace?_congr ((fieldTypes_alike args).imp fun _ _ same => ih same)
        rw [space?_named, space?_named, tag]
        simp only [inside]
      | _ => simp [Ty.Alike] at alike
    | generic name =>
      cases u with
      | generic name' =>
        have tag : name.tag = name'.tag := by simpa [Ty.Alike, Ident.erase_inj] using alike
        exact congrArg (fun tag => some (Space.mk 0 [tag] false)) tag
      | _ => simp [Ty.Alike] at alike
    | func args result =>
      cases u with
      | func args' result' => rfl
      | _ => simp [Ty.Alike] at alike
    | cell c =>
      cases u with
      | cell d => rfl
      | _ => simp [Ty.Alike] at alike

theorem Takes.alike (takes : Takes target structs t x) (alike : t.Alike u) :
    Takes target structs u x := by
  obtain ⟨n, found⟩ := takes
  exact ⟨n, space?_alike alike ▸ found⟩

/-- A list of types takes room if each does. -/
theorem exists_totalSpace {xs : List Space}
    (all : List.Forall₂ (Takes target structs) ts xs) (x : Space) :
    ∃ n, totalSpace? (space? target structs n) x ts = some (xs.foldl Space.add x) := by
  induction all generalizing x with
  | nil => exact ⟨0, rfl⟩
  | @cons t y ts xs first _ ih =>
    obtain ⟨n, found⟩ := first
    obtain ⟨m, others⟩ := ih (x.add y)
    refine ⟨max n m, ?_⟩
    rw [totalSpace?_cons, space?_mono found (Nat.le_max_left n m)]
    exact totalSpace?_mono (fun t x within => space?_mono within (Nat.le_max_right n m)) others

theorem totalSpace?_bytes {P : Int → Prop} (add : ∀ a b, P a → P b → P (a + b))
    {self : Ty → Option Space} (each : ∀ t x, self t = some x → P x.bytes) (start : P x.bytes)
    (total : totalSpace? self x ts = some y) : P y.bytes := by
  induction ts generalizing x with
  | nil =>
    obtain rfl := Option.some.inj total
    exact start
  | cons t rest ih =>
    rw [totalSpace?_cons, Option.bind_eq_some_iff] at total
    obtain ⟨z, first, total⟩ := total
    exact ih (add _ _ start (each t z first)) total

/-- What is true of all basic sizes, and of sums, is true of all sizes. -/
theorem Takes.bytes_of {P : Int → Prop} (zero : P 0) (add : ∀ a b, P a → P b → P (a + b))
    (number : P 8) (description : P (5 * target.pointerSize.toInt))
    (closure : P (2 * target.pointerSize.toInt)) (takes : Takes target structs t x) : P x.bytes := by
  obtain ⟨n, found⟩ := takes
  induction n generalizing t x with
  | zero => cases found
  | succ n ih =>
    cases t with
    | named name args =>
      rw [space?_named] at found
      split at found
      · obtain rfl := Option.some.inj found
        exact number
      split at found
      · obtain rfl := Option.some.inj found
        exact description
      rw [Option.bind_eq_some_iff] at found
      obtain ⟨s, -, found⟩ := found
      exact totalSpace?_bytes add (fun t x => ih) zero found
    | generic name =>
      obtain rfl := Option.some.inj found
      exact zero
    | func args result =>
      obtain rfl := Option.some.inj found
      exact closure
    | cell c => cases found

/-- Nothing takes less than nothing. -/
theorem Takes.nonneg (pointers : 0 ≤ target.pointerSize.toInt) (takes : Takes target structs t x) :
    0 ≤ x.bytes :=
  takes.bytes_of (Int.le_refl 0) (fun _ _ => Int.add_nonneg) (by decide)
    (Int.mul_nonneg (by decide) pointers) (Int.mul_nonneg (by decide) pointers)

/-- A multiple of what all basic sizes are multiples of. -/
theorem Takes.aligned {a : Int} (number : a ∣ 8) (pointers : a ∣ target.pointerSize.toInt)
    (takes : Takes target structs t x) : a ∣ x.bytes :=
  takes.bytes_of ⟨0, by simp⟩ (fun _ _ => Int.dvd_add) number (Int.dvd_mul_of_dvd_right pointers)
    (Int.dvd_mul_of_dvd_right pointers)

/-- A struct takes what its fields take. -/
theorem takes_struct {name : Ident} {args : List Ty} {s : Explicit.Struct} {xs : List Space}
    (basic : ¬ (name.tag = .float ∨ name.tag = .bool)) (other : name.tag ≠ .witness)
    (declared : structs.reverse.find? (fun s => s.name.tag == name.tag) = some s)
    (fields : List.Forall₂ (Takes target structs) (fieldTypes s args) xs) :
    Takes target structs (.named name args) (xs.foldl Space.add {}) := by
  obtain ⟨n, total⟩ := exists_totalSpace fields {}
  refine ⟨n + 1, ?_⟩
  rw [space?_named, if_neg basic, if_neg other, declared]
  exact total

end Space

/-- A layout tells what values take, as far as 64-bit words go. -/
structure Layout.Tells (l : Layout) (x : Space) : Prop where
  static : l.size.static = Int64.ofInt x.bytes
  parts : l.size.dynamic.map (·.tag) = x.parts
  plain : l.witness.isTrivial = x.plain
  trivial : ∀ n, l.witness = .trivial n → n = l.size.static

section Induction

set_option linter.unusedSectionVars false

variable {motive : Expr → Prop}
  (var : ∀ shape name, motive (.var shape name))
  (number : ∀ shape text bits, motive (.number shape text bits))
  (bool : ∀ shape value, motive (.bool shape value))
  (callDirect : ∀ shape function args witnesses, (∀ a ∈ args, motive a) →
    motive (.callDirect shape function args witnesses))
  (callClosure : ∀ shape callee args, motive callee → (∀ a ∈ args, motive a) →
    motive (.callClosure shape callee args))
  (primitive : ∀ shape op left right, motive left → motive right →
    motive (.primitive shape op left right))
  (block : ∀ shape lets result, (∀ b ∈ lets, motive b.value) → motive result →
    motive (.block shape lets result))
  (pack : ∀ shape name fields, (∀ f ∈ fields, motive f.value) → motive (.pack shape name fields))
  (unpack : ∀ shape value field, motive value → motive (.unpack shape value field))
  (cond : ∀ shape test yes no, motive test → motive yes → motive no →
    motive (.cond shape test yes no))
  (closure : ∀ shape params generics captures env envShape body, motive body →
    motive (.closure shape params generics captures env envShape body))

include var number bool callDirect callClosure primitive block pack unpack cond closure

mutual

/-- Induction over expressions. -/
@[elab_as_elim, induction_eliminator]
theorem Expr.induct : (e : Expr) → motive e
  | .var shape name => var shape name
  | .number shape text bits => number shape text bits
  | .bool shape value => bool shape value
  | .callDirect shape function args witnesses =>
    callDirect shape function args witnesses (Expr.inductAll args)
  | .callClosure shape callee args =>
    callClosure shape callee args (Expr.induct callee) (Expr.inductAll args)
  | .primitive shape op left right =>
    primitive shape op left right (Expr.induct left) (Expr.induct right)
  | .block shape lets result => block shape lets result (Expr.inductLets lets) (Expr.induct result)
  | .pack shape name fields => pack shape name fields (Expr.inductFields fields)
  | .unpack shape value field => unpack shape value field (Expr.induct value)
  | .cond shape test yes no =>
    cond shape test yes no (Expr.induct test) (Expr.induct yes) (Expr.induct no)
  | .closure shape params generics captures env envShape body =>
    closure shape params generics captures env envShape body (Expr.induct body)

theorem Expr.inductAll : (es : List Expr) → ∀ e ∈ es, motive e
  | [] => fun _ member => absurd member List.not_mem_nil
  | e :: rest => List.forall_mem_cons.mpr ⟨Expr.induct e, Expr.inductAll rest⟩

theorem Expr.inductLets : (bs : List Let) → ∀ b ∈ bs, motive b.value
  | [] => fun _ member => absurd member List.not_mem_nil
  | ⟨_, value⟩ :: rest => List.forall_mem_cons.mpr ⟨Expr.induct value, Expr.inductLets rest⟩

theorem Expr.inductFields : (fs : List PackField) → ∀ f ∈ fs, motive f.value
  | [] => fun _ member => absurd member List.not_mem_nil
  | ⟨_, value⟩ :: rest => List.forall_mem_cons.mpr ⟨Expr.induct value, Expr.inductFields rest⟩

end

end Induction

/-- The variables that say how values are copied and destroyed. -/
def Witness.names : Witness → List Ident
  | .dynamic value => value.names
  | _ => []

def Layout.names (l : Layout) : List Ident := l.witness.names ++ l.size.dynamic

/-- The layout of values over some type parameters. -/
structure Layout.Scoped (generics : List Tag) (l : Layout) : Prop where
  value : l.witness ≠ .type
  names : ∀ x ∈ l.names, x.tag ∈ generics

section Shapes

variable (c : Context)

/-- What is known of a value tells what it takes. -/
def Shape.Exact (s : Shape) : Prop :=
  ∃ x, Takes c.target c.structs s.type x ∧ s.layout.Tells x

/-- What is known of a value over some type parameters. -/
structure Shape.Scoped (generics : List Tag) (s : Shape) : Prop where
  layout : s.layout.Scoped generics
  exact : s.Exact c
  ordinary : isWitnessType s.type = false

/-- A variable that holds a type description. -/
def Variable.IsDescription (v : Variable) : Prop :=
  v.shape = ⟨Ty.witness, .type, c.target.witnessSize, []⟩

end Shapes

theorem Variable.IsDescription.layout {c : Context} {v : Variable} (kind : v.IsDescription c) :
    v.shape.layout.witness = .type ∧ v.shape.layout.names = [] := by
  rw [IsDescription] at kind
  rw [kind]
  exact ⟨rfl, rfl⟩

def variableTags (vs : List Variable) : List Tag := vs.map (·.name.tag)

/-- The tags that are in scope behind bindings. -/
def letTags : List Let → List Tag → List Tag
  | [], vars => vars
  | ⟨v, _⟩ :: rest, vars => letTags rest (v.name.tag :: vars)

mutual

/-- The tags of all variables that are bound in an expression. -/
def Expr.binders : Expr → List Tag
  | .var _ _ | .number _ _ _ | .bool _ _ => []
  | .callDirect _ _ args _ => bindersAll args
  | .callClosure _ callee args => callee.binders ++ bindersAll args
  | .primitive _ _ left right => left.binders ++ right.binders
  | .block _ lets result => letBinders lets ++ result.binders
  | .pack _ _ fields => fieldBinders fields
  | .unpack _ value _ => value.binders
  | .cond _ test yes no => test.binders ++ (yes.binders ++ no.binders)
  | .closure _ params _ _ _ _ body => variableTags params ++ body.binders

def Expr.bindersAll : List Expr → List Tag
  | [] => []
  | e :: rest => e.binders ++ bindersAll rest

def Expr.fieldBinders : List PackField → List Tag
  | [] => []
  | ⟨_, value⟩ :: rest => value.binders ++ fieldBinders rest

def Expr.letBinders : List Let → List Tag
  | [] => []
  | ⟨v, value⟩ :: rest => value.binders ++ v.name.tag :: letBinders rest

end

section Scoped

variable (c : Context)

mutual

/-- An expression is made of type parameters and variables at hand. The body of a closure
has those that the closure takes along. -/
def Expr.Scoped (generics vars : List Tag) : Expr → Prop
  | .var shape name => shape.Scoped c generics ∧ name.tag ∈ vars
  | .number shape _ _ | .bool shape _ => shape.Scoped c generics
  | .callDirect shape _ args witnesses => shape.Scoped c generics ∧
      ScopedAll generics vars args ∧ ∀ w ∈ witnesses, ∀ x ∈ w.names, x.tag ∈ generics
  | .callClosure shape callee args => shape.Scoped c generics ∧
      callee.Scoped generics vars ∧ ScopedAll generics vars args
  | .primitive shape _ left right => shape.Scoped c generics ∧
      left.Scoped generics vars ∧ right.Scoped generics vars
  | .block shape lets result => shape.Scoped c generics ∧
      LetsScoped generics vars lets ∧ result.Scoped generics (letTags lets vars)
  | .pack shape _ fields => shape.Scoped c generics ∧ FieldsScoped generics vars fields
  | .unpack shape value _ => shape.Scoped c generics ∧ value.Scoped generics vars
  | .cond shape test yes no => shape.Scoped c generics ∧ test.Scoped generics vars ∧
      yes.Scoped generics vars ∧ no.Scoped generics vars
  | .closure shape params own captures _ envShape body => shape.Scoped c generics ∧
      envShape.Scoped c generics ∧
      (∀ v ∈ own, v.name.tag ∈ generics ∧ v.IsDescription c) ∧
      (∀ v ∈ captures, v.name.tag ∈ vars ∧ v.shape.Scoped c (variableTags own)) ∧
      (∀ v ∈ params, v.shape.Scoped c (variableTags own)) ∧
      body.Scoped (variableTags own) (variableTags params ++ variableTags captures)

def Expr.ScopedAll (generics vars : List Tag) : List Expr → Prop
  | [] => True
  | e :: rest => e.Scoped generics vars ∧ ScopedAll generics vars rest

def Expr.FieldsScoped (generics vars : List Tag) : List PackField → Prop
  | [] => True
  | ⟨_, value⟩ :: rest => value.Scoped generics vars ∧ FieldsScoped generics vars rest

/-- The same for bindings, each of which sees those before it. -/
def Expr.LetsScoped (generics vars : List Tag) : List Let → Prop
  | [] => True
  | ⟨v, value⟩ :: rest => v.shape.Scoped c generics ∧ value.Scoped generics vars ∧
      LetsScoped generics (v.name.tag :: vars) rest

end

/-- A struct is made of its own type parameters. -/
structure Struct.Scoped (s : Struct) : Prop where
  arguments : ∀ v ∈ s.arguments, v.IsDescription c
  fields : ∀ f ∈ s.fields, ∀ x ∈ f.shape.layout.names, x.tag ∈ variableTags s.arguments
  exact : ∀ f ∈ s.fields, f.shape.Exact c

/-- A function is made of its type parameters and its arguments, of which the first is the
result. -/
structure Function.Scoped (result : Variable) (params generics : List Variable) (f : Function) :
    Prop where
  arguments : f.arguments =
    ⟨result, .out⟩ :: params.map (⟨·, .borrowed⟩) ++ generics.map (⟨·, .borrowed⟩)
  once : (f.arguments.map (·.var.name.tag) ++ f.body.binders).Nodup
  descriptions : ∀ v ∈ generics, v.IsDescription c
  values : ∀ v ∈ result :: params, v.shape.Scoped c (variableTags generics)
  body : f.body.Scoped c (variableTags generics) (variableTags params)

structure Program.Scoped (p : Program) : Prop where
  structs : ∀ s ∈ p.structs, s.Scoped c
  functions : ∀ f ∈ p.functions, ∃ result params generics, f.Scoped c result params generics
  instances : ∀ i ∈ p.instances, Shape.Exact c ⟨i.type, i.layout⟩

end Scoped

section Arguments

variable {c c' : Context} {f : Function} {result result' : Variable} {params params' generics generics' : List Variable}

/-- Values and descriptions are told apart among the arguments of a function. -/
theorem Function.Scoped.split (own : f.Scoped c result params generics) :
    f.arguments.filter (!isWitnessType ·.var.shape.type) = ⟨result, .out⟩ :: params.map (⟨·, .borrowed⟩) ∧
      f.arguments.filter (isWitnessType ·.var.shape.type) = generics.map (⟨·, .borrowed⟩) := by
  have values : ∀ a ∈ (⟨result, .out⟩ :: params.map (⟨·, .borrowed⟩) : List Argument),
      isWitnessType a.var.shape.type = false := by
    rw [List.forall_mem_cons, List.forall_mem_map]
    exact ⟨(own.values result List.mem_cons_self).ordinary, fun v member =>
      (own.values v (List.mem_cons_of_mem _ member)).ordinary⟩
  have descriptions : ∀ a ∈ (generics.map (⟨·, .borrowed⟩) : List Argument), isWitnessType a.var.shape.type = true := by
    rw [List.forall_mem_map]
    intro v member
    rw [own.descriptions v member]
    rfl
  rw [own.arguments, List.filter_append, List.filter_append]
  constructor
  · rw [List.filter_eq_self.mpr fun a member => by simp [values a member],
      List.filter_eq_nil_iff.mpr fun a member => by simp [descriptions a member], List.append_nil]
  · rw [List.filter_eq_nil_iff.mpr fun a member => by simp [values a member], List.filter_eq_self.mpr descriptions,
      List.nil_append]

/-- The arguments of a function are its result, its parameters and its descriptions in one way only. -/
theorem Function.Scoped.unique (own : f.Scoped c result params generics)
    (other : f.Scoped c' result' params' generics') : result = result' ∧ params = params' ∧ generics = generics' := by
  have inj : Function.Injective fun v => Argument.mk v .borrowed := fun a b same => (Argument.mk.inj same).1
  have values := own.split.1.symm.trans other.split.1
  rw [List.cons.injEq, (List.map_injective_iff.mpr inj).eq_iff] at values
  have descriptions := own.split.2.symm.trans other.split.2
  rw [(List.map_injective_iff.mpr inj).eq_iff] at descriptions
  exact ⟨(Argument.mk.inj values.1).1, values.2, descriptions⟩

end Arguments

end WitnessLang.Sized
