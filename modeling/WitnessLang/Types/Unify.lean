import WitnessLang.Types.Basic

set_option autoImplicit false

namespace WitnessLang

/-- What cells are bound to; bindings may hold cells that are bound in turn. -/
abbrev Bindings := List (Nat × Ty)

namespace Bindings

def value? (b : Bindings) (c : Cell) : Option Ty := b.lookup c.number

/-- Binds a cell unless it is bound; says whether it did. -/
def bind (b : Bindings) (c : Cell) (t : Ty) : Bindings × Bool :=
  match b.value? c with
  | some _ => (b, false)
  | none => ((c.number, t) :: b, true)

/-- Follows bindings at the top of a type, at most `n` times. -/
def resolveWithin (b : Bindings) : Nat → Ty → Ty
  | 0, t => t
  | n + 1, .cell c =>
    match b.value? c with
    | some t => resolveWithin b n t
    | none => .cell c
  | _ + 1, t => t

def resolve (b : Bindings) (t : Ty) : Ty := b.resolveWithin b.length t

/-- Follows bindings everywhere in a type, at most `n` in a row. -/
def settleWithin (b : Bindings) : Nat → Ty → Ty
  | 0, t => t
  | n + 1, t => t.mapCells fun c =>
    match b.value? c with
    | some t => settleWithin b n t
    | none => .cell c

/-- A type with all bound cells replaced; a chain of bindings meets no cell twice. -/
def settle (b : Bindings) (t : Ty) : Ty := b.settleWithin b.length t

/-- Whether a cell is left in a type when bindings are followed. -/
def mentions (b : Bindings) (c : Cell) (t : Ty) : Bool := (b.settle t).cells.contains c

/-- The spelling of a type by tags; a type with cells that are not bound has none. -/
def key (b : Bindings) (t : Ty) : Except String String :=
  match (b.settle t).cells with
  | [] => .ok (b.settle t).key
  | c :: _ => .error ("typecheck: Key of unresolved type " ++ (Ty.cell c).render)

def size (b : Bindings) : Nat := b.foldr (fun p n => p.2.size + n) 0

end Bindings

inductive Clash where
  /-- They differ in shape, or a cell would hold itself. -/
  | shapes
  /-- A cell would need two different types. -/
  | generic (name : String) (first second : Ty)

/-- Work on bindings that may fail; bindings made before the failure remain. -/
abbrev Unify := ExceptT Clash (StateM Bindings)

namespace Unify

/-- Makes a cell equal to a type, where `self` makes two types equal. -/
def cell (self : Ty → Ty → Unify Unit) (c : Cell) (other : Ty) : Unify Unit := do
  if let .cell d := other then
    if d = c then return
  let b ← get
  match b.value? c with
  | none =>
    let other := b.resolve other
    if b.mentions c other then throw .shapes
    set (b.bind c other).1
  | some value =>
    tryCatch (self value other) fun
      | .shapes => do
        let b ← get
        throw (.generic c.generic (b.settle value) (b.settle other))
      | clash => throw clash

def each (self : Ty → Ty → Unify Unit) : List Ty → List Ty → Unify Unit
  | a :: as, b :: bs => do
    self a b
    each self as bs
  | _, _ => return

/-- Makes two types equal, where `self` does so for their parts. -/
def step (self : Ty → Ty → Unify Unit) : Ty → Ty → Unify Unit
  | .cell c, b => cell self c b
  | a, .cell c => cell self c a
  | .named m as, .named n bs =>
    if m.tag = n.tag ∧ as.length = bs.length then each self as bs else throw .shapes
  | .generic m, .generic n => if m.tag = n.tag then return else throw .shapes
  | .func as a, .func bs b => do
    if as.length ≠ bs.length then throw .shapes
    each self as bs
    self a b
  | _, _ => throw .shapes

/-- Makes two types equal, going at most `n` levels deep. -/
def within : Nat → Ty → Ty → Unify Unit
  | 0 => fun _ _ => throw .shapes
  | n + 1 => step (within n)

/-- Makes two types equal. On the way down neither side meets a node of its type
or of a binding twice, so twice the number of nodes is deep enough. -/
def types (a b : Ty) : Unify Unit := do
  within (2 * (a.size + b.size + (← get).size) + 2) a b

end Unify

end WitnessLang
