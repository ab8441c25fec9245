import WitnessLang.Scope.Tag
import WitnessLang.Source.Interner
import WitnessLang.Source.Span

set_option autoImplicit false

/-! Scopes and the symbols declared in them. Scopes and symbols are numbered from
one; zero stands for none. -/
namespace WitnessLang

structure ScopeKind where
  number : Nat
  deriving DecidableEq, Repr, Inhabited

namespace ScopeKind

def invalid : ScopeKind := ⟨0⟩
def global : ScopeKind := ⟨1⟩
def file : ScopeKind := ⟨2⟩
def function : ScopeKind := ⟨3⟩
def block : ScopeKind := ⟨4⟩
def arm : ScopeKind := ⟨5⟩
def closure : ScopeKind := ⟨6⟩

def name (k : ScopeKind) : String :=
  match k.number with
  | 1 => "global"
  | 2 => "module"
  | 3 => "function"
  | 4 => "block"
  | 5 => "arm"
  | 6 => "closure"
  | _ => "invalid"

end ScopeKind

/-- A set of symbol kinds, as the bits of a 32-bit word. -/
structure KindMask where
  bits : Nat
  deriving DecidableEq, Repr

structure SymbolKind where
  number : Nat
  deriving DecidableEq, Repr, Inhabited

namespace SymbolKind

def invalid : SymbolKind := ⟨0⟩
def function : SymbolKind := ⟨1⟩
def binding : SymbolKind := ⟨2⟩
def param : SymbolKind := ⟨3⟩
def type : SymbolKind := ⟨4⟩
def generic : SymbolKind := ⟨5⟩
def struct : SymbolKind := ⟨6⟩

def name (k : SymbolKind) : String :=
  match k.number with
  | 1 => "function"
  | 2 => "let"
  | 3 => "param"
  | 4 => "type"
  | 5 => "generic"
  | 6 => "struct"
  | _ => "invalid"

/-- Functions, structs and built-in types keep their names in generated code. -/
def isGlobal (k : SymbolKind) : Bool := k == function || k == struct || k == type

/-- The set of one kind; numbers beyond the word have no bit. -/
def mask (k : SymbolKind) : KindMask := ⟨if k.number < 32 then Nat.pow 2 k.number else 0⟩

end SymbolKind

namespace KindMask

def any : KindMask := ⟨Nat.pow 2 32 - 1⟩

def union (a b : KindMask) : KindMask := ⟨a.bits ||| b.bits⟩

def values : KindMask := (SymbolKind.function.mask.union SymbolKind.binding.mask).union
  SymbolKind.param.mask

def types : KindMask := (SymbolKind.type.mask.union SymbolKind.generic.mask).union
  SymbolKind.struct.mask

def structs : KindMask := SymbolKind.struct.mask

def allows (m : KindMask) (k : SymbolKind) : Bool :=
  m == any || (m.bits &&& k.mask.bits) != 0

/-- The names a kind shares a space with: variables among themselves, types among themselves. -/
def spaceOf (k : SymbolKind) : KindMask := if values.allows k then values else types

end KindMask

structure Symbol where
  name : String
  kind : SymbolKind
  scope : Nat
  span : Span := {}
  builtin : Bool := false
  tag : Tag
  /-- The fields of a struct, in order. -/
  fields : List String := []
  deriving Repr, Inhabited

def Symbol.ident (s : Symbol) : Ident := ⟨s.tag, s.name, s.kind.isGlobal⟩

abbrev NameIndex := List (String × List Nat)

namespace NameIndex

def bucket (x : NameIndex) (name : String) : List Nat := (x.lookup name).getD []

def add (name : String) (id : Nat) : NameIndex → NameIndex
  | [] => [(name, [id])]
  | (n, ids) :: rest => if name == n then (n, ids ++ [id]) :: rest else (n, ids) :: add name id rest

end NameIndex

structure Scope where
  kind : ScopeKind
  parent : Nat
  span : Span := {}
  index : NameIndex := []
  symbols : List Nat := []
  children : List Nat := []
  deriving Repr, Inhabited

/-- All scopes and symbols of a compilation, and the texts it has come across. -/
structure SymbolTable where
  scopes : Array Scope
  symbols : Array Symbol
  names : Interner String

namespace SymbolTable

def scope? (t : SymbolTable) (id : Nat) : Option Scope :=
  if id = 0 then none else t.scopes[id - 1]?

def symbol? (t : SymbolTable) (id : Nat) : Option Symbol :=
  if id = 0 then none else t.symbols[id - 1]?

def intern (t : SymbolTable) (s : String) : SymbolTable :=
  { t with names := (t.names.intern s).1 }

def addScope (t : SymbolTable) (kind : ScopeKind) (parent : Nat) (span : Span) :
    SymbolTable × Nat :=
  let id := t.scopes.size + 1
  let grown := t.scopes.push { kind := kind, parent := parent, span := span }
  let linked := if parent = 0 then grown
    else grown.modify (parent - 1) fun s => { s with children := s.children ++ [id] }
  ({ t with scopes := linked }, id)

def addSymbol (t : SymbolTable) (s : Symbol) : SymbolTable × Nat :=
  let id := t.symbols.size + 1
  ({ t with
      symbols := t.symbols.push s
      scopes := t.scopes.modify (s.scope - 1) fun c =>
        { c with symbols := c.symbols ++ [id], index := c.index.add s.name id } },
    id)

/-- Whether there is a symbol of a number, with a kind in the set. -/
def hasKind (t : SymbolTable) (mask : KindMask) (id : Nat) : Bool := (t.symbol? id).any (mask.allows ·.kind)

/-- The latest symbol of a scope with the given name and a kind in the set. -/
def latestIn? (t : SymbolTable) (mask : KindMask) (name : String) (s : Scope) : Option Nat :=
  (s.index.bucket name).reverse.find? (t.hasKind mask)

/-- The earliest symbol of a scope with the given name and a kind in the set. -/
def earliestIn? (t : SymbolTable) (mask : KindMask) (name : String) (s : Scope) : Option Nat :=
  (s.index.bucket name).find? (t.hasKind mask)

/-- The latest symbol with the given name and a kind in the set, in the first scope that has one on the way
outwards from a scope. Scopes lie in scopes with smaller numbers, so the way has no more steps than there are
scopes. -/
def outwards? (t : SymbolTable) (mask : KindMask) (name : String) : Nat → Nat → Option Nat
  | 0, _ => none
  | room + 1, id =>
    match t.scope? id with
    | none => none
    | some s =>
      match t.latestIn? mask name s with
      | some found => some found
      | none => outwards? t mask name room s.parent

def prelude : List (String × Tag) := [("F64", .float), ("Bool", .bool)]

def globalScope : Nat := 1

def start : SymbolTable :=
  let blank : SymbolTable := ⟨#[], #[], .start ""⟩
  prelude.foldl (fun t e =>
    ((t.intern e.1).addSymbol
      { name := e.1, kind := .type, scope := globalScope, builtin := true, tag := e.2 }).1)
    (blank.addScope .global 0 {}).1

end SymbolTable

inductive ScopeFault where
  | reservedUnit
  | leaveEmpty
  | leaveOther (top expected : Nat)
  | notVariable (kind : SymbolKind)
  | unknownSymbol (id : Nat)

def ScopeFault.message : ScopeFault → String
  | .reservedUnit => "symbols: module 0 is reserved for built-ins"
  | .leaveEmpty => "symbols: Leave on empty scope stack"
  | .leaveOther top expected =>
    "symbols: scope stack mismatch: closing " ++ toString top ++ " while expecting "
      ++ toString expected
  | .notVariable kind => "symbols: " ++ kind.name ++ " is not a variable kind"
  | .unknownSymbol id => "symbols: unknown symbol " ++ toString id

/-- A symbol table that is being filled: the scopes that are open, innermost first, and the tags to
come. -/
structure Resolver where
  table : SymbolTable
  tags : TagSource
  stack : List Nat

namespace Resolver

def current (r : Resolver) : Nat := r.stack.headD 0

def enter (r : Resolver) (kind : ScopeKind) (span : Span) : Resolver :=
  let (table, id) := r.table.addScope kind r.current span
  { r with table := table, stack := id :: r.stack }

def leave (r : Resolver) : Resolver := { r with stack := r.stack.tail }

/-- Closes the innermost scope, which has to be `expected` unless that is zero. -/
def leaveChecked (r : Resolver) (expected : Nat) : Except ScopeFault Resolver :=
  match r.stack with
  | [] => .error .leaveEmpty
  | top :: rest =>
    if expected != 0 && top != expected then .error (.leaveOther top expected)
    else .ok { r with stack := rest }

/-- Opens the scope of a file inside that of the built-in names. -/
def start (table : SymbolTable) (unit : Nat) (span : Span) : Resolver :=
  enter ⟨table, { unit := unit }, [SymbolTable.globalScope]⟩ .file span

/-- What became of a declaration: the new symbol, or the one in its way. -/
inductive Declared where
  | new (id : Nat)
  | conflict (id : Nat)
  /-- No scope is open. -/
  | nowhere

/-- Declares a name in the current scope under a fresh tag. A name that is taken in its space is left
alone, unless a binding takes it over. -/
def declare (r : Resolver) (name : String) (span : Span) (kind : SymbolKind)
    (fields : List String := []) : Resolver × Declared :=
  match r.table.scope? r.current with
  | none => (r, .nowhere)
  | some scope =>
    let taken := if kind == .binding then none
      else r.table.earliestIn? (.spaceOf kind) name scope
    match taken with
    | some id => (r, .conflict id)
    | none =>
      let (tag, tags) := r.tags.fresh
      let (table, id) := r.table.addSymbol
        { name := name, kind := kind, scope := r.current, span := span, tag := tag,
          fields := fields }
      ({ r with table := table, tags := tags }, .new id)

def declareVariable (r : Resolver) (name : String) (span : Span) (kind : SymbolKind) :
    Except ScopeFault (Resolver × Declared) :=
  if KindMask.values.allows kind then .ok (r.declare name span kind)
  else .error (.notVariable kind)

/-- The latest symbol with the given name and a kind in the set, in the innermost open scope that has
one. -/
def lookup? (r : Resolver) (mask : KindMask) (name : String) : Option Nat :=
  if mask.bits = 0 then none else r.table.outwards? mask name r.table.scopes.size r.current

end Resolver

def SymbolTable.ident (t : SymbolTable) (id : Nat) : Except ScopeFault Ident :=
  match t.symbol? id with
  | some s => .ok s.ident
  | none => .error (.unknownSymbol id)

end WitnessLang
