import WitnessLang.Scope.Table

set_option autoImplicit false

namespace WitnessLang.SymbolTable

inductive Fault where
  | scopeKind (scope : Nat)
  | parent (scope parent : Nat)
  | parentLink (scope parent : Nat)
  | child (scope child : Nat)
  | childLink (scope child : Nat)
  /-- The index of a scope has a symbol under a name, whose text has a number, that the scope does not list. -/
  | indexed (scope name id : Nat)
  | sharedTag (earlier later : Nat) (tag : Tag)
  | symbolScope (id scope : Nat)
  | unlisted (id scope : Nat)

def Fault.message : Fault → String
  | .scopeKind s => "scope " ++ toString s ++ " has invalid kind"
  | .parent s p => "scope " ++ toString s ++ " has invalid parent " ++ toString p
  | .parentLink s p => "scope " ++ toString s ++ " parent " ++ toString p ++ " missing backlink"
  | .child s c => "scope " ++ toString s ++ " has invalid child " ++ toString c
  | .childLink s c => "scope " ++ toString s ++ " child " ++ toString c ++ " missing parent backlink"
  | .indexed s n i =>
    "scope " ++ toString s ++ " name index " ++ toString n ++ " references missing symbol " ++ toString i
  | .sharedTag a b t =>
    "symbols " ++ toString a ++ " and " ++ toString b ++ " share tag " ++ t.render
  | .symbolScope i s => "symbol " ++ toString i ++ " has invalid scope " ++ toString s
  | .unlisted i s => "symbol " ++ toString i ++ " is missing from scope " ++ toString s ++ " list"

def childFaults (t : SymbolTable) (id : Nat) (s : Scope) : List Fault :=
  s.children.flatMap fun child =>
    if t.scopes.size < child || child = id then [.child id child]
    else match t.scope? child with
      | some c => if c.parent = id then [] else [.childLink id child]
      | none => if id = 0 then [] else [.childLink id child]

def indexFaults (t : SymbolTable) (id : Nat) (s : Scope) : List Fault :=
  s.index.flatMap fun e =>
    (e.2.filter fun n => !s.symbols.contains n).map (.indexed id (t.names.intern e.1).2)

def scopeFaults (t : SymbolTable) (id : Nat) (s : Scope) : List Fault :=
  (if s.kind = .invalid then [.scopeKind id] else [])
    ++ if s.parent != 0 && (t.scopes.size < s.parent || s.parent = id) then [.parent id s.parent]
      else
        (match t.scope? s.parent with
          | some p => if p.children.contains id then [] else [.parentLink id s.parent]
          | none => [])
        ++ childFaults t id s ++ indexFaults t id s

/-- The number of the latest symbol before number `id` that has the given tag. -/
def earlierWithTag? (t : SymbolTable) (id : Nat) (tag : Tag) : Option Nat :=
  (List.range' 1 (id - 1)).reverse.find? fun n =>
    match t.symbol? n with
    | some s => s.tag == tag
    | none => false

def symbolFaults (t : SymbolTable) (id : Nat) (s : Symbol) : List Fault :=
  (match t.earlierWithTag? id s.tag with
    | some earlier => [.sharedTag earlier id s.tag]
    | none => [])
  ++ match t.scope? s.scope with
    | none => [.symbolScope id s.scope]
    | some c => if c.symbols.contains id then [] else [.unlisted id s.scope]

def faults (t : SymbolTable) : List Fault :=
  (List.range' 1 t.scopes.size).flatMap (fun id =>
    match t.scope? id with
    | some s => t.scopeFaults id s
    | none => [])
  ++ (List.range' 1 t.symbols.size).flatMap fun id =>
    match t.symbol? id with
    | some s => t.symbolFaults id s
    | none => []

end WitnessLang.SymbolTable
