set_option autoImplicit false

namespace WitnessLang

structure Interner (α : Type) where
  entries : List α

namespace Interner

variable {α : Type} [BEq α]

def start (empty : α) : Interner α := ⟨[empty]⟩

def find? (i : Interner α) (s : α) : Option Nat :=
  if i.entries.contains s then some (i.entries.idxOf s) else none

def intern (i : Interner α) (s : α) : Interner α × Nat :=
  match i.find? s with
  | some n => (i, n)
  | none => (⟨i.entries ++ [s]⟩, i.entries.length)

def get? (i : Interner α) (n : Nat) : Option α := i.entries[n]?

def missing (n : Nat) : String := "interner: unknown string id " ++ toString n

end Interner

end WitnessLang
