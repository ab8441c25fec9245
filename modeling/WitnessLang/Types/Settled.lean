import WitnessLang.Types.Unify
import WitnessLang.Types.Witness

set_option autoImplicit false

namespace WitnessLang.Bindings

/-- Replaces type parameters, also in what cells are bound to. What is put in stays as it is,
and so does the whole type where there is nothing to put in. -/
def substitute (b : Bindings) (s : Substitution) (t : Ty) : Ty :=
  if s.isEmpty then t else (b.settle t).substitute s

/-- The type parameters of a type, each once, in the order of their first occurrence. -/
def generics (b : Bindings) (t : Ty) : List Ident := (b.settle t).generics

/-- How a type is described, if no cell of it is unbound. -/
def witness (b : Bindings) (t : Ty) : Except String WitnessExpr := (b.settle t).finishedWitness

end WitnessLang.Bindings
