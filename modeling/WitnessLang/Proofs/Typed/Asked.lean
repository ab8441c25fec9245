import WitnessLang.Proofs.Typed.Soundness

set_option autoImplicit false

/-! The cells that checking mints. A cell is asked for by each type parameter of a function that is called, of a
struct that is built and of a struct that is taken apart. All parts of a tree are checked, but of a case expression
only the first alternative is kept. -/
namespace WitnessLang.Typed

structure Ask where
  generic : String
  /-- Whether the part that asks for it stays in the tree. -/
  kept : Bool
  deriving DecidableEq

namespace Ask

def each (generics : List Ident) : List Ask := generics.map fun i => ⟨i.name, true⟩

/-- What a part asks for that is checked but does not stay. -/
def dropped (asks : List Ask) : List Ask := asks.map fun a => { a with kept := false }

/-- What alternatives ask for, of which only the first stays. -/
def ofFirst : List (List Ask) → List Ask
  | [] => []
  | first :: rest => first ++ dropped rest.flatten

/-- The cells that are minted when so many have been. -/
def cells : Nat → List Ask → List Cell
  | _, [] => []
  | n, a :: rest => ⟨n + 1, a.generic⟩ :: cells (n + 1) rest

def keptCells : Nat → List Ask → List Cell
  | _, [] => []
  | n, a :: rest => if a.kept then ⟨n + 1, a.generic⟩ :: keptCells (n + 1) rest else keptCells (n + 1) rest

variable {n : Nat} {asks more : List Ask}

@[simp] theorem length_each (generics : List Ident) : (each generics).length = generics.length := by
  simp [each]

@[simp] theorem length_dropped : (dropped asks).length = asks.length := by simp [dropped]

theorem keptCells_append : keptCells n (asks ++ more) = keptCells n asks ++ keptCells (n + asks.length) more := by
  induction asks generalizing n with
  | nil => rfl
  | cons a rest ih =>
    have place : n + 1 + rest.length = n + (a :: rest).length := by rw [List.length_cons]; omega
    rw [List.cons_append, keptCells, keptCells, ih, place]
    split <;> rfl

@[simp] theorem keptCells_dropped : keptCells n (dropped asks) = [] := by
  induction asks generalizing n with
  | nil => rfl
  | cons a rest ih => exact ih

end Ask

end WitnessLang.Typed

namespace WitnessLang.Resolved

open Typed (Ask Globals)

section Asking

variable (g : Globals)

mutual

/-- The cells that typing a pattern asks for. The fields of a struct are gone through in the
order of its declaration. -/
def Pattern.asks : Pattern → List Ask
  | .var _ _ => []
  | .record _ name fields =>
    match g.struct? name with
    | none => []
    | some s => Ask.each s.generics ++ s.fields.flatMap fun f => ((fieldAsks fields).lookup f.name).getD []

def Pattern.fieldAsks : List FieldPattern → List (String × List Ask)
  | [] => []
  | ⟨_, name, p⟩ :: rest => (name, p.asks) :: fieldAsks rest

end

def paramAsks (ps : List Param) : List Ask := ps.flatMap (·.pattern.asks g)

/-- What is asked for by a callee that names a function. -/
def calleeAsks : Expr → List Ask
  | .var _ name => (g.function? name).elim [] fun f => Ask.each f.generics
  | _ => []

mutual

/-- The cells that inferring an expression asks for. -/
def Expr.asks : Expr → List Ask
  | .number _ _ _ | .bool _ _ | .var _ _ => []
  | .call _ callee args => calleeAsks g callee ++ (callee.asks ++ asksAll args)
  | .operation _ _ left right => left.asks ++ right.asks
  | .record _ name fields =>
    match g.struct? name with
    | none => []
    | some s => Ask.each s.generics ++ s.fields.flatMap fun f => ((fieldAsks fields).lookup f.name).getD []
  | .block _ lets result => letAsks lets ++ result.asks
  | .annotated _ value _ => value.asks
  | .case _ scrutinee arms => scrutinee.asks ++ Ask.ofFirst (armAsks arms)
  | .cond _ test yes no => test.asks ++ (yes.asks ++ no.asks)
  | .closure _ params body => paramAsks g params ++ body.asks

def Expr.asksAll : List Expr → List Ask
  | [] => []
  | e :: rest => e.asks ++ asksAll rest

def Expr.fieldAsks : List FieldInit → List (String × List Ask)
  | [] => []
  | ⟨_, name, value⟩ :: rest => (name, value.asks) :: fieldAsks rest

def Expr.letAsks : List Let → List Ask
  | [] => []
  | ⟨_, p, value⟩ :: rest => value.asks ++ (p.asks g ++ letAsks rest)

def Expr.armAsks : List Arm → List (List Ask)
  | [] => []
  | ⟨_, p, body⟩ :: rest => (p.asks g ++ body.asks) :: armAsks rest

end

/-- The cells that checking a function asks for. -/
def Function.asks (f : Function) : List Ask := paramAsks g f.params ++ f.body.asks g

section Equations

variable {span : Span} {name : Ident} {scrutinee body callee : Expr} {args : List Expr} {arms : List Arm}

theorem Pattern.asks_record {fields : List FieldPattern} {d : Typed.Struct} (found : g.struct? name = some d) :
    (Pattern.record span name fields).asks g = Ask.each d.generics ++
      d.fields.flatMap fun f => ((Pattern.fieldAsks g fields).lookup f.name).getD [] := by
  rw [Pattern.asks, found]

theorem Expr.asks_record {fields : List FieldInit} {d : Typed.Struct} (found : g.struct? name = some d) :
    (Expr.record span name fields).asks g = Ask.each d.generics ++
      d.fields.flatMap fun f => ((Expr.fieldAsks g fields).lookup f.name).getD [] := by
  rw [Expr.asks, found]

theorem Expr.asks_call : (Expr.call span callee args).asks g =
    calleeAsks g callee ++ (callee.asks g ++ Expr.asksAll g args) := rfl

theorem Expr.asks_case : (Expr.case span scrutinee arms).asks g =
    scrutinee.asks g ++ Ask.ofFirst (Expr.armAsks g arms) := rfl

theorem Expr.asks_closure {params : List Param} : (Expr.closure span params body).asks g =
    paramAsks g params ++ body.asks g := rfl

theorem Expr.armAsks_cons {p : Pattern} : Expr.armAsks g (⟨span, p, body⟩ :: arms) =
    (p.asks g ++ body.asks g) :: Expr.armAsks g arms := rfl

end Equations

end Asking

end WitnessLang.Resolved

namespace WitnessLang.Ty

theorem cells_erase (t : Ty) : t.erase.cells = t.cells := by
  induction t with
  | named name args ih =>
    rw [erase_named, cells_named, cells_named, List.flatMap_map]
    exact List.flatMap_congr ih
  | generic name => simp
  | func args result ih ihResult =>
    rw [erase_func, cells_func, cells_func, List.flatMap_map, ihResult, List.flatMap_congr ih]
  | cell c => simp

theorem Alike.cells {t u : Ty} (alike : Alike t u) : t.cells = u.cells := by
  rw [← cells_erase t, ← cells_erase u, alike]

/-- Filling the cells of types in this way leaves none. -/
def Fills (f : Cell → Ty) (ts : List Ty) : Prop := ∀ t ∈ ts, (t.mapCells f).cells = []

variable {f : Cell → Ty} {t : Ty} {ts us : List Ty}

@[simp] theorem fills_nil : Fills f [] := fun _ member => absurd member List.not_mem_nil

@[simp] theorem fills_cons : Fills f (t :: ts) ↔ (t.mapCells f).cells = [] ∧ Fills f ts :=
  List.forall_mem_cons

@[simp] theorem fills_append : Fills f (ts ++ us) ↔ Fills f ts ∧ Fills f us :=
  List.forall_mem_append

theorem Fills.subset (fills : Fills f us) (within : ts ⊆ us) : Fills f ts :=
  fun t member => fills t (within member)

theorem fills_named {name : Ident} {args : List Ty} :
    ((named name args).mapCells f).cells = [] ↔ Fills f args := by
  simp [Fills]

theorem fills_func {args : List Ty} {result : Ty} :
    ((func args result).mapCells f).cells = [] ↔ Fills f args ∧ (result.mapCells f).cells = [] := by
  simp [Fills]

theorem cells_mapCells_of_closed (closed : t.cells = []) : (t.mapCells f).cells = [] := by
  rw [mapCells_of_closed closed, closed]

/-- Putting filled types for type parameters into a finished type. -/
theorem Fills.substitute {s : Substitution} (all : Fills f (s.map (·.2))) (closed : t.cells = []) :
    ((t.substitute s).mapCells f).cells = [] := by
  rw [List.eq_nil_iff_forall_not_mem]
  intro c inside
  obtain ⟨d, held, inside⟩ := mem_cells_mapCells.mp inside
  rcases mem_cells_substitute held with own | ⟨p, -, u, found, held⟩
  · exact absurd (closed ▸ own) List.not_mem_nil
  · obtain ⟨before, behind, split, -⟩ := List.lookup_eq_some_iff.mp found
    have filled := all u (by simp [split])
    exact absurd (filled ▸ mem_cells_mapCells.mpr ⟨d, held, inside⟩) List.not_mem_nil

end WitnessLang.Ty
