import Mathlib.Data.List.Basic
import WitnessLang.Types.Basic

set_option autoImplicit false

namespace WitnessLang.Ty

/-- Induction over types; what is shown for the parts is known of each element of a list. -/
@[elab_as_elim, induction_eliminator]
theorem induct {motive : Ty → Prop}
    (named : ∀ name args, (∀ t ∈ args, motive t) → motive (.named name args))
    (generic : ∀ name, motive (.generic name))
    (func : ∀ args result, (∀ t ∈ args, motive t) → motive result → motive (.func args result))
    (cell : ∀ c, motive (.cell c)) (t : Ty) : motive t :=
  match t with
  | .named name args => named name args (each args)
  | .generic name => generic name
  | .func args result =>
    func args result (each args) (induct named generic func cell result)
  | .cell c => cell c
where
  /-- The same for each of several types. -/
  each : (ts : List Ty) → ∀ t ∈ ts, motive t
    | [] => fun _ member => absurd member List.not_mem_nil
    | t :: rest =>
      List.forall_mem_cons.mpr ⟨induct named generic func cell t, each rest⟩

theorem mapCellsAll_eq_map (f : Cell → Ty) (ts : List Ty) :
    mapCellsAll f ts = ts.map (mapCells f) := by
  induction ts with
  | nil => rfl
  | cons t rest ih => simp [mapCellsAll, ih]

theorem cellsAll_eq_flatMap (ts : List Ty) : cellsAll ts = ts.flatMap cells := by
  induction ts with
  | nil => rfl
  | cons t rest ih => simp [cellsAll, ih]

theorem parametersAll_eq_flatMap (ts : List Ty) : parametersAll ts = ts.flatMap parameters := by
  induction ts with
  | nil => rfl
  | cons t rest ih => simp [parametersAll, ih]

section Equations

variable (f : Cell → Ty) (s : Substitution) (name : Ident) (args : List Ty) (result : Ty)
  (c : Cell)

@[simp] theorem mapCells_named : (named name args).mapCells f = .named name (args.map (mapCells f)) :=
  congrArg (named name) (mapCellsAll_eq_map f args)

@[simp] theorem mapCells_generic : (generic name).mapCells f = .generic name := rfl

@[simp] theorem mapCells_func :
    (func args result).mapCells f = .func (args.map (mapCells f)) (result.mapCells f) :=
  congrArg (func · (result.mapCells f)) (mapCellsAll_eq_map f args)

@[simp] theorem mapCells_cell : (cell c).mapCells f = f c := rfl

@[simp] theorem substitute_named :
    (named name args).substitute s = .named name (args.map (substitute s)) :=
  congrArg (named name) (substituteAll_eq_map s args)

@[simp] theorem substitute_generic :
    (generic name).substitute s = (s.lookup name.tag).getD (.generic name) := rfl

@[simp] theorem substitute_func :
    (func args result).substitute s = .func (args.map (substitute s)) (result.substitute s) :=
  congrArg (func · (result.substitute s)) (substituteAll_eq_map s args)

@[simp] theorem substitute_cell : (cell c).substitute s = .cell c := rfl

@[simp] theorem cells_named : (named name args).cells = args.flatMap cells :=
  cellsAll_eq_flatMap args

@[simp] theorem cells_generic : (generic name).cells = [] := rfl

@[simp] theorem cells_func : (func args result).cells = args.flatMap cells ++ result.cells :=
  congrArg (· ++ result.cells) (cellsAll_eq_flatMap args)

@[simp] theorem cells_cell : (cell c).cells = [c] := rfl

@[simp] theorem parameters_named : (named name args).parameters = args.flatMap parameters :=
  parametersAll_eq_flatMap args

@[simp] theorem parameters_generic : (generic name).parameters = [name] := rfl

@[simp] theorem parameters_func :
    (func args result).parameters = args.flatMap parameters ++ result.parameters :=
  congrArg (· ++ result.parameters) (parametersAll_eq_flatMap args)

@[simp] theorem parameters_cell : (cell c).parameters = [] := rfl

@[simp] theorem cells_float : float.cells = [] := rfl

@[simp] theorem cells_bool : bool.cells = [] := rfl

@[simp] theorem parameters_float : float.parameters = [] := rfl

@[simp] theorem parameters_bool : bool.parameters = [] := rfl

@[simp] theorem mapCells_float : float.mapCells f = float := rfl

@[simp] theorem mapCells_bool : bool.mapCells f = bool := rfl

end Equations

theorem mapCells_congr {f g : Cell → Ty} {t : Ty} (same : ∀ c ∈ t.cells, f c = g c) :
    t.mapCells f = t.mapCells g := by
  induction t with
  | named name args ih =>
    simp only [cells_named, List.mem_flatMap, forall_exists_index, and_imp] at same
    simp only [mapCells_named, named.injEq, true_and]
    exact List.map_congr_left fun t member => ih t member fun c inside => same c t member inside
  | generic name => simp
  | func args result ih ihResult =>
    simp only [cells_func, List.mem_append, List.mem_flatMap] at same
    simp only [mapCells_func, func.injEq]
    refine ⟨List.map_congr_left fun t member => ?_, ihResult fun c inside => same c (Or.inr inside)⟩
    exact ih t member fun c inside => same c (Or.inl ⟨t, member, inside⟩)
  | cell c => simpa using same

@[simp] theorem mapCells_id (t : Ty) : t.mapCells .cell = t := by
  induction t with
  | named name args ih => simpa using List.map_congr_left (g := id) ih
  | generic name => simp
  | func args result ih ihResult => simpa [ihResult] using List.map_congr_left (g := id) ih
  | cell c => simp

theorem mapCells_mapCells (f g : Cell → Ty) (t : Ty) :
    (t.mapCells f).mapCells g = t.mapCells fun c => (f c).mapCells g := by
  induction t with
  | named name args ih => simpa using ih
  | generic name => simp
  | func args result ih ihResult => simpa [ihResult] using ih
  | cell c => simp

theorem mapCells_of_closed {t : Ty} (closed : t.cells = []) (f : Cell → Ty) :
    t.mapCells f = t := by
  rw [mapCells_congr (g := .cell) (by simp [closed]), mapCells_id]

theorem mem_cells_mapCells {f : Cell → Ty} {t : Ty} {c : Cell} :
    c ∈ (t.mapCells f).cells ↔ ∃ d ∈ t.cells, c ∈ (f d).cells := by
  induction t with
  | named name args ih =>
    simp only [mapCells_named, cells_named, List.mem_flatMap, List.mem_map]
    grind
  | generic name => simp
  | func args result ih ihResult =>
    simp only [mapCells_func, cells_func, List.mem_append, List.mem_flatMap, List.mem_map]
    grind
  | cell d => simp

/-- What a substitution puts in for a parameter it knows. -/
theorem lookup_map_snd {α β γ : Type} [BEq α] (entries : List (α × β)) (f : β → γ) (a : α) :
    (entries.map fun e => (e.1, f e.2)).lookup a = (entries.lookup a).map f := by
  induction entries with
  | nil => rfl
  | cons e rest ih =>
    obtain ⟨key, value⟩ := e
    cases same : a == key with
    | true => simp [List.lookup_cons, same]
    | false => simp [List.lookup_cons, same, ih]

/-- The cells of what is put in may be filled in before that, if those of the type stay. -/
theorem mapCells_substitute_of_fixed {t : Ty} {f : Cell → Ty} (fixed : ∀ c ∈ t.cells, f c = .cell c)
    (s : Substitution) :
    (t.substitute s).mapCells f = t.substitute (s.map fun e => (e.1, e.2.mapCells f)) := by
  induction t with
  | named name args ih =>
    simp only [cells_named, List.mem_flatMap, forall_exists_index, and_imp] at fixed
    simp only [substitute_named, mapCells_named, List.map_map, named.injEq, true_and]
    exact List.map_congr_left fun t member => ih t member fun c inside => fixed c t member inside
  | generic name =>
    rw [substitute_generic, substitute_generic, lookup_map_snd]
    cases s.lookup name.tag <;> simp
  | func args result ih ihResult =>
    simp only [cells_func, List.mem_append, List.mem_flatMap] at fixed
    simp only [substitute_func, mapCells_func, List.map_map, func.injEq]
    refine ⟨List.map_congr_left fun t member => ih t member fun c inside => ?_, ?_⟩
    · exact fixed c (Or.inl ⟨t, member, inside⟩)
    · exact ihResult fun c inside => fixed c (Or.inr inside)
  | cell c => simpa using fixed c (by simp)

/-- Cells may be filled in before or after type parameters are replaced. -/
theorem mapCells_substitute {t : Ty} (closed : t.cells = []) (s : Substitution) (f : Cell → Ty) :
    (t.substitute s).mapCells f = t.substitute (s.map fun e => (e.1, e.2.mapCells f)) :=
  mapCells_substitute_of_fixed (by simp [closed]) s

theorem mem_parameters_substitute {t : Ty} {s : Substitution} {p : Ident}
    (member : p ∈ (t.substitute s).parameters) :
    (p ∈ t.parameters ∧ s.lookup p.tag = none) ∨
      ∃ q ∈ t.parameters, ∃ u, s.lookup q.tag = some u ∧ p ∈ u.parameters := by
  induction t with
  | named name args ih =>
    simp only [substitute_named, parameters_named, List.mem_flatMap, List.mem_map] at member ⊢
    grind
  | generic name =>
    rw [substitute_generic] at member
    cases found : s.lookup name.tag with
    | none =>
      obtain rfl : p = name := by simpa [found] using member
      exact Or.inl ⟨by simp, found⟩
    | some u => exact Or.inr ⟨name, by simp, u, found, by simpa [found] using member⟩
  | func args result ih ihResult =>
    simp only [substitute_func, parameters_func, List.mem_append, List.mem_flatMap,
      List.mem_map] at member ⊢
    grind
  | cell c => simp at member

theorem mem_cells_substitute {t : Ty} {s : Substitution} {c : Cell}
    (member : c ∈ (t.substitute s).cells) :
    c ∈ t.cells ∨ ∃ q ∈ t.parameters, ∃ u, s.lookup q.tag = some u ∧ c ∈ u.cells := by
  induction t with
  | named name args ih =>
    simp only [substitute_named, parameters_named, cells_named, List.mem_flatMap,
      List.mem_map] at member ⊢
    grind
  | generic name =>
    rw [substitute_generic] at member
    cases found : s.lookup name.tag with
    | none => simp [found] at member
    | some u => exact Or.inr ⟨name, by simp, u, found, by simpa [found] using member⟩
  | func args result ih ihResult =>
    simp only [substitute_func, parameters_func, cells_func, List.mem_append, List.mem_flatMap,
      List.mem_map] at member ⊢
    grind
  | cell d => simpa using member

end WitnessLang.Ty

namespace WitnessLang

def Ident.erase (i : Ident) : Ident := ⟨i.tag, "", false⟩

@[simp] theorem Ident.tag_erase (i : Ident) : i.erase.tag = i.tag := rfl

theorem Ident.erase_inj {i j : Ident} : i.erase = j.erase ↔ i.tag = j.tag := by
  simp [Ident.erase]

namespace Ty

mutual

def erase : Ty → Ty
  | .named name args => .named name.erase (eraseAll args)
  | .generic name => .generic name.erase
  | .func args result => .func (eraseAll args) result.erase
  | .cell c => .cell c

def eraseAll : List Ty → List Ty
  | [] => []
  | t :: rest => t.erase :: eraseAll rest

end

theorem eraseAll_eq_map (ts : List Ty) : eraseAll ts = ts.map erase := by
  induction ts with
  | nil => rfl
  | cons t rest ih => simp [eraseAll, ih]

@[simp] theorem erase_named (name : Ident) (args : List Ty) :
    (named name args).erase = .named name.erase (args.map erase) :=
  congrArg (named name.erase) (eraseAll_eq_map args)

@[simp] theorem erase_generic (name : Ident) : (generic name).erase = .generic name.erase :=
  rfl

@[simp] theorem erase_func (args : List Ty) (result : Ty) :
    (func args result).erase = .func (args.map erase) result.erase :=
  congrArg (func · result.erase) (eraseAll_eq_map args)

@[simp] theorem erase_cell (c : Cell) : (cell c).erase = .cell c := rfl

/-- Two types are the same, names compared by tag. -/
def Alike (a b : Ty) : Prop := a.erase = b.erase

namespace Alike

variable {a b c : Ty}

theorem refl (a : Ty) : Alike a a := rfl

theorem symm (alike : Alike a b) : Alike b a := Eq.symm alike

theorem trans (first : Alike a b) (second : Alike b c) : Alike a c := Eq.trans first second

end Alike

theorem alike_named {m n : Ident} {as bs : List Ty} :
    Alike (.named m as) (.named n bs) ↔ m.tag = n.tag ∧ as.map erase = bs.map erase := by
  simp [Alike, Ident.erase_inj]

theorem alike_func {as bs : List Ty} {a b : Ty} :
    Alike (.func as a) (.func bs b) ↔ as.map erase = bs.map erase ∧ Alike a b := by
  simp [Alike]

/-- Alike types have the same parameters. -/
theorem parameters_erase (t : Ty) : t.erase.parameters.map (·.tag) = t.parameters.map (·.tag) := by
  induction t with
  | named name args ih =>
    simp only [erase_named, parameters_named, List.map_flatMap, List.flatMap_map]
    exact List.flatMap_congr fun t member => ih t member
  | generic name => simp
  | func args result ih ihResult =>
    simp only [erase_func, parameters_func, List.map_append, List.map_flatMap, List.flatMap_map,
      ihResult]
    rw [List.flatMap_congr fun t member => ih t member]
  | cell c => simp

theorem Alike.parameters {a b : Ty} (alike : Alike a b) :
    a.parameters.map (·.tag) = b.parameters.map (·.tag) := by
  rw [← parameters_erase a, ← parameters_erase b, alike]

theorem erase_substitute (t : Ty) (s : Substitution) :
    (t.substitute s).erase = t.erase.substitute (s.map fun e => (e.1, e.2.erase)) := by
  induction t with
  | named name args ih => simpa using ih
  | generic name =>
    rw [substitute_generic, erase_generic, substitute_generic, lookup_map_snd, Ident.tag_erase]
    cases s.lookup name.tag <;> simp
  | func args result ih ihResult => simpa [ihResult] using ih
  | cell c => simp

end Ty

end WitnessLang
