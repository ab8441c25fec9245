import WitnessLang.Proofs.Types.Substitution
import WitnessLang.Proofs.Types.Unification

set_option autoImplicit false

namespace WitnessLang

/-- How many types a name is applied to, for names of types. -/
abbrev Arity := Tag → Option Nat

namespace Ty

section Formed

variable (arity : Arity) (generics : List Tag) (cells : List Cell)

mutual

def Formed : Ty → Prop
  | .named name args => arity name.tag = some args.length ∧ FormedAll args
  | .generic name => name.tag ∈ generics
  | .func args result => FormedAll args ∧ result.Formed
  | .cell c => c ∈ cells

def FormedAll : List Ty → Prop
  | [] => True
  | t :: rest => t.Formed ∧ FormedAll rest

end

end Formed

variable {arity arity' : Arity} {generics generics' : List Tag} {cells cells' : List Cell}

theorem formedAll_iff {ts : List Ty} :
    FormedAll arity generics cells ts ↔ ∀ t ∈ ts, t.Formed arity generics cells := by
  induction ts with
  | nil => exact iff_of_true trivial (List.forall_mem_nil _)
  | cons t rest ih => exact (and_congr_right' ih).trans List.forall_mem_cons.symm

@[simp] theorem formed_named {name : Ident} {args : List Ty} :
    (named name args).Formed arity generics cells ↔
      arity name.tag = some args.length ∧ ∀ t ∈ args, t.Formed arity generics cells :=
  and_congr_right' formedAll_iff

@[simp] theorem formed_generic {name : Ident} :
    (generic name).Formed arity generics cells ↔ name.tag ∈ generics := Iff.rfl

@[simp] theorem formed_func {args : List Ty} {result : Ty} :
    (func args result).Formed arity generics cells ↔
      (∀ t ∈ args, t.Formed arity generics cells) ∧ result.Formed arity generics cells :=
  and_congr_left' formedAll_iff

@[simp] theorem formed_cell {c : Cell} :
    (cell c).Formed arity generics cells ↔ c ∈ cells := Iff.rfl

theorem Formed.mono {t : Ty} (formed : t.Formed arity generics cells)
    (arities : ∀ tag n, arity tag = some n → arity' tag = some n) (more : generics ⊆ generics')
    (minted : cells ⊆ cells') : t.Formed arity' generics' cells' := by
  induction t with
  | named name args ih =>
    rw [formed_named] at formed ⊢
    exact ⟨arities _ _ formed.1, fun t member => ih t member (formed.2 t member)⟩
  | generic name => exact more formed
  | func args result ih ihResult =>
    rw [formed_func] at formed ⊢
    exact ⟨fun t member => ih t member (formed.1 t member), ihResult formed.2⟩
  | cell c => exact minted formed

theorem Formed.grow {t : Ty} (formed : t.Formed arity generics cells) (minted : cells ⊆ cells') :
    t.Formed arity generics cells' := formed.mono (fun _ _ known => known) (fun _ known => known) minted

theorem Formed.mem_cells {t : Ty} (formed : t.Formed arity generics cells) {c : Cell}
    (inside : c ∈ t.cells) : c ∈ cells := by
  induction t with
  | named name args ih =>
    rw [cells_named, List.mem_flatMap] at inside
    obtain ⟨t, member, inside⟩ := inside
    exact ih t member ((formed_named.mp formed).2 t member) inside
  | generic name => simp at inside
  | func args result ih ihResult =>
    rw [cells_func, List.mem_append, List.mem_flatMap] at inside
    rcases inside with ⟨t, member, inside⟩ | inside
    · exact ih t member ((formed_func.mp formed).1 t member) inside
    · exact ihResult (formed_func.mp formed).2 inside
  | cell d =>
    rw [cells_cell, List.mem_singleton] at inside
    exact inside ▸ formed_cell.mp formed

theorem Formed.mem_parameters {t : Ty} (formed : t.Formed arity generics cells) {p : Ident}
    (inside : p ∈ t.parameters) : p.tag ∈ generics := by
  induction t with
  | named name args ih =>
    rw [parameters_named, List.mem_flatMap] at inside
    obtain ⟨t, member, inside⟩ := inside
    exact ih t member ((formed_named.mp formed).2 t member) inside
  | generic name =>
    rw [parameters_generic, List.mem_singleton] at inside
    exact inside ▸ formed_generic.mp formed
  | func args result ih ihResult =>
    rw [parameters_func, List.mem_append, List.mem_flatMap] at inside
    rcases inside with ⟨t, member, inside⟩ | inside
    · exact ih t member ((formed_func.mp formed).1 t member) inside
    · exact ihResult (formed_func.mp formed).2 inside
  | cell c => simp at inside

theorem Formed.closed {t : Ty} (formed : t.Formed arity generics []) : t.cells = [] :=
  List.eq_nil_iff_forall_not_mem.mpr fun _ inside => List.not_mem_nil (formed.mem_cells inside)

/-- A type is over its own parameters and cells, whatever else is known. -/
theorem Formed.restrict {t : Ty} (formed : t.Formed arity generics cells)
    (parameters : ∀ p ∈ t.parameters, p.tag ∈ generics') (minted : ∀ c ∈ t.cells, c ∈ cells') :
    t.Formed arity generics' cells' := by
  induction t with
  | named name args ih =>
    rw [formed_named] at formed ⊢
    refine ⟨formed.1, fun t member => ih t member (formed.2 t member) (fun p inside => ?_) ?_⟩
    · exact parameters p (by rw [parameters_named]; exact List.mem_flatMap.mpr ⟨t, member, inside⟩)
    · exact fun c inside => minted c (by rw [cells_named]; exact List.mem_flatMap.mpr ⟨t, member, inside⟩)
  | generic name => exact parameters name (by simp)
  | func args result ih ihResult =>
    rw [formed_func] at formed ⊢
    simp only [parameters_func, cells_func, List.mem_append, List.mem_flatMap] at parameters minted
    exact ⟨fun t member => ih t member (formed.1 t member)
        (fun p inside => parameters p (Or.inl ⟨t, member, inside⟩))
        (fun c inside => minted c (Or.inl ⟨t, member, inside⟩)),
      ihResult formed.2 (fun p inside => parameters p (Or.inr inside))
        (fun c inside => minted c (Or.inr inside))⟩
  | cell c => exact minted c (by simp)

/-- Replacing every type parameter by a well-formed type. -/
theorem Formed.substitute {t : Ty} {s : Substitution} (formed : t.Formed arity generics [])
    (total : ∀ g ∈ generics, ∃ u, s.lookup g = some u ∧ u.Formed arity generics' cells') :
    (t.substitute s).Formed arity generics' cells' := by
  induction t with
  | named name args ih =>
    rw [formed_named] at formed
    rw [substitute_named, formed_named, List.length_map]
    refine ⟨formed.1, fun u member => ?_⟩
    obtain ⟨t, inside, rfl⟩ := List.mem_map.mp member
    exact ih t inside (formed.2 t inside)
  | generic name =>
    obtain ⟨u, found, formed⟩ := total name.tag (formed_generic.mp formed)
    rw [substitute_generic, found]
    exact formed
  | func args result ih ihResult =>
    rw [formed_func] at formed
    rw [substitute_func, formed_func]
    refine ⟨fun u member => ?_, ihResult formed.2⟩
    obtain ⟨t, inside, rfl⟩ := List.mem_map.mp member
    exact ih t inside (formed.1 t inside)
  | cell c => exact absurd (formed_cell.mp formed) List.not_mem_nil

/-- Every name finds a type, where there are as many types as names. -/
theorem exists_lookup_zip {names : List Tag} {args : List Ty} (length : args.length = names.length)
    {tag : Tag} (known : tag ∈ names) : ∃ t ∈ args, (names.zip args).lookup tag = some t := by
  induction names generalizing args with
  | nil => simp at known
  | cons name rest ih =>
    obtain ⟨t, ts, rfl⟩ := List.exists_cons_of_length_eq_add_one length
    rw [List.zip_cons_cons, List.lookup_cons]
    by_cases same : tag = name
    · exact ⟨t, List.mem_cons_self, by simp [same]⟩
    · have other : (tag == name) = false := by simpa using same
      obtain ⟨u, member, found⟩ := ih (by simpa using length) (by simpa [same] using known)
      rw [other]
      exact ⟨u, List.mem_cons_of_mem _ member, found⟩

/-- A type in terms of names, applied to well-formed types. -/
theorem Formed.instantiate {t : Ty} {names : List Tag} {args : List Ty}
    (formed : t.Formed arity names []) (length : args.length = names.length)
    (given : ∀ u ∈ args, u.Formed arity generics' cells') :
    (t.substitute (names.zip args)).Formed arity generics' cells' :=
  formed.substitute fun name known => by
    obtain ⟨u, member, found⟩ := exists_lookup_zip length known
    exact ⟨u, found, given u member⟩

/-- What is applied to types has only the parameters of these. -/
theorem Formed.mem_parameters_instantiate {t : Ty} {names : List Tag} {args : List Ty}
    (formed : t.Formed arity names cells) (length : args.length = names.length) {q : Ident}
    (inside : q ∈ (t.substitute (names.zip args)).parameters) : ∃ u ∈ args, q ∈ u.parameters := by
  rcases mem_parameters_substitute inside with ⟨own, nothing⟩ | ⟨r, own, u, found, inside⟩
  · obtain ⟨u, -, found⟩ := exists_lookup_zip length (formed.mem_parameters own)
    rw [found] at nothing
    cases nothing
  · obtain ⟨v, member, found'⟩ := exists_lookup_zip length (formed.mem_parameters own)
    rw [found] at found'
    obtain rfl := Option.some.inj found'
    exact ⟨u, member, inside⟩

/-- Filling in cells. -/
theorem Formed.mapCells {t : Ty} {f : Cell → Ty} (formed : t.Formed arity generics cells)
    (filled : ∀ c ∈ t.cells, (f c).Formed arity generics cells') :
    (t.mapCells f).Formed arity generics cells' := by
  induction t with
  | named name args ih =>
    rw [formed_named] at formed
    simp only [cells_named, List.mem_flatMap] at filled
    rw [mapCells_named, formed_named, List.length_map]
    refine ⟨formed.1, fun u member => ?_⟩
    obtain ⟨t, inside, rfl⟩ := List.mem_map.mp member
    exact ih t inside (formed.2 t inside) fun c within => filled c ⟨t, inside, within⟩
  | generic name => simpa using formed
  | func args result ih ihResult =>
    rw [formed_func] at formed
    simp only [cells_func, List.mem_append, List.mem_flatMap] at filled
    rw [mapCells_func, formed_func]
    refine ⟨fun u member => ?_, ihResult formed.2 fun c within => filled c (Or.inr within)⟩
    obtain ⟨t, inside, rfl⟩ := List.mem_map.mp member
    exact ih t inside (formed.1 t inside) fun c within => filled c (Or.inl ⟨t, inside, within⟩)
  | cell c =>
    rw [mapCells_cell]
    exact filled c (by simp)

/-- Well-formed types are a universe if cells are told apart by their numbers. -/
theorem universe_formed (apart : ∀ c ∈ cells, ∀ d ∈ cells, c.number = d.number → c = d) :
    Universe (Formed arity generics cells) where
  args _ _ formed := (formed_named.mp formed).2
  params _ _ formed := (formed_func.mp formed).1
  result _ _ formed := (formed_func.mp formed).2
  apart c d known known' := apart c (formed_cell.mp known) d (formed_cell.mp known')

end Ty

/-- Settling a well-formed type. -/
theorem Bindings.formed_settle {arity : Arity} {generics : List Tag} {cells : List Cell}
    {b : Bindings} (sane : Sane (Ty.Formed arity generics cells) b) {t : Ty}
    (formed : t.Formed arity generics cells) : (b.settle t).Formed arity generics cells := by
  have within : ∀ n t, t.Formed arity generics cells →
      (b.settleWithin n t).Formed arity generics cells := by
    intro n
    induction n with
    | zero => exact fun t formed => formed
    | succ n ih =>
      intro t formed
      refine formed.mapCells fun c inside => ?_
      split
      · rename_i u found
        exact ih u (sane.bound c u found)
      · exact Ty.formed_cell.mpr (formed.mem_cells inside)
  exact within _ t formed

theorem WitnessExpr.namesAll_eq_flatMap (ws : List WitnessExpr) :
    namesAll ws = ws.flatMap names := by
  induction ws with
  | nil => rfl
  | cons w rest ih => simp [namesAll, ih]

namespace Ty

/-- A description reads the type parameters from left to right. -/
theorem names_witnessExpr {t : Ty} (closed : t.cells = []) : t.witnessExpr.names = t.parameters := by
  induction t with
  | named name args ih =>
    rw [cells_named, List.flatMap_eq_nil_iff] at closed
    rw [witnessExpr_named, WitnessExpr.names, WitnessExpr.namesAll_eq_flatMap, List.flatMap_map,
      parameters_named]
    exact List.flatMap_congr fun t member => ih t member (closed t member)
  | generic name => rfl
  | func args result ih ihResult =>
    rw [cells_func, List.append_eq_nil_iff, List.flatMap_eq_nil_iff] at closed
    rw [witnessExpr_func, WitnessExpr.names, WitnessExpr.namesAll_eq_flatMap, List.flatMap_append,
      List.flatMap_map, parameters_func, List.flatMap_cons, List.flatMap_nil, List.append_nil,
      ihResult closed.2]
    rw [List.flatMap_congr fun t member => ih t member (closed.1 t member)]
  | cell c => simp at closed

/-- A description that is finished is that of the type. -/
theorem eq_of_finishedWitness {t : Ty} {w : WitnessExpr} (finished : t.finishedWitness = .ok w) : w = t.witnessExpr := by
  rw [Ty.finishedWitness] at finished
  split at finished
  · exact (Except.ok.inj finished).symm
  · cases finished

/-- The description of a well-formed type is finished. -/
theorem Formed.finishedWitness {arity : Arity} {generics : List Tag} {t : Ty}
    (formed : t.Formed arity generics []) : t.finishedWitness = .ok t.witnessExpr := by
  rw [Ty.finishedWitness, formed.closed]

theorem Formed.mem_names {arity : Arity} {generics : List Tag} {t : Ty}
    (formed : t.Formed arity generics []) {x : Ident} (read : x ∈ t.witnessExpr.names) :
    x.tag ∈ generics := by
  rw [names_witnessExpr formed.closed] at read
  exact formed.mem_parameters read

end Ty

end WitnessLang
