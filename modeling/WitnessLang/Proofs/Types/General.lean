import WitnessLang.Proofs.Types.Depth
import WitnessLang.Proofs.Types.Key

set_option autoImplicit false

/-! Which types can be made equal. Unification finds a most general solution wherever there is
one, with one exception: asked to make an unbound cell equal to another cell that is linked to
it already, it takes the cell for one that would hold itself. `Compares` says which types
unification comes to compare on its way, and `Relinks` is the comparison it refuses. -/
namespace WitnessLang

namespace Ty

theorem size_erase (t : Ty) : t.erase.size = t.size := by
  induction t with
  | named name args ih =>
    have each : args.map (size ∘ erase) = args.map size := List.map_congr_left ih
    rw [erase_named, size_named, size_named, List.map_map, each]
  | generic name => rfl
  | func args result ih ihResult =>
    have each : args.map (size ∘ erase) = args.map size := List.map_congr_left ih
    rw [erase_func, size_func, size_func, List.map_map, each, ihResult]
  | cell c => rfl

theorem Alike.size {t u : Ty} (alike : Alike t u) : t.size = u.size := by
  rw [← size_erase t, ← size_erase u, alike]

theorem erase_mapCells (f : Cell → Ty) (t : Ty) :
    (t.mapCells f).erase = t.erase.mapCells fun c => (f c).erase := by
  induction t with
  | named name args ih => simpa using ih
  | generic name => simp
  | func args result ih ihResult => simpa [ihResult] using ih
  | cell c => simp

/-- Alike types stay so when their cells are filled. -/
theorem Alike.mapCells {t u : Ty} (alike : Alike t u) (f : Cell → Ty) :
    Alike (t.mapCells f) (u.mapCells f) := by
  rw [Alike, erase_mapCells, erase_mapCells, alike]

/-- What fills a cell is no larger than the whole. -/
theorem size_le_mapCells {f : Cell → Ty} {t : Ty} {c : Cell} (inside : c ∈ t.cells) :
    (f c).size ≤ (t.mapCells f).size := by
  induction t with
  | named name args ih =>
    rw [cells_named, List.mem_flatMap] at inside
    obtain ⟨t, member, inside⟩ := inside
    have part := ih t member inside
    have whole := size_le_sum (List.mem_map_of_mem (f := mapCells f) member)
    rw [mapCells_named, size_named]
    omega
  | generic name => simp at inside
  | func args result ih ihResult =>
    rw [mapCells_func, size_func]
    rw [cells_func, List.mem_append, List.mem_flatMap] at inside
    rcases inside with ⟨t, member, inside⟩ | inside
    · have part := ih t member inside
      have whole := size_le_sum (List.mem_map_of_mem (f := mapCells f) member)
      omega
    · have part := ihResult inside
      omega
  | cell d =>
    rw [cells_cell, List.mem_singleton] at inside
    rw [inside, mapCells_cell]

theorem size_lt_mapCells {f : Cell → Ty} {t : Ty} {c : Cell} (inside : c ∈ t.cells)
    (other : t ≠ .cell c) : (f c).size < (t.mapCells f).size := by
  cases t with
  | named name args =>
    rw [cells_named, List.mem_flatMap] at inside
    obtain ⟨t, member, inside⟩ := inside
    have part := size_le_mapCells (f := f) inside
    have whole := size_le_sum (List.mem_map_of_mem (f := mapCells f) member)
    rw [mapCells_named, size_named]
    omega
  | generic name => simp at inside
  | func args result =>
    rw [mapCells_func, size_func]
    rw [cells_func, List.mem_append, List.mem_flatMap] at inside
    rcases inside with ⟨t, member, inside⟩ | inside
    · have part := size_le_mapCells (f := f) inside
      have whole := size_le_sum (List.mem_map_of_mem (f := mapCells f) member)
      omega
    · have part := size_le_mapCells (f := f) inside
      omega
  | cell d =>
    rw [cells_cell, List.mem_singleton] at inside
    exact absurd (inside ▸ rfl) other

end Ty

namespace Bindings

variable {s s' : Bindings} {g : Nat → Ty}

/-- An assignment, by the numbers of cells, satisfies bindings if it makes each cell and what it is bound to alike. -/
def Satisfies (g : Nat → Ty) (s : Bindings) : Prop :=
  ∀ c t, s.value? c = some t → (g c.number).Alike (t.mapCells (g ·.number))

theorem alike_mapCells {f h : Cell → Ty} {t : Ty} (alike : ∀ c ∈ t.cells, (f c).Alike (h c)) :
    (t.mapCells f).Alike (t.mapCells h) := by
  induction t with
  | named name args ih =>
    simp only [Ty.cells_named, List.mem_flatMap, forall_exists_index, and_imp] at alike
    rw [Ty.mapCells_named, Ty.mapCells_named, Ty.alike_named, List.map_map, List.map_map]
    exact ⟨rfl, List.map_congr_left fun t member => ih t member fun c inside =>
      alike c t member inside⟩
  | generic name => exact .refl _
  | func args result ih ihResult =>
    simp only [Ty.cells_func, List.mem_append, List.mem_flatMap] at alike
    rw [Ty.mapCells_func, Ty.mapCells_func, Ty.alike_func, List.map_map, List.map_map]
    exact ⟨List.map_congr_left fun t member => ih t member fun c inside =>
      alike c (Or.inl ⟨t, member, inside⟩), ihResult fun c inside => alike c (Or.inr inside)⟩
  | cell c => exact alike c (by simp)

/-- Following bindings at the top does not matter to what satisfies them. -/
theorem Satisfies.resolve (satisfies : Satisfies g s) (t : Ty) :
    ((s.resolve t).mapCells (g ·.number)).Alike (t.mapCells (g ·.number)) := by
  have within : ∀ n t, ((s.resolveWithin n t).mapCells (g ·.number)).Alike
      (t.mapCells (g ·.number)) := by
    intro n
    induction n with
    | zero => exact fun t => .refl _
    | succ n ih =>
      intro t
      cases t with
      | cell c =>
        rw [resolveWithin]
        split
        · rename_i u found
          rw [Ty.mapCells_cell]
          exact (ih u).trans (satisfies c u found).symm
        · exact .refl _
      | _ => exact .refl _
  exact within _ t

/-- Nor does following them everywhere. -/
theorem Satisfies.settle (satisfies : Satisfies g s) (t : Ty) :
    ((s.settle t).mapCells (g ·.number)).Alike (t.mapCells (g ·.number)) := by
  have within : ∀ n t, ((s.settleWithin n t).mapCells (g ·.number)).Alike
      (t.mapCells (g ·.number)) := by
    intro n
    induction n with
    | zero => exact fun t => .refl _
    | succ n ih =>
      intro t
      rw [settleWithin_step, Ty.mapCells_mapCells]
      apply alike_mapCells
      intro c _
      split
      · rename_i u found
        exact (ih u).trans (satisfies c u found).symm
      · exact .refl _
  exact within _ t

/-- Following bindings everywhere does not change their solution. -/
theorem mapCells_settle {f : Cell → Ty} (solves : Solves f s) (t : Ty) :
    (s.settle t).mapCells f = t.mapCells f := by
  have within : ∀ n t, (s.settleWithin n t).mapCells f = t.mapCells f := by
    intro n
    induction n with
    | zero => exact fun t => rfl
    | succ n ih =>
      intro t
      rw [settleWithin_step, Ty.mapCells_mapCells]
      apply Ty.mapCells_congr
      intro c _
      split
      · rename_i u found
        rw [ih u, solves c u found]
      · exact Ty.mapCells_cell f c
  exact within _ t

/-- Settling by fewer bindings first makes no difference. -/
theorem settle_settle (acyclic : Acyclic s') (grown : Extends s s') (t : Ty) :
    s'.settle (s.settle t) = s'.settle t := by
  rw [settle_eq_mapCells, settle_eq_mapCells s' t]
  exact mapCells_settle ((solves_settle acyclic).of_extends grown) t

theorem settle_of_settled {t : Ty} (settled : ∀ c ∈ t.cells, s.value? c = none) : s.settle t = t := by
  rw [settle_eq_mapCells]
  exact (Ty.mapCells_congr fun c inside => settle_of_unbound (settled c inside)).trans (Ty.mapCells_id t)

/-- An assignment for the unbound cells, extended to all cells. -/
def extension (s : Bindings) (f : Nat → Ty) (n : Nat) : Ty :=
  (s.settle (.cell ⟨n, ""⟩)).mapCells (f ·.number)

/-- How a cell is named does not matter to what it settles to, its own number apart. -/
theorem extension_number (f : Nat → Ty) (c : Cell) :
    s.extension f c.number = (s.settle (.cell c)).mapCells (f ·.number) := by
  rw [extension, settle_eq, settle_eq]
  cases s.length with
  | zero => rfl
  | succ n =>
    have same : s.value? ⟨c.number, ""⟩ = s.value? c := rfl
    rw [settleWithin_cell, settleWithin_cell, same]
    cases s.value? c with
    | none => rfl
    | some u => rfl

theorem mapCells_extension (f : Nat → Ty) (t : Ty) :
    t.mapCells (s.extension f ·.number) = (s.settle t).mapCells (f ·.number) := by
  rw [settle_eq_mapCells, Ty.mapCells_mapCells]
  exact Ty.mapCells_congr fun c _ => extension_number f c

theorem satisfies_extension (acyclic : Acyclic s) (f : Nat → Ty) : Satisfies (s.extension f) s := by
  intro c t found
  have solved : s.settle (.cell c) = t.mapCells fun c => s.settle (.cell c) :=
    solves_settle acyclic c t found
  rw [extension_number, mapCells_extension, solved, ← settle_eq_mapCells]
  exact .refl _

/-- A type settles to a cell only by following bindings at its top. -/
theorem settle_eq_cell_iff {t : Ty} {c : Cell} : s.settle t = .cell c ↔ s.resolve t = .cell c := by
  have within : ∀ n t, s.settleWithin n t = .cell c ↔ s.resolveWithin n t = .cell c := by
    intro n
    induction n with
    | zero => exact fun t => Iff.rfl
    | succ n ih =>
      intro t
      cases t with
      | cell d =>
        rw [settleWithin_cell, resolveWithin]
        cases s.value? d with
        | none => exact Iff.rfl
        | some u => exact ih u
      | _ => simp [settleWithin_step, resolveWithin]
  exact within _ t

/-- Following bindings at the top ends at a type that is no bound cell. -/
theorem value?_of_resolve (acyclic : Acyclic s) {t : Ty} {c : Cell} (last : s.resolve t = .cell c) :
    s.value? c = none := by
  rw [← settle_eq_cell_iff] at last
  exact unbound_of_mem_settle (t := t) acyclic (by simp [last])

/-- There is nothing to follow from a type that is no bound cell. -/
theorem resolve_of_last {t : Ty} (last : ∀ c, t = .cell c → s.value? c = none) : s.resolve t = t := by
  cases t with
  | cell c => exact settle_eq_cell_iff.mp (settle_of_unbound (last c rfl))
  | _ => unfold resolve; cases s.length <;> rfl

/-- More steps than there are bindings change nothing. -/
theorem settleWithin_of_le (acyclic : Acyclic s) {n : Nat} (enough : s.length ≤ n) (t : Ty) :
    s.settleWithin n t = s.settle t := by
  induction n, enough using Nat.le_induction with
  | base => rfl
  | succ n _ ih =>
    rw [settleWithin_succ n t, ih]
    rw [ih]
    exact fun c left => unbound_of_mem_settle acyclic left

theorem resolveWithin_succ {n : Nat} {t : Ty}
    (last : ∀ c, s.resolveWithin n t = .cell c → s.value? c = none) :
    s.resolveWithin (n + 1) t = s.resolveWithin n t := by
  induction n generalizing t with
  | zero =>
    cases t with
    | cell c => simp [resolveWithin, last c rfl]
    | _ => rfl
  | succ n ih =>
    cases t with
    | cell c =>
      rw [resolveWithin, resolveWithin]
      cases found : s.value? c with
      | none => rfl
      | some u =>
        apply ih
        rw [resolveWithin] at last
        simpa only [found] using last
    | _ => rfl

theorem resolveWithin_of_le (acyclic : Acyclic s) {n : Nat} (enough : s.length ≤ n) (t : Ty) :
    s.resolveWithin n t = s.resolve t := by
  induction n, enough using Nat.le_induction with
  | base => rfl
  | succ n _ ih =>
    rw [resolveWithin_succ, ih]
    rw [ih]
    exact fun c last => value?_of_resolve acyclic last

end Bindings

namespace Unify

open Bindings

/-- An assignment of types to unbound cells that makes two types equal, names compared by tag. -/
structure Unifier (s : Bindings) (a b : Ty) (f : Nat → Ty) : Prop where
  closed : ∀ n, (f n).cells = []
  equal : ((s.settle a).mapCells (f ·.number)).key = ((s.settle b).mapCells (f ·.number)).key

theorem Unifier.symm {s : Bindings} {a b : Ty} {f : Nat → Ty} (unifier : Unifier s a b f) :
    Unifier s b a f := ⟨unifier.closed, unifier.equal.symm⟩

theorem cells_filled {f : Nat → Ty} (closed : ∀ n, (f n).cells = []) (t : Ty) :
    (t.mapCells (f ·.number)).cells = [] := by
  rw [List.eq_nil_iff_forall_not_mem]
  intro c inside
  obtain ⟨d, -, inside⟩ := Ty.mem_cells_mapCells.mp inside
  rw [closed d.number] at inside
  exact List.not_mem_nil inside

theorem Unifier.alike {s : Bindings} {a b : Ty} {f : Nat → Ty} (unifier : Unifier s a b f) :
    ((s.settle a).mapCells (f ·.number)).Alike ((s.settle b).mapCells (f ·.number)) :=
  Ty.alike_of_key (cells_filled unifier.closed _) (cells_filled unifier.closed _) unifier.equal

/-- Making two types equal comes to compare two others, in the bindings made until then. What
stands to the left of two parts has been made equal before; through a cell on the right the
sides turn. -/
inductive Compares : Bindings → Ty → Ty → Bindings → Ty → Ty → Prop
  | here {s : Bindings} {a b : Ty} : Compares s a b s a b
  | left {s s₁ : Bindings} {c : Cell} {t b x y : Ty} : s.value? c = some t → b ≠ .cell c →
    Compares s t b s₁ x y → Compares s (.cell c) b s₁ x y
  | right {s s₁ : Bindings} {c : Cell} {t a x y : Ty} : (∀ d, a ≠ .cell d) →
    s.value? c = some t → Compares s t a s₁ x y → Compares s a (.cell c) s₁ x y
  | arg {s s₁ s₂ : Bindings} {m n : Ident} {front back front' back' : List Ty} {a b x y : Ty} :
    m.tag = n.tag → front.length = front'.length → back.length = back'.length →
    Ends (each types front front') s (.ok ()) s₂ → Compares s₂ a b s₁ x y →
    Compares s (.named m (front ++ a :: back)) (.named n (front' ++ b :: back')) s₁ x y
  | param {s s₁ s₂ : Bindings} {front back front' back' : List Ty} {a b r q x y : Ty} :
    front.length = front'.length → back.length = back'.length →
    Ends (each types front front') s (.ok ()) s₂ → Compares s₂ a b s₁ x y →
    Compares s (.func (front ++ a :: back) r) (.func (front' ++ b :: back') q) s₁ x y
  | result {s s₁ s₂ : Bindings} {as bs : List Ty} {a b x y : Ty} : as.length = bs.length →
    Ends (each types as bs) s (.ok ()) s₂ → Compares s₂ a b s₁ x y →
    Compares s (.func as a) (.func bs b) s₁ x y

/-- An unbound cell on the left, and on the right something else that is linked to it. -/
def Relinks (s : Bindings) (x y : Ty) : Prop :=
  ∃ c, x = .cell c ∧ y ≠ .cell c ∧ s.value? c = none ∧ s.resolve y = .cell c

/-- No comparison on the way is one that is refused. -/
def Free (s : Bindings) (a b : Ty) : Prop := ∀ s₁ x y, Compares s a b s₁ x y → ¬ Relinks s₁ x y

section Lists

variable {self : Ty → Ty → Unify Unit} {s s' : Bindings}

theorem each_append_ok {front front' : List Ty} (same : front.length = front'.length)
    (as bs : List Ty) : Ends (each self (front ++ as) (front' ++ bs)) s (.ok ()) s' ↔
      ∃ s₁, Ends (each self front front') s (.ok ()) s₁ ∧ Ends (each self as bs) s₁ (.ok ()) s' := by
  induction front generalizing front' s with
  | nil =>
    obtain rfl := List.length_eq_zero_iff.mp same.symm
    simp [each]
  | cons a front ih =>
    obtain ⟨b, front', rfl⟩ := List.exists_cons_of_length_eq_add_one same.symm
    have behind : ∀ {s}, Ends (each self (front ++ as) (front' ++ bs)) s (.ok ()) s' ↔ _ := ih (by simpa using same)
    simp only [List.cons_append, each, ends_bind_ok, behind]
    constructor
    · rintro ⟨u, s₁, first, s₂, middle, last⟩
      exact ⟨s₂, ⟨u, s₁, first, middle⟩, last⟩
    · rintro ⟨s₂, ⟨u, s₁, first, middle⟩, last⟩
      exact ⟨u, s₁, first, s₂, middle, last⟩

theorem each_cons_ok {a b : Ty} {as bs : List Ty} :
    Ends (each self (a :: as) (b :: bs)) s (.ok ()) s' ↔
      ∃ s₁, Ends (self a b) s (.ok ()) s₁ ∧ Ends (each self as bs) s₁ (.ok ()) s' := by
  rw [each, ends_bind_ok]
  constructor
  · rintro ⟨u, s₁, first, rest⟩
    exact ⟨s₁, first, rest⟩
  · rintro ⟨s₁, first, rest⟩
    exact ⟨(), s₁, first, rest⟩

end Lists

variable {valid : Ty → Prop} {s s' : Bindings} {a b : Ty} {g : Nat → Ty}

section Steps

variable {self : Ty → Ty → Unify Unit} {c : Cell} {t other : Ty}

theorem step_cell : step self (.cell c) b = cell self c b := by rw [step]

theorem step_cell_right (apart : ∀ d, a ≠ .cell d) : step self a (.cell c) = cell self c a := by
  cases a with
  | cell d => exact absurd rfl (apart d)
  | _ => rw [step]; simp

theorem cell_bound_ok (found : s.value? c = some t) (apart : other ≠ .cell c) :
    Ends (cell self c other) s (.ok ()) s' ↔ Ends (self t other) s (.ok ()) s' := by
  constructor
  · intro ended
    rcases cell_cases ended with ⟨same, -⟩ | ⟨unbound, -⟩ | ⟨unbound, -⟩ | ⟨u, r, bound, ended, done⟩
    · exact absurd same apart
    · rw [found] at unbound
      cases unbound
    · rw [found] at unbound
      cases unbound
    · rw [found] at bound
      obtain rfl := Option.some.inj bound
      obtain rfl := done rfl
      exact ended
  · intro ended
    rw [cell_eq_attach apart, attach, ends_get_bind]
    simp only [found, ends_tryCatch]
    exact Or.inl ⟨(), ended, trivial⟩

theorem cell_unbound_ok (unbound : s.value? c = none) (apart : other ≠ .cell c)
    (absent : c ∉ (s.settle (s.resolve other)).cells) :
    Ends (cell self c other) s (.ok ()) ((c.number, s.resolve other) :: s) := by
  rw [cell_eq_attach apart, attach, ends_get_bind]
  have fresh : s.mentions c (s.resolve other) = false := by simpa [mentions] using absent
  simp only [unbound, fresh, Bindings.bind, ends_set, Bool.false_eq_true, ↓reduceIte]
  trivial

end Steps

/-- What was refused on the way makes the whole fail. -/
theorem Compares.fails {s₁ : Bindings} {x y : Ty} (closed : Universe valid)
    (compares : Compares s a b s₁ x y) (relinks : Relinks s₁ x y) (sane : Sane valid s)
    (okA : valid a) (okB : valid b) : ¬ Ends (types a b) s (.ok ()) s' := by
  induction compares generalizing s' with
  | @here s a b =>
    obtain ⟨c, rfl, apart, unbound, linked⟩ := relinks
    intro ended
    rw [types_unfold closed sane okA okB, step_cell] at ended
    rcases cell_cases ended with ⟨same, -⟩ | ⟨-, failed, -⟩ | ⟨-, absent, -⟩ | ⟨u, r, bound, -⟩
    · exact apart same
    · exact failed rfl
    · rw [linked, settle_of_unbound unbound] at absent
      simp at absent
    · rw [unbound] at bound
      cases bound
  | left found apart _ ih =>
    intro ended
    rw [types_unfold closed sane okA okB, step_cell, cell_bound_ok found apart] at ended
    exact ih relinks sane (sane.bound _ _ found) okB ended
  | right apart found _ ih =>
    intro ended
    rw [types_unfold closed sane okA okB, step_cell_right apart, cell_bound_ok found (apart _)] at ended
    exact ih relinks sane (sane.bound _ _ found) okA ended
  | @arg s s₁ s₂ m n front back front' back' a b x y same frontLength backLength before _ ih =>
    intro ended
    have length : (front ++ a :: back).length = (front' ++ b :: back').length := by
      simp [frontLength, backLength]
    have args := closed.args _ _ okA
    have args' := closed.args _ _ okB
    rw [types_unfold closed sane okA okB, step, if_pos ⟨same, length⟩,
      each_append_ok frontLength] at ended
    obtain ⟨s₃, before', ended⟩ := ended
    obtain ⟨-, rfl⟩ := before.unique before'
    obtain ⟨s₃, here, -⟩ := each_cons_ok.mp ended
    have sane₂ := (each_unified (types_sound closed) frontLength before sane
      (fun t member => args t (by simp [member])) (fun t member => args' t (by simp [member]))).1
    exact ih relinks sane₂ (args a (by simp)) (args' b (by simp)) here
  | @param s s₁ s₂ front back front' back' a b r q x y frontLength backLength before _ ih =>
    intro ended
    have length : (front ++ a :: back).length = (front' ++ b :: back').length := by
      simp [frontLength, backLength]
    have args := closed.params _ _ okA
    have args' := closed.params _ _ okB
    rw [types_unfold closed sane okA okB, step, if_neg (not_not.mpr length), ends_bind_ok] at ended
    obtain ⟨_, s₃, ended, _⟩ := ended
    rw [each_append_ok frontLength] at ended
    obtain ⟨s₃, before', ended⟩ := ended
    obtain ⟨-, rfl⟩ := before.unique before'
    obtain ⟨s₃, here, -⟩ := each_cons_ok.mp ended
    have sane₂ := (each_unified (types_sound closed) frontLength before sane
      (fun t member => args t (by simp [member])) (fun t member => args' t (by simp [member]))).1
    exact ih relinks sane₂ (args a (by simp)) (args' b (by simp)) here
  | result length before _ ih =>
    intro ended
    rw [types_unfold closed sane okA okB, step, if_neg (not_not.mpr length), ends_bind_ok] at ended
    obtain ⟨_, s₃, before', ended⟩ := ended
    obtain ⟨-, rfl⟩ := before.unique before'
    have sane₂ := (each_unified (types_sound closed) length before sane (closed.params _ _ okA)
      (closed.params _ _ okB)).1
    exact ih relinks sane₂ (closed.result _ _ okA) (closed.result _ _ okB) ended

/-- A cell in what it has to equal is there only as the whole. -/
theorem not_mem_of_satisfies (satisfies : Satisfies g s) {c : Cell} {other : Ty}
    (equal : (g c.number).Alike (other.mapCells (g ·.number))) (unlinked : s.resolve other ≠ .cell c)
    (acyclic : Acyclic s) : c ∉ (s.settle (s.resolve other)).cells := by
  intro inside
  have settled : s.settle (s.resolve other) ≠ .cell c := by
    intro whole
    have last := settle_eq_cell_iff.mp whole
    rw [resolve_of_last fun d last => value?_of_resolve acyclic last] at last
    exact unlinked last
  have larger := Ty.size_lt_mapCells (f := (g ·.number)) inside settled
  have same := ((satisfies.settle _).trans (satisfies.resolve other)).trans equal.symm
  rw [same.size] at larger
  exact Nat.lt_irrefl _ larger

/-- Pairs that an assignment makes equal can be made equal one after the other. -/
theorem each_complete (closed : Universe valid) {as bs : List Ty} (sane : Sane valid s)
    (satisfies : Satisfies g s) (okA : ∀ t ∈ as, valid t) (okB : ∀ t ∈ bs, valid t)
    (equal : (as.map (·.mapCells (g ·.number))).map Ty.erase =
      (bs.map (·.mapCells (g ·.number))).map Ty.erase)
    (complete : ∀ s₁ x y, Extends s s₁ → Sane valid s₁ → (x, y) ∈ as.zip bs → Satisfies g s₁ →
      (x.mapCells (g ·.number)).Alike (y.mapCells (g ·.number)) → Free s₁ x y →
      ∃ s₂, Ends (types x y) s₁ (.ok ()) s₂ ∧ Satisfies g s₂)
    (free : ∀ front x back front' y back' s₁, as = front ++ x :: back → bs = front' ++ y :: back' →
      front.length = front'.length → Ends (each types front front') s (.ok ()) s₁ → Free s₁ x y) :
    ∃ s', Ends (each types as bs) s (.ok ()) s' ∧ Satisfies g s' := by
  induction as generalizing bs s with
  | nil => exact ⟨s, by simp [each], satisfies⟩
  | cons a as ih =>
    cases bs with
    | nil => simp at equal
    | cons b bs =>
      rw [List.forall_mem_cons] at okA okB
      obtain ⟨first, others⟩ := List.cons.inj equal
      obtain ⟨s₁, ended, satisfies₁⟩ := complete s a b (.refl s) sane List.mem_cons_self satisfies
        first (free [] a as [] b bs s rfl rfl rfl (by simp [each]))
      have here := types_sound closed a b s _ s₁ ended sane okA.1 okB.1
      obtain ⟨s₂, rest, satisfies₂⟩ := ih here.sane satisfies₁ okA.2 okB.2 others
        (fun s₂ x y grown sane₂ member => complete s₂ x y (here.grown.trans grown) sane₂
          (List.mem_cons_of_mem _ member))
        (fun front x back front' y back' s₂ split split' same before =>
          free (a :: front) x back (b :: front') y back' s₂ (by rw [split]; rfl)
            (by rw [split']; rfl) (by simpa using same)
            (each_cons_ok.mpr ⟨s₁, ended, before⟩))
      exact ⟨s₂, each_cons_ok.mpr ⟨s₁, ended, rest⟩, satisfies₂⟩

/-- A cell can be made equal to what an assignment says it equals, unless that is linked to it. -/
theorem cell_complete {c : Cell} {other : Ty} (acyclic : Acyclic s) (satisfies : Satisfies g s)
    (equal : (g c.number).Alike (other.mapCells (g ·.number)))
    (unlinked : other ≠ .cell c → s.value? c = none → s.resolve other ≠ .cell c)
    (complete : ∀ t, s.value? c = some t → other ≠ .cell c →
      (t.mapCells (g ·.number)).Alike (other.mapCells (g ·.number)) →
      ∃ s', Ends (types t other) s (.ok ()) s' ∧ Satisfies g s') :
    ∃ s', Ends (cell types c other) s (.ok ()) s' ∧ Satisfies g s' := by
  by_cases itself : other = .cell c
  · exact ⟨s, by simp [cell, itself], satisfies⟩
  · cases found : s.value? c with
    | some t =>
      obtain ⟨s', ended, satisfies'⟩ :=
        complete t found itself ((satisfies c t found).symm.trans equal)
      exact ⟨s', (cell_bound_ok found itself).mpr ended, satisfies'⟩
    | none =>
      have absent := not_mem_of_satisfies satisfies equal (unlinked itself found) acyclic
      refine ⟨_, cell_unbound_ok found itself absent, fun d u bound => ?_⟩
      rw [value?_cons] at bound
      split at bound
      · rename_i same
        obtain rfl := Option.some.inj bound
        rw [same]
        exact equal.trans (satisfies.resolve other).symm
      · exact satisfies d u bound

/-- What an assignment makes equal can be made equal, if nothing on the way is refused; the
assignment satisfies all bindings made. -/
theorem types_complete (closed : Universe valid) {n : Nat} (bounded : Bounded valid n s a b)
    (sane : Sane valid s) (okA : valid a) (okB : valid b) (satisfies : Satisfies g s)
    (equal : (a.mapCells (g ·.number)).Alike (b.mapCells (g ·.number))) (free : Free s a b) :
    ∃ s', Ends (types a b) s (.ok ()) s' ∧ Satisfies g s' := by
  induction n generalizing s a b with
  | zero => exact bounded.elim
  | succ n ih =>
    have unfold : ∀ s', Ends (types a b) s (.ok ()) s' ↔ _ := fun s' => types_unfold closed sane okA okB
    simp only [unfold]
    by_cases left : ∃ c, a = .cell c
    · obtain ⟨c, rfl⟩ := left
      rw [step_cell]
      apply cell_complete sane.acyclic satisfies equal
      · exact fun apart unbound linked => free _ _ _ .here ⟨c, rfl, apart, unbound, linked⟩
      · intro t found apart alike
        exact ih (bounded s t b (.refl s) sane (.left found)) sane (sane.bound c t found) okB satisfies
          alike fun s₁ x y compares => free s₁ x y (.left found apart compares)
    have apart : ∀ c, a ≠ .cell c := fun c same => left ⟨c, same⟩
    by_cases right : ∃ c, b = .cell c
    · obtain ⟨c, rfl⟩ := right
      rw [step_cell_right apart]
      apply cell_complete sane.acyclic satisfies equal.symm
      · intro _ _ linked
        rw [resolve_of_last fun d same => absurd same (apart d)] at linked
        exact apart c linked
      · intro t found _ alike
        exact ih (bounded s t a (.refl s) sane (.right found)) sane (sane.bound c t found) okA satisfies
          alike fun s₁ x y compares => free s₁ x y (.right apart found compares)
    cases a with
    | cell c => exact absurd rfl (apart c)
    | named m as =>
      cases b with
      | named k bs =>
        have args := closed.args m as okA
        have args' := closed.args k bs okB
        rw [Ty.mapCells_named, Ty.mapCells_named, Ty.alike_named] at equal
        have length : as.length = bs.length := by simpa using congrArg List.length equal.2
        rw [step, if_pos ⟨equal.1, length⟩]
        apply each_complete closed sane satisfies args args' equal.2
        · intro s₁ x y grown sane₁ member satisfies₁ alike free₁
          have both := List.of_mem_zip member
          exact ih (bounded s₁ x y grown sane₁ (.arg member)) sane₁ (args x both.1) (args' y both.2)
            satisfies₁ alike free₁
        · rintro front x back front' y back' s₁ rfl rfl same before s₂ x' y' compares
          have behind : back.length = back'.length := by
            simpa [same] using length
          exact free _ _ _ (.arg equal.1 same behind before compares)
      | cell c => exact absurd ⟨c, rfl⟩ right
      | generic _ => simp [Ty.Alike] at equal
      | func _ _ => simp [Ty.Alike] at equal
    | generic m =>
      cases b with
      | generic k =>
        have same : m.tag = k.tag := by simpa [Ty.Alike, Ident.erase_inj] using equal
        exact ⟨s, by simp [step, same], satisfies⟩
      | cell c => exact absurd ⟨c, rfl⟩ right
      | named _ _ => simp [Ty.Alike] at equal
      | func _ _ => simp [Ty.Alike] at equal
    | func as r =>
      cases b with
      | func bs q =>
        have params := closed.params as r okA
        have params' := closed.params bs q okB
        rw [Ty.mapCells_func, Ty.mapCells_func, Ty.alike_func] at equal
        have length : as.length = bs.length := by simpa using congrArg List.length equal.1
        have first : ∃ s₁, Ends (each types as bs) s (.ok ()) s₁ ∧ Satisfies g s₁ := by
          apply each_complete closed sane satisfies params params' equal.1
          · intro s₁ x y grown sane₁ member satisfies₁ alike free₁
            have both := List.of_mem_zip member
            exact ih (bounded s₁ x y grown sane₁ (.param member)) sane₁ (params x both.1)
              (params' y both.2) satisfies₁ alike free₁
          · rintro front x back front' y back' s₁ rfl rfl same before s₂ x' y' compares
            have behind : back.length = back'.length := by
              simpa [same] using length
            exact free _ _ _ (.param same behind before compares)
        obtain ⟨s₁, args, satisfies₁⟩ := first
        have here := each_unified (types_sound closed) length args sane params params'
        obtain ⟨s₂, rest, satisfies₂⟩ := ih (bounded s₁ r q here.2.1 here.1 .result) here.1
          (closed.result as r okA) (closed.result bs q okB) satisfies₁ equal.2
          fun s₂ x y compares => free s₂ x y (.result length args compares)
        refine ⟨s₂, ?_, satisfies₂⟩
        rw [step, if_neg (not_not.mpr length), ends_bind_ok]
        exact ⟨(), s₁, args, rest⟩
      | cell c => exact absurd ⟨c, rfl⟩ right
      | named _ _ => simp [Ty.Alike] at equal
      | generic _ => simp [Ty.Alike] at equal

def Succeeds (s : Bindings) (a b : Ty) : Prop := ∃ s', Ends (types a b) s (.ok ()) s'

theorem exists_satisfying (closed : Universe valid) (sane : Sane valid s) (okA : valid a)
    (okB : valid b) {f : Nat → Ty} (unifier : Unifier s a b f) (free : Free s a b) :
    ∃ s', Ends (types a b) s (.ok ()) s' ∧ Satisfies (s.extension f) s' := by
  have sane' := sane_met sane a b
  have okA' : valid a ∧ a ∈ met s a b := ⟨okA, mem_met_left s a b⟩
  have okB' : valid b ∧ b ∈ met s a b := ⟨okB, mem_met_right s a b⟩
  have bounded := bounded_of_known (n := 2 * (met s a b).length) (universe_met closed s a b)
    (fun t ok => ok.2) sane' okA' okB' (by omega)
  apply types_complete (universe_met closed s a b) bounded sane' okA' okB'
    (satisfies_extension sane.acyclic f) ?_ free
  rw [mapCells_extension, mapCells_extension]
  exact unifier.alike

/-- When types have been made equal, they settle to the same type. -/
theorem alike_settle (closed : Universe valid) (sane : Sane valid s) (okA : valid a) (okB : valid b)
    (ended : Ends (types a b) s (.ok ()) s') : (s'.settle a).Alike (s'.settle b) := by
  have unified := types_sound closed a b s _ s' ended sane okA okB
  rw [settle_eq_mapCells, settle_eq_mapCells s' b]
  exact unified.alike rfl _ (solves_settle unified.sane.acyclic)

/-- The bindings made give an assignment for the cells that were not bound before. -/
theorem exists_unifier (closed : Universe valid) (sane : Sane valid s) (okA : valid a) (okB : valid b)
    (ended : Ends (types a b) s (.ok ()) s') : ∃ f, Unifier s a b f := by
  have unified := types_sound closed a b s _ s' ended sane okA okB
  have filled : ∀ t, (s.settle t).mapCells (s'.extension (fun _ => .float) ·.number) =
      (s'.settle t).mapCells fun _ => .float := by
    intro t
    rw [mapCells_extension, settle_settle unified.sane.acyclic unified.grown]
  refine ⟨s'.extension fun _ => .float, fun n => cells_filled (f := fun _ => .float) (by simp) _, ?_⟩
  rw [filled, filled]
  exact ((alike_settle closed sane okA okB ended).mapCells _).key

/-- A type whose cells have the names that go with their numbers. -/
def Named (names : Nat → String) (t : Ty) : Prop := ∀ c ∈ t.cells, c.generic = names c.number

theorem universe_named (names : Nat → String) : Universe (Named names) where
  args name args ok t member c inside := ok c (by
    rw [Ty.cells_named]
    exact List.mem_flatMap.mpr ⟨t, member, inside⟩)
  params args result ok t member c inside := ok c (by
    rw [Ty.cells_func]
    exact List.mem_append_left _ (List.mem_flatMap.mpr ⟨t, member, inside⟩))
  result args result ok c inside := ok c (by
    rw [Ty.cells_func]
    exact List.mem_append_right _ inside)
  apart c d okC okD same := by
    have nameC := okC c (by simp)
    have nameD := okD d (by simp)
    cases c
    cases d
    simp_all

section Results

variable {names : Nat → String}

/-- Unification of any two types from any acyclic bindings comes to an end, which further depth
does not change: whatever `self` would do with the calls at that depth, there are none. What
is bound stays as it is, and bindings stay acyclic, so following them ends as well. If
unification succeeds, the two types have become the same, names compared by tag. -/
theorem types_ends (sane : Sane (Named names) s) (okA : Named names a) (okB : Named names b) :
    ∃ r s', Ends (types a b) s r s' ∧
      (∀ self n, 2 * (a.size + b.size + s.size) ≤ n → Ends ((step^[n] self) a b) s r s') ∧
      Extends s s' ∧ Acyclic s' ∧
      (∀ n t, s'.length ≤ n → s'.settleWithin n t = s'.settle t ∧ s'.resolveWithin n t = s'.resolve t) ∧
      (r = .ok () → (s'.settle a).Alike (s'.settle b) ∧ (s'.settle a).key = (s'.settle b).key) := by
  have closed := universe_named names
  cases ends : outcome (types a b) s with
  | mk r s' =>
    have unified := types_sound closed a b s r s' ends sane okA okB
    refine ⟨r, s', ends, fun self n enough => ?_, unified.grown, unified.sane.acyclic,
      fun n t enough => ?_, fun done => ?_⟩
    · exact deep_of_ends closed sane okA okB ends enough self
    · exact ⟨settleWithin_of_le unified.sane.acyclic enough t,
        resolveWithin_of_le unified.sane.acyclic enough t⟩
    · subst done
      have alike := alike_settle closed sane okA okB ends
      exact ⟨alike, alike.key⟩

def linked : Bindings := [(2, .cell ⟨1, "t"⟩)]

theorem sane_linked : Sane (Named fun _ => "t") linked := by
  have only : ∀ {c t}, linked.value? c = some t → c.number = 2 ∧ t = .cell ⟨1, "t"⟩ := by
    intro c t found
    obtain ⟨before, after, split, -⟩ := List.lookup_eq_some_iff.mp found
    cases before with
    | nil => simp_all [linked]
    | cons p rest => simp [linked] at split
  constructor
  · refine ⟨id, fun c t found d inside => ?_⟩
    obtain ⟨number, rfl⟩ := only found
    obtain rfl : d = ⟨1, "t"⟩ := by simpa using inside
    simp [number]
  · intro c t found
    obtain ⟨-, rfl⟩ := only found
    simp [Named]

/-- A function on what is linked, and one that gives a truth value. -/
theorem linked_ends : ∃ r s', Ends (types (.func [.cell ⟨2, "t"⟩] (.cell ⟨3, "t"⟩))
      (.func [.cell ⟨3, "t"⟩] .bool)) linked r s' ∧ r = .ok () ∧ Extends linked s' ∧ Acyclic s' ∧
    (s'.settle (.cell ⟨2, "t"⟩)).Alike .bool := by
  obtain ⟨r, s', ended, -, grown, acyclic, -, -⟩ := types_ends (b := .func [.cell ⟨3, "t"⟩] .bool)
    sane_linked (a := .func [.cell ⟨2, "t"⟩] (.cell ⟨3, "t"⟩)) (by simp [Named]) (by simp [Named])
  have run : Ends (types (.func [.cell ⟨2, "t"⟩] (.cell ⟨3, "t"⟩)) (.func [.cell ⟨3, "t"⟩] .bool)) linked
      (.ok ()) [(3, .bool), (1, .cell ⟨3, "t"⟩), (2, .cell ⟨1, "t"⟩)] := rfl
  obtain ⟨rfl, rfl⟩ := ended.unique run
  exact ⟨_, _, run, rfl, grown, acyclic, rfl⟩

/-- Unification succeeds exactly if some assignment of types to the unbound cells makes the two
types equal and nothing on the way is refused. The bindings it makes are a most general such
assignment: every other one takes the settled types to the same as before. So which of the
two types comes first does not matter, nor how cells have been linked, except for what is
refused. -/
theorem types_general (sane : Sane (Named names) s) (okA : Named names a) (okB : Named names b) :
    (Succeeds s a b ↔ (∃ f, Unifier s a b f) ∧ Free s a b) ∧
      (∀ s', Ends (types a b) s (.ok ()) s' → Extends s s' ∧ Acyclic s' ∧
        (s'.settle a).Alike (s'.settle b) ∧ ∀ f, Unifier s a b f → ∀ t,
          ((s'.settle t).mapCells (f ·.number)).key = ((s.settle t).mapCells (f ·.number)).key) ∧
      ∀ s₂, Sane (Named names) s₂ → (∀ f, Unifier s₂ a b f ↔ Unifier s a b f) → Free s a b →
        (Free s₂ a b → (Succeeds s₂ a b ↔ Succeeds s a b)) ∧
          (Free s₂ b a → (Succeeds s₂ b a ↔ Succeeds s a b)) := by
  have closed := universe_named names
  have exact : ∀ {s a b}, Sane (Named names) s → Named names a → Named names b →
      (Succeeds s a b ↔ (∃ f, Unifier s a b f) ∧ Free s a b) := by
    intro s a b sane okA okB
    constructor
    · rintro ⟨s', ended⟩
      refine ⟨exists_unifier closed sane okA okB ended, fun s₁ x y compares relinks => ?_⟩
      exact compares.fails closed relinks sane okA okB ended
    · rintro ⟨⟨f, unifier⟩, free⟩
      obtain ⟨s', ended, -⟩ := exists_satisfying closed sane okA okB unifier free
      exact ⟨s', ended⟩
  refine ⟨exact sane okA okB, fun s' ended => ?_, fun s₂ sane₂ same free => ⟨fun free₂ => ?_, fun free₂ => ?_⟩⟩
  · have unified := types_sound closed a b s _ s' ended sane okA okB
    refine ⟨unified.grown, unified.sane.acyclic, alike_settle closed sane okA okB ended, ?_⟩
    intro f unifier t
    have free := ((exact sane okA okB).mp ⟨s', ended⟩).2
    obtain ⟨s₁, ended₁, satisfies⟩ := exists_satisfying closed sane okA okB unifier free
    obtain ⟨-, rfl⟩ := ended.unique ended₁
    have general := satisfies.settle t
    rw [mapCells_extension, mapCells_extension] at general
    have unbound : ∀ c ∈ (s'.settle t).cells, s.value? c = none := by
      intro c left
      have last := unbound_of_mem_settle unified.sane.acyclic left
      cases found : s.value? c with
      | none => rfl
      | some u => exact absurd ((unified.grown c u found).symm.trans last) (by simp)
    rw [settle_of_settled unbound] at general
    exact general.key
  · rw [exact sane₂ okA okB, exact sane okA okB]
    simp only [same, free, free₂]
  · rw [exact sane₂ okB okA, exact sane okA okB]
    have turned : (∃ f, Unifier s₂ b a f) ↔ ∃ f, Unifier s a b f := by
      constructor
      · rintro ⟨f, unifier⟩
        exact ⟨f, (same f).mp unifier.symm⟩
      · rintro ⟨f, unifier⟩
        exact ⟨f, ((same f).mpr unifier).symm⟩
    simp only [turned, free, free₂]

/-- The function on what is linked is made equal to the other, so nothing on the way was refused. -/
theorem linked_general : Succeeds linked (.func [.cell ⟨2, "t"⟩] (.cell ⟨3, "t"⟩)) (.func [.cell ⟨3, "t"⟩] .bool) ∧
    (∃ f, Unifier linked (.func [.cell ⟨2, "t"⟩] (.cell ⟨3, "t"⟩)) (.func [.cell ⟨3, "t"⟩] .bool) f) ∧
    Free linked (.func [.cell ⟨2, "t"⟩] (.cell ⟨3, "t"⟩)) (.func [.cell ⟨3, "t"⟩] .bool) := by
  have run : Succeeds linked (.func [.cell ⟨2, "t"⟩] (.cell ⟨3, "t"⟩)) (.func [.cell ⟨3, "t"⟩] .bool) :=
    ⟨[(3, .bool), (1, .cell ⟨3, "t"⟩), (2, .cell ⟨1, "t"⟩)], rfl⟩
  exact ⟨run, (types_general sane_linked (by simp [Named]) (by simp [Named])).1.mp run⟩

/-- Two linked cells can be made equal one way round, and not the other. -/
theorem linked_refused : Unifier linked (.cell ⟨1, "t"⟩) (.cell ⟨2, "t"⟩) (fun _ => .float) ∧
    ¬ Succeeds linked (.cell ⟨1, "t"⟩) (.cell ⟨2, "t"⟩) ∧ Succeeds linked (.cell ⟨2, "t"⟩) (.cell ⟨1, "t"⟩) := by
  refine ⟨⟨fun _ => rfl, rfl⟩, ?_, ⟨linked, rfl⟩⟩
  rintro ⟨s', ended⟩
  have run : Ends (types (.cell ⟨1, "t"⟩) (.cell ⟨2, "t"⟩)) linked (.error .shapes) linked := rfl
  obtain ⟨other, -⟩ := ended.unique run
  cases other

end Results

end Unify

end WitnessLang
