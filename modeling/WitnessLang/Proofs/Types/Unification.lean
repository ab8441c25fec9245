import Mathlib.Data.List.Perm.Subperm
import Mathlib.Logic.Relation
import WitnessLang.Proofs.Run
import WitnessLang.Proofs.Types.Structure
import WitnessLang.Types.Unify

set_option autoImplicit false

namespace WitnessLang

/-- Types that work is restricted to: with a type come its parts, and cells are told apart by
their numbers. -/
structure Universe (valid : Ty → Prop) : Prop where
  args : ∀ name args, valid (.named name args) → ∀ t ∈ args, valid t
  params : ∀ args result, valid (.func args result) → ∀ t ∈ args, valid t
  result : ∀ args result, valid (.func args result) → valid result
  apart : ∀ c d, valid (.cell c) → valid (.cell d) → c.number = d.number → c = d

theorem Universe.cell {valid : Ty → Prop} (closed : Universe valid) {t : Ty} (ok : valid t)
    {c : Cell} (inside : c ∈ t.cells) : valid (.cell c) := by
  induction t with
  | named name args ih =>
    rw [Ty.cells_named, List.mem_flatMap] at inside
    obtain ⟨t, member, inside⟩ := inside
    exact ih t member (closed.args name args ok t member) inside
  | generic name => simp at inside
  | func args result ih ihResult =>
    rw [Ty.cells_func, List.mem_append, List.mem_flatMap] at inside
    rcases inside with ⟨t, member, inside⟩ | inside
    · exact ih t member (closed.params args result ok t member) inside
    · exact ihResult (closed.result args result ok) inside
  | cell d =>
    rw [Ty.cells_cell, List.mem_singleton] at inside
    exact inside ▸ ok

namespace Bindings

/-- An assignment of types to cells that makes every binding an equation. -/
def Solves (f : Cell → Ty) (b : Bindings) : Prop :=
  ∀ c t, b.value? c = some t → f c = t.mapCells f

def Extends (b b' : Bindings) : Prop := ∀ c t, b.value? c = some t → b'.value? c = some t

/-- Cells can be ranked so that each is bound to a type of lower cells only. -/
def Acyclic (b : Bindings) : Prop :=
  ∃ rank : Nat → Nat, ∀ c t, b.value? c = some t → ∀ d ∈ t.cells, rank d.number < rank c.number

/-- Bindings to types of a universe that lead no cell back to itself. -/
structure Sane (valid : Ty → Prop) (b : Bindings) : Prop where
  acyclic : Acyclic b
  bound : ∀ c t, b.value? c = some t → valid t

theorem Extends.refl (b : Bindings) : Extends b b := fun _ _ found => found

theorem Extends.trans {a b c : Bindings} (first : Extends a b) (second : Extends b c) :
    Extends a c := fun x t found => second x t (first x t found)

theorem Solves.of_extends {f : Cell → Ty} {b b' : Bindings} (solves : Solves f b')
    (extends_ : Extends b b') : Solves f b := fun c t found => solves c t (extends_ c t found)

section Bind

variable {b : Bindings} {c d : Cell} {t : Ty}

theorem value?_cons : value? ((c.number, t) :: b) d =
    if d.number = c.number then some t else b.value? d := by
  rw [value?, List.lookup_cons]
  by_cases same : d.number = c.number
  · simp [same]
  · have other : (d.number == c.number) = false := by simpa using same
    simp [same, other, value?]

theorem extends_cons (unbound : b.value? c = none) : Extends b ((c.number, t) :: b) := by
  intro d u found
  rw [value?_cons, if_neg, found]
  intro same
  rw [value?, same, ← value?, unbound] at found
  cases found

end Bind

theorem settleWithin_step (b : Bindings) (n : Nat) (t : Ty) : b.settleWithin (n + 1) t =
    t.mapCells fun c => match b.value? c with
      | some u => b.settleWithin n u
      | none => .cell c := rfl

theorem settleWithin_cell (b : Bindings) (n : Nat) (c : Cell) : b.settleWithin (n + 1) (.cell c) =
    match b.value? c with
    | some u => b.settleWithin n u
    | none => .cell c := rfl

theorem settle_eq (b : Bindings) (t : Ty) : b.settle t = b.settleWithin b.length t := rfl

/-- Following bindings at the top of a type does not change its solution. -/
theorem mapCells_resolve {f : Cell → Ty} {b : Bindings} (solves : Solves f b) (t : Ty) :
    (b.resolve t).mapCells f = t.mapCells f := by
  have within : ∀ n t, (b.resolveWithin n t).mapCells f = t.mapCells f := by
    intro n
    induction n with
    | zero => exact fun t => rfl
    | succ n ih =>
      intro t
      cases t with
      | cell c =>
        rw [resolveWithin]
        split
        · rename_i u bound
          rw [ih, Ty.mapCells_cell, solves c u bound]
        · rfl
      | _ => rfl
  exact within _ t

theorem valid_resolve {valid : Ty → Prop} {b : Bindings} (sane : Sane valid b) {t : Ty}
    (ok : valid t) : valid (b.resolve t) := by
  have within : ∀ n t, valid t → valid (b.resolveWithin n t) := by
    intro n
    induction n with
    | zero => exact fun t ok => ok
    | succ n ih =>
      intro t ok
      cases t with
      | cell c =>
        rw [resolveWithin]
        split
        · rename_i u found
          exact ih u (sane.bound c u found)
        · exact ok
      | _ => exact ok
  exact within _ t ok

/-- A bound cell that is left after so many steps is the last of as many bound cells, each
bound to a type that holds the next. -/
theorem exists_chain {b : Bindings} {rank : Nat → Nat}
    (ranked : ∀ c t, b.value? c = some t → ∀ d ∈ t.cells, rank d.number < rank c.number)
    (n : Nat) (t : Ty) {c : Cell} {u : Ty} (left : c ∈ (b.settleWithin n t).cells)
    (bound : b.value? c = some u) :
    ∃ chain : List Nat, chain.length = n + 1 ∧
      chain.Pairwise (fun x y => rank y < rank x) ∧
      (∀ x ∈ chain, x ∈ b.map (·.1)) ∧ ∀ x ∈ chain, ∃ d ∈ t.cells, rank x ≤ rank d.number := by
  have listed : ∀ {d v}, b.value? d = some v → d.number ∈ b.map (·.1) := by
    intro d v found
    obtain ⟨before, after, split, -⟩ := List.lookup_eq_some_iff.mp found
    simp [split]
  induction n generalizing t with
  | zero =>
    exact ⟨[c.number], rfl, by simp, by simpa using listed bound,
      by simpa using ⟨c, left, Nat.le_refl _⟩⟩
  | succ n ih =>
    rw [settleWithin_step, Ty.mem_cells_mapCells] at left
    obtain ⟨d, inside, left⟩ := left
    cases found : b.value? d with
    | none =>
      simp only [found, Ty.cells_cell, List.mem_singleton] at left
      rw [← left, bound] at found
      cases found
    | some v =>
      simp only [found] at left
      obtain ⟨chain, length, falling, known, below⟩ := ih v left
      refine ⟨d.number :: chain, by simp [length], List.pairwise_cons.mpr ⟨?_, falling⟩, ?_, ?_⟩
      · intro x member
        obtain ⟨e, within, least⟩ := below x member
        exact Nat.lt_of_le_of_lt least (ranked d v found e within)
      · exact List.forall_mem_cons.mpr ⟨listed found, known⟩
      · refine List.forall_mem_cons.mpr ⟨⟨d, inside, Nat.le_refl _⟩, fun x member => ?_⟩
        obtain ⟨e, within, least⟩ := below x member
        exact ⟨d, inside, Nat.le_of_lt (Nat.lt_of_le_of_lt least (ranked d v found e within))⟩

/-- No bound cell is left in a settled type. -/
theorem unbound_of_mem_settle {b : Bindings} (acyclic : Acyclic b) {t : Ty} {c : Cell}
    (left : c ∈ (b.settle t).cells) : b.value? c = none := by
  obtain ⟨rank, ranked⟩ := acyclic
  cases bound : b.value? c with
  | none => rfl
  | some u =>
    obtain ⟨chain, length, falling, known, -⟩ := exists_chain ranked _ t left bound
    have once : chain.Nodup := falling.imp fun lower same => by
      subst same
      exact Nat.lt_irrefl _ lower
    have short := (List.subperm_of_subset once known).length_le
    rw [length, List.length_map] at short
    omega

/-- Once no bound cell is left, further steps change nothing. -/
theorem settleWithin_succ {b : Bindings} (n : Nat) (t : Ty)
    (settled : ∀ c ∈ (b.settleWithin n t).cells, b.value? c = none) :
    b.settleWithin (n + 1) t = b.settleWithin n t := by
  induction n generalizing t with
  | zero =>
    rw [settleWithin_step]
    refine (Ty.mapCells_congr fun c inside => ?_).trans (Ty.mapCells_id t)
    change ∀ c ∈ t.cells, b.value? c = none at settled
    simp only [settled c inside]
  | succ n ih =>
    rw [settleWithin_step, settleWithin_step]
    refine Ty.mapCells_congr fun c inside => ?_
    cases found : b.value? c with
    | none => rfl
    | some u =>
      refine ih u fun d left => settled d ?_
      rw [settleWithin_step, Ty.mem_cells_mapCells]
      exact ⟨c, inside, by simpa only [found] using left⟩

/-- Settling puts in a type for each cell. -/
theorem settle_eq_mapCells (b : Bindings) (t : Ty) :
    b.settle t = t.mapCells fun c => b.settle (.cell c) := by
  simp only [settle_eq]
  cases b.length with
  | zero => exact (Ty.mapCells_id t).symm
  | succ n =>
    rw [settleWithin_step]
    exact Ty.mapCells_congr fun c _ => (settleWithin_cell b n c).symm

/-- Settling solves the bindings. -/
theorem solves_settle {b : Bindings} (acyclic : Acyclic b) :
    Solves (fun c => b.settle (.cell c)) b := by
  intro c t found
  have settled := fun d (left : d ∈ (b.settle (.cell c)).cells) => unbound_of_mem_settle acyclic left
  rw [← settle_eq_mapCells]
  show b.settle (.cell c) = b.settle t
  rw [settle_eq] at settled
  rw [settle_eq, settle_eq]
  cases length : b.length with
  | zero =>
    rw [List.length_eq_zero_iff] at length
    simp [length, value?] at found
  | succ n =>
    rw [length] at settled
    have step : b.settleWithin (n + 1) (.cell c) = b.settleWithin n t := by
      rw [settleWithin_cell, found]
    rw [step] at settled
    rw [step, settleWithin_succ n t settled]

theorem settle_of_unbound {b : Bindings} {c : Cell} (unbound : b.value? c = none) :
    b.settle (.cell c) = .cell c := by
  rw [settle_eq]
  cases b.length with
  | zero => rfl
  | succ n => rw [settleWithin_cell, unbound]

/-- A cell leads to those in the type it is bound to. -/
def Leads (b : Bindings) (c d : Cell) : Prop := ∃ t, b.value? c = some t ∧ d ∈ t.cells

theorem mem_settle_of_leads {b : Bindings} (acyclic : Acyclic b) {c d : Cell}
    (unbound : b.value? c = none) (path : Relation.ReflTransGen (Leads b) d c) :
    c ∈ (b.settle (.cell d)).cells := by
  induction path using Relation.ReflTransGen.head_induction_on with
  | refl => simp [settle_of_unbound unbound]
  | head edge _ ih =>
    obtain ⟨t, found, inside⟩ := edge
    have solved := solves_settle acyclic _ t found
    simp only at solved
    rw [solved, Ty.mem_cells_mapCells]
    exact ⟨_, inside, ih⟩

/-- A cell may be bound to a type that does not lead back to it. -/
theorem sane_cons {valid : Ty → Prop} (closed : Universe valid) {b : Bindings}
    (sane : Sane valid b) {c : Cell} {t : Ty} (known : valid (.cell c)) (ok : valid t)
    (unbound : b.value? c = none) (absent : c ∉ (b.settle t).cells) :
    Sane valid ((c.number, t) :: b) := by
  classical
  constructor
  · obtain ⟨rank, ranked⟩ := id sane.acyclic
    -- whatever leads to the cell is lifted above all cells of the type
    let above : Nat → Prop := fun n => ∃ d, d.number = n ∧ Relation.ReflTransGen (Leads b) d c
    have back : ∀ d, valid (.cell d) → above d.number →
        Relation.ReflTransGen (Leads b) d c := by
      rintro d member ⟨e, same, path⟩
      rcases Relation.ReflTransGen.cases_head path with rfl | ⟨e', ⟨u, found, next⟩, path⟩
      · rw [closed.apart e d known member same]
      · refine .head ⟨u, ?_, next⟩ path
        rw [value?, ← same]
        exact found
    have outside : ∀ d ∈ t.cells, ¬ above d.number := by
      intro d member reached
      refine absent ?_
      rw [settle_eq_mapCells, Ty.mem_cells_mapCells]
      exact ⟨d, member,
        mem_settle_of_leads sane.acyclic unbound (back d (closed.cell ok member) reached)⟩
    let lift := (t.cells.map fun d => rank d.number).max?.getD 0 + 1
    refine ⟨fun n => if above n then rank n + lift else rank n, fun d u found e member => ?_⟩
    rw [value?_cons] at found
    split at found
    · rename_i same
      obtain rfl := Option.some.inj found
      have reached : above d.number := ⟨c, same.symm, .refl⟩
      have low : rank e.number ≤ (t.cells.map fun d => rank d.number).max?.getD 0 :=
        List.le_max?_getD_of_mem (List.mem_map_of_mem member)
      simp only [if_neg (outside e member), if_pos reached]
      omega
    · have lower := ranked d u found e member
      by_cases reached : above e.number
      · have next := back e (closed.cell (sane.bound d u found) member) reached
        have reached' : above d.number := ⟨d, rfl, .head ⟨u, found, member⟩ next⟩
        simp only [if_pos reached, if_pos reached']
        omega
      · simp only [if_neg reached]
        split <;> omega
  · intro d u found
    rw [value?_cons] at found
    split at found
    · obtain rfl := Option.some.inj found
      exact ok
    · exact sane.bound d u found

end Bindings

end WitnessLang

namespace WitnessLang.Unify

open Bindings

/-- What making two types equal may do to bindings, and what success means. -/
structure Unified (valid : Ty → Prop) (a b : Ty) (s : Bindings) (r : Except Clash Unit)
    (s' : Bindings) : Prop where
  sane : Sane valid s'
  grown : Extends s s'
  alike : r = .ok () → ∀ f, Solves f s' → (a.mapCells f).Alike (b.mapCells f)

/-- A way to make types equal that can be relied on. -/
def Sound (valid : Ty → Prop) (unify : Ty → Ty → Unify Unit) : Prop :=
  ∀ a b s r s', Ends (unify a b) s r s' → Sane valid s → valid a → valid b →
    Unified valid a b s r s'

variable {valid : Ty → Prop} {self : Ty → Ty → Unify Unit} {s s' : Bindings}
  {r : Except Clash Unit}

/-- What is done for a cell and a type other than the cell itself. -/
def attach (self : Ty → Ty → Unify Unit) (c : Cell) (other : Ty) : Unify Unit := do
  let b ← get
  match b.value? c with
  | none =>
    let other := b.resolve other
    if b.mentions c other then throw .shapes
    set (b.bind c other).1
  | some value =>
    tryCatch (self value other) fun
      | .shapes => do
        let b ← get
        throw (.generic c.generic (b.settle value) (b.settle other))
      | clash => throw clash

theorem cell_eq_attach {c : Cell} {other : Ty} (apart : other ≠ .cell c) :
    cell self c other = attach self c other := by
  unfold cell
  split
  · rename_i d
    have other : ¬ d = c := fun same => apart (congrArg Ty.cell same)
    rw [if_neg other]
    rfl
  · rfl

/-- What making a cell equal to a type can do. -/
theorem cell_cases {c : Cell} {other : Ty} (ended : Ends (cell self c other) s r s') :
    (other = .cell c ∧ s' = s) ∨
      (s.value? c = none ∧ r ≠ .ok () ∧ s' = s) ∨
      (s.value? c = none ∧ c ∉ (s.settle (s.resolve other)).cells ∧
        s' = (c.number, s.resolve other) :: s) ∨
      ∃ value r', s.value? c = some value ∧ Ends (self value other) s r' s' ∧
        (r = .ok () → r' = .ok ()) := by
  by_cases itself : other = .cell c
  · subst itself
    simp only [cell, ↓reduceIte, ends_pure] at ended
    exact Or.inl ⟨rfl, ended.2⟩
  · refine Or.inr ?_
    rw [cell_eq_attach itself, attach, ends_get_bind] at ended
    cases bound : s.value? c with
    | none =>
      simp only [bound] at ended
      split at ended
      · rw [ends_throw_bind] at ended
        obtain ⟨rfl, rfl⟩ := ended
        exact Or.inl ⟨rfl, by simp, rfl⟩
      · rename_i absent
        simp only [ends_set, Bindings.bind, bound] at ended
        exact Or.inr (Or.inl ⟨rfl, by simpa [mentions] using absent, ended.2⟩)
    | some value =>
      simp only [bound, ends_tryCatch] at ended
      refine Or.inr (Or.inr ⟨value, ?_⟩)
      rcases ended with ⟨⟨⟩, done, rfl⟩ | ⟨clash, s₁, failed, ended⟩
      · exact ⟨.ok (), rfl, done, fun _ => rfl⟩
      · have rethrown : r ≠ .ok () ∧ s' = s₁ := by
          cases clash with
          | shapes =>
            simp only [ends_get_bind, ends_throw] at ended
            simp [ended]
          | generic =>
            simp only [ends_throw] at ended
            simp [ended]
        exact ⟨.error clash, rfl, rethrown.2 ▸ failed, fun ok => absurd ok rethrown.1⟩

theorem cell_unified (closed : Universe valid) (sound : Sound valid self) {c : Cell} {other : Ty}
    (ended : Ends (cell self c other) s r s') (sane : Sane valid s) (known : valid (.cell c))
    (ok : valid other) : Unified valid (.cell c) other s r s' := by
  rcases cell_cases ended with ⟨rfl, rfl⟩ | ⟨-, failed, rfl⟩ | ⟨unbound, absent, rfl⟩ |
    ⟨value, r', bound, ended, failed⟩
  · exact ⟨sane, .refl _, fun _ f _ => .refl _⟩
  · exact ⟨sane, .refl _, fun done => absurd done failed⟩
  · have grown := extends_cons (t := s.resolve other) unbound
    refine ⟨sane_cons closed sane known (valid_resolve sane ok) unbound absent, grown,
      fun _ f solves => ?_⟩
    have equation := solves c (s.resolve other) (by simp [value?_cons])
    rw [Ty.mapCells_cell, equation, mapCells_resolve (solves.of_extends grown)]
    exact .refl _
  · have unified := sound _ _ _ _ _ ended sane (sane.bound c value bound) ok
    refine ⟨unified.sane, unified.grown, fun done f solves => ?_⟩
    have equation := solves c value (unified.grown c value bound)
    rw [Ty.mapCells_cell, equation]
    exact unified.alike (failed done) f solves

/-- Types made equal one after the other. -/
theorem each_unified (sound : Sound valid self) {as bs : List Ty} (same : as.length = bs.length)
    (ended : Ends (each self as bs) s r s') (sane : Sane valid s) (okA : ∀ t ∈ as, valid t)
    (okB : ∀ t ∈ bs, valid t) :
    Sane valid s' ∧ Extends s s' ∧ (r = .ok () → ∀ f, Solves f s' →
      (as.map (·.mapCells f)).map Ty.erase = (bs.map (·.mapCells f)).map Ty.erase) := by
  induction as generalizing bs s with
  | nil =>
    obtain rfl := List.length_eq_zero_iff.mp same.symm
    simp only [each, ends_pure] at ended
    obtain ⟨rfl, rfl⟩ := ended
    exact ⟨sane, .refl _, fun _ f _ => rfl⟩
  | cons a as ih =>
    obtain ⟨b, bs, rfl⟩ := List.exists_cons_of_length_eq_add_one same.symm
    rw [List.forall_mem_cons] at okA okB
    rw [each, ends_bind] at ended
    rcases ended with ⟨⟨⟩, s₁, first, ended⟩ | ⟨e, failed, rfl⟩
    · have here := sound _ _ _ _ _ first sane okA.1 okB.1
      obtain ⟨sane', grown, alike⟩ := ih (by simpa using same) ended here.sane okA.2 okB.2
      refine ⟨sane', here.grown.trans grown, fun done f solves => ?_⟩
      have head := here.alike rfl f (solves.of_extends grown)
      simp only [List.map_cons, alike done f solves]
      exact congrArg (· :: _) head
    · have here := sound _ _ _ _ _ failed sane okA.1 okB.1
      exact ⟨here.sane, here.grown, by simp⟩

theorem step_sound (closed : Universe valid) (sound : Sound valid self) :
    Sound valid (step self) := by
  intro a b s r s' ended sane okA okB
  unfold step at ended
  split at ended
  · exact cell_unified closed sound ended sane okA okB
  · have turned := cell_unified closed sound ended sane okB okA
    exact ⟨turned.sane, turned.grown, fun done f solves => (turned.alike done f solves).symm⟩
  · rename_i m as n bs
    split at ended
    · rename_i same
      obtain ⟨sane', grown, alike⟩ :=
        each_unified sound same.2 ended sane (closed.args m as okA) (closed.args n bs okB)
      refine ⟨sane', grown, fun done f solves => ?_⟩
      rw [Ty.mapCells_named, Ty.mapCells_named, Ty.alike_named]
      exact ⟨same.1, alike done f solves⟩
    · obtain ⟨rfl, rfl⟩ := ends_throw.mp ended
      exact ⟨sane, .refl _, by simp⟩
  · rename_i m n
    split at ended
    · rename_i same
      obtain ⟨-, rfl⟩ := ends_pure.mp ended
      refine ⟨sane, .refl _, fun _ f _ => ?_⟩
      simpa [Ty.Alike, Ident.erase_inj] using same
    · obtain ⟨rfl, rfl⟩ := ends_throw.mp ended
      exact ⟨sane, .refl _, by simp⟩
  · rename_i as a bs b
    split at ended
    · obtain ⟨rfl, rfl⟩ := ends_throw_bind.mp ended
      exact ⟨sane, .refl _, by simp⟩
    · rename_i same
      rw [ends_bind] at ended
      rcases ended with ⟨⟨⟩, s₁, args, ended⟩ | ⟨e, failed, rfl⟩
      · obtain ⟨sane₁, grown₁, alike₁⟩ := each_unified sound (not_not.mp same) args sane
          (closed.params as a okA) (closed.params bs b okB)
        have rest := sound _ _ _ _ _ ended sane₁ (closed.result as a okA) (closed.result bs b okB)
        refine ⟨rest.sane, grown₁.trans rest.grown, fun done f solves => ?_⟩
        rw [Ty.mapCells_func, Ty.mapCells_func, Ty.alike_func]
        exact ⟨alike₁ rfl f (solves.of_extends rest.grown), rest.alike done f solves⟩
      · obtain ⟨sane₁, grown₁, -⟩ := each_unified sound (not_not.mp same) failed sane
          (closed.params as a okA) (closed.params bs b okB)
        exact ⟨sane₁, grown₁, by simp⟩
  · obtain ⟨rfl, rfl⟩ := ends_throw.mp ended
    exact ⟨sane, .refl _, by simp⟩

/-- Unification is sound however deep it goes. -/
theorem within_sound (closed : Universe valid) (n : Nat) : Sound valid (within n) := by
  induction n with
  | zero =>
    intro a b s r s' ended sane _ _
    obtain ⟨rfl, rfl⟩ := ends_throw.mp ended
    exact ⟨sane, .refl _, by simp⟩
  | succ n ih => exact step_sound closed ih

theorem types_sound (closed : Universe valid) : Sound valid types := by
  intro a b s r s' ended
  rw [types, ends_get_bind] at ended
  exact within_sound closed _ a b s r s' ended

end WitnessLang.Unify
