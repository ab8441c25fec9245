import WitnessLang.Proofs.Layout.Disjoint

set_option autoImplicit false

/-! Frames that are too large. Words wrap, but a layout is refused exactly at the first slot behind which the
distance, as a whole number, no longer fits 32 bits: a sum or a rounding that wraps ends below zero. -/
namespace WitnessLang.Frame

/-- The distance behind some slots that are placed one behind the other, each rounded up. -/
def distance (align : Int) (start : Int) (slots : List Slot) : Int :=
  slots.foldl (fun n s => ceiling (n + s.static.toInt) align) start

/-- The distance behind each of some slots fits 32 bits. -/
def Fitting (align : Int) (start : Int) (slots : List Slot) : Prop :=
  ∀ front, front <+: slots → distance align start front ≤ 2 ^ 32 - 1

/-- The distances behind some slots fit 32 bits up to the slot of a name, but not the one behind that. -/
def ExceedsAt (align : Int) (start : Int) (slots : List Slot) (name : String) : Prop :=
  ∃ before s after, slots = before ++ s :: after ∧ s.name = name ∧ Fitting align start before ∧
    2 ^ 32 - 1 < distance align start (before ++ [s])

section Distance

variable {align start : Int} {slots : List Slot} {name name' : String}

theorem fitting_nil : Fitting align start [] ↔ start ≤ 2 ^ 32 - 1 :=
  ⟨fun fits => fits [] List.prefix_rfl, fun small _ inside => List.prefix_nil.mp inside ▸ small⟩

theorem fitting_cons {s : Slot} : Fitting align start (s :: slots) ↔
    start ≤ 2 ^ 32 - 1 ∧ Fitting align (ceiling (start + s.static.toInt) align) slots := by
  refine ⟨fun fits => ⟨fits [] List.nil_prefix, fun front inside => ?_⟩, ?_⟩
  · exact fits (s :: front) (List.cons_prefix_cons.mpr ⟨rfl, inside⟩)
  · rintro ⟨small, fits⟩ front inside
    rcases List.prefix_cons_iff.mp inside with rfl | ⟨rest, rfl, within⟩
    · exact small
    · exact fits rest within

theorem ExceedsAt.not_fitting (exceeds : ExceedsAt align start slots name) : ¬ Fitting align start slots := by
  obtain ⟨before, s, after, rfl, -, -, beyond⟩ := exceeds
  intro fits
  exact absurd (fits _ ⟨after, by simp⟩) (Int.not_le.mpr beyond)

/-- Only one slot is the first. -/
theorem ExceedsAt.unique (exceeds : ExceedsAt align start slots name) (also : ExceedsAt align start slots name') :
    name = name' := by
  obtain ⟨before, s, after, rfl, rfl, fits, beyond⟩ := exceeds
  obtain ⟨before', s', after', whole, rfl, fits', beyond'⟩ := also
  rcases List.append_eq_append_iff.mp whole with ⟨between, rfl, same⟩ | ⟨between, rfl, same⟩
  · cases between with
    | nil => rw [(List.cons.inj same).1]
    | cons t between =>
      obtain ⟨rfl, -⟩ := List.cons.inj same
      exact absurd (fits' _ ⟨between, by simp⟩) (Int.not_le.mpr beyond)
  · cases between with
    | nil => rw [(List.cons.inj same).1]
    | cons t between =>
      obtain ⟨rfl, -⟩ := List.cons.inj same
      exact absurd (fits _ ⟨between, by simp⟩) (Int.not_le.mpr beyond')

theorem ExceedsAt.cons {s : Slot} (small : start ≤ 2 ^ 32 - 1)
    (exceeds : ExceedsAt align (ceiling (start + s.static.toInt) align) slots name) :
    ExceedsAt align start (s :: slots) name := by
  obtain ⟨before, t, after, rfl, named, fits, beyond⟩ := exceeds
  exact ⟨s :: before, t, after, rfl, named, fitting_cons.mpr ⟨small, fits⟩, beyond⟩

end Distance

/-- Placing slots succeeds if all distances fit, and stops at the first that does not. -/
theorem place_exact {align start : Int64} {before : List String} {slots : List Slot} (positive : 0 < align.toInt)
    (small : align.toInt < 2 ^ 32) (nonneg : 0 ≤ start.toInt) (near : start.toInt < 2 ^ 32)
    (known : ∀ s ∈ slots, 0 ≤ s.static.toInt) :
    (∃ placed, place align start before slots = .ok placed ∧ Fitting align.toInt start.toInt slots) ∨
      ∃ name, place align start before slots = .error name ∧ ExceedsAt align.toInt start.toInt slots name := by
  induction slots generalizing start before with
  | nil => exact Or.inl ⟨_, rfl, fitting_nil.mpr (by omega)⟩
  | cons s rest ih =>
    rw [List.forall_mem_cons] at known
    have step : ∀ next, advance start s.static align = some next ↔ _ := fun next =>
      advance_eq_some_iff positive small nonneg near known.1
    have above := le_ceiling (n := start.toInt + s.static.toInt) positive
    have own := known.1
    rw [place]
    cases found : advance start s.static align with
    | some next =>
      obtain ⟨fits, behind⟩ := (step next).mp found
      rcases @ih next (before ++ s.dynamic) (by omega) (by omega) known.2 with
        ⟨placed, done, fitting⟩ | ⟨name, stopped, exceeds⟩
      · rw [behind] at fitting
        exact Or.inl ⟨_, by simp only [done]; rfl, fitting_cons.mpr ⟨by omega, fitting⟩⟩
      · rw [behind] at exceeds
        exact Or.inr ⟨name, by simp only [stopped]; rfl, exceeds.cons (by omega)⟩
    | none =>
      refine Or.inr ⟨s.name, rfl, [], s, rest, rfl, rfl, fitting_nil.mpr (by omega), ?_⟩
      -- A distance that fits would have been found as a word.
      refine Int.not_le.mp fun least => ?_
      change ceiling (start.toInt + s.static.toInt) align.toInt ≤ 2 ^ 32 - 1 at least
      have word := Int64.toInt_ofInt_of_le (n := ceiling (start.toInt + s.static.toInt) align.toInt)
        (by omega) (by omega)
      have fits := (step _).mpr ⟨by omega, word⟩
      rw [found] at fits
      cases fits

/-- A layout of slots with different names, none of them of negative size, is found exactly if every distance behind
a slot fits 32 bits, those of known size first. Otherwise it is refused as too large at the first slot behind which
the distance does not fit. -/
theorem compute_exact {name : String} {slots : List Slot} {target : Target} {n : Int}
    (known : Target.ofPointerSize n = .ok target) (once : (slots.map (·.name)).Nodup)
    (nonneg : ∀ s ∈ slots, 0 ≤ s.static) :
    let ordered := slots.filter Slot.isStatic ++ slots.filter (!·.isStatic)
    ((∃ frame, compute name slots target = .ok frame) ↔ Fitting target.pointerAlign.toInt 0 ordered) ∧
      ∀ e, compute name slots target = .error e ↔
        ∃ slot, ExceedsAt target.pointerAlign.toInt 0 ordered slot ∧ e = ⟨.tooLarge, name, slot⟩ := by
  intro ordered
  have align := align_of_pointerSize known
  have least : ¬ target.pointerAlign ≤ 0 := by
    rw [Int64.le_iff_toInt_le]
    exact Int.not_le.mpr (show 0 < target.pointerAlign.toInt by omega)
  have sizes : ∀ s ∈ slots, 0 ≤ s.static.toInt := fun s member => Int64.le_iff_toInt_le.mp (nonneg s member)
  have permuted := List.filter_append_perm Slot.isStatic slots
  have good := @badSlot?_eq_none slots [] (by simp) once sizes
  rcases @place_exact target.pointerAlign 0 [] ordered (by omega) (by omega) (Int.le_refl 0) (by decide)
    (fun s member => sizes s (permuted.subset member)) with
    ⟨⟨placed, static, dynamic⟩, done, fits⟩ | ⟨slot, stopped, exceeds⟩
  · have computed : compute name slots target = .ok ⟨name, placed, ⟨static, dynamic, target.pointerAlign⟩⟩ := by
      rw [compute, good]
      simp only [if_neg least]
      rw [done]
    refine ⟨⟨fun _ => fits, fun _ => ⟨_, computed⟩⟩, fun e => ⟨fun failed => ?_, ?_⟩⟩
    · rw [computed] at failed
      cases failed
    · rintro ⟨slot, exceeds, -⟩
      exact absurd fits exceeds.not_fitting
  · have computed : compute name slots target = .error ⟨.tooLarge, name, slot⟩ := by
      rw [compute, good]
      simp only [if_neg least]
      rw [stopped]
    refine ⟨⟨?_, fun fits => absurd fits exceeds.not_fitting⟩, fun e => ⟨fun failed => ?_, ?_⟩⟩
    · rintro ⟨frame, done⟩
      rw [computed] at done
      cases done
    · exact ⟨slot, exceeds, (Except.error.inj (failed.symm.trans computed))⟩
    · rintro ⟨other, also, rfl⟩
      rw [computed, exceeds.unique also]

/-- Slots that just fit, the one of unknown size aside, up to the last, with which a word wraps. -/
def hugeSlots : List Slot := [⟨"a", 8, ["t"]⟩, ⟨"b", 4294967287, []⟩, ⟨"c", 9223372036854775807, []⟩]

theorem hugeSlots_exact : Target.ofPointerSize 8 = .ok .wide ∧ (hugeSlots.map (·.name)).Nodup ∧
    (∀ s ∈ hugeSlots, 0 ≤ s.static) ∧ compute "f" hugeSlots .wide = .error ⟨.tooLarge, "f", "c"⟩ ∧
    ExceedsAt 8 0 (hugeSlots.filter Slot.isStatic ++ hugeSlots.filter (!·.isStatic)) "c" := by
  have once : (hugeSlots.map (·.name)).Nodup := by decide
  have nonneg : ∀ s ∈ hugeSlots, 0 ≤ s.static := by decide
  have refused : compute "f" hugeSlots .wide = .error ⟨.tooLarge, "f", "c"⟩ := by rfl
  obtain ⟨slot, exceeds, same⟩ := ((compute_exact (n := 8) rfl once nonneg).2 _).mp refused
  obtain rfl : "c" = slot := congrArg LayoutError.slot same
  exact ⟨rfl, once, nonneg, refused, exceeds⟩

end WitnessLang.Frame
