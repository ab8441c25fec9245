import Mathlib.Algebra.BigOperators.Ring.List
import Mathlib.Algebra.Order.BigOperators.Group.List
import Mathlib.Algebra.Order.Ring.Int
import Mathlib.Data.List.Perm.Basic
import WitnessLang.Layout.Frame
import WitnessLang.Proofs.Run

set_option autoImplicit false

/-! Placing values in frames. Where all sizes are multiples of the alignment nothing is ever
rounded, so a frame is exactly as large as its slots together. -/
namespace WitnessLang

/-- A size that a frame can hold as it is: it fits 32 bits, and needs no rounding. -/
structure Fits (align : Int64) (n : Int) : Prop where
  nonneg : 0 ≤ n
  small : n < 2 ^ 32
  aligned : align.toInt ∣ n

section Words

variable {align : Int64} {n m : Int}

theorem toInt_ofInt_of_fits (fits : Fits align n) : (Int64.ofInt n).toInt = n := by
  have := fits.nonneg
  have := fits.small
  exact Int64.toInt_ofInt_of_le (by omega) (by omega)

theorem roundUp_of_fits (fits : Fits align n) : roundUp (Int64.ofInt n) align = Int64.ofInt n := by
  have whole : Int64.ofInt n % align = 0 := by
    rw [← Int64.toInt_inj, Int64.toInt_mod, toInt_ofInt_of_fits fits]
    exact Int.tmod_eq_zero_of_dvd fits.aligned
  rw [roundUp, whole]
  simp

theorem advance_of_fits (together : Fits align (n + m)) :
    Frame.advance (Int64.ofInt n) (Int64.ofInt m) align = some (Int64.ofInt (n + m)) := by
  rw [Frame.advance, ← Int64.ofInt_add, roundUp_of_fits together]
  refine if_pos ⟨?_, ?_⟩
  · rw [Int64.le_iff_toInt_le, toInt_ofInt_of_fits together]
    exact together.nonneg
  · rw [toInt_ofInt_of_fits together]
    exact together.small

end Words

namespace Frame

variable {align : Int64} {slots : List Slot}

def total (slots : List Slot) : Int := (slots.map (·.static.toInt)).sum

theorem total_cons (s : Slot) (rest : List Slot) : total (s :: rest) = s.static.toInt + total rest := by
  rw [total, List.map_cons, List.sum_cons, total]

theorem total_nonneg (nonneg : ∀ s ∈ slots, 0 ≤ s.static.toInt) : 0 ≤ total slots :=
  List.sum_nonneg (by simpa using nonneg)

/-- Slots are placed one behind the other. -/
theorem place_of_fits (start : Int) (dynamic : List String) (nonneg : 0 ≤ start)
    (whole : align.toInt ∣ start) (each : ∀ s ∈ slots, 0 ≤ s.static.toInt ∧ align.toInt ∣ s.static.toInt)
    (small : start + total slots < 2 ^ 32) :
    ∃ placed, place align (Int64.ofInt start) dynamic slots =
      .ok (placed, Int64.ofInt (start + total slots), dynamic ++ slots.flatMap (·.dynamic)) := by
  induction slots generalizing start dynamic with
  | nil => exact ⟨[], by simp [place, total]⟩
  | cons s rest ih =>
    rw [List.forall_mem_cons] at each
    obtain ⟨⟨positive, multiple⟩, others⟩ := each
    have behind := total_nonneg fun s member => (others s member).1
    rw [total_cons] at small
    have next : advance (Int64.ofInt start) s.static align =
        some (Int64.ofInt (start + s.static.toInt)) := by
      nth_rewrite 1 [← Int64.ofInt_toInt s.static]
      exact advance_of_fits ⟨by omega, by omega, dvd_add whole multiple⟩
    obtain ⟨placed, done⟩ := ih _ (dynamic ++ s.dynamic) (Int.add_nonneg nonneg positive)
      (dvd_add whole multiple) others (by omega)
    refine ⟨⟨s, Int64.ofInt start, dynamic, align⟩ :: placed, ?_⟩
    rw [place, next]
    simp only [done, bind, Except.bind, pure, Except.pure, total_cons, List.flatMap_cons,
      List.append_assoc, Int.add_assoc]

theorem badSlot?_eq_none {before : List String} (fresh : ∀ s ∈ slots, s.name ∉ before)
    (once : (slots.map (·.name)).Nodup) (nonneg : ∀ s ∈ slots, 0 ≤ s.static.toInt) :
    badSlot? before slots = none := by
  induction slots generalizing before with
  | nil => rfl
  | cons s rest ih =>
    rw [List.forall_mem_cons] at fresh nonneg
    obtain ⟨new, once⟩ := List.nodup_cons.mp once
    rw [badSlot?, if_neg (by simpa using fresh.1), if_neg]
    · refine ih (fun t member => ?_) once nonneg.2
      rw [List.mem_cons, not_or]
      exact ⟨fun same => new (List.mem_map.mpr ⟨t, member, same⟩), fresh.2 t member⟩
    · rw [Int64.lt_iff_toInt_lt]
      exact Int.not_lt.mpr nonneg.1

/-- Slots of known size come first, and bring no type descriptions. -/
theorem flatMap_dynamic (slots : List Slot) :
    (slots.filter Slot.isStatic ++ slots.filter (!·.isStatic)).flatMap (·.dynamic) =
      slots.flatMap (·.dynamic) := by
  have static : (slots.filter Slot.isStatic).flatMap (·.dynamic) = [] := by
    rw [List.flatMap_eq_nil_iff]
    intro s member
    exact List.isEmpty_iff.mp (List.mem_filter.mp member).2
  rw [List.flatMap_append, static, List.nil_append]
  clear static
  induction slots with
  | nil => rfl
  | cons s rest ih =>
    rw [List.filter_cons, List.flatMap_cons]
    split
    · rw [List.flatMap_cons, ih]
    · rename_i known
      have nothing : s.dynamic = [] := by simpa [Slot.isStatic] using known
      rw [ih, nothing, List.nil_append]

/-- A frame of slots that need no rounding is exactly as large as they are together. -/
theorem compute_of_fits {name : String} {target : Target} (positive : 0 < target.pointerAlign)
    (once : (slots.map (·.name)).Nodup)
    (each : ∀ s ∈ slots, 0 ≤ s.static.toInt ∧ target.pointerAlign.toInt ∣ s.static.toInt)
    (small : total slots < 2 ^ 32) : ∃ frame, compute name slots target = .ok frame ∧
      frame.size = ⟨Int64.ofInt (total slots), slots.flatMap (·.dynamic), target.pointerAlign⟩ := by
  have split := List.filter_append_perm Slot.isStatic slots
  have same : total (slots.filter Slot.isStatic ++ slots.filter (!·.isStatic)) = total slots :=
    (split.map _).sum_eq
  obtain ⟨placed, done⟩ := place_of_fits 0 [] (Int.le_refl 0) (dvd_zero _)
    (fun s member => each s (split.subset member)) (by rwa [same, zero_add])
  rw [same, zero_add, flatMap_dynamic, List.nil_append] at done
  have align : ¬ target.pointerAlign ≤ 0 := by rwa [Int64.not_le]
  refine ⟨⟨name, placed, _⟩, ?_, rfl⟩
  rw [compute, badSlot?_eq_none (by simp) once fun s member => (each s member).1]
  simp only [if_neg align]
  rw [show (0 : Int64) = Int64.ofInt 0 from rfl, done]

end Frame

/-- The length of a distance whose dynamic parts need no rounding is their sum. -/
theorem Offset.eval_of_fits {o : Offset} {size : String → Int64} {rooms : List Int} {start : Int}
    (known : List.Forall₂ (fun w n => size w = Int64.ofInt n ∧ Fits o.align n) o.dynamic rooms)
    (static : o.static = Int64.ofInt start) : o.eval size = Int64.ofInt (start + rooms.sum) := by
  obtain ⟨_, dynamic, align⟩ := o
  subst static
  dsimp only at known
  rw [eval]
  induction known generalizing start with
  | nil => simp
  | cons first _ ih =>
    rw [List.foldl_cons, first.1, roundUp_of_fits first.2, ← Int64.ofInt_add, ih, List.sum_cons,
      Int.add_assoc]

/-- The least multiple of `align` that is not below `n`. -/
def ceiling (n align : Int) : Int :=
  if align ≤ 1 then n
  else if n % align = 0 then n
  else n + (align - n % align)

section Ceiling

variable {n align : Int}

theorem le_ceiling (positive : 0 < align) : n ≤ ceiling n align := by
  have below := Int.emod_lt_of_pos n positive
  unfold ceiling
  split
  · omega
  · split <;> omega

theorem dvd_ceiling (positive : 0 < align) : align ∣ ceiling n align := by
  unfold ceiling
  split
  · rename_i small
    obtain rfl : align = 1 := by omega
    exact Int.one_dvd n
  · split
    · exact Int.dvd_of_emod_eq_zero ‹_›
    · have parts := Int.mul_ediv_add_emod n align
      exact ⟨n / align + 1, by rw [Int.mul_add]; omega⟩

theorem ceiling_of_dvd (whole : align ∣ n) : ceiling n align = n := by
  have rest : n % align = 0 := Int.emod_eq_zero_of_dvd whole
  rw [ceiling, if_pos rest]
  split <;> rfl

end Ceiling

section Words

variable {n m align : Int64}

theorem toInt_add_cases (n m : Int64) : (n + m).toInt = n.toInt + m.toInt ∨
    (2 ^ 63 ≤ n.toInt + m.toInt ∧ (n + m).toInt = n.toInt + m.toInt - 2 ^ 64) ∨
    (n.toInt + m.toInt < -2 ^ 63 ∧ (n + m).toInt = n.toInt + m.toInt + 2 ^ 64) := by
  have sum := Int64.toInt_add n m
  have lowN := n.le_toInt
  have lowM := m.le_toInt
  have highN := n.toInt_lt
  have highM := m.toInt_lt
  rw [Int.bmod_def] at sum
  split at sum <;> omega

theorem toInt_add_of_small (low : -2 ^ 63 ≤ n.toInt + m.toInt) (high : n.toInt + m.toInt < 2 ^ 63) :
    (n + m).toInt = n.toInt + m.toInt := by
  rcases toInt_add_cases n m with same | wrapped | wrapped <;> omega

theorem toInt_sub_of_small (low : -2 ^ 63 ≤ n.toInt - m.toInt) (high : n.toInt - m.toInt < 2 ^ 63) :
    (n - m).toInt = n.toInt - m.toInt := by
  have difference := Int64.toInt_sub n m
  rw [Int.bmod_def] at difference
  split at difference <;> omega

/-- Rounding a word up goes below zero instead of beyond the largest word. -/
theorem toInt_roundUp (positive : 0 < align.toInt) (small : align.toInt < 2 ^ 32)
    (nonneg : 0 ≤ n.toInt) : (roundUp n align).toInt = ceiling n.toInt align.toInt ∨
      (2 ^ 63 ≤ ceiling n.toInt align.toInt ∧ (roundUp n align).toInt < 0) := by
  have rest : (n % align).toInt = n.toInt % align.toInt := by
    rw [Int64.toInt_mod, Int.tmod_eq_emod_of_nonneg nonneg]
  have restLow := Int.emod_nonneg n.toInt (Int.ne_of_gt positive)
  have restHigh := Int.emod_lt_of_pos n.toInt positive
  have one : align ≤ 1 ↔ align.toInt ≤ 1 := Int64.le_iff_toInt_le
  have whole : n % align = 0 ↔ n.toInt % align.toInt = 0 := by
    rw [← Int64.toInt_inj, rest]
    exact Iff.rfl
  have high := n.toInt_lt
  unfold roundUp ceiling
  simp only [one, whole]
  split
  · exact Or.inl rfl
  · split
    · exact Or.inl rfl
    · have gap : (align - n % align).toInt = align.toInt - n.toInt % align.toInt := by
        rw [← rest]
        apply toInt_sub_of_small <;> omega
      rcases toInt_add_cases n (align - n % align) with same | wrapped | wrapped <;> omega

/-- Below zero, rounding up does not reach far. -/
theorem toInt_roundUp_of_neg (positive : 0 < align.toInt) (small : align.toInt < 2 ^ 32)
    (far : n.toInt < -2 ^ 62) : (roundUp n align).toInt < 0 := by
  have rest : (n % align).toInt = n.toInt.tmod align.toInt := Int64.toInt_mod n align
  have restLow := Int.lt_tmod_of_pos n.toInt positive
  have restHigh := Int.tmod_lt_of_pos n.toInt positive
  have low := n.le_toInt
  unfold roundUp
  split
  · omega
  · split
    · omega
    · have gap : (align - n % align).toInt = align.toInt - n.toInt.tmod align.toInt := by
        rw [← rest]
        apply toInt_sub_of_small <;> omega
      have sum := toInt_add_of_small (n := n) (m := align - n % align) (by omega) (by omega)
      omega

/-- The offset behind a value is found exactly if it fits 32 bits. -/
theorem advance_eq_some_iff {next : Int64} (positive : 0 < align.toInt) (small : align.toInt < 2 ^ 32)
    (start : 0 ≤ n.toInt) (near : n.toInt < 2 ^ 32) (nonneg : 0 ≤ m.toInt) :
    Frame.advance n m align = some next ↔
      ceiling (n.toInt + m.toInt) align.toInt < 2 ^ 32 ∧
        next.toInt = ceiling (n.toInt + m.toInt) align.toInt := by
  have high := m.toInt_lt
  have above := le_ceiling (n := n.toInt + m.toInt) positive
  have least : (0 : Int64) ≤ roundUp (n + m) align ↔ 0 ≤ (roundUp (n + m) align).toInt :=
    Int64.le_iff_toInt_le
  have same : roundUp (n + m) align = next ↔ (roundUp (n + m) align).toInt = next.toInt :=
    Int64.toInt_inj.symm
  simp only [Frame.advance, least, Option.ite_none_right_eq_some, Option.some.injEq, same]
  rcases toInt_add_cases n m with sum | ⟨beyond, sum⟩ | ⟨below, -⟩
  · rcases toInt_roundUp (n := n + m) positive small (by omega) with round | ⟨beyond, round⟩
    · rw [sum] at round
      omega
    · rw [sum] at beyond
      omega
  · have round := toInt_roundUp_of_neg (n := n + m) positive small (by omega)
    omega
  · omega

end Words

/-- A distance in bytes, once the sizes of types are known. -/
def Offset.length (o : Offset) (size : String → Int) : Int :=
  o.static.toInt + (o.dynamic.map fun w => ceiling (size w) o.align.toInt).sum

/-- How many bytes a slot takes, once the sizes of types are known. -/
def Slot.length (s : Slot) (size : String → Int) : Int :=
  s.static.toInt + (s.dynamic.map size).sum

/-- The slot takes the byte at this distance. -/
def Placed.Takes (p : Placed) (size : String → Int) (byte : Int) : Prop :=
  p.offset.length size ≤ byte ∧ byte < p.offset.length size + p.slot.length size

/-- A sum of words is the sum of what they stand for, as far as words can tell. -/
theorem Offset.eval_eq_length (o : Offset) {size : String → Int64} (nonneg : ∀ w, 0 ≤ (size w).toInt) :
    o.eval size = Int64.ofInt (o.length fun w => (size w).toInt) := by
  obtain ⟨static, dynamic, align⟩ := o
  have round : ∀ w, roundUp (size w) align = Int64.ofInt (ceiling (size w).toInt align.toInt) := by
    intro w
    have rest : (size w % align).toInt = (size w).toInt % align.toInt := by
      rw [Int64.toInt_mod, Int.tmod_eq_emod_of_nonneg (nonneg w)]
    have one : align ≤ 1 ↔ align.toInt ≤ 1 := Int64.le_iff_toInt_le
    have whole : size w % align = 0 ↔ (size w).toInt % align.toInt = 0 := by
      rw [← Int64.toInt_inj, rest]
      exact Iff.rfl
    unfold roundUp ceiling
    simp only [one, whole, ← rest]
    split
    · exact (Int64.ofInt_toInt _).symm
    · split
      · exact (Int64.ofInt_toInt _).symm
      · rw [Int64.ofInt_add, Int64.ofInt_sub, Int64.ofInt_toInt, Int64.ofInt_toInt, Int64.ofInt_toInt]
  have total : ∀ start : Int, dynamic.foldl (fun sum w => sum + roundUp (size w) align) (Int64.ofInt start) =
      Int64.ofInt (start + (dynamic.map fun w => ceiling (size w).toInt align.toInt).sum) := by
    induction dynamic with
    | nil => simp
    | cons w rest ih =>
      intro start
      rw [List.foldl_cons, round, ← Int64.ofInt_add, ih, List.map_cons, List.sum_cons, Int.add_assoc]
  rw [Offset.eval, Offset.length, ← total, Int64.ofInt_toInt]

namespace Frame

section Steps

variable {align start stop : Int64} {slots : List Slot} {before after : List String} {placed : List Placed}

/-- Slots are placed one by one. -/
theorem place_cons {s : Slot} (done : place align start before (s :: slots) = .ok (placed, stop, after)) :
    ∃ next others, advance start s.static align = some next ∧ placed = ⟨s, ⟨start, before, align⟩⟩ :: others ∧
      place align next (before ++ s.dynamic) slots = .ok (others, stop, after) := by
  rw [place] at done
  cases room : advance start s.static align with
  | none =>
    rw [room] at done
    cases done
  | some next =>
    rw [room] at done
    dsimp only at done
    rw [Except.bind_eq_ok] at done
    obtain ⟨⟨others, _, _⟩, later, done⟩ := done
    obtain ⟨rfl, same⟩ := Prod.mk.inj (Except.ok.inj done)
    obtain ⟨rfl, rfl⟩ := Prod.mk.inj same
    exact ⟨next, others, rfl, rfl, later⟩

theorem slots_of_place (done : place align start before slots = .ok (placed, stop, after)) :
    placed.map (·.slot) = slots := by
  induction slots generalizing start before placed with
  | nil =>
    obtain ⟨rfl, -⟩ := Prod.mk.inj (Except.ok.inj done)
    rfl
  | cons s rest ih =>
    obtain ⟨next, others, -, rfl, later⟩ := place_cons done
    rw [List.map_cons, ih later]

/-- Slots that are not bad have different names. -/
theorem names_of_badSlot? (sound : badSlot? before slots = none) :
    (slots.map (·.name)).Nodup ∧ ∀ s ∈ slots, s.name ∉ before := by
  induction slots generalizing before with
  | nil => exact ⟨List.nodup_nil, List.forall_mem_nil _⟩
  | cons s rest ih =>
    rw [badSlot?] at sound
    split at sound
    · cases sound
    rename_i fresh
    split at sound
    · cases sound
    obtain ⟨once, apart⟩ := ih sound
    refine ⟨List.nodup_cons.mpr ⟨fun again => ?_, once⟩, List.forall_mem_cons.mpr ⟨by simpa using fresh, fun t member =>
      fun known => apart t member (List.mem_cons_of_mem _ known)⟩⟩
    obtain ⟨t, member, same⟩ := List.mem_map.mp again
    exact apart t member (same ▸ List.mem_cons_self)

/-- A layout places its slots one by one, those of known size first. -/
theorem place_of_compute {name : String} {target : Target} {frame : Frame}
    (done : compute name slots target = .ok frame) : badSlot? [] slots = none ∧
      ∃ align stop after, (¬ target.pointerAlign ≤ 0 → align = target.pointerAlign) ∧
        place align 0 [] (slots.filter Slot.isStatic ++ slots.filter (!·.isStatic)) =
          .ok (frame.slots, stop, after) ∧ frame.size = ⟨stop, after, align⟩ := by
  rw [compute] at done
  split at done
  · cases done
  rename_i sound
  split at done
  · cases done
  rename_i placed static dynamic fits
  obtain rfl := Except.ok.inj done
  exact ⟨sound, _, static, dynamic, fun least => if_neg least, fits, rfl⟩

/-- A frame has room for each of its slots, which have different names. -/
theorem slots_of_compute {name : String} {target : Target} {frame : Frame}
    (done : compute name slots target = .ok frame) :
    (slots.map (·.name)).Nodup ∧ ∀ s ∈ slots, (frame.offset? s.name).isSome = true := by
  obtain ⟨sound, align, stop, after, -, fits, -⟩ := place_of_compute done
  refine ⟨(names_of_badSlot? sound).1, fun s member => ?_⟩
  have known : s ∈ frame.slots.map (·.slot) := by
    rw [slots_of_place fits]
    exact (List.filter_append_perm Slot.isStatic slots).symm.subset member
  obtain ⟨p, inside, rfl⟩ := List.mem_map.mp known
  rw [offset?, Option.isSome_map, List.find?_isSome]
  exact ⟨p, inside, beq_self_eq_true _⟩

end Steps

end Frame

section Place

variable {size : String → Int} {align : Int64}

theorem sum_le_sum_ceiling (positive : 0 < align.toInt) (ws : List String) :
    (ws.map size).sum ≤ (ws.map fun w => ceiling (size w) align.toInt).sum := by
  induction ws with
  | nil => exact Int.le_refl 0
  | cons w rest ih =>
    have first := le_ceiling (n := size w) positive
    simp only [List.map_cons, List.sum_cons]
    omega

theorem sum_nonneg (nonneg : ∀ w, 0 ≤ size w) (ws : List String) : 0 ≤ (ws.map size).sum := by
  induction ws with
  | nil => exact Int.le_refl 0
  | cons w rest ih =>
    have first := nonneg w
    simp only [List.map_cons, List.sum_cons]
    omega

theorem dvd_sum_ceiling (positive : 0 < align.toInt) (ws : List String) :
    align.toInt ∣ (ws.map fun w => ceiling (size w) align.toInt).sum := by
  induction ws with
  | nil => exact Int.dvd_zero _
  | cons w rest ih =>
    rw [List.map_cons, List.sum_cons]
    exact Int.dvd_add (dvd_ceiling positive) ih

theorem Offset.length_append (static : Int64) (front back : List String) :
    (Offset.mk static (front ++ back) align).length size =
      (Offset.mk static front align).length size + (back.map fun w => ceiling (size w) align.toInt).sum := by
  simp only [Offset.length, List.map_append, List.sum_append]
  omega

/-- What is true of slots that are placed one behind the other, from an offset to another. -/
structure InRow (size : String → Int) (align : Int64) (start stop : Int) (placed : List Placed) : Prop where
  ordered : placed.Pairwise fun p q => p.offset.length size + p.slot.length size ≤ q.offset.length size
  after : ∀ p ∈ placed, start ≤ p.offset.length size
  before : ∀ p ∈ placed, p.offset.length size + p.slot.length size ≤ stop
  aligned : ∀ p ∈ placed, align.toInt ∣ p.offset.length size

/-- A slot ends before the next offset. -/
theorem Slot.length_le {s : Slot} {static next : Int64} {dynamic : List String}
    (positive : 0 < align.toInt)
    (behind : next.toInt = ceiling (static.toInt + s.static.toInt) align.toInt) :
    (Offset.mk static dynamic align).length size + s.length size ≤
      (Offset.mk next (dynamic ++ s.dynamic) align).length size := by
  have known := le_ceiling (n := static.toInt + s.static.toInt) positive
  have unknown : (s.dynamic.map size).sum ≤ _ := sum_le_sum_ceiling positive s.dynamic
  rw [Offset.length_append]
  simp only [Offset.length, Slot.length]
  omega

/-- Slots that are placed one behind the other keep apart. -/
theorem place_inRow (positive : 0 < align.toInt) (small : align.toInt < 2 ^ 32)
    (nonneg : ∀ w, 0 ≤ size w) {slots : List Slot} {static stop : Int64}
    {dynamic dynamic' : List String} {placed : List Placed}
    (done : Frame.place align static dynamic slots = .ok (placed, stop, dynamic'))
    (start : 0 ≤ static.toInt) (near : static.toInt < 2 ^ 32) (whole : align.toInt ∣ static.toInt)
    (known : ∀ s ∈ slots, 0 ≤ s.static.toInt) :
    (Offset.mk static dynamic align).length size ≤ (Offset.mk stop dynamic' align).length size ∧
      InRow size align ((Offset.mk static dynamic align).length size)
        ((Offset.mk stop dynamic' align).length size) placed := by
  induction slots generalizing static dynamic placed with
  | nil =>
    rw [Frame.place, Except.ok.injEq, Prod.mk.injEq, Prod.mk.injEq] at done
    obtain ⟨rfl, rfl, rfl⟩ := done
    exact ⟨Int.le_refl _, .nil, by simp, by simp, by simp⟩
  | cons s rest ih =>
    rw [List.forall_mem_cons] at known
    obtain ⟨next, others, found, rfl, placedRest⟩ := Frame.place_cons done
    obtain ⟨fits, behind⟩ := (advance_eq_some_iff positive small start near known.1).mp found
    have above := le_ceiling (n := static.toInt + s.static.toInt) positive
    have nonnegative := known.1
    obtain ⟨further, row⟩ := ih placedRest (by omega) (by omega) (behind ▸ dvd_ceiling positive) known.2
    have ends : (Offset.mk static dynamic align).length size + s.length size ≤ _ := Slot.length_le positive behind
    have own : 0 ≤ s.length size := by
      have unknown := sum_nonneg nonneg s.dynamic
      rw [Slot.length]
      omega
    refine ⟨by omega, ?_, ?_, ?_, ?_⟩
    · refine List.pairwise_cons.mpr ⟨fun p member => ?_, row.ordered⟩
      have later := row.after p member
      exact Int.le_trans ends later
    · refine List.forall_mem_cons.mpr ⟨Int.le_refl _, fun p member => ?_⟩
      have later := row.after p member
      omega
    · exact List.forall_mem_cons.mpr ⟨Int.le_trans ends further, row.before⟩
    · refine List.forall_mem_cons.mpr ⟨?_, row.aligned⟩
      exact Int.dvd_add whole (dvd_sum_ceiling positive dynamic)

end Place

namespace Frame

/-- A slot list without a fault has no negative sizes. -/
theorem nonneg_of_badSlot? {before : List String} {slots : List Slot} (good : badSlot? before slots = none) :
    ∀ s ∈ slots, 0 ≤ s.static.toInt := by
  induction slots generalizing before with
  | nil => simp
  | cons s rest ih =>
    rw [badSlot?] at good
    split at good
    · cases good
    · split at good
      · cases good
      · rename_i nonneg
        have least : ¬ s.static.toInt < 0 := fun below => nonneg (Int64.lt_iff_toInt_lt.mpr below)
        exact List.forall_mem_cons.mpr ⟨Int.not_lt.mp least, ih good⟩

theorem align_of_pointerSize {target : Target} {n : Int} (known : Target.ofPointerSize n = .ok target) :
    target.pointerAlign.toInt = 8 ∨ target.pointerAlign.toInt = 4 := by
  unfold Target.ofPointerSize at known
  split at known
  · obtain rfl := Except.ok.inj known
    exact Or.inl rfl
  · split at known
    · obtain rfl := Except.ok.inj known
      exact Or.inr rfl
    · cases known

/-- A layout that is found is a placement of its slots, those of known size in front and in
either part in the order given. Whatever the sizes of types turn out to be, slots stand
at multiples of the alignment, no two of them share a byte, and the frame has room for all.
Evaluating an offset in words gives the same length, as far as words can tell. -/
theorem compute_disjoint {name : String} {slots : List Slot} {target : Target} {n : Int} {frame : Frame}
    (known : Target.ofPointerSize n = .ok target) (done : compute name slots target = .ok frame) :
    frame.slots.map (·.slot) = slots.filter Slot.isStatic ++ slots.filter (!·.isStatic) ∧
      (frame.slots.map (·.slot)).Perm slots ∧
      ∀ size : String → Int, (∀ w, 0 ≤ size w) →
        (∀ p ∈ frame.slots, target.pointerAlign.toInt ∣ p.offset.length size ∧
          ∀ byte, p.Takes size byte → 0 ≤ byte ∧ byte < frame.size.length size) ∧
        (frame.slots.Pairwise fun p q => ∀ byte, ¬ (p.Takes size byte ∧ q.Takes size byte)) ∧
        ∀ words : String → Int64, (∀ w, (words w).toInt = size w) →
          (∀ p ∈ frame.slots, p.offset.eval words = Int64.ofInt (p.offset.length size)) ∧
            frame.size.eval words = Int64.ofInt (frame.size.length size) := by
  have align := align_of_pointerSize known
  have positive : 0 < target.pointerAlign.toInt := by omega
  have least : ¬ target.pointerAlign ≤ 0 := by
    rw [Int64.le_iff_toInt_le]
    exact Int.not_le.mpr positive
  obtain ⟨good, _, stop, after, same, found, last⟩ := place_of_compute done
  obtain rfl := same least
  have permuted := List.filter_append_perm Slot.isStatic slots
  have nonneg := fun s member => nonneg_of_badSlot? good s (permuted.subset member)
  have order := slots_of_place found
  refine ⟨order, order ▸ permuted, fun size sizes => ?_⟩
  obtain ⟨-, row⟩ := place_inRow positive (by omega) sizes found (Int.le_refl 0) (by decide) (Int.dvd_zero _) nonneg
  rw [last]
  refine ⟨fun p member => ⟨row.aligned p member, fun byte taken => ?_⟩, ?_, fun words same => ?_⟩
  · exact ⟨(row.after p member).trans taken.1, taken.2.trans_le (row.before p member)⟩
  · refine row.ordered.imp fun apart byte taken => ?_
    exact absurd (taken.1.2.trans_le apart) taken.2.1.not_gt
  · have nonneg : ∀ w, 0 ≤ (words w).toInt := fun w => (same w).symm ▸ sizes w
    have length := fun o : Offset => o.eval_eq_length nonneg
    simp only [same] at length
    exact ⟨fun p _ => length p.offset, length _⟩

/-- Slots of both kinds, with a type that is used twice. -/
def mixedSlots : List Slot := [⟨"a", 8, ["t"]⟩, ⟨"b", 3, []⟩, ⟨"c", 0, ["u", "t"]⟩, ⟨"d", 5, []⟩]

/-- What is known is placed first, and nothing overlaps. -/
theorem mixedSlots_disjoint : ∃ frame, compute "f" mixedSlots .wide = .ok frame ∧
    frame.slots.map (·.offset.render) = ["0", "8", "16", "24 + align(size(t), 8)"] ∧
    ∀ size : String → Int, (∀ w, 0 ≤ size w) →
      frame.slots.Pairwise fun p q => ∀ byte, ¬ (p.Takes size byte ∧ q.Takes size byte) := by
  cases done : compute "f" mixedSlots .wide with
  | error e =>
    have never : (compute "f" mixedSlots .wide).isOk = true := rfl
    rw [done] at never
    cases never
  | ok frame =>
    have offsets : (compute "f" mixedSlots .wide).toOption.map (fun f => f.slots.map (·.offset.render)) =
        some ["0", "8", "16", "24 + align(size(t), 8)"] := by decide
    rw [done] at offsets
    refine ⟨frame, rfl, Option.some.inj offsets, fun size sizes => ?_⟩
    exact ((compute_disjoint (n := 8) rfl done).2.2 size sizes).2.1

end Frame

end WitnessLang
