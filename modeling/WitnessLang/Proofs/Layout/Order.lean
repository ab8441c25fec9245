import WitnessLang.Proofs.Layout.Disjoint
import WitnessLang.Proofs.Lists
import WitnessLang.Proofs.Types.Key

set_option autoImplicit false

namespace WitnessLang

section Written

variable {o : Offset}

/-- A distance that is known beforehand is written as a number. -/
theorem Offset.render_of_known (known : o.dynamic = []) (nonneg : 0 ≤ o.static.toInt) :
    o.render = toString o.static.toInt.toNat := by
  obtain ⟨n, number⟩ := Int.eq_ofNat_of_zero_le nonneg
  rw [Offset.render, known, List.map_nil, String.intercalate_singleton, number]
  rfl

/-- Only a distance that is not known beforehand is written with a blank. -/
theorem Offset.blank_mem_render_iff (nonneg : 0 ≤ o.static.toInt) : ' ' ∈ o.render.toList ↔ o.dynamic ≠ [] := by
  by_cases known : o.dynamic = []
  · have digits : ' ' ∉ o.render.toList := by
      rw [Offset.render_of_known known nonneg]
      intro blank
      have digit : ' '.isDigit = true := by
        apply Nat.isDigit_of_mem_toDigits (b := 10) (n := o.static.toInt.toNat) (by decide) (by decide)
        simpa using blank
      exact absurd digit (by decide)
    exact iff_of_false digits (not_not_intro known)
  · obtain ⟨w, ws, dynamic⟩ := List.exists_cons_of_ne_nil known
    have sign : ' ' ∈ o.render.toList := by
      rw [Offset.render, dynamic, List.map_cons, String.intercalate_cons_cons]
      simp
    exact iff_of_true sign known

/-- Two distances that are known beforehand are written alike only if they are the same. -/
theorem Offset.static_eq_of_render {o' : Offset} (known : o.dynamic = []) (known' : o'.dynamic = [])
    (nonneg : 0 ≤ o.static.toInt) (nonneg' : 0 ≤ o'.static.toInt) (same : o.render = o'.render) :
    o.static.toInt = o'.static.toInt := by
  rw [render_of_known known nonneg, render_of_known known' nonneg'] at same
  have plain : Stem "" := by simp [Stem]
  have numbers := (numbered_eq plain plain (m := o.static.toInt.toNat) (n := o'.static.toInt.toNat)).mp (by rw [same])
  omega

end Written

namespace Frame

/-- What may stand behind a slot of unknown size so that nothing is moved across anything that takes room. -/
def Trailing : List Slot → Prop
  | [] => True
  | s :: rest => if s.isStatic then s.static = 0 ∧ Trailing rest else ∀ t ∈ rest, t.isStatic = false

/-- Slots that are placed as they are given: those of known size stand in front of all others, or behind one
other where they take no room. -/
def InOrder : List Slot → Prop
  | [] => True
  | s :: rest => if s.isStatic then InOrder rest else Trailing rest

instance decidableTrailing : (slots : List Slot) → Decidable (Trailing slots)
  | [] => .isTrue trivial
  | s :: rest =>
    have := decidableTrailing rest
    inferInstanceAs
      (Decidable (if s.isStatic then s.static = 0 ∧ Trailing rest else ∀ t ∈ rest, t.isStatic = false))

instance decidableInOrder : (slots : List Slot) → Decidable (InOrder slots)
  | [] => .isTrue trivial
  | s :: rest =>
    have := decidableInOrder rest
    inferInstanceAs (Decidable (if s.isStatic then InOrder rest else Trailing rest))

section Lists

variable {slots : List Slot}

/-- Slots of known size first, then the others. -/
def sorted (slots : List Slot) : List Slot := slots.filter Slot.isStatic ++ slots.filter (!·.isStatic)

theorem sorted_of_trailing (trailing : Trailing slots) :
    sorted slots = slots ∧ ∀ s ∈ slots, s.isStatic → s.static = 0 := by
  induction slots with
  | nil => exact ⟨rfl, by simp⟩
  | cons s rest ih =>
    rw [Trailing] at trailing
    by_cases known : s.isStatic
    · rw [if_pos known] at trailing
      obtain ⟨same, zero⟩ := ih trailing.2
      refine ⟨?_, List.forall_mem_cons.mpr ⟨fun _ => trailing.1, zero⟩⟩
      rw [sorted] at same ⊢
      simp [known, same]
    · rw [if_neg known] at trailing
      refine ⟨?_, List.forall_mem_cons.mpr ⟨fun static => absurd static known, fun t member static => ?_⟩⟩
      · have none : rest.filter Slot.isStatic = [] := by simpa using trailing
        have all : rest.filter (!·.isStatic) = rest := by simpa [List.filter_eq_self] using trailing
        simp [sorted, known, none, all]
      · rw [trailing t member] at static
        cases static

theorem trailing_of_pairwise (order : slots.Pairwise fun s t => s.isStatic = false → t.isStatic = false)
    (zero : ∀ s ∈ slots, s.isStatic → s.static = 0) : Trailing slots := by
  induction slots with
  | nil => trivial
  | cons s rest ih =>
    obtain ⟨first, later⟩ := List.pairwise_cons.mp order
    rw [List.forall_mem_cons] at zero
    rw [Trailing]
    by_cases known : s.isStatic
    · rw [if_pos known]
      exact ⟨zero.1 known, ih later zero.2⟩
    · rw [if_neg known]
      exact fun t member => first t member (Bool.not_eq_true _ ▸ known)

/-- How slots behind one of unknown size can be told to be in order, if all that is known of them are texts that
have blanks for unknown sizes. -/
theorem trailing_iff_of_texts {d : Slot} {text : Slot → String}
    (blank : ∀ s ∈ slots, ' ' ∈ (text s).toList ↔ s.isStatic = false)
    (flat : (∀ s ∈ slots, s.isStatic → s.static = 0) → ∀ s ∈ slots, s.isStatic → text s = text d)
    (zero : ∀ s ∈ (slots.filter Slot.isStatic).head?, text s = text d → ∀ t ∈ slots, t.isStatic → t.static = 0) :
    (slots.filter Slot.isStatic ++ d :: slots.filter (!·.isStatic)).map text = text d :: slots.map text ↔
      Trailing slots := by
  constructor
  · intro same
    have still : ∀ s ∈ slots, s.isStatic → s.static = 0 := by
      cases front : slots.filter Slot.isStatic with
      | nil =>
        intro s member static
        have found : s ∈ slots.filter Slot.isStatic := List.mem_filter.mpr ⟨member, static⟩
        rw [front] at found
        cases found
      | cons s rest =>
        rw [front] at same zero
        exact zero s rfl (List.head_eq_of_cons_eq same)
    have split : ((slots.filter Slot.isStatic ++ d :: slots.filter (!·.isStatic)).map text).Pairwise
        fun x y => ' ' ∈ x.toList → ' ' ∈ y.toList := by
      have front : ∀ s ∈ slots.filter Slot.isStatic, ' ' ∉ (text s).toList := by
        intro s member
        rw [List.mem_filter] at member
        rw [blank s member.1, member.2]
        exact Bool.noConfusion
      have back : ∀ s ∈ slots.filter (!·.isStatic), ' ' ∈ (text s).toList := by
        intro s member
        rw [List.mem_filter] at member
        rw [blank s member.1]
        simpa using member.2
      rw [List.pairwise_map, List.pairwise_append, List.pairwise_cons]
      refine ⟨?_, ⟨fun t member _ => back t member, ?_⟩, fun s member _ _ marked => absurd marked (front s member)⟩
      · exact List.pairwise_of_forall_mem_list fun s member _ _ marked => absurd marked (front s member)
      · exact List.pairwise_of_forall_mem_list fun _ _ t member _ => back t member
    rw [same, List.pairwise_cons, List.pairwise_map] at split
    refine trailing_of_pairwise (split.2.imp_of_mem fun {s t} inS inT marks => ?_) still
    rw [blank s inS, blank t inT] at marks
    exact marks
  · intro trailing
    obtain ⟨same, still⟩ := sorted_of_trailing trailing
    have front : (slots.filter Slot.isStatic).map text = List.replicate (slots.filter Slot.isStatic).length (text d) := by
      refine List.map_eq_replicate_iff.mpr fun s member => ?_
      rw [List.mem_filter] at member
      exact flat still s member.1 member.2
    have split := congrArg (List.map text) same
    rw [sorted, List.map_append] at split
    rw [← split, List.map_append, List.map_cons, front, ← List.cons_append, ← List.replicate_succ, List.replicate_succ',
      List.append_assoc, List.singleton_append]

end Lists

section Place

variable {align : Int64} {slots : List Slot} {start stop : Int64} {before after : List String} {placed : List Placed}

/-- Slots are placed from left to right. -/
theorem place_append {front back : List Slot}
    (done : place align start before (front ++ back) = .ok (placed, stop, after)) :
    ∃ placedF placedB middle between, placed = placedF ++ placedB ∧
      place align start before front = .ok (placedF, middle, between) ∧
      place align middle between back = .ok (placedB, stop, after) := by
  induction front generalizing start before placed with
  | nil => exact ⟨[], placed, start, before, rfl, rfl, done⟩
  | cons s rest ih =>
    obtain ⟨next, others, room, rfl, later⟩ := place_cons done
    obtain ⟨placedF, placedB, middle, between, rfl, first, second⟩ := ih later
    refine ⟨_ :: placedF, placedB, middle, between, rfl, ?_, second⟩
    rw [place, room]
    simp only [first]
    rfl

/-- Offsets among slots of known size are known. -/
theorem dynamic_of_place (known : ∀ s ∈ slots, s.isStatic)
    (done : place align start before slots = .ok (placed, stop, after)) :
    after = before ∧ ∀ p ∈ placed, p.offset.dynamic = before := by
  induction slots generalizing start placed with
  | nil =>
    obtain ⟨rfl, same⟩ := Prod.mk.inj (Except.ok.inj done)
    exact ⟨(Prod.mk.inj same).2.symm, by simp⟩
  | cons s rest ih =>
    rw [List.forall_mem_cons] at known
    obtain ⟨next, others, -, rfl, later⟩ := place_cons done
    have none : s.dynamic = [] := List.isEmpty_iff.mp known.1
    rw [none, List.append_nil] at later
    obtain ⟨same, all⟩ := ih known.2 later
    exact ⟨same, List.forall_mem_cons.mpr ⟨rfl, all⟩⟩

/-- Offsets behind a slot of unknown size stay unknown. -/
theorem unknown_of_place (unknown : before ≠ [])
    (done : place align start before slots = .ok (placed, stop, after)) :
    ∀ p ∈ placed, p.offset.dynamic ≠ [] := by
  induction slots generalizing start before placed with
  | nil =>
    obtain ⟨rfl, -⟩ := Prod.mk.inj (Except.ok.inj done)
    simp
  | cons s rest ih =>
    obtain ⟨next, others, -, rfl, later⟩ := place_cons done
    refine List.forall_mem_cons.mpr ⟨unknown, ih (fun none => ?_) later⟩
    exact unknown (List.append_eq_nil_iff.mp none).1

/-- The known part of an offset is never negative. -/
theorem static_nonneg_of_place (nonneg : 0 ≤ start.toInt)
    (done : place align start before slots = .ok (placed, stop, after)) :
    0 ≤ stop.toInt ∧ ∀ p ∈ placed, 0 ≤ p.offset.static.toInt := by
  induction slots generalizing start before placed with
  | nil =>
    obtain ⟨rfl, same⟩ := Prod.mk.inj (Except.ok.inj done)
    obtain ⟨rfl, -⟩ := Prod.mk.inj same
    exact ⟨nonneg, by simp⟩
  | cons s rest ih =>
    obtain ⟨next, others, room, rfl, later⟩ := place_cons done
    have further : 0 ≤ next.toInt := by
      simp only [advance, Option.ite_none_right_eq_some, Option.some.injEq] at room
      exact room.2 ▸ Int64.le_iff_toInt_le.mp room.1.1
    obtain ⟨last, all⟩ := ih further later
    exact ⟨last, List.forall_mem_cons.mpr ⟨nonneg, all⟩⟩

/-- Slots that take no room all stand at the same offset. -/
theorem flat_of_place (positive : 0 < align.toInt) (small : align.toInt < 2 ^ 32) (nonneg : 0 ≤ start.toInt)
    (near : start.toInt < 2 ^ 32) (whole : align.toInt ∣ start.toInt)
    (flat : ∀ s ∈ slots, s.isStatic ∧ s.static = 0)
    (done : place align start before slots = .ok (placed, stop, after)) :
    stop = start ∧ ∀ p ∈ placed, p.offset = ⟨start, before, align⟩ := by
  induction slots generalizing placed with
  | nil =>
    obtain ⟨rfl, same⟩ := Prod.mk.inj (Except.ok.inj done)
    exact ⟨(Prod.mk.inj same).1.symm, by simp⟩
  | cons s rest ih =>
    rw [List.forall_mem_cons] at flat
    obtain ⟨⟨known, zero⟩, flat⟩ := flat
    obtain ⟨next, others, room, rfl, later⟩ := place_cons done
    have none : s.dynamic = [] := List.isEmpty_iff.mp known
    have still : next = start := by
      have behind := ((advance_eq_some_iff positive small nonneg near (by rw [zero]; decide)).mp room).2
      rw [zero, Int64.toInt_zero, Int.add_zero, ceiling_of_dvd whole] at behind
      exact Int64.toInt_inj.mp behind
    rw [none, List.append_nil, still] at later
    obtain ⟨same, all⟩ := ih flat later
    exact ⟨same, List.forall_mem_cons.mpr ⟨rfl, all⟩⟩

/-- Slots of known size that end where they begin take no room. -/
theorem zero_of_place (positive : 0 < align.toInt) (small : align.toInt < 2 ^ 32) (nonneg : 0 ≤ start.toInt)
    (near : start.toInt < 2 ^ 32) (whole : align.toInt ∣ start.toInt)
    (known : ∀ s ∈ slots, s.isStatic) (sizes : ∀ s ∈ slots, 0 ≤ s.static.toInt)
    (done : place align start before slots = .ok (placed, stop, after)) (still : stop.toInt = start.toInt) :
    ∀ s ∈ slots, s.static = 0 := by
  have free : ∀ w : String, 0 ≤ (fun _ => 0 : String → Int) w := fun _ => Int.le_refl 0
  obtain ⟨-, row⟩ := place_inRow positive small free done nonneg near whole sizes
  have order := slots_of_place done
  obtain ⟨rfl, -⟩ := dynamic_of_place known done
  intro s member
  rw [← order] at member
  obtain ⟨p, here, rfl⟩ := List.mem_map.mp member
  have slot := order ▸ List.mem_map_of_mem here
  have low := row.after p here
  have high := row.before p here
  have least := sizes p.slot slot
  have none : p.slot.dynamic = [] := List.isEmpty_iff.mp (known p.slot slot)
  have size : p.slot.static.toInt = 0 := by
    simp only [Offset.length, Slot.length, none, List.map_nil, List.sum_nil] at low high
    omega
  exact Int64.toInt_inj.mp size

theorem exists_placed (done : place align start before slots = .ok (placed, stop, after)) {s : Slot}
    (member : s ∈ slots) : ∃ p ∈ placed, p.slot = s := by
  rw [← slots_of_place done] at member
  exact List.mem_map.mp member

section Offsets

variable {offset : Slot → Offset}

/-- A slot of unknown size is moved behind those of known size. -/
theorem moved_render_eq_iff (positive : 0 < align.toInt) (small : align.toInt < 2 ^ 32) (nonneg : 0 ≤ start.toInt)
    (near : start.toInt < 2 ^ 32) (whole : align.toInt ∣ start.toInt) (sizes : ∀ s ∈ slots, 0 ≤ s.static.toInt)
    {d : Slot} (unknown : d.dynamic ≠ [])
    (done : place align start [] (slots.filter Slot.isStatic ++ d :: slots.filter (!·.isStatic)) =
      .ok (placed, stop, after)) (here : ∀ p ∈ placed, offset p.slot = p.offset) :
    (slots.filter Slot.isStatic ++ d :: slots.filter (!·.isStatic)).map (fun s => (offset s).render) =
      (offset d).render :: slots.map (fun s => (offset s).render) ↔ Trailing slots := by
  obtain ⟨placedF, placedB, middle, between, rfl, front, back⟩ := place_append done
  obtain ⟨next, others, room, rfl, later⟩ := place_cons back
  have static : ∀ s ∈ slots.filter Slot.isStatic, s.isStatic := fun s member => (List.mem_filter.mp member).2
  have sizesF : ∀ s ∈ slots.filter Slot.isStatic, 0 ≤ s.static.toInt := fun s member =>
    sizes s (List.mem_filter.mp member).1
  obtain ⟨rfl, plain⟩ := dynamic_of_place static front
  obtain ⟨nonnegM, nonnegF⟩ := static_nonneg_of_place nonneg front
  rw [List.nil_append] at later
  obtain ⟨-, nonnegB⟩ := static_nonneg_of_place nonnegM back
  rw [List.forall_mem_cons] at nonnegB
  have marked := unknown_of_place unknown later
  have atD : offset d = ⟨middle, [], align⟩ := here ⟨d, _⟩ (List.mem_append_right _ List.mem_cons_self)
  have atF : ∀ s ∈ slots, s.isStatic → ∃ p ∈ placedF, offset s = p.offset := by
    intro s member isStatic
    obtain ⟨p, found, rfl⟩ := exists_placed front (List.mem_filter.mpr ⟨member, isStatic⟩)
    exact ⟨p, found, here p (List.mem_append_left _ found)⟩
  have atB : ∀ s ∈ slots, ¬ s.isStatic → ∃ p ∈ others, offset s = p.offset := by
    intro s member dynamic
    obtain ⟨p, found, rfl⟩ := exists_placed later (List.mem_filter.mpr ⟨member, by simpa using dynamic⟩)
    exact ⟨p, found, here p (List.mem_append_right _ (List.mem_cons_of_mem _ found))⟩
  apply trailing_iff_of_texts
  · intro s member
    by_cases isStatic : s.isStatic
    · obtain ⟨p, found, same⟩ := atF s member isStatic
      rw [same, Offset.blank_mem_render_iff (nonnegF p found), plain p found, isStatic]
      simp
    · obtain ⟨p, found, same⟩ := atB s member isStatic
      rw [same, Offset.blank_mem_render_iff (nonnegB.2 p found)]
      exact iff_of_true (marked p found) (Bool.not_eq_true _ ▸ isStatic)
  · intro flat s member isStatic
    obtain ⟨p, found, same⟩ := atF s member isStatic
    have flatF : ∀ t ∈ slots.filter Slot.isStatic, t.isStatic ∧ t.static = 0 := fun t inside =>
      ⟨static t inside, flat t (List.mem_filter.mp inside).1 (static t inside)⟩
    obtain ⟨rfl, still⟩ := flat_of_place positive small nonneg near whole flatF front
    rw [same, atD, still p found]
  · intro s first same t member isStatic
    have still : middle.toInt = start.toInt := by
      obtain ⟨behind, split⟩ := List.head?_eq_some_iff.mp first
      rw [split] at front
      obtain ⟨_, _, -, rfl, -⟩ := place_cons front
      have atS : offset s = ⟨start, [], align⟩ := here ⟨s, _⟩ (List.mem_append_left _ List.mem_cons_self)
      rw [atS, atD] at same
      exact (Offset.static_eq_of_render rfl rfl nonneg nonnegM same).symm
    exact zero_of_place positive small nonneg near whole static sizesF front still t
      (List.mem_filter.mpr ⟨member, isStatic⟩)

/-- Offsets in the order of the slots, compared as texts with the offsets from left to right. -/
theorem map_render_eq_iff (positive : 0 < align.toInt) (small : align.toInt < 2 ^ 32) (nonneg : 0 ≤ start.toInt)
    (near : start.toInt < 2 ^ 32) (whole : align.toInt ∣ start.toInt) (sizes : ∀ s ∈ slots, 0 ≤ s.static.toInt)
    (done : place align start [] (sorted slots) = .ok (placed, stop, after))
    (here : ∀ p ∈ placed, offset p.slot = p.offset) :
    (sorted slots).map (fun s => (offset s).render) = slots.map (fun s => (offset s).render) ↔ InOrder slots := by
  induction slots generalizing start placed with
  | nil => exact iff_of_true rfl trivial
  | cons d rest ih =>
    rw [List.forall_mem_cons] at sizes
    by_cases known : d.isStatic
    · have first : sorted (d :: rest) = d :: sorted rest := by simp [sorted, known]
      rw [first] at done ⊢
      obtain ⟨next, others, room, rfl, later⟩ := place_cons done
      obtain ⟨fits, behind⟩ := (advance_eq_some_iff positive small nonneg near sizes.1).mp room
      have above := le_ceiling (n := start.toInt + d.static.toInt) positive
      have least := sizes.1
      have none : d.dynamic = [] := List.isEmpty_iff.mp known
      rw [none, List.append_nil] at later
      have others := ih (by omega) (by omega) (behind ▸ dvd_ceiling positive) sizes.2 later
        fun p member => here p (List.mem_cons_of_mem _ member)
      rw [InOrder, if_pos known, ← others, List.map_cons, List.map_cons, List.cons_inj_right]
    · have first : sorted (d :: rest) = rest.filter Slot.isStatic ++ d :: rest.filter (!·.isStatic) := by
        simp [sorted, known]
      have unknown : d.dynamic ≠ [] := by simpa [Slot.isStatic] using known
      rw [first] at done ⊢
      rw [InOrder, if_neg known]
      exact moved_render_eq_iff positive small nonneg near whole sizes.2 unknown done here

end Offsets

end Place

section Compute

variable {name : String} {slots : List Slot} {target : Target} {n : Int} {frame : Frame}

/-- The slots of some names, in the order of the names. -/
def listed (frame : Frame) (names : List String) : List Placed :=
  names.filterMap fun name => frame.slots.find? fun p => p.slot.name == name

/-- A layout has a place for the name of each of its slots. -/
theorem listed_of_compute (done : compute name slots target = .ok frame) :
    ((frame.listed (slots.map (·.name))).map fun p => some p.offset) = (slots.map fun s => frame.offset? s.name) := by
  have places := (slots_of_compute done).2
  rw [listed, List.filterMap_map]
  clear done
  induction slots with
  | nil => rfl
  | cons s rest ih =>
    rw [List.forall_mem_cons] at places
    obtain ⟨here, others⟩ := places
    rw [offset?, Option.isSome_map, Option.isSome_iff_exists] at here
    obtain ⟨p, found⟩ := here
    have first : frame.offset? s.name = some p.offset := by rw [offset?, found, Option.map_some]
    rw [List.filterMap_cons, Function.comp_apply, found, List.map_cons, List.map_cons, ih others, first]

/-- The offsets of a layout from left to right are written like those of its slots, in the order in which they were
given, exactly if the slots are placed as they were given. -/
theorem compute_render_iff (known : Target.ofPointerSize n = .ok target)
    (done : compute name slots target = .ok frame) :
    frame.slots.map (·.offset.render) = (frame.listed (slots.map (·.name))).map (·.offset.render) ↔ InOrder slots := by
  have align := align_of_pointerSize known
  have positive : 0 < target.pointerAlign.toInt := by omega
  have least : ¬ target.pointerAlign ≤ 0 := by
    rw [Int64.le_iff_toInt_le]
    exact Int.not_le.mpr positive
  have places := listed_of_compute done
  have once := (slots_of_compute done).1
  obtain ⟨good, _, stop, after, same, found, -⟩ := place_of_compute done
  obtain rfl := same least
  have order := slots_of_place found
  have nonneg := nonneg_of_badSlot? good
  let offset (s : Slot) : Offset := (frame.offset? s.name).getD default
  have onceP : (frame.slots.map fun p => p.slot.name).Nodup := by
    have names := congrArg (List.map Slot.name) order
    rw [List.map_map] at names
    have permuted := (List.filter_append_perm Slot.isStatic slots).map Slot.name
    exact names ▸ permuted.nodup_iff.mpr once
  have here : ∀ p ∈ frame.slots, offset p.slot = p.offset := by
    intro p member
    have own := find?_of_nodup onceP member
    simp only [offset, offset?, own, Option.map_some, Option.getD_some]
  have front : frame.slots.map (·.offset.render) = (sorted slots).map fun s => (offset s).render := by
    rw [sorted, ← order, List.map_map]
    refine List.map_congr_left fun p member => ?_
    rw [Function.comp_apply, here p member]
  have back : (frame.listed (slots.map (·.name))).map (·.offset.render) = slots.map fun s => (offset s).render := by
    have offsets := congrArg (List.map fun o : Option Offset => (o.getD default).render) places
    rw [List.map_map, List.map_map] at offsets
    exact offsets
  rw [front, back]
  refine map_render_eq_iff positive (by omega) ?_ ?_ ?_ nonneg found here
  · exact Int.le_refl 0
  · decide
  · exact Int.dvd_zero _

end Compute

section Terms

variable {name : String} {slots : List Slot} {target : Target} {frame : Frame}

/-- The type descriptions that a layout is a sum over, by the names of their variables. -/
def terms (frame : Frame) : List String := frame.size.dynamic ++ frame.slots.flatMap (·.offset.dynamic)

/-- Offsets are sums over what slots take that are placed before. -/
theorem terms_of_place {align start stop : Int64} {before after : List String} {placed : List Placed}
    (done : place align start before slots = .ok (placed, stop, after)) :
    ∀ n ∈ after ++ placed.flatMap (·.offset.dynamic), n ∈ before ∨ ∃ s ∈ slots, n ∈ s.dynamic := by
  induction slots generalizing start before placed with
  | nil =>
    obtain ⟨rfl, same⟩ := Prod.mk.inj (Except.ok.inj done)
    obtain ⟨-, rfl⟩ := Prod.mk.inj same
    exact fun n member => Or.inl (by simpa using member)
  | cons s rest ih =>
    obtain ⟨next, others, -, rfl, later⟩ := place_cons done
    have all := ih later
    intro n member
    rw [List.flatMap_cons, List.mem_append, List.mem_append] at member
    have split : n ∈ before ∨ n ∈ after ++ others.flatMap (·.offset.dynamic) := by
      rw [List.mem_append]
      exact member.elim (Or.inr ∘ Or.inl) (Or.imp_right Or.inr)
    rcases split with old | new
    · exact Or.inl old
    · rcases all n new with known | ⟨t, inside, part⟩
      · exact (List.mem_append.mp known).imp_right fun own => ⟨s, List.mem_cons_self, own⟩
      · exact Or.inr ⟨t, List.mem_cons_of_mem _ inside, part⟩

/-- A layout is a sum over what its slots take. -/
theorem mem_terms_of_compute (done : compute name slots target = .ok frame) {n : String} (member : n ∈ frame.terms) :
    ∃ s ∈ slots, n ∈ s.dynamic := by
  obtain ⟨-, align, stop, after, -, found, size⟩ := place_of_compute done
  rw [terms, size] at member
  obtain ⟨s, inside, part⟩ := (terms_of_place found n member).resolve_left List.not_mem_nil
  exact ⟨s, (List.filter_append_perm Slot.isStatic slots).subset inside, part⟩

/-- Where a slot of known size stands is known. -/
theorem static_of_compute (done : compute name slots target = .ok frame) :
    ∀ p ∈ frame.slots, p.slot.isStatic = true → p.offset.dynamic = [] := by
  obtain ⟨-, align, stop, after, -, found, -⟩ := place_of_compute done
  obtain ⟨front, back, middle, between, same, first, second⟩ := place_append found
  rw [same]
  intro p member static
  rcases List.mem_append.mp member with early | late
  · exact (dynamic_of_place (fun s inside => (List.mem_filter.mp inside).2) first).2 p early
  · have slot : p.slot ∈ slots.filter (!·.isStatic) := slots_of_place second ▸ List.mem_map_of_mem late
    rw [List.mem_filter, static] at slot
    cases slot.2

end Terms

end Frame

end WitnessLang
