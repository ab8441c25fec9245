import Mathlib.Data.List.DropRight
import WitnessLang.Trace.Tracer

set_option autoImplicit false

namespace WitnessLang.Trace

namespace Ring

/-- A ring that has taken in some events: where its head stands, when it is full, and which events it holds. -/
structure Holds (r : Ring) (es : List Event) : Prop where
  room : 0 < r.capacity
  size : r.cells.size = r.capacity
  head : r.head = es.length % r.capacity
  full : r.full = true ↔ r.capacity ≤ es.length
  events : r.events = es.rtake r.capacity

variable {r : Ring} {es : List Event}

theorem holds_ofCapacity (n : Int) : (ofCapacity n).Holds [] := by
  have room : 0 < (ofCapacity n).capacity := by
    rw [ofCapacity]
    dsimp only
    split <;> omega
  refine ⟨room, Array.size_replicate .., (Nat.zero_mod _).symm, ⟨nofun, fun some => ?_⟩, ?_⟩
  · exact absurd room (Nat.not_lt.mpr some)
  · simp [List.rtake, Ring.events, ofCapacity]

@[simp] theorem capacity_push (r : Ring) (e : Event) : (r.push e).capacity = r.capacity := rfl

theorem Holds.inside (holds : r.Holds es) : r.head < r.capacity := by
  rw [holds.head]
  exact Nat.mod_lt _ holds.room

/-- A new event goes where the head stands. -/
theorem Holds.cells_push (holds : r.Holds es) (e : Event) :
    (r.push e).cells.toList = r.cells.toList.take r.head ++ e :: r.cells.toList.drop (r.head + 1) := by
  have inside := holds.inside
  rw [Ring.push, Array.toList_setIfInBounds, List.set_eq_take_append_cons_drop, if_pos (by simpa [holds.size])]

theorem Holds.head_push (holds : r.Holds es) (e : Event) :
    (r.push e).head = (es ++ [e]).length % r.capacity := by
  rw [List.length_append, List.length_singleton, Ring.push, holds.head, Nat.mod_add_mod]

theorem Holds.full_push (holds : r.Holds es) (e : Event) :
    (r.push e).full = true ↔ r.capacity ≤ (es ++ [e]).length := by
  have wraps : (r.push e).full = true ↔ r.full = true ∨ (r.push e).head = 0 := by
    simp [Ring.push]
  have room := holds.room
  rw [wraps, holds.full, holds.head_push, List.length_append, List.length_singleton]
  constructor
  · rintro (before | front)
    · omega
    · exact Nat.le_of_dvd (Nat.succ_pos _) (Nat.dvd_of_mod_eq_zero front)
  · intro many
    rcases Nat.lt_or_ge es.length r.capacity with less | before
    · have last : es.length + 1 = r.capacity := by omega
      exact Or.inr (by rw [last, Nat.mod_self])
    · exact Or.inl before

/-- As long as there is room, a new event comes behind the others. -/
theorem Holds.events_push_filling (holds : r.Holds es) (e : Event) (less : es.length < r.capacity) :
    (r.push e).events = es ++ [e] := by
  have head : r.head = es.length := by rw [holds.head, Nat.mod_eq_of_lt less]
  have before : r.cells.toList.take r.head = es := by
    have all : es.rtake r.capacity = es := by
      rw [List.rtake, Nat.sub_eq_zero_of_le (by omega), List.drop_zero]
    have filling : ¬ r.full = true := fun full => absurd (holds.full.mp full) (by omega)
    rw [← all, ← holds.events, Ring.events, if_neg filling]
  have cells : (r.push e).cells.toList = (es ++ [e]) ++ r.cells.toList.drop (r.head + 1) := by
    rw [holds.cells_push, before, List.append_cons]
  have head' := holds.head_push e
  have full' := holds.full_push e
  rw [Ring.events, cells, head']
  rw [List.length_append, List.length_singleton] at full' ⊢
  split
  · -- The last cell was filled, so nothing lies behind it.
    rename_i full
    have last : es.length + 1 = r.capacity := by have := full'.mp full; omega
    have behind : r.cells.toList.drop (r.head + 1) = [] := by
      rw [List.drop_eq_nil_iff, Array.length_toList, holds.size]
      omega
    rw [last, Nat.mod_self, List.drop_zero, List.take_zero, List.append_nil, behind, List.append_nil]
  · rename_i filling
    have more : es.length + 1 < r.capacity := by
      have := mt full'.mpr filling
      omega
    rw [Nat.mod_eq_of_lt more, List.take_left' (by simp)]

/-- In a full ring a new event takes the place of the oldest. -/
theorem Holds.events_push_full (holds : r.Holds es) (e : Event) (many : r.capacity ≤ es.length) :
    (r.push e).events = r.events.tail ++ [e] := by
  have inside := holds.inside
  have size := holds.size
  have within : r.head < r.cells.toList.length := by simpa [size] using inside
  have before : r.events = r.cells.toList[r.head] ::
      (r.cells.toList.drop (r.head + 1) ++ r.cells.toList.take r.head) := by
    rw [Ring.events, if_pos (holds.full.mpr many), List.drop_eq_getElem_cons within, List.cons_append]
  have full : (r.push e).full = true := (holds.full_push e).mpr (by rw [List.length_append]; omega)
  have front : (r.cells.toList.take r.head).length = r.head := by
    rw [List.length_take]
    omega
  have head : (r.push e).head = (r.head + 1) % r.capacity := rfl
  rw [before, List.tail_cons, Ring.events, if_pos full, head, holds.cells_push]
  by_cases last : r.head + 1 = r.capacity
  · have behind : r.cells.toList.drop (r.head + 1) = [] := by
      rw [List.drop_eq_nil_iff, Array.length_toList]
      omega
    rw [last, Nat.mod_self, List.drop_zero, List.take_zero, List.append_nil, ← last, behind,
      List.nil_append]
  · have length : (r.cells.toList.take r.head ++ [e]).length = r.head + 1 := by
      rw [List.length_append, front, List.length_singleton]
    rw [Nat.mod_eq_of_lt (by omega), List.append_cons, List.drop_left' length,
      List.take_left' length, List.append_assoc]

/-- Taking in one more event: either there is room left, or the oldest event goes. -/
theorem Holds.push (holds : r.Holds es) (e : Event) : (r.push e).Holds (es ++ [e]) := by
  refine ⟨holds.room, ?_, holds.head_push e, holds.full_push e, ?_⟩
  · rw [capacity_push, ← holds.size]
    exact Array.size_setIfInBounds
  rw [capacity_push]
  rcases Nat.lt_or_ge es.length r.capacity with less | many
  · rw [holds.events_push_filling e less, List.rtake,
      Nat.sub_eq_zero_of_le (by rw [List.length_append, List.length_singleton]; omega), List.drop_zero]
  · obtain ⟨n, succ⟩ : ∃ n, r.capacity = n + 1 := ⟨r.capacity - 1, by have := holds.room; omega⟩
    have shift : es.length - (n + 1) + 1 = es.length - n := by omega
    rw [holds.events_push_full e many, holds.events, succ, List.rtake_concat_succ, List.rtake, List.rtake,
      List.tail_drop, shift]

theorem capacity_pushAll (r : Ring) (es : List Event) :
    (es.foldl Ring.push r).capacity = r.capacity := by
  induction es generalizing r with
  | nil => rfl
  | cons e rest ih => exact ih (r.push e)

/-- However many events a ring takes in, it holds the latest of them. -/
theorem Holds.pushAll (holds : r.Holds es) (more : List Event) :
    (more.foldl Ring.push r).Holds (es ++ more) := by
  induction more generalizing r es with
  | nil => rwa [List.append_nil]
  | cons e rest ih =>
    rw [List.append_cons]
    exact ih (holds.push e)

end Ring

namespace Tracer

def wants (t : Tracer) (e : Event) : Bool := t.level.admits e.scope

/-- How many numbers are given for an event: where it is written out, that takes one of its own. -/
def stride (t : Tracer) : Nat := if t.stream.isSome then 2 else 1

/-- A wanted event as it is kept, if so many others have been taken in meanwhile. -/
def stamp (t : Tracer) (before : Nat) (e : Event) : Event :=
  { e with
    sequence := t.numbered + (before + 1) * t.stride
    session := if e.session.isEmpty then t.session else e.session }

/-- The wanted ones of some events, as they are kept. -/
def kept (t : Tracer) (es : List Event) : List Event := (es.filter t.wants).mapIdx t.stamp

variable {t : Tracer} {r : Ring} {e : Event}

/-- A wanted event goes into the ring; apart from that, a tracer only gives numbers and writes out. -/
theorem emit_wanted (ring : t.ring = some r) (wanted : t.wants e = true) :
    ∃ written, t.emit e = { t with
      ring := some (r.push (t.stamp 0 e))
      numbered := t.numbered + t.stride
      written } := by
  have taken : t.emit e = (t.writeOut e).keep e := if_pos wanted
  rw [taken, writeOut, stamp, stride]
  cases stream : t.stream with
  | none => exact ⟨t.written, by simp [keep, ring, number, stream]⟩
  | some f => exact ⟨t.written ++ (t.number e).render f, by simp [keep, ring, number]⟩

theorem kept_wanted (es : List Event) (wanted : t.wants e = true) (written : String) (r : Option Ring) :
    t.kept (e :: es) = t.stamp 0 e ::
      kept { t with ring := r, numbered := t.numbered + t.stride, written } es := by
  rw [kept, List.filter_cons_of_pos wanted, List.mapIdx_cons]
  refine congrArg (t.stamp 0 e :: ·) (congrArg (List.mapIdx · _) ?_)
  funext i e'
  have number : t.numbered + (i + 1 + 1) * t.stride = t.numbered + t.stride + (i + 1) * t.stride := by
    rw [Nat.add_mul, Nat.one_mul]
    omega
  rw [stamp, stamp, number]
  rfl

theorem ring_emitAll (ring : t.ring = some r) (es : List Event) :
    (es.foldl emit t).ring = some ((t.kept es).foldl Ring.push r) := by
  induction es generalizing t r with
  | nil => exact ring
  | cons e rest ih =>
    rw [List.foldl_cons]
    cases wanted : t.wants e with
    | false =>
      have same : t.emit e = t := if_neg (by simpa [wants] using wanted)
      rw [same, kept, List.filter_cons_of_neg (by simp [wanted])]
      exact ih ring
    | true =>
      obtain ⟨written, step⟩ := emit_wanted ring wanted
      rw [step, kept_wanted rest wanted written (some (r.push (t.stamp 0 e))), List.foldl_cons]
      exact ih rfl

/-- Whatever is recorded, the ring has the latest of what is wanted, as many as there is room
for, the oldest first. -/
theorem ring_latest (t : Tracer) (capacity : Int) (es : List Event) :
    let size := if capacity ≤ 0 then 4096 else capacity.toNat
    let latest := (es.foldl emit { t with ring := some (Ring.ofCapacity capacity) }).events
    (∃ older, t.kept es = older ++ latest) ∧ latest.length = min (es.countP t.wants) size := by
  intro size latest
  have holds := (Ring.holds_ofCapacity capacity).pushAll (t.kept es)
  have count : (t.kept es).length = es.countP t.wants := by
    rw [kept, List.length_mapIdx, List.countP_eq_length_filter]
  have run : latest = (t.kept es).rtake size := by
    have ring := ring_emitAll (t := { t with ring := some (Ring.ofCapacity capacity) }) rfl es
    have events := holds.events
    rw [Ring.capacity_pushAll, List.nil_append] at events
    show (es.foldl emit { t with ring := some (Ring.ofCapacity capacity) }).events = _
    rw [Tracer.events, ring]
    exact events
  refine ⟨⟨(t.kept es).take ((t.kept es).length - size), ?_⟩, ?_⟩
  · rw [run, List.rtake, List.take_append_drop]
  · rw [run, List.rtake, List.length_drop, count]
    omega

end Tracer

end WitnessLang.Trace
