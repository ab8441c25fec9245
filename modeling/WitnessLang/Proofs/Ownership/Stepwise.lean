import Mathlib.Data.List.Nodup
import WitnessLang.Proofs.Ownership.Counted

set_option autoImplicit false

namespace WitnessLang.Ownership

open Ir

/-- How often a plan places a variable from a position on. -/
def placesFrom (p : Plan) (k : Nat) (v : VarId) : Nat :=
  (p.destroys ++ p.handed).countP fun e => decide (k ≤ e.1 ∧ e.2 = v)

theorem mem_destroysAt {p : Plan} {k : Nat} {v : VarId} :
    v ∈ p.destroysAt k ↔ (k, v) ∈ p.destroys := by
  simp only [Plan.destroysAt, List.mem_map, List.mem_filter, beq_iff_eq]
  constructor
  · rintro ⟨⟨_, _⟩, ⟨member, rfl⟩, rfl⟩
    exact member
  · intro member
    exact ⟨(k, v), ⟨member, rfl⟩, rfl⟩

theorem mem_handedAt {p : Plan} {k : Nat} {v : VarId} :
    v ∈ p.handedAt k ↔ (k, v) ∈ p.handed := by
  simp only [Plan.handedAt, List.mem_map, List.mem_filter, beq_iff_eq]
  constructor
  · rintro ⟨⟨_, _⟩, ⟨member, rfl⟩, rfl⟩
    exact member
  · intro member
    exact ⟨(k, v), ⟨member, rfl⟩, rfl⟩

/-- The places from a position on are those at the position and those behind it. -/
theorem placesFrom_split (entries : List (Nat × VarId)) (k : Nat) (v : VarId) :
    entries.countP (fun e => decide (k ≤ e.1 ∧ e.2 = v)) =
      ((entries.filter (·.1 == k)).map (·.2)).count v +
        entries.countP (fun e => decide (k + 1 ≤ e.1 ∧ e.2 = v)) := by
  induction entries with
  | nil => rfl
  | cons e rest ih =>
    obtain ⟨j, x⟩ := e
    rw [List.countP_cons, List.countP_cons, ih, List.filter_cons]
    by_cases here : j = k
    · subst here
      by_cases same : x = v
      · subst same
        have past : ¬ j + 1 ≤ j := by omega
        simp only [beq_self_eq_true, ↓reduceIte, List.map_cons, List.count_cons_self, Nat.le_refl,
          and_self, decide_true, past, false_and, decide_false, Bool.false_eq_true]
        omega
      · simp [same]
    · have apart : (j == k) = false := by simpa using here
      by_cases same : x = v
      · subst same
        have shift : k ≤ j ↔ k + 1 ≤ j := by omega
        simp only [apart, Bool.false_eq_true, ↓reduceIte, and_true, shift]
        omega
      · simp [apart, same]

theorem placesFrom_succ (p : Plan) (k : Nat) (v : VarId) :
    placesFrom p k v =
      (p.destroysAt k).count v + (p.handedAt k).count v + placesFrom p (k + 1) v := by
  simp only [placesFrom, List.countP_append, placesFrom_split p.destroys k,
    placesFrom_split p.handed k, Plan.destroysAt, Plan.handedAt]
  omega

/-- What stays the same while a block is followed: the block with its steps, what it owns,
and a plan that places it. -/
structure Counting (vs : Variables) (block : Block) (keep handed : List VarId) (start : Scan)
    (steps : List Step) (last : Scan) (own : List VarId) (p : Plan) : Prop where
  described : Described vs
  blank : AtStart start
  scanned : scanBlock vs 0 start block = .ok (steps, last)
  placed : Placement vs steps last own p
  once : own.Nodup
  mem_own : ∀ v, v ∈ own ↔ (v ∈ handed ∨ ∃ k, (v, k) ∈ last.written) ∧ v ∉ keep ∧
    v ∉ last.movedHere ∧ isTrivial vs v = false
  inside : ∀ v ∈ own, v < vs.size

section Counting

variable {vs : Variables} {block : Block} {keep handed : List VarId} {start last : Scan}
  {steps : List Step} {own : List VarId} {p : Plan}

/-- A variable has got a value before a position. -/
def Introduced (handed : List VarId) (last : Scan) (k : Nat) (v : VarId) : Prop :=
  v ∈ handed ∨ ∃ j < k, (v, j) ∈ last.written

theorem Counting.own_of_place (c : Counting vs block keep handed start steps last own p)
    {e : Nat × VarId} (member : e ∈ p.destroys ++ p.handed) : e.2 ∈ own := by
  rw [← c.placed.each.mem_iff, ← List.map_append]
  exact List.mem_map_of_mem member

theorem Counting.place_of_own (c : Counting vs block keep handed start steps last own p)
    {v : VarId} (mine : v ∈ own) : ∃ k, (k, v) ∈ p.destroys ++ p.handed := by
  rw [← c.placed.each.mem_iff, ← List.map_append] at mine
  obtain ⟨⟨k, _⟩, member, rfl⟩ := List.mem_map.mp mine
  exact ⟨k, member⟩

theorem Counting.placesFrom_zero (c : Counting vs block keep handed start steps last own p)
    {v : VarId} (mine : v ∈ own) : placesFrom p 0 v = 1 := by
  have total : placesFrom p 0 v = (p.destroys.map (·.2) ++ p.handed.map (·.2)).count v := by
    simp only [placesFrom, Nat.zero_le, true_and, ← List.map_append, List.count,
      List.countP_map]
    congr 1
  rw [total, c.placed.each.count_eq]
  simp [c.once.count, mine]

/-- A used variable has no place up to where it is used, except in branches there. -/
theorem Counting.place_after_use (c : Counting vs block keep handed start steps last own p)
    {v : VarId} {k j : Nat} (used : UsedAt steps v k) (place : (j, v) ∈ p.destroys ++ p.handed) :
    k < j ∨ k ≤ j ∧ (j, v) ∈ p.handed := by
  rcases List.mem_append.mp place with destroyed | left
  · exact Or.inl ((c.placed.destroyed _ destroyed).unused k used)
  · exact Or.inr ⟨(c.placed.left _ left).unused k used, left⟩

/-- An owned variable has one place. -/
theorem Counting.place_unique (c : Counting vs block keep handed start steps last own p) {v : VarId} {j k : Nat}
    (first : (j, v) ∈ p.destroys ++ p.handed) (second : (k, v) ∈ p.destroys ++ p.handed) : j = k := by
  have whole := c.placed.each.nodup_iff.mpr c.once
  rw [← List.map_append] at whole
  exact congrArg Prod.fst (List.inj_on_of_nodup_map whole first second rfl)

/-- Destroys at one position are of different variables, each before its description. -/
theorem Counting.destroysAt_ordered (c : Counting vs block keep handed start steps last own p) (k : Nat) :
    (p.destroysAt k).Nodup ∧ (p.destroysAt k).Pairwise fun a b => describedBy? vs b ≠ some a := by
  have places : (p.destroys.map (·.2)).Nodup :=
    (List.nodup_append.mp (c.placed.each.nodup_iff.mpr c.once)).1
  refine ⟨(List.filter_sublist.map _).nodup places, ?_⟩
  obtain ⟨values, descriptions, split, value, description⟩ := c.placed.ordered
  have all : p.destroys.Pairwise fun a b => describedBy? vs b.2 ≠ some a.2 := by
    -- either the earlier one is a value, or the later one is a description
    have pair : ∀ a b : Nat × VarId, isWitness vs a.2 = false ∨ isWitness vs b.2 = true →
        describedBy? vs b.2 ≠ some a.2 := by
      rintro a b (value | description) describes
      · rw [c.described _ _ describes] at value
        cases value
      · rw [describedBy?_of_isWitness description] at describes
        cases describes
    rw [split, List.pairwise_append]
    refine ⟨?_, ?_, ?_⟩
    · exact List.pairwise_of_forall_mem_list fun a member b _ => pair a b (Or.inl (value a member))
    · exact List.pairwise_of_forall_mem_list fun a _ b member => pair a b (Or.inr (description b member))
    · exact fun a member b _ => pair a b (Or.inl (value a member))
  exact List.pairwise_map.mpr (all.sublist List.filter_sublist)

/-- What is destroyed before a position has got a value before it. -/
theorem Counting.introduced_of_destroyed
    (c : Counting vs block keep handed start steps last own p) {v : VarId} {k : Nat}
    (destroyed : (k, v) ∈ p.destroys) : Introduced handed last k v := by
  have mine := c.own_of_place (List.mem_append_left _ destroyed)
  rcases ((c.mem_own v).mp mine).1 with given | ⟨j, written⟩
  · exact Or.inl given
  · exact Or.inr ⟨j, (c.placed.destroyed _ destroyed).written j written, written⟩

/-- What is used at a position has got a value before it. -/
theorem Counting.introduced_of_used
    (c : Counting vs block keep handed start steps last own p) {v : VarId} {k : Nat}
    (mine : v ∈ own) (used : UsedAt steps v k) : Introduced handed last k v := by
  rcases ((c.mem_own v).mp mine).1 with given | ⟨j, written⟩
  · exact Or.inl given
  · obtain ⟨writer, writes, written'⟩ := (written_at c.scanned c.blank).mp written
    obtain ⟨user, uses, used⟩ := used
    exact Or.inr ⟨j, written_before_used c.scanned writes uses written' used, written⟩

/-- An owned variable that a branch takes away is left to the branches there. -/
theorem Counting.handed_of_taken (c : Counting vs block keep handed start steps last own p)
    {v : VarId} {k : Nat} {step : Step} {outer : OuterUsage} (mine : v ∈ own)
    (found : steps[k]? = some step) (outside : branchUsage? vs step.instr = some outer)
    (taken : v ∈ outer.moves) : (k, v) ∈ p.handed := by
  obtain ⟨j, place⟩ := c.place_of_own mine
  rcases List.mem_append.mp place with destroyed | left
  · exact absurd taken ((c.placed.destroyed _ destroyed).untaken k step outer found outside)
  · obtain ⟨⟨inner, at_, used⟩, greatest⟩ := c.placed.left _ left
    obtain ⟨-, -, outer', outside', branch⟩ := step_at c.scanned found
    rw [outside] at outside'
    obtain rfl := Option.some.inj outside'
    have usedHere : UsedAt steps v k :=
      ⟨step, found, by simp [Step.uses, branch, branchUsage?_moves outside taken]⟩
    have before := used_before_taken c.scanned found at_ outside taken
      (by simp only [Step.uses, List.mem_append]; exact Or.inr used)
    obtain rfl : j = k := Nat.le_antisymm before (greatest k usedHere)
    exact left

/-- What is known before the instruction at a position: `known` was written before, and
`gone` is consumed. -/
structure Following (c : Counting vs block keep handed start steps last own p) (k : Nat)
    (s : Scan) (rest : Block) (tail : List Step) (known gone : List VarId) : Prop where
  scanned : scanBlock vs k s rest = .ok (tail, last)
  position : ∃ before, steps = before ++ tail ∧ before.length = k
  sound : Sound vs rest
  fresh : Unwritten known rest
  live : ∀ v ∈ s.live, v ∈ known
  movedHere : ∀ v ∈ s.movedHere, v ∈ known
  consumed : ∀ v ∈ gone, v ∈ known
  introduced : ∀ v ∈ own, Introduced handed last k v → v ∈ known
  /-- Owned variables are gone only if their place has been passed. -/
  passed : ∀ v ∈ own, v ∈ gone → ∃ j < k, (j, v) ∈ p.destroys ++ p.handed
  /-- Other variables are still there if they are used again. -/
  others : ∀ v ∈ s.live, v ∉ own → v ∈ blockUses vs rest → v ∉ gone
  /-- The description of an owned value is there, too. -/
  descriptions : ∀ v ∈ own, Introduced handed last k v → ∀ w, describedBy? vs v = some w →
    w ∈ s.live ∧ (w ∉ own → w ∉ gone)

/-- The destroys at a position touch nothing that is gone. -/
theorem Following.clean_destroys {c : Counting vs block keep handed start steps last own p}
    {k : Nat} {s : Scan} {rest : Block} {tail : List Step} {known gone : List VarId}
    (f : Following c k s rest tail known gone) :
    Clean vs gone ((p.destroysAt k).map Instr.destroy) := by
  obtain ⟨once, ordered⟩ := c.destroysAt_ordered k
  refine Ownership.clean_destroys once ordered fun v member => ?_
  have destroyed := mem_destroysAt.mp member
  have mine := c.own_of_place (List.mem_append_left _ destroyed)
  refine ⟨c.inside v mine, fun lost => ?_, fun w describes lost => ?_⟩
  · obtain ⟨j, before, place⟩ := f.passed v mine lost
    have := c.place_unique place (List.mem_append_left _ destroyed)
    omega
  · obtain ⟨-, safe⟩ := f.descriptions v mine (c.introduced_of_destroyed destroyed) w describes
    by_cases theirs : w ∈ own
    · obtain ⟨j, before, place⟩ := f.passed w theirs lost
      have := c.placed.outlives _ destroyed _ place (c.described v w describes) describes
      omega
    · exact safe theirs lost

theorem Following.known_of_destroyed {c : Counting vs block keep handed start steps last own p}
    {k : Nat} {s : Scan} {rest : Block} {tail : List Step} {known gone : List VarId}
    (f : Following c k s rest tail known gone) {v : VarId} (member : v ∈ p.destroysAt k) :
    v ∈ own ∧ v ∈ known := by
  have destroyed := mem_destroysAt.mp member
  have mine := c.own_of_place (List.mem_append_left _ destroyed)
  exact ⟨mine, f.introduced v mine (c.introduced_of_destroyed destroyed)⟩

theorem Following.at_position {c : Counting vs block keep handed start steps last own p}
    {k : Nat} {s : Scan} {rest : Block} {step : Step} {tail : List Step} {known gone : List VarId}
    (f : Following c k s rest (step :: tail) known gone) : steps[k]? = some step := by
  obtain ⟨before, rfl, rfl⟩ := f.position
  simp

/-- What an instruction uses is still there when it comes to it. -/
theorem Following.present {c : Counting vs block keep handed start steps last own p}
    {k : Nat} {s s' : Scan} {i : Instr} {rest : Block} {outer : OuterUsage} {step : Step}
    {tail : List Step} {known gone : List VarId}
    (f : Following c k s (i :: rest) (step :: tail) known gone)
    (here : Scanned vs k s i outer step s') {v : VarId} (used : v ∈ step.uses)
    (inside : v ∈ blockUses vs (i :: rest)) : v ∉ p.destroysAt k ++ gone := by
  have usedAt : UsedAt steps v k := ⟨step, f.at_position, used⟩
  rw [List.mem_append, not_or]
  by_cases mine : v ∈ own
  · refine ⟨fun destroyed => ?_, fun lost => ?_⟩
    · have := (c.placed.destroyed _ (mem_destroysAt.mp destroyed)).unused k usedAt
      omega
    · obtain ⟨j, before, place⟩ := f.passed v mine lost
      have := c.place_after_use usedAt place
      omega
  · exact ⟨fun destroyed => mine (f.known_of_destroyed destroyed).1,
      f.others v (here.ready v used).1 mine inside⟩

/-- What the way through one instruction does: `path` is met and `writes` is written. -/
structure Passed (c : Counting vs block keep handed start steps last own p) (k : Nat) (s : Scan)
    (i : Instr) (outer : OuterUsage) (step : Step) (known gone : List VarId) (path : List Instr)
    (writes : List VarId) : Prop where
  clean : Clean vs (p.destroysAt k ++ gone) path
  places : ∀ v ∈ own, (spent path).count v = (p.handedAt k).count v
  origin : ∀ v ∈ spent path,
    v ∈ own ∨ v ∈ writes ∨ v ∈ s.live ∧ (v ∈ step.usage.moves ∨ v ∈ outer.moves)
  result : ∀ v ∈ step.usage.writes, v ∈ writes ∧ v ∉ spent path
  inner : ∀ v ∈ writes, v ∉ step.usage.writes → v ∉ keep → isTrivial vs v = false →
    (spent path).count v = 1
  moves : ∀ v ∈ step.usage.moves, (spent path).count v = 1
  kept : ∀ v ∈ keep, v ∈ spent path → v ∈ blockMoves [i]
  destroys : ∀ v, Instr.destroy v ∈ path → v ∈ own ∨ v ∈ writes ∧ v ∉ keep
  mentions : ∀ j ∈ path, ∀ v ∈ j.operands, v ∈ known ∨ v ∈ writes

section Step

variable {c : Counting vs block keep handed start steps last own p} {k : Nat} {s s' : Scan}
  {i : Instr} {rest : Block} {outer : OuterUsage} {step : Step} {tail : List Step}
  {known gone writes : List VarId} {path : List Instr}

theorem mem_blockMoves_of_moves {v : VarId} (here : Scanned vs k s i outer step s')
    (moved : v ∈ step.usage.moves ∨ v ∈ outer.moves) : v ∈ blockMoves (i :: rest) := by
  rcases moved with own | inner
  · rw [(usage?_eq_some here.usage).2.1] at own
    simp only [blockMoves, flattenAll_cons, List.flatMap_append, List.mem_append]
    exact Or.inl (List.mem_flatMap.mpr ⟨i, mem_flatten_self i, own⟩)
  · exact mem_blockMoves_of_branchMoves (List.mem_cons_self ..) here.outside inner

/-- What is consumed on the way and still counts as holding a value is owned. -/
theorem Passed.own_of_live (d : Passed c k s i outer step known gone path writes)
    (f : Following c k s (i :: rest) (step :: tail) known gone)
    (here : Scanned vs k s i outer step s') (apart : ∀ v ∈ writes, v ∉ known) {v : VarId}
    (live : v ∈ s'.live) (lost : v ∈ spent path) : v ∈ own := by
  rcases (here.live v).mp live with written | ⟨before, unmoved, untaken⟩
  · exact absurd lost (d.result v written).2
  · rcases d.origin v lost with mine | written | ⟨-, moved | taken⟩
    · exact mine
    · exact absurd (f.live v before) (apart v written)
    · exact absurd moved unmoved
    · exact absurd taken untaken

/-- The way goes on behind the instruction. -/
theorem Passed.next (d : Passed c k s i outer step known gone path writes)
    (f : Following c k s (i :: rest) (step :: tail) known gone)
    (here : Scanned vs k s i outer step s') (onward : scanBlock vs (k + 1) s' rest = .ok (tail, last))
    (apart : ∀ v ∈ writes, v ∉ known) (fresh : Unwritten (known ++ writes) rest) :
    Following c (k + 1) s' rest tail (known ++ writes)
      (spent path ++ (p.destroysAt k ++ gone)) := by
  have liveKnown : ∀ v ∈ s'.live, v ∈ known ++ writes := by
    intro v live
    rcases (here.live v).mp live with written | ⟨before, -, -⟩
    · exact List.mem_append_right _ (d.result v written).1
    · exact List.mem_append_left _ (f.live v before)
  have stays : ∀ w, isWitness vs w = true → w ∈ s.live → w ∈ s'.live := by
    intro w witness live
    have unmoved : ∀ {x}, x ∈ step.usage.moves ∨ x ∈ outer.moves → isWitness vs x = false :=
      fun moved => f.sound.witnesses _ (mem_blockMoves_of_moves here moved)
    refine (here.live w).mpr (Or.inr ⟨live, fun moved => ?_, fun taken => ?_⟩)
    · rw [unmoved (Or.inl moved)] at witness
      cases witness
    · rw [unmoved (Or.inr taken)] at witness
      cases witness
  have before : ∀ v, Introduced handed last (k + 1) v →
      Introduced handed last k v ∨ v ∈ step.usage.writes := by
    rintro v (given | ⟨j, below, written⟩)
    · exact Or.inl (Or.inl given)
    · by_cases earlier : j < k
      · exact Or.inl (Or.inr ⟨j, earlier, written⟩)
      · obtain rfl : j = k := by omega
        obtain ⟨writer, at_, written⟩ := (written_at c.scanned c.blank).mp written
        rw [f.at_position] at at_
        obtain rfl := Option.some.inj at_
        exact Or.inr written
  have usesOf : ∀ v ∈ step.usage.reads ++ step.usage.moves, v ∈ blockUses vs (i :: rest) := by
    intro v used
    simp only [blockUses, flattenAll_cons, List.flatMap_append, List.mem_append]
    exact Or.inl (List.mem_flatMap.mpr ⟨i, mem_flatten_self i, by simpa [uses, here.usage] using used⟩)
  refine ⟨onward, ?_, f.sound.tail, fresh, liveKnown, ?_, ?_, ?_, ?_, ?_, ?_⟩
  · obtain ⟨front, rfl, rfl⟩ := f.position
    exact ⟨front ++ [step], by simp, by simp⟩
  · intro v moved
    rcases (here.movedHere v).mp moved with before | own
    · exact List.mem_append_left _ (f.movedHere v before)
    · exact List.mem_append_left _ (f.live v (here.ready v (by simp [Step.uses, own])).1)
  · intro v lost
    simp only [List.mem_append] at lost
    rcases lost with lost | destroyed | lost
    · rcases d.origin v lost with mine | written | ⟨live, -⟩
      · have handedHere : v ∈ p.handedAt k := by
          have := d.places v mine
          rw [← List.count_pos_iff, ← this, List.count_pos_iff]
          exact lost
        obtain ⟨⟨inner, at_, used⟩, -⟩ := c.placed.left _ (mem_handedAt.mp handedHere)
        rw [f.at_position] at at_
        obtain rfl := Option.some.inj at_
        exact List.mem_append_left _ (f.live v (here.ready v (by simp [Step.uses, used])).1)
      · exact List.mem_append_right _ written
      · exact List.mem_append_left _ (f.live v live)
    · exact List.mem_append_left _ (f.known_of_destroyed destroyed).2
    · exact List.mem_append_left _ (f.consumed v lost)
  · intro v mine introduced
    rcases before v introduced with earlier | written
    · exact List.mem_append_left _ (f.introduced v mine earlier)
    · exact List.mem_append_right _ (d.result v written).1
  · intro v mine lost
    simp only [List.mem_append] at lost
    rcases lost with lost | destroyed | lost
    · have handedHere : v ∈ p.handedAt k := by
        have := d.places v mine
        rw [← List.count_pos_iff, ← this, List.count_pos_iff]
        exact lost
      exact ⟨k, Nat.lt_succ_self k, List.mem_append_right _ (mem_handedAt.mp handedHere)⟩
    · exact ⟨k, Nat.lt_succ_self k, List.mem_append_left _ (mem_destroysAt.mp destroyed)⟩
    · obtain ⟨j, below, place⟩ := f.passed v mine lost
      exact ⟨j, by omega, place⟩
  · intro v live other used
    simp only [List.mem_append, not_or]
    refine ⟨fun lost => other (d.own_of_live f here apart live lost),
      fun destroyed => other (f.known_of_destroyed destroyed).1, fun lost => ?_⟩
    rcases (here.live v).mp live with written | ⟨before, -, -⟩
    · exact apart v (d.result v written).1 (f.consumed v lost)
    · exact f.others v before other (mem_blockUses_of_mem_rest used) lost
  · intro v mine introduced w describes
    have witness := c.described v w describes
    have atWrite : v ∈ step.usage.writes → w ∈ step.usage.reads := by
      intro written
      obtain ⟨writes, -, reads, -⟩ := usage?_eq_some here.usage
      rw [reads]
      refine List.mem_append_right _ (List.mem_filterMap.mpr ⟨v, ?_, describes⟩)
      simp [← writes, written]
    have there : w ∈ s.live ∧ (w ∉ own → w ∉ gone) := by
      rcases before v introduced with earlier | written
      · exact f.descriptions v mine earlier w describes
      · have read := atWrite written
        have live := (here.ready w (by simp [Step.uses, read])).1
        exact ⟨live, fun other => f.others w live other (usesOf w (by simp [read]))⟩
    have live' := stays w witness there.1
    refine ⟨live', fun other => ?_⟩
    simp only [List.mem_append, not_or]
    exact ⟨fun lost => other (d.own_of_live f here apart live' lost),
      fun destroyed => other (f.known_of_destroyed destroyed).1, there.2 other⟩

/-- What a step uses held a value before the block, or is written in it. -/
theorem used_known (scanned : scanBlock vs k s rest = .ok (tail, s')) {v : VarId} {user : Step}
    (member : user ∈ tail) (used : v ∈ user.uses) : v ∈ s.live ∨ v ∈ blockWrites rest := by
  induction rest generalizing k s tail with
  | nil =>
    rw [(scanBlock_nil scanned).1] at member
    cases member
  | cons i rest ih =>
    obtain ⟨outer, step, s₁, tail, here, onward, rfl⟩ := scanBlock_cons scanned
    have deeper : ∀ {x}, x ∈ blockWrites rest → x ∈ blockWrites (i :: rest) := by
      intro x written
      simp only [blockWrites, flattenAll_cons, List.flatMap_append, List.mem_append]
      exact Or.inr written
    rcases List.mem_cons.mp member with rfl | later
    · exact Or.inl (here.ready v used).1
    · rcases ih onward later with live | written
      · rcases (here.live v).mp live with written | ⟨live, -, -⟩
        · rw [(usage?_eq_some here.usage).1] at written
          refine Or.inr ?_
          simp only [blockWrites, flattenAll_cons, List.flatMap_append, List.mem_append]
          exact Or.inl (List.mem_flatMap.mpr ⟨i, mem_flatten_self i, written⟩)
        · exact Or.inl live
      · exact Or.inr (deeper written)

/-- What a route from a position to the end of a counted block does. -/
structure Followed (c : Counting vs block keep handed start steps last own p) (k : Nat)
    (s : Scan) (rest : Block) (tail : List Step) (known gone : List VarId) (path : List Instr)
    (writes : List VarId) : Prop where
  original : ∃ path', Route rest path' writes
  clean : Clean vs gone path
  places : ∀ v ∈ own, (spent path).count v = placesFrom p k v
  moves : ∀ step ∈ tail, ∀ v ∈ step.usage.moves, (spent path).count v = 1
  inner : ∀ v ∈ writes, v ∉ own → (∀ step ∈ tail, v ∉ step.usage.moves) → v ∉ keep →
    isTrivial vs v = false → (spent path).count v = 1
  origin : ∀ v ∈ spent path, v ∈ own ∨ v ∈ writes ∨ v ∈ s.live ∧ v ∈ blockMoves rest
  kept : ∀ v ∈ keep, v ∈ spent path → v ∈ blockMoves rest
  destroys : ∀ v, Instr.destroy v ∈ path → v ∈ own ∨ v ∈ writes ∧ v ∉ keep
  mentions : ∀ i ∈ path, ∀ v ∈ i.operands, v ∈ known ∨ v ∈ writes

/-- At the end only the last destroys are left. -/
theorem Following.finish (f : Following c k s [] [] known gone) :
    Followed c k s [] [] known gone ((p.destroysAt k).map Instr.destroy) [] := by
  have ended : steps.length = k := by
    obtain ⟨before, rfl, rfl⟩ := f.position
    simp
  have none_left : p.handedAt k = [] := by
    rw [List.eq_nil_iff_forall_not_mem]
    intro v member
    obtain ⟨⟨step, at_, -⟩, -⟩ := c.placed.left _ (mem_handedAt.mp member)
    have := (List.getElem?_eq_some_iff.mp at_).1
    omega
  have none_behind : ∀ v, placesFrom p (k + 1) v = 0 := by
    intro v
    rw [placesFrom, List.countP_eq_zero]
    rintro ⟨j, x⟩ place
    simp only [decide_eq_true_eq, not_and]
    intro behind
    rcases List.mem_append.mp place with destroyed | left
    · have := (c.placed.destroyed _ destroyed).within
      omega
    · obtain ⟨⟨step, at_, -⟩, -⟩ := c.placed.left _ left
      have := (List.getElem?_eq_some_iff.mp at_).1
      omega
  refine ⟨⟨[], .nil⟩, f.clean_destroys, fun v mine => ?_, by simp, by simp, fun v lost => ?_,
    fun v kept lost => ?_, fun v destroyed => ?_, fun i member v mentioned => ?_⟩
  · rw [placesFrom_succ, none_left, none_behind]
    simp
  · exact Or.inl (f.known_of_destroyed (by simpa using lost)).1
  · have mine := (f.known_of_destroyed (by simpa using lost)).1
    exact absurd kept ((c.mem_own v).mp mine).2.1
  · exact Or.inl (f.known_of_destroyed (by simpa using destroyed)).1
  · obtain ⟨x, destroyed, rfl⟩ := List.mem_map.mp member
    obtain rfl : v = x := by simpa [Instr.operands] using mentioned
    exact Or.inl (f.known_of_destroyed destroyed).2

section Followed

variable {path' : List Instr} {writes' : List VarId} (d : Passed c k s i outer step known gone path writes)
  (f : Following c k s (i :: rest) (step :: tail) known gone) (here : Scanned vs k s i outer step s')
  (onward : scanBlock vs (k + 1) s' rest = .ok (tail, last)) (apart : ∀ v ∈ writes, v ∉ known)
  (fresh : Unwritten (known ++ writes) rest)
  (e : Followed c (k + 1) s' rest tail (known ++ writes) (spent path ++ (p.destroysAt k ++ gone)) path' writes')

theorem count_spent_through (v : VarId) : (spent ((p.destroysAt k).map Instr.destroy ++ (path ++ path'))).count v =
    (p.destroysAt k).count v + ((spent path).count v + (spent path').count v) := by
  simp only [spent_append, spent_destroys, List.count_append]

include f in
theorem Following.not_destroyed {v : VarId} (other : v ∉ own) : (p.destroysAt k).count v = 0 :=
  List.count_eq_zero.mpr fun destroyed => other (f.known_of_destroyed destroyed).1

include f in
theorem Following.not_own {st : Step} (member : st ∈ step :: tail) {v : VarId} (moved : v ∈ st.usage.moves) :
    v ∉ own := by
  intro mine
  have stMember : st ∈ steps := by
    obtain ⟨front, rfl, -⟩ := f.position
    exact List.mem_append_right _ member
  exact ((c.mem_own v).mp mine).2.2.1 ((mem_movedHere c.scanned).mpr (Or.inr ⟨st, stMember, moved⟩))

include d f here onward apart fresh

/-- What an instruction consumed is not touched behind it. -/
theorem Passed.knownLost {v : VarId} (lost : v ∈ spent path) : v ∈ known ++ writes :=
  (d.next f here onward apart fresh).consumed v (List.mem_append_left _ lost)

include e

theorem Passed.followed_moves {st : Step} (member : st ∈ step :: tail) {v : VarId} (moved : v ∈ st.usage.moves) :
    (spent ((p.destroysAt k).map Instr.destroy ++ (path ++ path'))).count v = 1 := by
  obtain ⟨beyond, behind⟩ := e.original
  have other := f.not_own member moved
  rw [count_spent_through, f.not_destroyed other]
  rcases List.mem_cons.mp member with rfl | later'
  · have gone' : (spent path').count v = 0 := by
      refine List.count_eq_zero.mpr fun lost => ?_
      have live := (here.ready v (by simp [Step.uses, moved])).1
      rcases e.origin v lost with mine | written | ⟨live', -⟩
      · exact other mine
      · exact (fresh beyond writes' behind).2 v written (List.mem_append_left _ (f.live v live))
      · rcases (here.live v).mp live' with written | ⟨-, unmoved, -⟩
        · exact (here.fresh v written).1 live
        · exact unmoved moved
    rw [d.moves v moved, gone']
  · have before : (spent path).count v = 0 := by
      refine List.count_eq_zero.mpr fun lost => ?_
      have used : v ∈ st.uses := by simp [Step.uses, moved]
      rcases used_known onward later' used with live | written
      · exact other (d.own_of_live f here apart live lost)
      · exact fresh.not_mem (d.knownLost f here onward apart fresh lost) written
    rw [before, e.moves st later' v moved]

theorem Passed.followed_inner {v : VarId} (written : v ∈ writes ++ writes') (other : v ∉ own)
    (unmoved : ∀ st ∈ step :: tail, v ∉ st.usage.moves) (unkept : v ∉ keep) (costly : isTrivial vs v = false) :
    (spent ((p.destroysAt k).map Instr.destroy ++ (path ++ path'))).count v = 1 := by
  obtain ⟨beyond, behind⟩ := e.original
  have later := (fresh beyond writes' behind).2
  rw [count_spent_through, f.not_destroyed other]
  rcases List.mem_append.mp written with here' | there
  · have result : v ∉ step.usage.writes := by
      -- the destination is owned, unless it is moved later in the block
      intro result
      have wrote : (v, k) ∈ last.written :=
        (written_at c.scanned c.blank).mpr ⟨step, f.at_position, result⟩
      refine other ((c.mem_own v).mpr ⟨Or.inr ⟨k, wrote⟩, unkept, fun movedHere => ?_, costly⟩)
      rcases (mem_movedHere f.scanned).mp movedHere with before | ⟨st, member, moved⟩
      · exact apart v here' (f.movedHere v before)
      · exact unmoved st member moved
    have behind' : (spent path').count v = 0 := by
      refine List.count_eq_zero.mpr fun lost => ?_
      rcases e.origin v lost with mine | again | ⟨live, -⟩
      · exact other mine
      · exact later v again (List.mem_append_right _ here')
      · rcases (here.live v).mp live with written | ⟨live, -, -⟩
        · exact result written
        · exact apart v here' (f.live v live)
    rw [d.inner v here' result unkept costly, behind']
  · have before : (spent path).count v = 0 :=
      List.count_eq_zero.mpr fun lost => later v there (d.knownLost f here onward apart fresh lost)
    rw [before, e.inner v there other
      (fun st member => unmoved st (List.mem_cons_of_mem _ member)) unkept costly]

/-- The way through an instruction, and on to the end. -/
theorem Passed.followed (original : ∃ whole, Route (i :: rest) whole (writes ++ writes')) :
    Followed c k s (i :: rest) (step :: tail) known gone
      ((p.destroysAt k).map Instr.destroy ++ (path ++ path')) (writes ++ writes') := by
  refine ⟨original, ?_, fun v mine => ?_, fun st member v => d.followed_moves f here onward apart fresh e member,
    fun v => d.followed_inner f here onward apart fresh e, ?_, ?_, ?_, ?_⟩
  · rw [clean_append, clean_append]
    refine ⟨f.clean_destroys, ?_, ?_⟩
    · simpa using d.clean
    · simpa using e.clean
  · rw [count_spent_through, placesFrom_succ, d.places v mine, e.places v mine]
    omega
  · intro v lost
    simp only [spent_append, spent_destroys, List.mem_append] at lost
    rcases lost with destroyed | lost | lost
    · exact Or.inl (f.known_of_destroyed destroyed).1
    · rcases d.origin v lost with mine | written | ⟨live, moved⟩
      · exact Or.inl mine
      · exact Or.inr (Or.inl (List.mem_append_left _ written))
      · exact Or.inr (Or.inr ⟨live, mem_blockMoves_of_moves here moved⟩)
    · rcases e.origin v lost with mine | written | ⟨live, moved⟩
      · exact Or.inl mine
      · exact Or.inr (Or.inl (List.mem_append_right _ written))
      · rcases (here.live v).mp live with written | ⟨live, -, -⟩
        · exact Or.inr (Or.inl (List.mem_append_left _ (d.result v written).1))
        · exact Or.inr (Or.inr ⟨live, mem_blockMoves_of_mem_rest moved⟩)
  · intro v kept lost
    simp only [spent_append, spent_destroys, List.mem_append] at lost
    rcases lost with destroyed | lost | lost
    · exact absurd kept ((c.mem_own v).mp (f.known_of_destroyed destroyed).1).2.1
    · have moved := d.kept v kept lost
      simp only [blockMoves, flattenAll_cons, List.flatMap_append, List.mem_append] at moved ⊢
      exact moved.imp id fun impossible => by simp [Instr.flattenAll] at impossible
    · exact mem_blockMoves_of_mem_rest (e.kept v kept lost)
  · intro v member
    simp only [List.mem_append, List.mem_map] at member
    rcases member with ⟨x, destroyed, same⟩ | member | member
    · obtain rfl := Instr.destroy.inj same
      exact Or.inl (f.known_of_destroyed destroyed).1
    · exact (d.destroys v member).imp id (And.imp_left (List.mem_append_left _))
    · exact (e.destroys v member).imp id (And.imp_left (List.mem_append_right _))
  · intro j member v mentioned
    simp only [List.mem_append, List.mem_map] at member
    rcases member with ⟨x, destroyed, rfl⟩ | member | member
    · obtain rfl : v = x := by simpa [Instr.operands] using mentioned
      exact Or.inl (f.known_of_destroyed destroyed).2
    · exact (d.mentions j member v mentioned).imp id (List.mem_append_left _)
    · rcases e.mentions j member v mentioned with known' | written
      · rcases List.mem_append.mp known' with before | written
        · exact Or.inl before
        · exact Or.inr (List.mem_append_left _ written)
      · exact Or.inr (List.mem_append_right _ written)

end Followed

/-- What an instruction writes is new. -/
theorem fresh_of_writes (f : Following c k s (i :: rest) tail known gone)
    (plain : branches i = false) :
    (directUsage i).writes.Nodup ∧ ∀ v ∈ (directUsage i).writes, v ∉ known := by
  obtain ⟨path, writes, onward⟩ := exists_route rest
  obtain ⟨once, apart⟩ := f.fresh _ _ (.step plain onward)
  exact ⟨(List.nodup_append.mp once).1,
    fun v written => apart v (List.mem_append_left _ written)⟩

/-- The way through an instruction without branches is the instruction. -/
theorem Following.passed_plain (f : Following c k s (i :: rest) (step :: tail) known gone)
    (here : Scanned vs k s i outer step s') (plain : branches i = false) :
    Passed c k s i outer step known gone [i] (directUsage i).writes := by
  obtain ⟨writes, moves, reads, inside⟩ := usage?_eq_some here.usage
  have quiet := branchUsage?_plain plain here.outside
  have consumes : spent [i] = step.usage.moves := by simp [consumed_eq_moves, moves]
  have live : ∀ v ∈ step.usage.moves, v ∈ s.live :=
    fun v moved => (here.ready v (by simp [Step.uses, moved])).1
  have apart := (fresh_of_writes f plain).2
  have notOwn : ∀ v ∈ step.usage.moves, v ∉ own := by
    intro v moved mine
    obtain ⟨front, split, -⟩ := f.position
    have member : step ∈ steps := by simp [split]
    exact ((c.mem_own v).mp mine).2.2.1 ((mem_movedHere c.scanned).mpr (Or.inr ⟨step, member, moved⟩))
  have noneHanded : p.handedAt k = [] := by
    rw [List.eq_nil_iff_forall_not_mem]
    intro v member
    obtain ⟨⟨inner, at_, used⟩, -⟩ := c.placed.left _ (mem_handedAt.mp member)
    rw [f.at_position] at at_
    obtain rfl := Option.some.inj at_
    rw [here.branch, quiet] at used
    cases used
  have usedBelow : ∀ v ∈ step.usage.reads ++ step.usage.moves, v ∉ p.destroysAt k ++ gone := by
    intro v used
    refine f.present here (by simp only [Step.uses, List.mem_append]; exact Or.inl (List.mem_append.mp used)) ?_
    rw [mem_blockUses_plain plain]
    exact Or.inl (by simpa [uses, here.usage] using used)
  have knownGone : ∀ v ∈ p.destroysAt k ++ gone, v ∈ known := by
    intro v lost
    rcases List.mem_append.mp lost with destroyed | lost
    · exact (f.known_of_destroyed destroyed).2
    · exact f.consumed v lost
  refine ⟨⟨fun v mentioned => ?_, trivial⟩, fun v mine => ?_, fun v lost => ?_, fun v written => ?_,
    fun v written result => ?_, fun v moved => ?_, fun v _ lost => ?_, fun v member => ?_,
    fun j member v mentioned => ?_⟩
  · have touched := mem_operands mentioned
    refine ⟨inside v touched, ?_, fun w describes => ?_⟩
    · simp only [List.mem_append] at touched
      rcases touched with (written | read) | moved
      · exact fun lost => apart v written (knownGone v lost)
      · exact usedBelow v (by simp [reads, read])
      · exact usedBelow v (by simp [moves, moved])
    · refine usedBelow w ?_
      rw [reads]
      exact List.mem_append_left _
        (List.mem_append_right _ (List.mem_filterMap.mpr ⟨v, touched, describes⟩))
  · rw [consumes, noneHanded]
    simpa using List.count_eq_zero.mpr fun moved => notOwn v moved mine
  · rw [consumes] at lost
    exact Or.inr (Or.inr ⟨live v lost, Or.inl lost⟩)
  · rw [consumes]
    exact ⟨writes ▸ written, fun moved => (here.fresh v written).1 (live v moved)⟩
  · exact absurd (writes ▸ written) result
  · rw [consumes]
    simp [here.movesOnce.count, moved]
  · rw [consumes, moves] at lost
    exact (mem_blockMoves_plain plain).mpr (Or.inl lost)
  · obtain rfl := List.mem_singleton.mp member
    refine absurd ?_ (f.sound.intact v)
    rw [flattenAll_cons]
    exact List.mem_append_left _ (mem_flatten_self _)
  · obtain rfl := List.mem_singleton.mp member
    have touched := mem_operands mentioned
    simp only [List.mem_append] at touched
    rcases touched with (written | read) | moved
    · exact Or.inr written
    · exact Or.inl (f.live v (here.ready v (by simp [Step.uses, reads, read])).1)
    · exact Or.inl (f.live v (live v (moves ▸ moved)))

end Step

end Counting

end WitnessLang.Ownership
