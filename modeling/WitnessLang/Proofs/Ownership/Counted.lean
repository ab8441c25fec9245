import WitnessLang.Proofs.Ownership.Scan
import WitnessLang.Proofs.Ownership.Usage
import WitnessLang.Proofs.Run

set_option autoImplicit false

namespace WitnessLang.Ownership

open Ir

/-- The variables that a block has to see to their end. -/
def owned (vs : Variables) (s : Scan) (keep handed : List VarId) : List VarId :=
  (handed ++ s.written.map (·.1)).filter fun v =>
    !keep.contains v && !s.movedHere.contains v && !isTrivial vs v

theorem mem_owned {vs : Variables} {s : Scan} {keep handed : List VarId} {v : VarId} :
    v ∈ owned vs s keep handed ↔
      (v ∈ handed ∨ ∃ k, (v, k) ∈ s.written) ∧ v ∉ keep ∧ v ∉ s.movedHere ∧
        isTrivial vs v = false := by
  simp only [owned, List.mem_filter, List.mem_append, List.mem_map, Prod.exists, exists_and_right,
    exists_eq_right, Bool.and_eq_true, Bool.not_eq_eq_eq_not, Bool.not_true, and_assoc]
  simp

/-- The instruction at a position uses a variable. -/
def UsedAt (steps : List Step) (v : VarId) (j : Nat) : Prop :=
  ∃ step, steps[j]? = some step ∧ v ∈ step.uses

/-- A variable may be destroyed right before a position: it was written before, it is not
used from there on, and no branch has taken its value. -/
structure EndsBefore (vs : Variables) (steps : List Step) (s : Scan) (v : VarId) (k : Nat) :
    Prop where
  within : k ≤ steps.length
  unused : ∀ j, UsedAt steps v j → j < k
  written : ∀ j, (v, j) ∈ s.written → j < k
  untaken : ∀ (j : Nat) (step : Step) outer, steps[j]? = some step → branchUsage? vs step.instr = some outer →
    v ∉ outer.moves

/-- A variable may be left to the branches at a position: they use it, and nothing behind
them does. -/
structure EndsInside (steps : List Step) (v : VarId) (k : Nat) : Prop where
  branch : ∃ step, steps[k]? = some step ∧ v ∈ step.branch
  unused : ∀ j, UsedAt steps v j → j ≤ k

theorem lastUse?_eq_none {v : VarId} {position : Nat} {steps : List Step}
    (none : lastUse? v position steps = none) (j : Nat) : ¬ UsedAt steps v j := by
  induction steps generalizing position j with
  | nil => simp [UsedAt]
  | cons step rest ih =>
    rw [lastUse?] at none
    split at none
    · cases none
    · rename_i later
      split at none
      · cases none
      · rename_i absent
        rintro ⟨user, found, used⟩
        cases j with
        | zero =>
          obtain rfl : step = user := by simpa using found
          simp [used] at absent
        | succ j => exact ih later j ⟨user, by simpa using found, used⟩

theorem lastUse?_eq_some {v : VarId} {position last : Nat} {steps : List Step}
    (some : lastUse? v position steps = some last) :
    ∃ k, last = position + k ∧ UsedAt steps v k ∧ ∀ j, UsedAt steps v j → j ≤ k := by
  induction steps generalizing position with
  | nil => simp [lastUse?] at some
  | cons step rest ih =>
    rw [lastUse?] at some
    split at some
    · rename_i later found
      obtain rfl := Option.some.inj some
      obtain ⟨k, rfl, ⟨user, at_, used⟩, greatest⟩ := ih found
      refine ⟨k + 1, by omega, ⟨user, by simpa using at_, used⟩, ?_⟩
      rintro j ⟨user', found', used'⟩
      cases j with
      | zero => omega
      | succ j => exact Nat.succ_le_succ (greatest j ⟨user', by simpa using found', used'⟩)
    · rename_i later
      split at some
      · rename_i here
        obtain rfl := Option.some.inj some
        refine ⟨0, rfl, ⟨step, rfl, by simpa using here⟩, ?_⟩
        rintro j ⟨user, found, used⟩
        cases j with
        | zero => exact Nat.le_refl 0
        | succ j => exact absurd ⟨user, by simpa using found, used⟩ (lastUse?_eq_none later j)
      · cases some

theorem branchUsage?_plain {vs : Variables} {i : Instr} {outer : OuterUsage}
    (plain : branches i = false) (known : branchUsage? vs i = some outer) : outer = ⟨[], []⟩ := by
  cases i with
  | cond => simp [branches] at plain
  | _ =>
    simp only [branchUsage?, Option.some.injEq] at known
    exact known.symm

/-- Branches use what they move. -/
theorem branchUsage?_moves {vs : Variables} {i : Instr} {outer : OuterUsage}
    (known : branchUsage? vs i = some outer) {v : VarId} (moved : v ∈ outer.moves) :
    v ∈ outer.uses := by
  have block : ∀ {b : Block} {o : OuterUsage}, outerUsage? vs b = some o → v ∈ o.moves →
      v ∈ o.uses := by
    intro b o known moved
    obtain ⟨inMoves, fresh⟩ := (outerUsage?_eq_some known v).2.mp moved
    refine (outerUsage?_eq_some known v).1.mpr ⟨?_, fresh⟩
    simp only [outerUsage?, Option.bind_eq_bind, Option.bind_eq_some_iff] at known
    obtain ⟨us, gathered, -⟩ := known
    exact blockUses_of_blockMoves gathered inMoves
  cases i with
  | cond dst test yes no =>
    simp only [branchUsage?, Option.bind_eq_bind, Option.bind_eq_some_iff, Option.pure_def,
      Option.some.injEq] at known
    obtain ⟨y, inYes, n, inNo, rfl⟩ := known
    simp only [mem_distinct, List.mem_append] at moved ⊢
    exact moved.imp (block inYes) (block inNo)
  | _ =>
    simp only [branchUsage?, Option.some.injEq] at known
    subst known
    cases moved

/-- What branches take away is moved in the block around them. -/
theorem mem_blockMoves_of_branchMoves {vs : Variables} {block : Block} {i : Instr}
    {outer : OuterUsage} {v : VarId} (member : i ∈ block)
    (known : branchUsage? vs i = some outer) (moved : v ∈ outer.moves) : v ∈ blockMoves block := by
  induction block with
  | nil => cases member
  | cons first rest ih =>
    rcases List.mem_cons.mp member with rfl | later
    · cases i with
      | cond dst test yes no =>
        simp only [branchUsage?, Option.bind_eq_bind, Option.bind_eq_some_iff, Option.pure_def,
          Option.some.injEq] at known
        obtain ⟨y, inYes, n, inNo, rfl⟩ := known
        simp only [mem_distinct, List.mem_append] at moved
        rw [mem_blockMoves_cond]
        rcases moved with moved | moved
        · exact Or.inl ((outerUsage?_eq_some inYes v).2.mp moved).1
        · exact Or.inr (Or.inl ((outerUsage?_eq_some inNo v).2.mp moved).1)
      | _ =>
        simp only [branchUsage?, Option.some.injEq] at known
        subst known
        cases moved
    · exact mem_blockMoves_of_mem_rest (ih later)

section Placing

variable {vs : Variables} {start s : Scan} {block : Block} {steps : List Step}

/-- What every block is scanned from: nothing is written or moved yet. -/
def AtStart (s : Scan) : Prop := s.moved = [] ∧ s.movedHere = [] ∧ s.written = []

theorem written_at (scanned : scanBlock vs 0 start block = .ok (steps, s)) (blank : AtStart start)
    {v : VarId} {k : Nat} :
    (v, k) ∈ s.written ↔ ∃ step, steps[k]? = some step ∧ v ∈ step.usage.writes := by
  rw [mem_written scanned, blank.2.2]
  constructor
  · rintro (impossible | ⟨j, step, found, rfl, written⟩)
    · cases impossible
    · exact ⟨step, by simpa using found, written⟩
  · rintro ⟨step, found, written⟩
    exact Or.inr ⟨k, step, found, by omega, written⟩

theorem written_once (scanned : scanBlock vs 0 start block = .ok (steps, s))
    (blank : AtStart start) : (s.written.map (·.1)).Nodup := by
  apply written_nodup scanned
  · simp [blank.2.2]
  · simp [blank.2.2]

theorem lookup_written (scanned : scanBlock vs 0 start block = .ok (steps, s))
    (blank : AtStart start) {v : VarId} {j : Nat} (member : (v, j) ∈ s.written) :
    s.written.lookup v = some j := by
  have once := written_once scanned blank
  generalize s.written = entries at member once
  induction entries with
  | nil => cases member
  | cons entry rest ih =>
    obtain ⟨x, k⟩ := entry
    simp only [List.map_cons, List.nodup_cons, List.mem_map, not_exists, not_and] at once
    rcases List.mem_cons.mp member with same | later
    · obtain ⟨rfl, rfl⟩ := Prod.mk.inj same
      simp
    · have other : (v == x) = false := by
        simpa using fun equal : v = x => once.1 (v, j) later equal
      rw [List.lookup_cons, other]
      exact ih later once.2

/-- A variable that nothing uses may be destroyed where it is dead. -/
theorem endsBefore_deadAt (scanned : scanBlock vs 0 start block = .ok (steps, s))
    (blank : AtStart start) {v : VarId} (unused : ∀ j, ¬ UsedAt steps v j) {k : Nat}
    (later : deadAt s v ≤ k) (within : k ≤ steps.length) : EndsBefore vs steps s v k where
  within := within
  unused j used := absurd used (unused j)
  written j member := by
    rw [deadAt, lookup_written scanned blank member] at later
    exact later
  untaken j step outer found known moved := by
    obtain ⟨-, -, outer', known', branch⟩ := step_at scanned found
    rw [known] at known'
    obtain rfl := Option.some.inj known'
    have used := branchUsage?_moves known moved
    exact unused j ⟨step, found, by simp [Step.uses, branch, used]⟩

/-- A variable may be destroyed behind its last use, unless that is in branches which may
have taken it. -/
theorem endsBefore_lastUse (scanned : scanBlock vs 0 start block = .ok (steps, s))
    (blank : AtStart start) {v : VarId} {last k : Nat} (used : UsedAt steps v last)
    (greatest : ∀ j, UsedAt steps v j → j ≤ last) (later : last < k) (within : k ≤ steps.length)
    (apart : (∃ step, steps[last]? = some step ∧ v ∉ step.branch) ∨ v ∉ blockMoves block) :
    EndsBefore vs steps s v k where
  within := within
  unused j used := Nat.lt_of_le_of_lt (greatest j used) later
  written j member := by
    obtain ⟨writer, writes, written⟩ := (written_at scanned blank).mp member
    obtain ⟨user, uses, used⟩ := used
    have := written_before_used scanned writes uses written used
    omega
  untaken j step outer found known moved := by
    obtain ⟨here, -, outer', known', branch⟩ := step_at scanned found
    rw [known] at known'
    obtain rfl := Option.some.inj known'
    have inBranch := branchUsage?_moves known moved
    rw [← branch] at inBranch
    have usedHere : UsedAt steps v j := ⟨step, found, by simp [Step.uses, inBranch]⟩
    rcases apart with ⟨lastStep, at_, outside⟩ | never
    · obtain ⟨user, uses, used⟩ := used
      have before := used_before_taken scanned found uses known moved used
      obtain rfl : j = last := Nat.le_antisymm (greatest j usedHere) before
      rw [found] at at_
      obtain rfl := Option.some.inj at_
      exact outside inBranch
    · exact never (mem_blockMoves_of_branchMoves (List.mem_of_getElem? here) known moved)

theorem deadAt_le (scanned : scanBlock vs 0 start block = .ok (steps, s)) (blank : AtStart start)
    (v : VarId) : deadAt s v ≤ steps.length := by
  rw [deadAt]
  split
  · rename_i k found
    obtain ⟨before, after, split, -⟩ := List.lookup_eq_some_iff.mp found
    have member : (v, k) ∈ s.written := by simp [split]
    obtain ⟨step, at_, -⟩ := (written_at scanned blank).mp member
    exact (List.getElem?_eq_some_iff.mp at_).1
  · exact Nat.zero_le _

theorem usedInBranch_eq_true {v : VarId} {k : Nat} (inside : usedInBranch steps v k = true) :
    ∃ step, steps[k]? = some step ∧ v ∈ step.branch := by
  rw [usedInBranch] at inside
  split at inside
  · rename_i step found
    exact ⟨step, found, by simpa using inside⟩
  · cases inside

/-- A value gets one place. -/
theorem planValue_place (scanned : scanBlock vs 0 start block = .ok (steps, s))
    (blank : AtStart start) (p : Plan) (v : VarId) :
    (∃ k, planValue steps s p v = p.destroy k v ∧ EndsBefore vs steps s v k) ∨
      ∃ k, planValue steps s p v = p.hand k v ∧ EndsInside steps v k := by
  rw [planValue]
  split
  · rename_i unused
    exact Or.inl ⟨_, rfl, endsBefore_deadAt scanned blank (lastUse?_eq_none unused)
      (Nat.le_refl _) (deadAt_le scanned blank v)⟩
  · rename_i last found
    obtain ⟨k, rfl, used, greatest⟩ := lastUse?_eq_some found
    rw [Nat.zero_add]
    split
    · rename_i inside
      exact Or.inr ⟨k, rfl, usedInBranch_eq_true inside, greatest⟩
    · rename_i outside
      refine Or.inl ⟨_, rfl, ?_⟩
      obtain ⟨step, at_, mine⟩ := used
      have apart : v ∉ step.branch := by simpa [usedInBranch, at_] using outside
      exact endsBefore_lastUse scanned blank ⟨step, at_, mine⟩ greatest (Nat.lt_succ_self k)
        (List.getElem?_eq_some_iff.mp at_).1 (Or.inl ⟨step, at_, apart⟩)

/-- A type description gets one place, behind every value that it describes. -/
theorem planWitness_place (scanned : scanBlock vs 0 start block = .ok (steps, s))
    (blank : AtStart start) (p : Plan) (w : VarId) (unmoved : w ∉ blockMoves block)
    (within : ∀ d ∈ p.destroys, d.1 ≤ steps.length) :
    (∃ k, planWitness vs steps s p w = p.destroy k w ∧ EndsBefore vs steps s w k ∧
        ∀ d ∈ p.destroys, describedBy? vs d.2 = some w → d.1 ≤ k) ∨
      ∃ k, planWitness vs steps s p w = p.hand k w ∧ EndsInside steps w k ∧
        ∀ d ∈ p.destroys, describedBy? vs d.2 = some w → d.1 ≤ k := by
  generalize named : (p.lastDescribed? vs w).getD 0 = described
  have above : ∀ d ∈ p.destroys, describedBy? vs d.2 = some w → d.1 ≤ described := by
    intro d member mine
    rw [← named, Plan.lastDescribed?]
    apply List.le_max?_getD_of_mem
    exact List.mem_map.mpr ⟨d, List.mem_filter.mpr ⟨member, by simpa using mine⟩, rfl⟩
  have below : described ≤ steps.length := by
    rw [← named, Plan.lastDescribed?]
    cases found : ((p.destroys.filter fun d => describedBy? vs d.2 == some w).map (·.1)).max? with
    | none => exact Nat.zero_le _
    | some k =>
      obtain ⟨d, member, rfl⟩ := List.mem_map.mp (List.max?_mem found)
      exact within d (List.mem_filter.mp member).1
  rw [planWitness]
  simp only [named]
  split
  · rename_i unused
    refine Or.inl ⟨_, rfl, ?_, fun d member mine => ?_⟩
    · exact endsBefore_deadAt scanned blank (lastUse?_eq_none unused) (Nat.le_max_left ..)
        (Nat.max_le.mpr ⟨deadAt_le scanned blank w, below⟩)
    · exact Nat.le_trans (above d member mine) (Nat.le_max_right ..)
  · rename_i last found
    obtain ⟨k, rfl, used, greatest⟩ := lastUse?_eq_some found
    rw [Nat.zero_add]
    split
    · rename_i inside
      simp only [Bool.and_eq_true, decide_eq_true_eq] at inside
      refine Or.inr ⟨k, rfl, ⟨usedInBranch_eq_true inside.1.1, greatest⟩, fun d member mine => ?_⟩
      exact Nat.le_trans (above d member mine) inside.1.2
    · refine Or.inl ⟨_, rfl, ?_, fun d member mine => ?_⟩
      · obtain ⟨step, at_, mine⟩ := used
        exact endsBefore_lastUse scanned blank ⟨step, at_, mine⟩ greatest
          (Nat.le_max_left ..) (Nat.max_le.mpr ⟨(List.getElem?_eq_some_iff.mp at_).1, below⟩)
          (Or.inr unmoved)
      · exact Nat.le_trans (above d member mine) (Nat.le_max_right ..)

/-- What planning some variables adds to a plan: one place for each of them. -/
structure Added (vs : Variables) (steps : List Step) (s : Scan) (vars : List VarId)
    (destroys handed : List (Nat × VarId)) : Prop where
  each : (destroys.map (·.2) ++ handed.map (·.2)).Perm vars
  destroyed : ∀ e ∈ destroys, EndsBefore vs steps s e.2 e.1
  left : ∀ e ∈ handed, EndsInside steps e.2 e.1

theorem Added.nil : Added vs steps s [] [] [] := ⟨.nil, by simp, by simp⟩

theorem Added.destroy {vars : List VarId} {destroys handed : List (Nat × VarId)} {v : VarId}
    {k : Nat} (ends : EndsBefore vs steps s v k) (added : Added vs steps s vars destroys handed) :
    Added vs steps s (v :: vars) ((k, v) :: destroys) handed :=
  ⟨added.each.cons v, List.forall_mem_cons.mpr ⟨ends, added.destroyed⟩, added.left⟩

theorem Added.hand {vars : List VarId} {destroys handed : List (Nat × VarId)} {v : VarId}
    {k : Nat} (ends : EndsInside steps v k) (added : Added vs steps s vars destroys handed) :
    Added vs steps s (v :: vars) destroys ((k, v) :: handed) :=
  ⟨List.perm_middle.trans (added.each.cons v), added.destroyed,
    List.forall_mem_cons.mpr ⟨ends, added.left⟩⟩

theorem foldl_planValue (scanned : scanBlock vs 0 start block = .ok (steps, s))
    (blank : AtStart start) (values : List VarId) (p : Plan) :
    ∃ destroys handed, Added vs steps s values destroys handed ∧
      values.foldl (planValue steps s) p = ⟨p.destroys ++ destroys, p.handed ++ handed⟩ := by
  induction values generalizing p with
  | nil => exact ⟨[], [], .nil, by simp⟩
  | cons v rest ih =>
    rw [List.foldl_cons]
    rcases planValue_place scanned blank p v with ⟨k, placed, ends⟩ | ⟨k, placed, ends⟩
    · obtain ⟨destroys, handed, added, whole⟩ := ih (p.destroy k v)
      exact ⟨_, _, added.destroy ends, by rw [placed, whole]; simp [Plan.destroy]⟩
    · obtain ⟨destroys, handed, added, whole⟩ := ih (p.hand k v)
      exact ⟨_, _, added.hand ends, by rw [placed, whole]; simp [Plan.hand]⟩

theorem foldl_planWitness (scanned : scanBlock vs 0 start block = .ok (steps, s))
    (blank : AtStart start) (descriptions : List VarId)
    (unmoved : ∀ w ∈ descriptions, w ∉ blockMoves block) (p : Plan)
    (within : ∀ d ∈ p.destroys, d.1 ≤ steps.length) :
    ∃ destroys handed, Added vs steps s descriptions destroys handed ∧
      (∀ e ∈ destroys ++ handed, ∀ d ∈ p.destroys, describedBy? vs d.2 = some e.2 → d.1 ≤ e.1) ∧
      descriptions.foldl (planWitness vs steps s) p =
        ⟨p.destroys ++ destroys, p.handed ++ handed⟩ := by
  induction descriptions generalizing p with
  | nil => exact ⟨[], [], .nil, by simp, by simp⟩
  | cons w rest ih =>
    rw [List.foldl_cons]
    have rest_unmoved : ∀ w ∈ rest, w ∉ blockMoves block :=
      fun w member => unmoved w (List.mem_cons_of_mem _ member)
    rcases planWitness_place scanned blank p w (unmoved w (List.mem_cons_self ..)) within with
      ⟨k, placed, ends, behind⟩ | ⟨k, placed, ends, behind⟩
    · have within' : ∀ d ∈ (p.destroy k w).destroys, d.1 ≤ steps.length := by
        simpa [Plan.destroy, or_imp, forall_and] using And.intro within ends.within
      obtain ⟨destroys, handed, added, after, whole⟩ := ih rest_unmoved _ within'
      refine ⟨_, _, added.destroy ends, ?_, by rw [placed, whole]; simp [Plan.destroy]⟩
      intro e member d known
      rcases List.mem_cons.mp member with rfl | member
      · exact behind d known
      · exact after e member d (List.mem_append_left _ known)
    · obtain ⟨destroys, handed, added, after, whole⟩ := ih rest_unmoved (p.hand k w) within
      refine ⟨_, _, added.hand ends, ?_, by rw [placed, whole]; simp [Plan.hand]⟩
      intro e member d known
      simp only [List.mem_append, List.mem_cons] at member
      rcases member with member | rfl | member
      · exact after e (List.mem_append_left _ member) d known
      · exact behind d known
      · exact after e (List.mem_append_right _ member) d known

/-- What a plan promises about the variables a block owns. -/
structure Placement (vs : Variables) (steps : List Step) (s : Scan) (own : List VarId)
    (p : Plan) : Prop where
  each : (p.destroys.map (·.2) ++ p.handed.map (·.2)).Perm own
  destroyed : ∀ e ∈ p.destroys, EndsBefore vs steps s e.2 e.1
  left : ∀ e ∈ p.handed, EndsInside steps e.2 e.1
  /-- Values stand before descriptions. -/
  ordered : ∃ values descriptions, p.destroys = values ++ descriptions ∧
    (∀ e ∈ values, isWitness vs e.2 = false) ∧ ∀ e ∈ descriptions, isWitness vs e.2 = true
  /-- A description ends behind the values it describes. -/
  outlives : ∀ d ∈ p.destroys, ∀ e ∈ p.destroys ++ p.handed, isWitness vs e.2 = true →
    describedBy? vs d.2 = some e.2 → d.1 ≤ e.1

/-- A type description needs none itself. -/
theorem describedBy?_of_isWitness {v : VarId} (witness : isWitness vs v = true) :
    describedBy? vs v = none := by
  cases found : describedBy? vs v with
  | none => rfl
  | some w =>
    simp only [describedBy?, Option.bind_eq_bind, Option.bind_eq_some_iff] at found
    obtain ⟨x, present, l, located, -⟩ := found
    simp only [isWitness, present] at witness
    cases kind : x.witness with
    | type => simp [kind, Witness.location?] at located
    | trivial | dynamic | unknown => simp [kind, Witness.isType] at witness

theorem plan_placement (scanned : scanBlock vs 0 start block = .ok (steps, s))
    (blank : AtStart start) (keep handed : List VarId)
    (unmoved : ∀ w, isWitness vs w = true → w ∉ blockMoves block) :
    Placement vs steps s (owned vs s keep handed) (plan vs steps s keep handed) := by
  generalize named : owned vs s keep handed = own
  have unfolded : plan vs steps s keep handed =
      (own.filter (isWitness vs)).foldl (planWitness vs steps s)
        ((own.filter (fun v => !isWitness vs v)).foldl (planValue steps s) {}) := by
    rw [← named, plan, List.partition_eq_filter_filter]
    rfl
  obtain ⟨destroys, hands, values, first⟩ := foldl_planValue scanned blank
    (own.filter (fun v => !isWitness vs v)) {}
  simp only [List.nil_append] at first
  rw [first] at unfolded
  obtain ⟨destroys', hands', descriptions, behind, second⟩ :=
    foldl_planWitness scanned blank (own.filter (isWitness vs))
      (fun w member => unmoved w (List.mem_filter.mp member).2) ⟨destroys, hands⟩
      (fun d member => (values.destroyed d member).within)
  rw [second] at unfolded
  have value : ∀ e ∈ destroys ++ hands, isWitness vs e.2 = false := by
    intro e member
    have listed : e.2 ∈ own.filter (fun v => !isWitness vs v) := by
      rw [← values.each.mem_iff, ← List.map_append]
      exact List.mem_map_of_mem member
    simpa using (List.mem_filter.mp listed).2
  have description : ∀ e ∈ destroys' ++ hands', isWitness vs e.2 = true := by
    intro e member
    have listed : e.2 ∈ own.filter (isWitness vs) := by
      rw [← descriptions.each.mem_iff, ← List.map_append]
      exact List.mem_map_of_mem member
    exact (List.mem_filter.mp listed).2
  rw [unfolded]
  refine ⟨?_, ?_, ?_, ⟨destroys, destroys', rfl, ?_, ?_⟩, ?_⟩
  · have together := (values.each.append descriptions.each).trans
      (List.perm_append_comm.trans (List.filter_append_perm (isWitness vs) own))
    refine List.Perm.trans ?_ together
    simp only [List.map_append, List.append_assoc]
    refine List.Perm.append_left _ ?_
    rw [← List.append_assoc, ← List.append_assoc]
    exact List.Perm.append_right _ List.perm_append_comm
  · simp only [List.mem_append]
    exact fun e member => member.elim (values.destroyed e) (descriptions.destroyed e)
  · simp only [List.mem_append]
    exact fun e member => member.elim (values.left e) (descriptions.left e)
  · exact fun e member => value e (List.mem_append_left _ member)
  · exact fun e member => description e (List.mem_append_left _ member)
  · intro d first e second witness describes
    have mine : d ∈ destroys := by
      rcases List.mem_append.mp first with own | other
      · exact own
      · rw [describedBy?_of_isWitness (description d (List.mem_append_left _ other))] at describes
        cases describes
    have theirs : e ∈ destroys' ++ hands' := by
      simp only [List.mem_append] at second ⊢
      have apart : ¬ (e ∈ destroys ∨ e ∈ hands) := by
        intro among
        rw [value e (List.mem_append.mpr among)] at witness
        cases witness
      grind
    exact behind e theirs d mine describes

end Placing

def spent (path : List Instr) : List VarId := path.flatMap consumed

/-- A path mentions nothing that is gone, and nothing whose type description is gone. -/
def Clean (vs : Variables) : List VarId → List Instr → Prop
  | _, [] => True
  | gone, i :: rest =>
    (∀ v ∈ i.operands, v < vs.size ∧ v ∉ gone ∧ ∀ w, describedBy? vs v = some w → w ∉ gone) ∧
      Clean vs (consumed i ++ gone) rest

section Spent

variable (i : Instr) (path path' : List Instr)

@[simp] theorem spent_nil : spent [] = [] := rfl

@[simp] theorem spent_cons : spent (i :: path) = consumed i ++ spent path := rfl

@[simp] theorem spent_append : spent (path ++ path') = spent path ++ spent path' :=
  List.flatMap_append

@[simp] theorem spent_destroys (vars : List VarId) : spent (vars.map Instr.destroy) = vars := by
  induction vars with
  | nil => rfl
  | cons v rest ih => simp [consumed, ih]

end Spent

theorem Clean.mono {vs : Variables} {path : List Instr} {gone gone' : List VarId}
    (clean : Clean vs gone path) (fewer : ∀ v ∈ gone', v ∈ gone) : Clean vs gone' path := by
  induction path generalizing gone gone' with
  | nil => trivial
  | cons i rest ih =>
    obtain ⟨here, onward⟩ := clean
    refine ⟨fun v member => ?_, ih onward fun v member => ?_⟩
    · obtain ⟨inside, present, described⟩ := here v member
      exact ⟨inside, fun lost => present (fewer v lost),
        fun w known lost => described w known (fewer w lost)⟩
    · rcases List.mem_append.mp member with own | before
      · exact List.mem_append_left _ own
      · exact List.mem_append_right _ (fewer v before)

theorem clean_append {vs : Variables} {path path' : List Instr} {gone : List VarId} :
    Clean vs gone (path ++ path') ↔ Clean vs gone path ∧ Clean vs (spent path ++ gone) path' := by
  induction path generalizing gone with
  | nil => simp [Clean]
  | cons i rest ih =>
    rw [List.cons_append, Clean, Clean, ih, and_assoc]
    have same : ∀ v, v ∈ spent rest ++ (consumed i ++ gone) ↔ v ∈ spent (i :: rest) ++ gone := by
      intro v
      simp only [spent_cons, List.mem_append]
      grind
    constructor
    · rintro ⟨here, middle, onward⟩
      exact ⟨here, middle, onward.mono fun v member => (same v).mpr member⟩
    · rintro ⟨here, middle, onward⟩
      exact ⟨here, middle, onward.mono fun v member => (same v).mp member⟩

/-- The description that a variable needs is the one its witness names, as far as that exists. -/
theorem describedBy?_eq_some {vs : Variables} {v w : VarId} (known : describedBy? vs v = some w) :
    w < vs.size ∧ ∃ x, vs[v]? = some x ∧ x.witness.location? = some w := by
  simp only [describedBy?, Option.bind_eq_bind, Option.bind_eq_some_iff] at known
  obtain ⟨x, present, l, located, known⟩ := known
  split at known
  · rename_i inside
    obtain rfl := Option.some.inj known
    exact ⟨inside, x, present, located⟩
  · cases known

theorem mention_ok {vs : Variables} {gone : List VarId} {v : VarId} (inside : v < vs.size)
    (present : v ∉ gone) (described : ∀ w, describedBy? vs v = some w → w ∉ gone)
    (within : ∀ w ∈ gone, w < vs.size) : mention vs gone v = .ok () := by
  have absent : gone.contains v = false := by simpa using present
  simp only [mention, Array.getElem?_eq_getElem inside, absent, Bool.false_eq_true, ↓reduceIte]
  split
  · rename_i w located
    have kept : w ∉ gone := by
      intro lost
      refine described w ?_ lost
      simp [describedBy?, Array.getElem?_eq_getElem inside, located, within w lost]
    simp [kept]
  · rfl

/-- What gives its values away is mentioned. -/
theorem moved_subset (values : List Value) : consumed.moved values ⊆ values.map (·.var) :=
  List.map_subset _ fun _ member => List.mem_of_mem_filter member

theorem mem_operands_of_consumed {i : Instr} {v : VarId} (lost : v ∈ consumed i) : v ∈ i.operands := by
  cases i with
  | move dst src => exact List.mem_cons_of_mem _ lost
  | destroy x => exact lost
  | pack dst struct fields =>
    refine List.mem_cons_of_mem _ ?_
    simpa using moved_subset _ lost
  | makeClosure dst function env => exact List.mem_cons_of_mem _ (moved_subset _ lost)
  | callDirect function args =>
    obtain ⟨value, passed, rfl⟩ := List.mem_map.mp (moved_subset _ lost)
    obtain ⟨a, member, rfl⟩ := List.mem_map.mp passed
    exact List.mem_map_of_mem (List.mem_of_mem_filter member)
  | callClosure closure args =>
    obtain ⟨value, passed, rfl⟩ := List.mem_map.mp (moved_subset _ lost)
    obtain ⟨a, member, rfl⟩ := List.mem_map.mp passed
    exact List.mem_append_left _ (List.mem_map_of_mem (List.mem_of_mem_filter member))
  | set | copy | primitive | unpack | cond => cases lost

/-- A clean path that destroys no argument is followed to its end. -/
theorem followPath_of_clean {vs : Variables} {args : List VarId} {path : List Instr}
    {gone : List VarId} (clean : Clean vs gone path) (within : ∀ v ∈ gone, v < vs.size)
    (spared : ∀ v, Instr.destroy v ∈ path → v ∉ args) :
    ∃ after, followPath vs args gone path = .ok after ∧
      ∀ v, after.count v = (spent path).count v + gone.count v := by
  induction path generalizing gone with
  | nil => exact ⟨gone, rfl, by simp⟩
  | cons i rest ih =>
    obtain ⟨here, onward⟩ := clean
    have mentioned : i.operands.forM (mention vs gone) = .ok () :=
      forM_eq_ok.mpr fun v member =>
        mention_ok (here v member).1 (here v member).2.1 (here v member).2.2 within
    have allowed : destroyedArgument? args i = none := by
      cases i with
      | destroy v => simpa [destroyedArgument?] using spared v (by simp)
      | _ => rfl
    have within' : ∀ v ∈ consumed i ++ gone, v < vs.size := by
      intro v member
      rcases List.mem_append.mp member with own | before
      · exact (here v (mem_operands_of_consumed own)).1
      · exact within v before
    obtain ⟨after, followed, counted⟩ := ih onward within'
      fun v member => spared v (List.mem_cons_of_mem _ member)
    refine ⟨after, ?_, fun v => ?_⟩
    · rw [followPath, mentioned]
      simpa [bind, Except.bind, allowed] using followed
    · rw [counted, spent_cons, List.count_append, List.count_append]
      omega

/-- What is asked of a block: nothing is destroyed yet, no type description is moved, and no
branch moves the destination of its condition. -/
structure Sound (vs : Variables) (block : Block) : Prop where
  intact : ∀ v, Instr.destroy v ∉ Instr.flattenAll block
  witnesses : ∀ v ∈ blockMoves block, isWitness vs v = false
  results : ∀ dst test yes no, Instr.cond dst test yes no ∈ Instr.flattenAll block →
    dst ∉ blockMoves yes ∧ dst ∉ blockMoves no

/-- No route writes a variable twice, or one that is known already. -/
def Unwritten (known : List VarId) (block : Block) : Prop :=
  ∀ path writes, Route block path writes → writes.Nodup ∧ ∀ v ∈ writes, v ∉ known

/-- Types of descriptions: what describes a value holds a type description. -/
def Described (vs : Variables) : Prop :=
  ∀ v w, describedBy? vs v = some w → isWitness vs w = true

/-- How a block is entered: `known` was written before, and `gone` is consumed. -/
structure Entered (vs : Variables) (block : Block) (avail keep handed known gone : List VarId) :
    Prop where
  sound : Sound vs block
  fresh : Unwritten known block
  live : ∀ v ∈ handed ++ avail, v ∈ known
  consumed : ∀ v ∈ gone, v ∈ known
  usable : ∀ v ∈ handed ++ avail, v ∈ handed ∨ v ∈ blockUses vs block → v ∉ gone
  once : handed.Nodup
  own : ∀ v ∈ handed, v ∉ keep ∧ isTrivial vs v = false ∧ v < vs.size
  described : ∀ v ∈ handed, ∀ w, describedBy? vs v = some w → w ∈ handed ++ avail ∧ w ∉ gone

/-- What a route through the counted block does. -/
structure Left (vs : Variables) (block : Block) (avail keep handed known gone : List VarId)
    (path : List Instr) (writes : List VarId) : Prop where
  original : ∃ path', Route block path' writes
  clean : Clean vs gone path
  taken : ∀ v ∈ handed, (spent path).count v = 1
  written : ∀ v ∈ writes, v ∉ keep → isTrivial vs v = false → (spent path).count v = 1
  origin : ∀ v ∈ spent path,
    v ∈ handed ∨ v ∈ writes ∨ v ∈ handed ++ avail ∧ v ∈ blockMoves block
  kept : ∀ v ∈ keep, v ∈ spent path → v ∈ blockMoves block
  destroys : ∀ v, Instr.destroy v ∈ path → v ∈ handed ∨ v ∈ writes ∧ v ∉ keep
  mentions : ∀ i ∈ path, ∀ v ∈ i.operands, v ∈ known ∨ v ∈ writes

/-- Counting a block is right wherever the block is entered. -/
def CountsRight (vs : Variables) (block : Block) : Prop :=
  ∀ avail keep handed known gone counted,
    countBlock vs block avail keep handed = .ok counted →
    Entered vs block avail keep handed known gone →
    ∀ path writes, Route counted path writes →
      Left vs block avail keep handed known gone path writes

theorem Sound.of_subset {vs : Variables} {block part : Block} (sound : Sound vs block)
    (part_of : ∀ i ∈ Instr.flattenAll part, i ∈ Instr.flattenAll block) : Sound vs part where
  intact v member := sound.intact v (part_of _ member)
  witnesses v moved := by
    obtain ⟨i, member, moved⟩ := List.mem_flatMap.mp moved
    exact sound.witnesses v (List.mem_flatMap.mpr ⟨i, part_of i member, moved⟩)
  results dst test yes no member := sound.results dst test yes no (part_of _ member)

section Sound

variable {vs : Variables} {i : Instr} {rest yes no : Block} {dst test : VarId}

theorem Sound.tail (sound : Sound vs (i :: rest)) : Sound vs rest :=
  sound.of_subset fun j member => by
    rw [flattenAll_cons]
    exact List.mem_append_right _ member

theorem Sound.inYes (sound : Sound vs (.cond dst test yes no :: rest)) : Sound vs yes :=
  sound.of_subset fun j member => by simp [flattenAll_cons, flatten_cond, member]

theorem Sound.inNo (sound : Sound vs (.cond dst test yes no :: rest)) : Sound vs no :=
  sound.of_subset fun j member => by simp [flattenAll_cons, flatten_cond, member]

end Sound

section Unwritten

variable {known : List VarId} {i : Instr} {rest yes no : Block} {dst test v : VarId}

theorem Unwritten.not_mem {block : Block} (fresh : Unwritten known block) (member : v ∈ known) :
    v ∉ blockWrites block := by
  intro written
  obtain ⟨path, writes, route, written⟩ := exists_route_writing block v written
  exact (fresh path writes route).2 v written member

theorem Unwritten.tail (fresh : Unwritten known (i :: rest)) (plain : branches i = false) :
    Unwritten (known ++ (directUsage i).writes) rest := by
  intro path writes onward
  obtain ⟨once, apart⟩ := fresh _ _ (.step plain onward)
  obtain ⟨-, onceRest, disjoint⟩ := List.nodup_append.mp once
  refine ⟨onceRest, fun v written member => ?_⟩
  rcases List.mem_append.mp member with before | own
  · exact apart v (List.mem_append_right _ written) before
  · exact disjoint v own v written rfl

theorem Unwritten.inYes (fresh : Unwritten known (.cond dst test yes no :: rest)) :
    Unwritten known yes := by
  intro path writes inside
  obtain ⟨path', writes', onward⟩ := exists_route rest
  obtain ⟨once, apart⟩ := fresh _ _ (.yes inside onward)
  exact ⟨nodup_of_filled (List.nodup_append.mp once).1,
    fun v written => apart v (List.mem_append_left _ (mem_filled.mpr (Or.inr written)))⟩

theorem Unwritten.inNo (fresh : Unwritten known (.cond dst test yes no :: rest)) :
    Unwritten known no := by
  intro path writes inside
  obtain ⟨path', writes', onward⟩ := exists_route rest
  obtain ⟨once, apart⟩ := fresh _ _ (.no inside onward)
  exact ⟨nodup_of_filled (List.nodup_append.mp once).1,
    fun v written => apart v (List.mem_append_left _ (mem_filled.mpr (Or.inr written)))⟩

/-- Behind a condition, what the branch wrote is known too. -/
theorem Unwritten.after (fresh : Unwritten known (.cond dst test yes no :: rest))
    {path : List Instr} {writes : List VarId}
    (inside : Route yes path writes ∨ Route no path writes) :
    Unwritten (known ++ filled dst writes) rest := by
  intro path' writes' onward
  obtain ⟨once, apart⟩ : (filled dst writes ++ writes').Nodup ∧
      ∀ v ∈ filled dst writes ++ writes', v ∉ known := by
    rcases inside with inside | inside
    · exact fresh _ _ (.yes inside onward)
    · exact fresh _ _ (.no inside onward)
  obtain ⟨-, onceRest, disjoint⟩ := List.nodup_append.mp once
  refine ⟨onceRest, fun v written member => ?_⟩
  rcases List.mem_append.mp member with before | own
  · exact apart v (List.mem_append_right _ written) before
  · exact disjoint v own v written rfl

end Unwritten

theorem route_destroys {vars : List VarId} {block : Block} {path : List Instr}
    {writes : List VarId} (route : Route (vars.map Instr.destroy ++ block) path writes) :
    ∃ path', path = vars.map Instr.destroy ++ path' ∧ Route block path' writes := by
  induction vars generalizing path with
  | nil => exact ⟨path, rfl, route⟩
  | cons v rest ih =>
    cases route with
    | step plain onward =>
      obtain ⟨path', rfl, behind⟩ := ih onward
      exact ⟨path', rfl, behind⟩

/-- Destroying variables is clean if each comes before its description. -/
theorem clean_destroys {vs : Variables} {vars gone : List VarId} (once : vars.Nodup)
    (ordered : vars.Pairwise fun a b => describedBy? vs b ≠ some a)
    (present : ∀ v ∈ vars, v < vs.size ∧ v ∉ gone ∧
      ∀ w, describedBy? vs v = some w → w ∉ gone) :
    Clean vs gone (vars.map Instr.destroy) := by
  induction vars generalizing gone with
  | nil => trivial
  | cons v rest ih =>
    obtain ⟨apart, onceRest⟩ := List.nodup_cons.mp once
    obtain ⟨before, orderedRest⟩ := List.pairwise_cons.mp ordered
    refine ⟨?_, ih onceRest orderedRest fun x member => ?_⟩
    · simpa [Instr.operands] using present v (List.mem_cons_self ..)
    · obtain ⟨inside, kept, described⟩ := present x (List.mem_cons_of_mem _ member)
      simp only [consumed, List.cons_append, List.nil_append, List.mem_cons, not_or]
      refine ⟨inside, ⟨fun same => apart (same ▸ member), kept⟩, fun w known => ?_⟩
      exact ⟨fun same => before x member (same ▸ known), described w known⟩

end WitnessLang.Ownership
