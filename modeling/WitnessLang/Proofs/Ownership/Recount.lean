import WitnessLang.Proofs.Ownership.Insertion

set_option autoImplicit false

namespace WitnessLang.Ownership

open Ir

/-- Where what stands before the instruction at a position begins in the counted block. -/
def Plan.startOf (p : Plan) : Nat → Nat
  | 0 => 0
  | k + 1 => p.startOf k + (p.destroysAt k).length + 1

/-- Where the instruction at a position stands in the counted block. -/
def Plan.newPosition (p : Plan) (k : Nat) : Nat := p.startOf k + (p.destroysAt k).length

theorem Plan.startOf_succ (p : Plan) (k : Nat) : p.startOf (k + 1) = p.newPosition k + 1 := rfl

theorem Plan.newPosition_lt (p : Plan) {j k : Nat} (before : j < k) : p.newPosition j < p.newPosition k := by
  induction k with
  | zero => omega
  | succ k ih =>
    have next : p.newPosition k < p.newPosition (k + 1) := by
      rw [Plan.newPosition.eq_1 p (k + 1), p.startOf_succ]
      omega
    rcases Nat.lt_succ_iff_lt_or_eq.mp before with earlier | rfl
    · exact Nat.lt_trans (ih earlier) next
    · exact next

theorem Plan.newPosition_inj (p : Plan) {j k : Nat} (same : p.newPosition j = p.newPosition k) : j = k := by
  rcases Nat.lt_trichotomy j k with before | equal | behind
  · have := p.newPosition_lt before
    omega
  · exact equal
  · have := p.newPosition_lt behind
    omega

/-- The step of a destroy uses the variable and its description. -/
def Destroys (vs : Variables) (v : VarId) (step : Step) : Prop :=
  ∀ u ∈ step.uses, u = v ∨ describedBy? vs v = some u

structure Same (step step' : Step) : Prop where
  instr : Alike step.instr step'.instr
  uses : ∀ v, v ∈ step'.uses ↔ v ∈ step.uses
  branch : ∀ v, v ∈ step'.branch ↔ v ∈ step.branch

/-- The steps of the counted block from a position on. -/
inductive Echoes (vs : Variables) (p : Plan) : Nat → List Step → List Step → Prop
  | nil {k : Nat} {front : List Step} (destroys : ∀ step ∈ front, ∃ v ∈ p.destroysAt k, Destroys vs v step)
      (all : front.length = (p.destroysAt k).length) : Echoes vs p k [] front
  | cons {k : Nat} {front tail tail' : List Step} {step step' : Step}
      (destroys : ∀ step ∈ front, ∃ v ∈ p.destroysAt k, Destroys vs v step)
      (all : front.length = (p.destroysAt k).length) (same : Same step step')
      (onward : Echoes vs p (k + 1) tail tail') : Echoes vs p k (step :: tail) (front ++ step' :: tail')

section LastUse

variable {v : VarId} {q last : Nat} {front tail : List Step}

theorem lastUse?_append_of_some (found : lastUse? v (q + front.length) tail = some last) :
    lastUse? v q (front ++ tail) = some last := by
  induction front generalizing q with
  | nil => exact found
  | cons step rest ih =>
    rw [List.cons_append, lastUse?, ih (by simpa [Nat.add_assoc, Nat.add_comm 1] using found)]

theorem lastUse?_append_of_none (unused : ∀ step ∈ front, v ∉ step.uses)
    (absent : lastUse? v (q + front.length) tail = none) : lastUse? v q (front ++ tail) = none := by
  induction front generalizing q with
  | nil => exact absent
  | cons step rest ih =>
    rw [List.forall_mem_cons] at unused
    rw [List.cons_append, lastUse?, ih unused.2 (by simpa [Nat.add_assoc, Nat.add_comm 1] using absent)]
    simp [unused.1]

end LastUse

section Echoes

variable {vs : Variables} {p : Plan} {k : Nat} {tail tail' : List Step} {v : VarId}

/-- Nothing that is destroyed from a position on is a variable or described by it. -/
def Spared (vs : Variables) (p : Plan) (k : Nat) (v : VarId) : Prop :=
  ∀ j, k ≤ j → ∀ x ∈ p.destroysAt j, v ≠ x ∧ describedBy? vs x ≠ some v

theorem Spared.unused (spared : Spared vs p k v) {front : List Step}
    (destroys : ∀ step ∈ front, ∃ x ∈ p.destroysAt k, Destroys vs x step) : ∀ step ∈ front, v ∉ step.uses := by
  intro step member used
  obtain ⟨x, there, uses⟩ := destroys step member
  obtain ⟨other, undescribed⟩ := spared k (Nat.le_refl k) x there
  exact (uses v used).elim other undescribed

theorem Spared.later (spared : Spared vs p k v) : Spared vs p (k + 1) v :=
  fun j behind => spared j (Nat.le_of_succ_le behind)

theorem Echoes.lastUse_none (echoes : Echoes vs p k tail tail') (never : lastUse? v k tail = none)
    (spared : Spared vs p k v) : lastUse? v (p.startOf k) tail' = none := by
  induction echoes with
  | @nil k front destroys all =>
    simpa using lastUse?_append_of_none (q := p.startOf k) (spared.unused destroys)
      (rfl : lastUse? v _ [] = none)
  | cons destroys all same onward ih =>
    rw [lastUse?] at never
    split at never
    · cases never
    · rename_i later
      split at never
      · cases never
      · rename_i absent
        refine lastUse?_append_of_none (spared.unused destroys) ?_
        have := ih later spared.later
        rw [p.startOf_succ, Plan.newPosition] at this
        rw [all, lastUse?, this]
        have absent' : v ∉ _ := fun used => absent (List.contains_iff_mem.mpr ((same.uses v).mp used))
        simp [absent']

/-- The last use of a variable stays that of the same instruction. -/
theorem Echoes.lastUse_some (echoes : Echoes vs p k tail tail') {last : Nat}
    (found : lastUse? v k tail = some last) (spared : Spared vs p (last + 1) v) :
    lastUse? v (p.startOf k) tail' = some (p.newPosition last) := by
  induction echoes with
  | nil => cases found
  | cons destroys all same onward ih =>
    refine lastUse?_append_of_some ?_
    rw [all, lastUse?]
    rw [lastUse?] at found
    split at found
    · rename_i later
      have := ih (later.trans found)
      rw [p.startOf_succ, Plan.newPosition] at this
      rw [this]
    · rename_i later
      split at found
      · rename_i here
        obtain rfl := Option.some.inj found
        have := onward.lastUse_none later spared
        rw [p.startOf_succ, Plan.newPosition] at this
        have used : v ∈ _ := (same.uses v).mpr (List.contains_iff_mem.mp here)
        rw [this]
        simp [used, Plan.newPosition]
      · cases found

/-- The step of the instruction at a position. -/
theorem Echoes.getElem (echoes : Echoes vs p k tail tail') {j : Nat} {step : Step} (found : tail[j]? = some step) :
    ∃ m step', p.startOf k + m = p.newPosition (k + j) ∧ tail'[m]? = some step' ∧ Same step step' := by
  induction echoes generalizing j with
  | nil => simp at found
  | @cons k front tail tail' first first' destroys all same onward ih =>
    cases j with
    | zero =>
      obtain rfl : first = step := by simpa using found
      exact ⟨front.length, first', by rw [all]; rfl, by simp, same⟩
    | succ j =>
      obtain ⟨m, step', place, there, same'⟩ := ih (by simpa using found)
      refine ⟨front.length + 1 + m, step', ?_, ?_, same'⟩
      · rw [all, show k + (j + 1) = k + 1 + j by omega, ← place, p.startOf_succ, Plan.newPosition]
        omega
      · rw [List.getElem?_append_right (by omega), show front.length + 1 + m - front.length = m + 1 by omega]
        simpa using there

variable {steps steps' : List Step}

theorem Echoes.inBranch (echoes : Echoes vs p 0 steps steps') (inside : usedInBranch steps v k = true) :
    usedInBranch steps' v (p.newPosition k) = true := by
  obtain ⟨step, found, used⟩ := usedInBranch_eq_true inside
  obtain ⟨m, step', place, there, same⟩ := echoes.getElem found
  obtain rfl : m = p.newPosition k := by simpa [Plan.startOf] using place
  simpa [usedInBranch, there] using (same.branch v).mpr used

theorem describesResult_of_alike {k' : Nat} {step step' : Step} (found : steps[k]? = some step)
    (found' : steps'[k']? = some step') (alike : Alike step.instr step'.instr) :
    describesResult vs steps' v k' = describesResult vs steps v k := by
  obtain ⟨i, _, _, _⟩ := step
  obtain ⟨i', _, _, _⟩ := step'
  rw [describesResult, describesResult, found, found']
  rcases alike with rfl | ⟨dst, test, yes, no, yes', no', rfl, rfl⟩
  · cases i <;> rfl
  · rfl

theorem Echoes.describes (echoes : Echoes vs p 0 steps steps') (inside : usedInBranch steps v k = true) :
    describesResult vs steps' v (p.newPosition k) = describesResult vs steps v k := by
  obtain ⟨step, found, used⟩ := usedInBranch_eq_true inside
  obtain ⟨m, step', place, there, same⟩ := echoes.getElem found
  obtain rfl : m = p.newPosition k := by simpa [Plan.startOf] using place
  exact describesResult_of_alike found there same.instr

end Echoes

theorem scanBlock_cons_of {vs : Variables} {q : Nat} {s s' last : Scan} {i : Instr} {rest : Block} {step : Step}
    {tail : List Step} (first : scanInstr vs q s i = .ok (step, s'))
    (onward : scanBlock vs (q + 1) s' rest = .ok (tail, last)) :
    scanBlock vs q s (i :: rest) = .ok (step :: tail, last) := by
  simp only [scanBlock, first, onward, bind, Except.bind]
  rfl

section Destroys

variable {vs : Variables} {vars : List VarId}

structure Emptied (vars : List VarId) (s s' : Scan) : Prop where
  live : ∀ v, v ∈ s'.live ↔ v ∈ s.live ∧ v ∉ vars
  moved : ∀ v, v ∈ s'.moved ↔ v ∈ s.moved ∨ v ∈ vars
  movedHere : ∀ v, v ∈ s'.movedHere ↔ v ∈ s.movedHere ∨ v ∈ vars
  written : s'.written = s.written

/-- Destroys are gone over where each variable is there with its description, which ends behind it. -/
theorem scanBlock_destroys (once : vars.Nodup) (ordered : vars.Pairwise fun a b => describedBy? vs b ≠ some a)
    {s : Scan} (q : Nat) (ready : ∀ v ∈ vars, v < vs.size ∧ (v ∈ s.live ∧ v ∉ s.moved) ∧
      ∀ w, describedBy? vs v = some w → w ∈ s.live ∧ w ∉ s.moved) :
    ∃ front s', front.map (·.instr) = vars.map Instr.destroy ∧ (∀ step ∈ front, ∃ v ∈ vars, Destroys vs v step) ∧
      Emptied vars s s' ∧ ∀ {rest tail last}, scanBlock vs (q + vars.length) s' rest = .ok (tail, last) →
        scanBlock vs q s (vars.map Instr.destroy ++ rest) = .ok (front ++ tail, last) := by
  induction vars generalizing s q with
  | nil => exact ⟨[], s, rfl, by simp, ⟨by simp, by simp, by simp, rfl⟩, fun onward => onward⟩
  | cons v rest ih =>
    obtain ⟨apart, onceRest⟩ := List.nodup_cons.mp once
    obtain ⟨before, orderedRest⟩ := List.pairwise_cons.mp ordered
    obtain ⟨inside, there, described⟩ := ready v (List.mem_cons_self ..)
    have usage : usage? vs (.destroy v) = some ⟨[v].filterMap (describedBy? vs), [], [v]⟩ := by
      simp [usage?, directUsage, inside]
    obtain ⟨s₁, first, here⟩ := scanInstr_of_ready q usage (b := ⟨[], []⟩) rfl
      (fun u used => by
        simp only [List.append_nil, List.mem_append, List.mem_filterMap, List.mem_singleton, exists_eq_left] at used
        exact used.elim (described u) fun same => same ▸ there)
      (by simp) (by simp) (by simp)
    have live₁ : ∀ u, u ∈ s₁.live ↔ u ∈ s.live ∧ u ≠ v := fun u => by simpa using here.live u
    have moved₁ : ∀ u, u ∈ s₁.moved ↔ u ∈ s.moved ∨ u = v := fun u => by simpa using here.moved u
    obtain ⟨front, s', instrs, destroys, emptied, scans⟩ := ih onceRest orderedRest (s := s₁) (q + 1)
      fun x member => by
        obtain ⟨insideX, thereX, describedX⟩ := ready x (List.mem_cons_of_mem _ member)
        have other : x ≠ v := fun same => apart (same ▸ member)
        refine ⟨insideX, ?_, fun w describes => ?_⟩
        · rw [live₁, moved₁]
          exact ⟨⟨thereX.1, other⟩, not_or.mpr ⟨thereX.2, other⟩⟩
        · have otherW : w ≠ v := fun same => before x member (same ▸ describes)
          rw [live₁, moved₁]
          exact ⟨⟨(describedX w describes).1, otherW⟩, not_or.mpr ⟨(describedX w describes).2, otherW⟩⟩
    refine ⟨⟨.destroy v, ⟨[v].filterMap (describedBy? vs), [], [v]⟩, [], s.live⟩ :: front, s',
      by rw [List.map_cons, instrs, List.map_cons], ?_,
      ⟨?_, ?_, ?_, ?_⟩, fun onward => ?_⟩
    · rw [List.forall_mem_cons]
      refine ⟨⟨v, List.mem_cons_self .., fun u used => ?_⟩, fun step member => ?_⟩
      · simpa [Step.uses, or_comm, eq_comm] using used
      · obtain ⟨x, there, uses⟩ := destroys step member
        exact ⟨x, List.mem_cons_of_mem _ there, uses⟩
    · intro u
      rw [emptied.live, live₁, List.mem_cons, not_or, and_assoc]
    · intro u
      rw [emptied.moved, moved₁, List.mem_cons, or_assoc]
    · intro u
      rw [emptied.movedHere, here.movedHere, or_assoc]
      simp
    · rw [emptied.written, here.written]
      simp
    · refine scanBlock_cons_of first (scans ?_)
      rw [show q + 1 + rest.length = q + (v :: rest).length by simp; omega]
      exact onward

/-- Destroys stay where nothing else is destroyed. -/
theorem assemble_destroys {p : Plan} (none : p.destroys = []) {keep : List VarId} {q : Nat} {front tail : List Step}
    {rest : Block} (instrs : front.map (·.instr) = vars.map Instr.destroy)
    (assembled : assemble p keep (q + vars.length) tail (blockCounters vs rest) = .ok rest) :
    assemble p keep q (front ++ tail) (blockCounters vs (vars.map Instr.destroy ++ rest)) =
      .ok (vars.map Instr.destroy ++ rest) := by
  induction vars generalizing q front with
  | nil =>
    obtain rfl : front = [] := List.map_eq_nil_iff.mp instrs
    exact assembled
  | cons v others ih =>
    obtain ⟨step, front, rfl⟩ : ∃ step rest, front = step :: rest := by
      cases front with
      | nil => cases instrs
      | cons step rest => exact ⟨step, rest, rfl⟩
    obtain ⟨instr, instrs⟩ := List.cons.inj instrs
    have onward := ih (q := q + 1) instrs
      (by rw [show q + 1 + others.length = q + (v :: others).length by simp; omega]; exact assembled)
    obtain ⟨counted, done⟩ := assemble_plain_ok (i := .destroy v) (p := p)
      instr rfl onward
    obtain ⟨behind, same, rfl⟩ := assemble_plain instr rfl done
    obtain rfl := Except.ok.inj (onward.symm.trans same)
    simpa [Plan.destroysAt, none] using done

end Destroys

section Handed

variable {vs : Variables} {v : VarId}

theorem mem_blockMoves_of_mem {block : Block} {i : Instr} (member : i ∈ block)
    (moved : v ∈ (directUsage i).moves) : v ∈ blockMoves block := by
  induction block with
  | nil => cases member
  | cons first rest ih =>
    rcases List.mem_cons.mp member with rfl | later
    · rw [blockMoves, flattenAll_cons, List.flatMap_append, List.mem_append]
      exact Or.inl (List.mem_flatMap.mpr ⟨i, mem_flatten_self i, moved⟩)
    · exact mem_blockMoves_of_mem_rest (ih later)

/-- Where a plan has a place for a variable, the variable is moved at some depth of what is put together,
if the branches that it is left to move it. -/
theorem moved_of_assemble {p : Plan} {keep : List VarId} (block : Block) {k : Nat} {s last : Scan} {steps : List Step} {counted : Block}
    (scanned : scanBlock vs k s block = .ok (steps, last))
    (assembled : assemble p keep k steps (blockCounters vs block) = .ok counted)
    (branches : ∀ dst test yes no, Instr.cond dst test yes no ∈ block → v ≠ dst →
      ∀ {avail handed counted}, countBlock vs yes avail (dst :: keep) handed = .ok counted →
        v ∈ handed → v ∈ blockMoves counted)
    {j : Nat} (place : (k + j, v) ∈ p.destroys ∧ j ≤ steps.length ∨
      (k + j, v) ∈ p.handed ∧ ∃ step, steps[j]? = some step ∧ v ∈ step.branch) : v ∈ blockMoves counted := by
  have destroyed : ∀ {p : Plan} {k : Nat} {rest : Block}, (k, v) ∈ p.destroys →
      v ∈ blockMoves ((p.destroysAt k).map Instr.destroy ++ rest) := by
    intro p k rest member
    exact mem_blockMoves_of_mem (List.mem_append_left _ (List.mem_map_of_mem (mem_destroysAt.mpr member)))
      (List.mem_singleton.mpr rfl)
  have behind : ∀ {front rest : Block}, v ∈ blockMoves rest → v ∈ blockMoves (front ++ rest) := by
    intro front rest moved
    induction front with
    | nil => exact moved
    | cons i others ih => exact mem_blockMoves_of_mem_rest ih
  induction block generalizing k s steps counted j with
  | nil =>
    obtain ⟨rfl, -⟩ := scanBlock_nil scanned
    obtain rfl : (p.destroysAt k).map Instr.destroy = counted := by
      simpa [assemble, blockCounters] using assembled
    rcases place with ⟨place, within⟩ | ⟨-, step, impossible, -⟩
    · obtain rfl : j = 0 := by simpa using within
      simpa using @destroyed p k [] place
    · simp at impossible
  | cons i rest ih =>
    obtain ⟨outer, step, s', tail, here, onward, rfl⟩ := scanBlock_cons scanned
    -- Either the place is here, or the rest of the block has it.
    have next : ∀ {others}, assemble p keep (k + 1) tail (blockCounters vs rest) = .ok others → ∀ n,
        j = n + 1 → v ∈ blockMoves others := by
      rintro others assembledRest n rfl
      refine ih onward assembledRest (fun dst test yes no member =>
        branches dst test yes no (List.mem_cons_of_mem _ member)) (j := n) ?_
      rw [show k + 1 + n = k + (n + 1) by omega]
      rcases place with ⟨place, within⟩ | ⟨place, step', found, used⟩
      · exact Or.inl ⟨place, Nat.le_of_succ_le_succ within⟩
      · exact Or.inr ⟨place, step', by simpa using found, used⟩
    cases plain : Ownership.branches i with
    | false =>
      obtain ⟨others, assembledRest, rfl⟩ := assemble_plain here.instr plain assembled
      cases j with
      | succ n => exact behind (mem_blockMoves_of_mem_rest (next assembledRest n rfl))
      | zero =>
        rcases place with ⟨place, -⟩ | ⟨-, step', found, used⟩
        · exact destroyed place
        · obtain rfl : step = step' := by simpa using found
          rw [here.branch, branchUsage?_plain plain here.outside] at used
          cases used
    | true =>
      obtain ⟨dst, test, yes, no, rfl⟩ := cond_of_branches plain
      obtain ⟨yes', no', others, countYes, -, assembledRest, rfl⟩ := assemble_cond here.instr assembled
      cases j with
      | succ n => exact behind (mem_blockMoves_of_mem_rest (next assembledRest n rfl))
      | zero =>
        rcases place with ⟨place, -⟩ | ⟨place, step', found, used⟩
        · exact destroyed place
        · obtain rfl : step = step' := by simpa using found
          have live := (here.ready v (by simp [Step.uses, used])).1
          have other : v ≠ dst := by
            rintro rfl
            have written : v ∈ step.usage.writes := by
              rw [(usage?_eq_some here.usage).1]
              exact List.mem_singleton_self v
            exact (here.fresh v written).1 live
          have inside := branches dst test yes no (List.mem_cons_self ..) other countYes (mem_handedAt.mpr place)
          exact behind (mem_blockMoves_cond.mpr (Or.inl inside))

/-- What a block is left with, it moves at some depth when it is counted. -/
theorem moved_of_handed (block : Block) (unmoved : ∀ w, isWitness vs w = true → w ∉ blockMoves block)
    (costly : isTrivial vs v = false) {avail keep handed : List VarId} {counted : Block}
    (count : countBlock vs block avail keep handed = .ok counted) (unkept : v ∉ keep) (given : v ∈ handed) :
    v ∈ blockMoves counted := by
  -- The branches of a block are smaller, and what holds of them holds of the block.
  have whole : ∀ block, (∀ w, isWitness vs w = true → w ∉ blockMoves block) →
      (∀ keep, v ∉ keep → ∀ dst test yes no, Instr.cond dst test yes no ∈ block → v ≠ dst →
        ∀ {avail handed counted}, countBlock vs yes avail (dst :: keep) handed = .ok counted →
          v ∈ handed → v ∈ blockMoves counted) →
      ∀ {avail keep handed counted}, countBlock vs block avail keep handed = .ok counted → v ∉ keep →
        v ∈ handed → v ∈ blockMoves counted := by
    intro block unmoved inside avail keep handed counted count unkept given
    obtain ⟨steps, last, scanned, assembled⟩ := countBlock_eq_ok count
    by_cases moved : v ∈ last.movedHere
    · rcases (mem_movedHere scanned).mp moved with impossible | ⟨step, member, moved⟩
      · cases impossible
      · obtain ⟨j, found⟩ := List.getElem?_of_mem member
        obtain ⟨there, usage, -⟩ := step_at scanned found
        exact (inserts_of_count count).blockMoves_subset
          (mem_blockMoves_of_mem (List.mem_of_getElem? there) ((usage?_eq_some usage).2.1 ▸ moved))
    · have placed := plan_placement scanned ⟨rfl, rfl, rfl⟩ keep handed unmoved
      obtain ⟨j, place⟩ := place_of_owned
        (mem_owned.mpr ⟨Or.inl given, unkept, moved, costly⟩)
      refine moved_of_assemble block scanned assembled (inside keep unkept) (j := j) ?_
      rw [Nat.zero_add]
      rcases List.mem_append.mp place with destroyed | left
      · exact Or.inl ⟨destroyed, (placed.destroyed _ destroyed).within⟩
      · exact Or.inr ⟨left, (placed.left _ left).branch⟩
  have all : ∀ block : Block, (∀ w, isWitness vs w = true → w ∉ blockMoves block) →
      ∀ keep, v ∉ keep → ∀ dst test yes no, Instr.cond dst test yes no ∈ block → v ≠ dst →
        ∀ {avail handed counted}, countBlock vs yes avail (dst :: keep) handed = .ok counted →
          v ∈ handed → v ∈ blockMoves counted := by
    intro block
    induction block using block_induction with
    | nil => simp
    | plain i rest plain ih =>
      intro unmoved keep unkept dst test yes no member
      rcases List.mem_cons.mp member with rfl | later
      · cases plain
      · exact ih (fun w witness moved => unmoved w witness (mem_blockMoves_of_mem_rest moved)) keep unkept
          dst test yes no later
    | cond dst test yes no rest ihYes ihNo ih =>
      intro unmoved keep unkept dst' test' yes' no' member other
      rcases List.mem_cons.mp member with same | later
      · obtain ⟨rfl, rfl, rfl, rfl⟩ := Instr.cond.inj same
        have unmovedYes : ∀ w, isWitness vs w = true → w ∉ blockMoves yes' := fun w witness moved =>
          unmoved w witness (mem_blockMoves_cond.mpr (Or.inl moved))
        intro avail handed counted count
        exact whole yes' unmovedYes (ihYes unmovedYes) count (by simp [other, unkept])
      · exact ih (fun w witness moved => unmoved w witness (mem_blockMoves_of_mem_rest moved)) keep unkept
          dst' test' yes' no' later other
  exact whole block unmoved (all block unmoved) count unkept given

end Handed

section Rerun

variable {vs : Variables} {block : Block} {keep handed : List VarId} {start last : Scan}
  {steps : List Step} {own : List VarId} {p : Plan}

/-- A variable has its place before a position. -/
def Plan.Passed (p : Plan) (k : Nat) (v : VarId) : Prop := ∃ j < k, (j, v) ∈ p.destroys ++ p.handed

/-- What is used at a position has no place before it. -/
theorem Counting.not_passed_of_used (c : Counting vs block keep handed start steps last own p) {v : VarId}
    {k : Nat} (used : UsedAt steps v k) : ¬ p.Passed k v ∧ v ∉ p.destroysAt k := by
  refine ⟨?_, fun destroyed => ?_⟩
  · rintro ⟨j, before, place⟩
    have := c.place_after_use used place
    omega
  · have := (c.placed.destroyed _ (mem_destroysAt.mp destroyed)).unused k used
    omega

/-- What is written at a position has no place up to it. -/
theorem Counting.not_passed_of_written (c : Counting vs block keep handed start steps last own p) {v : VarId}
    {k : Nat} {step : Step} (found : steps[k]? = some step) (written : v ∈ step.usage.writes) :
    ¬ p.Passed (k + 1) v := by
  rintro ⟨j, before, place⟩
  rcases List.mem_append.mp place with destroyed | left
  · have := (c.placed.destroyed _ destroyed).written k ((written_at c.scanned c.blank).mpr ⟨step, found, written⟩)
    simp only at this
    omega
  · obtain ⟨user, at_, used⟩ := (c.placed.left _ left).branch
    have := written_before_used c.scanned found at_ written (by simp [Step.uses, used])
    omega

theorem Plan.passed_succ {k : Nat} {v : VarId} :
    p.Passed (k + 1) v ↔ p.Passed k v ∨ v ∈ p.destroysAt k ∨ v ∈ p.handedAt k := by
  rw [mem_destroysAt, mem_handedAt, ← List.mem_append]
  constructor
  · rintro ⟨j, before, place⟩
    rcases Nat.lt_succ_iff_lt_or_eq.mp before with earlier | rfl
    · exact Or.inl ⟨j, earlier, place⟩
    · exact Or.inr place
  · rintro (⟨j, before, place⟩ | place)
    · exact ⟨j, by omega, place⟩
    · exact ⟨k, by omega, place⟩

/-- What holds a value at the start still does when the block is counted again. -/
def Stays (start start' : Scan) (v : VarId) : Prop := v ∈ start.live → v ∈ start'.live

/-- What is known before the instruction at a position, when its block is gone over for the first time with
the record `s` and the counted block for the second time with the record `s'`. -/
structure Rerun (c : Counting vs block keep handed start steps last own p) (start' : Scan) (k : Nat) (s : Scan)
    (rest : Block) (tail : List Step) (known : List VarId) (s' : Scan) : Prop where
  scanned : scanBlock vs k s rest = .ok (tail, last)
  position : ∃ before, steps = before ++ tail ∧ before.length = k
  unmoved : ∀ w, isWitness vs w = true → w ∉ blockMoves rest
  usable : ∀ v ∈ blockUses vs rest, Stays start start' v
  owned : ∀ v ∈ own, Stays start start' v
  fresh : Unwritten known rest
  introduced : ∀ v ∈ own, Introduced handed last k v → v ∈ known
  apart : ∀ v ∈ s.live, v ∉ s.moved
  /-- Owned variables are there until their place is passed. -/
  present : ∀ v ∈ own, Introduced handed last k v → ¬ p.Passed k v → v ∈ s.live
  /-- And so is the description of an owned value. -/
  descriptions : ∀ v ∈ own, Introduced handed last k v → ∀ w, describedBy? vs v = some w →
    w ∈ s.live ∧ Stays start start' w
  live : ∀ v, v ∈ s'.live ↔ v ∈ s.live ∧ ¬ p.Passed k v ∧ Stays start start' v
  moved : ∀ v, v ∈ s'.moved ↔ v ∈ s.moved ∨ p.Passed k v
  movedHere : ∀ v, v ∈ s'.movedHere ↔ v ∈ s.movedHere ∨ ∃ j < k, (j, v) ∈ p.destroys
  written : s'.written.map (·.1) = s.written.map (·.1)

variable {c : Counting vs block keep handed start steps last own p} {start' : Scan} {k : Nat} {s s' s₁ s₂ : Scan}
  {i : Instr} {rest : Block} {outer : OuterUsage} {step : Step} {tail : List Step} {known : List VarId}

theorem Rerun.at_position (f : Rerun c start' k s rest (step :: tail) known s') : steps[k]? = some step := by
  obtain ⟨before, rfl, rfl⟩ := f.position
  simp

/-- What an instruction uses the first time is there the second time, behind the destroys before it. -/
theorem Rerun.ready (f : Rerun c start' k s (i :: rest) (step :: tail) known s')
    (here : Scanned vs k s i outer step s₁) {v : VarId} (used : v ∈ step.uses)
    (inside : v ∈ blockUses vs (i :: rest)) : v ∈ s'.live ∧ v ∉ s'.moved ∧ v ∉ p.destroysAt k := by
  obtain ⟨live, unmoved⟩ := here.ready v used
  obtain ⟨ahead, kept⟩ := c.not_passed_of_used ⟨step, f.at_position, used⟩
  refine ⟨(f.live v).mpr ⟨live, ahead, f.usable v inside⟩, fun moved => ?_, kept⟩
  exact ((f.moved v).mp moved).elim unmoved ahead

/-- What is destroyed before an instruction is there, and its description with it. -/
theorem Rerun.ready_destroys (f : Rerun c start' k s rest tail known s') {v : VarId} (member : v ∈ p.destroysAt k) :
    v < vs.size ∧ (v ∈ s'.live ∧ v ∉ s'.moved) ∧
      ∀ w, describedBy? vs v = some w → w ∈ s'.live ∧ w ∉ s'.moved := by
  have destroyed := mem_destroysAt.mp member
  have place : (k, v) ∈ p.destroys ++ p.handed := List.mem_append_left _ destroyed
  have mine := c.own_of_place place
  have introduced := c.introduced_of_destroyed destroyed
  have there : ∀ {x}, x ∈ s.live → ¬ p.Passed k x → Stays start start' x → x ∈ s'.live ∧ x ∉ s'.moved :=
    fun live ahead stays => ⟨(f.live _).mpr ⟨live, ahead, stays⟩, fun moved =>
      ((f.moved _).mp moved).elim (f.apart _ live) ahead⟩
  have ahead : ¬ p.Passed k v := by
    rintro ⟨j, before, other⟩
    have := c.place_unique place other
    omega
  refine ⟨c.inside v mine, there (f.present v mine introduced ahead) ahead (f.owned v mine), fun w describes => ?_⟩
  obtain ⟨live, stays⟩ := f.descriptions v mine introduced w describes
  refine there live ?_ stays
  rintro ⟨j, before, other⟩
  have := c.placed.outlives _ destroyed _ other (c.described v w describes) describes
  simp only at this
  omega

/-- An owned variable that holds a value has got it before. -/
theorem Rerun.introduced_of_live (f : Rerun c start' k s rest tail known s') {v : VarId} (mine : v ∈ own)
    (live : v ∈ s.live) : Introduced handed last k v := by
  rcases ((c.mem_own v).mp mine).1 with given | ⟨j, wrote⟩
  · exact Or.inl given
  · by_cases before : j < k
    · exact Or.inr ⟨j, before, wrote⟩
    · obtain ⟨writer, found, written⟩ := (written_at c.scanned c.blank).mp wrote
      obtain ⟨front, rfl, rfl⟩ := f.position
      rw [List.getElem?_append_right (by omega)] at found
      exact absurd written (not_written_again f.scanned (Or.inl live) writer (List.mem_of_getElem? found))

/-- What is introduced up to an instruction was so before it, or the instruction writes it. -/
theorem Rerun.introduced_before (f : Rerun c start' k s rest (step :: tail) known s') {v : VarId}
    (introduced : Introduced handed last (k + 1) v) : Introduced handed last k v ∨ v ∈ step.usage.writes := by
  rcases introduced with given | ⟨j, below, wrote⟩
  · exact Or.inl (Or.inl given)
  · by_cases earlier : j < k
    · exact Or.inl (Or.inr ⟨j, earlier, wrote⟩)
    · obtain rfl : j = k := by omega
      obtain ⟨writer, at_, written⟩ := (written_at c.scanned c.blank).mp wrote
      obtain rfl : step = writer := Option.some.inj (f.at_position.symm.trans at_)
      exact Or.inr written

/-- What an instruction writes the first time is new the second time, too, and has no place yet. -/
theorem Rerun.new_writes (f : Rerun c start' k s (i :: rest) (step :: tail) known s')
    (here : Scanned vs k s i outer step s₁) (emptied : Emptied (p.destroysAt k) s' s₂) {outer' : OuterUsage}
    (moves : ∀ v, v ∈ outer'.moves ↔ v ∈ outer.moves ∨ v ∈ p.handedAt k) {v : VarId} (written : v ∈ step.usage.writes) :
    v ∉ s₂.live ∧ v ∉ s₂.moved ∧ v ∉ outer'.moves ∧ ¬ p.Passed (k + 1) v ∧ Stays start start' v := by
  obtain ⟨dead, unmoved, untaken⟩ := here.fresh v written
  have ahead := c.not_passed_of_written f.at_position written
  have ahead' := mt Plan.passed_succ.mpr ahead
  simp only [not_or] at ahead'
  refine ⟨fun live => dead ((f.live v).mp ((emptied.live v).mp live).1).1, fun gone => ?_, fun taken => ?_,
    ahead, fun old => ?_⟩
  · exact ((emptied.moved v).mp gone).elim (fun gone => ((f.moved v).mp gone).elim unmoved ahead'.1) ahead'.2.1
  · exact ((moves v).mp taken).elim untaken ahead'.2.2
  · exact absurd written (not_written_again c.scanned (Or.inl old) step (List.mem_of_getElem? f.at_position))

/-- Nothing that holds a value has been moved. -/
theorem Scanned.apart (here : Scanned vs k s i outer step s₁) (apart : ∀ v ∈ s.live, v ∉ s.moved) :
    ∀ v ∈ s₁.live, v ∉ s₁.moved := by
  intro v live gone
  rw [here.moved] at gone
  rcases (here.live v).mp live with written | ⟨old, unmoved, untaken⟩
  · obtain ⟨dead, clean, untaken⟩ := here.fresh v written
    rcases gone with gone | gone | gone
    · exact clean gone
    · exact dead (here.ready v (by simp [Step.uses, gone])).1
    · exact untaken gone
  · rcases gone with gone | gone | gone
    · exact apart v old gone
    · exact unmoved gone
    · exact untaken gone

/-- An owned variable whose place is behind an instruction is there after it. -/
theorem Rerun.present_next (f : Rerun c start' k s (i :: rest) (step :: tail) known s')
    (here : Scanned vs k s i outer step s₁) {v : VarId} (mine : v ∈ own) (introduced : Introduced handed last (k + 1) v)
    (ahead : ¬ p.Passed (k + 1) v) : v ∈ s₁.live := by
  have ahead' := mt Plan.passed_succ.mpr ahead
  simp only [not_or] at ahead'
  rcases f.introduced_before introduced with earlier | written
  · refine (here.live v).mpr (Or.inr ⟨f.present v mine earlier ahead'.1, fun moved => ?_, fun taken => ?_⟩)
    · exact ((c.mem_own v).mp mine).2.2.1
        ((mem_movedHere c.scanned).mpr (Or.inr ⟨step, List.mem_of_getElem? f.at_position, moved⟩))
    · exact ahead'.2.2 (mem_handedAt.mpr (c.handed_of_taken mine f.at_position (here.instr.symm ▸ here.outside) taken))
  · exact (here.live v).mpr (Or.inl written)

theorem Scanned.uses_subset (here : Scanned vs k s i outer step s₁) {v : VarId}
    (used : v ∈ step.usage.reads ++ step.usage.moves) : v ∈ blockUses vs (i :: rest) := by
  rw [blockUses, flattenAll_cons, List.flatMap_append, List.mem_append]
  exact Or.inl (List.mem_flatMap.mpr ⟨i, mem_flatten_self i, by simpa [Ownership.uses, here.usage] using used⟩)

/-- The description of an owned value is there after an instruction: it is never moved, and read when the value is
written. -/
theorem Rerun.descriptions_next (f : Rerun c start' k s (i :: rest) (step :: tail) known s')
    (here : Scanned vs k s i outer step s₁) {v w : VarId} (mine : v ∈ own)
    (introduced : Introduced handed last (k + 1) v) (describes : describedBy? vs v = some w) :
    w ∈ s₁.live ∧ Stays start start' w := by
  have witness := c.described v w describes
  have movesInside : w ∈ step.usage.moves ∨ w ∈ outer.moves → w ∈ blockMoves (i :: rest) := mem_blockMoves_of_moves here
  have stays : w ∈ s.live → w ∈ s₁.live := fun live => (here.live w).mpr (Or.inr ⟨live,
    fun moved => f.unmoved w witness (movesInside (Or.inl moved)),
    fun taken => f.unmoved w witness (movesInside (Or.inr taken))⟩)
  rcases f.introduced_before introduced with earlier | written
  · obtain ⟨live, usable⟩ := f.descriptions v mine earlier w describes
    exact ⟨stays live, usable⟩
  · have read : w ∈ step.usage.reads := by
      obtain ⟨writes, -, reads, -⟩ := usage?_eq_some here.usage
      rw [reads, List.mem_append]
      exact Or.inr (List.mem_filterMap.mpr ⟨v, by simp [← writes, written], describes⟩)
    exact ⟨stays (here.ready w (by simp [Step.uses, read])).1, f.usable w (here.uses_subset (by simp [read]))⟩

/-- The second run goes on like the first, where the branches of an instruction use the same as before and
move what they were left besides. -/
theorem Rerun.next (f : Rerun c start' k s (i :: rest) (step :: tail) known s')
    (here : Scanned vs k s i outer step s₁) (onward : scanBlock vs (k + 1) s₁ rest = .ok (tail, last))
    (emptied : Emptied (p.destroysAt k) s' s₂) {i' : Instr} (alike : Alike i i') {outer' : OuterUsage}
    (outside : branchUsage? vs i' = some outer') (uses : ∀ v, v ∈ outer'.uses ↔ v ∈ outer.uses)
    (moves : ∀ v, v ∈ outer'.moves ↔ v ∈ outer.moves ∨ v ∈ p.handedAt k)
    (inside : ∀ v ∈ outer.uses, v ∈ blockUses vs (i :: rest)) {known' : List VarId}
    (fresh : Unwritten known' rest) (more : ∀ v, v ∈ known ∨ v ∈ (directUsage i).writes → v ∈ known') :
    ∃ step' s₃, scanInstr vs (p.newPosition k) s₂ i' = .ok (step', s₃) ∧ step'.instr = i' ∧
      step'.entry = s₂.live ∧ Same step step' ∧ Rerun c start' (k + 1) s₁ rest tail known' s₃ := by
  have usage : usage? vs i' = some step.usage := alike.usage? ▸ here.usage
  have ready : ∀ v ∈ step.uses, v ∈ s₂.live ∧ v ∉ s₂.moved := by
    intro v used
    have inBlock : v ∈ blockUses vs (i :: rest) := by
      rw [Step.uses, here.branch] at used
      exact (List.mem_append.mp used).elim (here.uses_subset) (inside v)
    obtain ⟨live, unmoved, kept⟩ := f.ready here used inBlock
    exact ⟨(emptied.live v).mpr ⟨live, kept⟩, fun gone => ((emptied.moved v).mp gone).elim unmoved kept⟩
  have newWrites := fun v => f.new_writes (v := v) here emptied moves
  obtain ⟨s₃, scanned, there⟩ := scanInstr_of_ready (p.newPosition k) usage outside
    (fun v used => ready v (by simpa [Step.uses, here.branch, uses] using used)) here.movesOnce here.writesOnce
    fun v written => ⟨(newWrites v written).1, (newWrites v written).2.1, (newWrites v written).2.2.1⟩
  refine ⟨_, s₃, scanned, rfl, rfl, ⟨here.instr.symm ▸ alike, fun v => ?_, fun v => ?_⟩, ?_⟩
  · simp [Step.uses, here.branch, uses]
  · simp [here.branch, uses]
  refine ⟨onward, ?_, fun w witness moved => f.unmoved w witness (mem_blockMoves_of_mem_rest moved), ?_, f.owned,
    fresh, ?_, here.apart f.apart, fun v => f.present_next here,
    fun v mine introduced w => f.descriptions_next here mine introduced, ?_, ?_, ?_, ?_⟩
  · obtain ⟨front, rfl, rfl⟩ := f.position
    exact ⟨front ++ [step], by simp, by simp⟩
  · intro v used
    refine f.usable v ?_
    rw [blockUses, flattenAll_cons, List.flatMap_append, List.mem_append]
    exact Or.inr used
  · intro v mine introduced
    rcases f.introduced_before introduced with earlier | written
    · exact more v (Or.inl (f.introduced v mine earlier))
    · exact more v (Or.inr ((usage?_eq_some here.usage).1 ▸ written))
  · intro v
    rw [there.live, here.live, emptied.live, f.live, moves, Plan.passed_succ]
    have new := newWrites v
    simp only [Plan.passed_succ] at new
    grind
  · intro v
    rw [there.moved, here.moved, emptied.moved, f.moved, moves, Plan.passed_succ]
    grind
  · intro v
    rw [there.movedHere, here.movedHere, emptied.movedHere, f.movedHere, mem_destroysAt]
    constructor
    · rintro (((moved | ⟨j, before, place⟩) | place) | moved)
      · exact Or.inl (Or.inl moved)
      · exact Or.inr ⟨j, by omega, place⟩
      · exact Or.inr ⟨k, by omega, place⟩
      · exact Or.inl (Or.inr moved)
    · rintro ((moved | moved) | ⟨j, before, place⟩)
      · exact Or.inl (Or.inl (Or.inl moved))
      · exact Or.inr moved
      · rcases Nat.lt_succ_iff_lt_or_eq.mp before with earlier | rfl
        · exact Or.inl (Or.inl (Or.inr ⟨j, earlier, place⟩))
        · exact Or.inl (Or.inr place)
  · rw [there.written, here.written, emptied.written, List.map_append, List.map_append, f.written]
    simp [List.map_map, Function.comp_def]

end Rerun

end WitnessLang.Ownership
