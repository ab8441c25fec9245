import WitnessLang.Proofs.Ownership.Usage
import WitnessLang.Proofs.Run

set_option autoImplicit false

namespace WitnessLang.Ownership

open Ir

theorem use_eq_ok {s : Scan} {v : VarId} : s.use v = .ok () ↔ v ∈ s.live ∧ v ∉ s.moved := by
  simp only [Scan.use]
  by_cases taken : v ∈ s.moved
  · simp [taken]
  · by_cases live : v ∈ s.live
    · simp [taken, live]
    · simp [taken, live]

/-- Taking values away succeeds for distinct variables that hold one. -/
theorem takeHere_eq_ok {s s' : Scan} {vars : List VarId} :
    s.takeHere vars = .ok s' ↔
      vars.Nodup ∧ (∀ v ∈ vars, v ∈ s.live ∧ v ∉ s.moved) ∧
        s' = { s with
          live := vars.foldl (fun live v => live.filter (· != v)) s.live
          moved := vars.reverse ++ s.moved
          movedHere := vars.reverse ++ s.movedHere } := by
  induction vars generalizing s with
  | nil =>
    simp [Scan.takeHere, eq_comm]
  | cons v rest ih =>
    rw [Scan.takeHere, Except.bind_eq_ok]
    simp only [ih, Scan.take, List.nodup_cons, List.forall_mem_cons, List.foldl_cons,
      List.reverse_cons, List.append_assoc, List.cons_append, List.nil_append]
    constructor
    · rintro ⟨⟨⟩, held, distinct, others, same⟩
      have held := use_eq_ok.mp held
      refine ⟨⟨fun again => ?_, distinct⟩, ⟨held, fun x member => ?_⟩, same⟩
      · exact (others v again).2 (List.mem_cons_self ..)
      · have := others x member
        simp only [List.mem_filter, List.mem_cons, not_or] at this
        exact ⟨this.1.1, this.2.2⟩
    · rintro ⟨⟨fresh, distinct⟩, ⟨held, others⟩, same⟩
      refine ⟨(), use_eq_ok.mpr held, distinct, fun x member => ?_, same⟩
      have other : x ≠ v := fun equal => fresh (equal ▸ member)
      simp only [List.mem_filter, bne_iff_ne, ne_eq, other, not_false_eq_true, and_true,
        List.mem_cons, false_or]
      exact others x member

theorem mem_foldl_filter {vars live : List VarId} {v : VarId} :
    v ∈ vars.foldl (fun live v => live.filter (· != v)) live ↔ v ∈ live ∧ v ∉ vars := by
  induction vars generalizing live with
  | nil => simp
  | cons x rest ih =>
    simp only [List.foldl_cons, ih, List.mem_filter, bne_iff_ne, ne_eq, List.mem_cons, not_or]
    exact and_assoc

/-- Taking away what branches consume leaves the rest of the record alone. -/
theorem foldl_take (s : Scan) (vars : List VarId) :
    vars.foldl Scan.take s =
      { s with
        live := vars.foldl (fun live v => live.filter (· != v)) s.live
        moved := vars.reverse ++ s.moved } := by
  induction vars generalizing s with
  | nil => rfl
  | cons v rest ih => simp [ih, Scan.take]

/-- Writing succeeds for distinct variables that were never written. -/
theorem write_eq_ok {position : Nat} {s s' : Scan} {vars : List VarId} :
    s.write position vars = .ok s' ↔
      vars.Nodup ∧ (∀ v ∈ vars, v ∉ s.live ∧ v ∉ s.moved) ∧
        s' = { s with
          live := vars.reverse ++ s.live
          written := s.written ++ vars.map (·, position) } := by
  induction vars generalizing s with
  | nil => simp [Scan.write, eq_comm]
  | cons v rest ih =>
    rw [Scan.write]
    by_cases known : v ∈ s.live ∨ v ∈ s.moved
    · have refused : (s.live.contains v || s.moved.contains v) = true := by simpa using known
      simp only [refused, ↓reduceIte, List.forall_mem_cons]
      constructor
      · intro impossible
        cases impossible
      · rintro ⟨-, ⟨⟨live, moved⟩, -⟩, -⟩
        exact (known.elim live moved).elim
    · have allowed : (s.live.contains v || s.moved.contains v) = false := by simpa using known
      rw [not_or] at known
      simp only [allowed, Bool.false_eq_true, ↓reduceIte, ih, List.nodup_cons,
        List.forall_mem_cons, List.reverse_cons, List.append_assoc, List.cons_append,
        List.nil_append, List.map_cons]
      constructor
      · rintro ⟨distinct, others, same⟩
        refine ⟨⟨fun again => ?_, distinct⟩, ⟨known, fun x member => ?_⟩, same⟩
        · exact (others v again).1 (List.mem_cons_self ..)
        · have := others x member
          simp only [List.mem_cons, not_or] at this
          exact ⟨this.1.2, this.2⟩
      · rintro ⟨⟨fresh, distinct⟩, ⟨-, others⟩, same⟩
        refine ⟨distinct, fun x member => ?_, same⟩
        have other : x ≠ v := fun equal => fresh (equal ▸ member)
        simp only [List.mem_cons, other, false_or]
        exact others x member

/-- What going over one instruction means: `outer` is what its branches do. -/
structure Scanned (vs : Variables) (position : Nat) (s : Scan) (i : Instr) (outer : OuterUsage)
    (step : Step) (s' : Scan) : Prop where
  usage : usage? vs i = some step.usage
  outside : branchUsage? vs i = some outer
  instr : step.instr = i
  branch : step.branch = outer.uses
  entry : step.entry = s.live
  ready : ∀ v ∈ step.uses, v ∈ s.live ∧ v ∉ s.moved
  movesOnce : step.usage.moves.Nodup
  writesOnce : step.usage.writes.Nodup
  fresh : ∀ v ∈ step.usage.writes, v ∉ s.live ∧ v ∉ s.moved ∧ v ∉ outer.moves
  live : ∀ v, v ∈ s'.live ↔
    v ∈ step.usage.writes ∨ v ∈ s.live ∧ v ∉ step.usage.moves ∧ v ∉ outer.moves
  moved : ∀ v, v ∈ s'.moved ↔ v ∈ s.moved ∨ v ∈ step.usage.moves ∨ v ∈ outer.moves
  movedHere : ∀ v, v ∈ s'.movedHere ↔ v ∈ s.movedHere ∨ v ∈ step.usage.moves
  written : s'.written = s.written ++ step.usage.writes.map (·, position)

theorem scanned_of_scanInstr {vs : Variables} {position : Nat} {s s' : Scan} {i : Instr}
    {step : Step} (scanned : scanInstr vs position s i = .ok (step, s')) :
    ∃ outer, Scanned vs position s i outer step s' := by
  simp only [scanInstr] at scanned
  split at scanned
  · rename_i u usage
    split at scanned
    · rename_i outer outside
      simp only [Except.bind_eq_ok, pure, Except.pure, Except.ok.injEq, Prod.mk.injEq] at scanned
      obtain ⟨⟨⟩, reads, ⟨⟩, inner, taken, moves, after, writes, rfl, rfl⟩ := scanned
      have reads := forM_eq_ok.mp reads
      have inner := forM_eq_ok.mp inner
      obtain ⟨movesOnce, held, rfl⟩ := takeHere_eq_ok.mp moves
      rw [foldl_take] at writes
      obtain ⟨writesOnce, unwritten, rfl⟩ := write_eq_ok.mp writes
      have fresh : ∀ v ∈ u.writes, v ∉ s.live ∧ v ∉ s.moved ∧ v ∉ outer.moves := by
        intro v member
        obtain ⟨notLive, notMoved⟩ := unwritten v member
        simp only [mem_foldl_filter, List.mem_append, List.mem_reverse, not_or] at notLive notMoved
        refine ⟨fun live => ?_, notMoved.2.2, notMoved.1⟩
        by_cases gone : v ∈ u.moves
        · exact notMoved.2.1 gone
        · exact notLive ⟨⟨live, gone⟩, notMoved.1⟩
      refine ⟨outer, ⟨usage, outside, rfl, rfl, rfl, ?_, movesOnce, writesOnce, fresh, ?_, ?_, ?_,
        rfl⟩⟩
      · intro v member
        simp only [Step.uses, List.mem_append] at member
        rcases member with (read | moved) | used
        · exact use_eq_ok.mp (reads v read)
        · exact held v moved
        · exact use_eq_ok.mp (inner v used)
      · intro v
        simp only [List.mem_append, List.mem_reverse, mem_foldl_filter]
        exact or_congr Iff.rfl and_assoc
      · intro v
        simp only [List.mem_append, List.mem_reverse]
        grind
      · intro v
        simp only [List.mem_append, List.mem_reverse]
        exact Or.comm
    · cases scanned
  · cases scanned

/-- An instruction is gone over where all that it uses is there and all that it writes is new. -/
theorem scanInstr_of_ready {vs : Variables} {s : Scan} {i : Instr} {u : Usage} {b : OuterUsage} (position : Nat)
    (usage : usage? vs i = some u) (outside : branchUsage? vs i = some b)
    (ready : ∀ v ∈ u.reads ++ u.moves ++ b.uses, v ∈ s.live ∧ v ∉ s.moved) (movesOnce : u.moves.Nodup)
    (writesOnce : u.writes.Nodup) (fresh : ∀ v ∈ u.writes, v ∉ s.live ∧ v ∉ s.moved ∧ v ∉ b.moves) :
    ∃ s', scanInstr vs position s i = .ok (⟨i, u, b.uses, s.live⟩, s') ∧
      Scanned vs position s i b ⟨i, u, b.uses, s.live⟩ s' := by
  have takes := (takeHere_eq_ok (s := s)).mpr
    ⟨movesOnce, fun v moved => ready v (by simp [moved]), rfl⟩
  have writes := (@write_eq_ok position (b.moves.foldl Scan.take
    { s with
      live := u.moves.foldl (fun live v => live.filter (· != v)) s.live
      moved := u.moves.reverse ++ s.moved
      movedHere := u.moves.reverse ++ s.movedHere }) _ _).mpr ⟨writesOnce, fun v written => by
        have unmoved : v ∉ u.moves := fun moved => (fresh v written).1 (ready v (by simp [moved])).1
        rw [foldl_take]
        simp only [mem_foldl_filter, List.mem_append, List.mem_reverse]
        have := fresh v written
        tauto, rfl⟩
  have done : ∃ s', scanInstr vs position s i = .ok (⟨i, u, b.uses, s.live⟩, s') := by
    simp only [scanInstr, usage, outside]
    rw [forM_eq_ok.mpr fun v read => use_eq_ok.mpr (ready v (by simp [read])),
      forM_eq_ok.mpr fun v used => use_eq_ok.mpr (ready v (by simp [used]))]
    simp only [bind, Except.bind, takes, writes]
    exact ⟨_, rfl⟩
  obtain ⟨s', scanned⟩ := done
  obtain ⟨outer, here⟩ := scanned_of_scanInstr scanned
  obtain rfl : b = outer := Option.some.inj (outside.symm.trans here.outside)
  exact ⟨s', scanned, here⟩

theorem scanBlock_nil {vs : Variables} {position : Nat} {s s' : Scan} {steps : List Step}
    (scanned : scanBlock vs position s [] = .ok (steps, s')) : steps = [] ∧ s' = s := by
  simp only [scanBlock, Except.ok.injEq, Prod.mk.injEq] at scanned
  exact ⟨scanned.1.symm, scanned.2.symm⟩

theorem scanBlock_cons {vs : Variables} {position : Nat} {s s'' : Scan} {i : Instr}
    {rest : Block} {steps : List Step}
    (scanned : scanBlock vs position s (i :: rest) = .ok (steps, s'')) :
    ∃ outer step s' tail, Scanned vs position s i outer step s' ∧
      scanBlock vs (position + 1) s' rest = .ok (tail, s'') ∧ steps = step :: tail := by
  simp only [scanBlock, Except.bind_eq_ok, pure, Except.pure, Except.ok.injEq,
    Prod.mk.injEq] at scanned
  obtain ⟨⟨step, s'⟩, first, ⟨tail, last⟩, onward, rfl, rfl⟩ := scanned
  obtain ⟨outer, here⟩ := scanned_of_scanInstr first
  exact ⟨outer, step, s', tail, here, onward, rfl⟩

section Block

variable {vs : Variables} {position : Nat} {s s' : Scan} {block : Block} {steps : List Step}

/-- Each step is that of the instruction at its position. -/
theorem step_at (scanned : scanBlock vs position s block = .ok (steps, s')) {j : Nat}
    {step : Step} (found : steps[j]? = some step) :
    block[j]? = some step.instr ∧ usage? vs step.instr = some step.usage ∧
      ∃ outer, branchUsage? vs step.instr = some outer ∧ step.branch = outer.uses := by
  induction block generalizing position s steps j with
  | nil => simp [(scanBlock_nil scanned).1] at found
  | cons i rest ih =>
    obtain ⟨outer, first, s₁, tail, here, onward, rfl⟩ := scanBlock_cons scanned
    cases j with
    | zero =>
      obtain rfl : first = step := by simpa using found
      rw [here.instr]
      exact ⟨rfl, here.usage, outer, here.outside, here.branch⟩
    | succ j => simpa using ih onward (by simpa using found)

/-- A variable that was ever written is not written again. -/
theorem not_written_again (scanned : scanBlock vs position s block = .ok (steps, s')) {v : VarId}
    (known : v ∈ s.live ∨ v ∈ s.moved) : ∀ step ∈ steps, v ∉ step.usage.writes := by
  induction block generalizing position s steps with
  | nil => simp [(scanBlock_nil scanned).1]
  | cons i rest ih =>
    obtain ⟨outer, step, s₁, tail, here, onward, rfl⟩ := scanBlock_cons scanned
    rw [List.forall_mem_cons]
    refine ⟨fun written => ?_, ih onward ?_⟩
    · exact known.elim (here.fresh v written).1 (here.fresh v written).2.1
    · rw [here.live, here.moved]
      grind

/-- What is gone is not used any more. -/
theorem not_used_after (scanned : scanBlock vs position s block = .ok (steps, s')) {v : VarId}
    (gone : v ∈ s.moved) : ∀ step ∈ steps, v ∉ step.uses := by
  induction block generalizing position s steps with
  | nil => simp [(scanBlock_nil scanned).1]
  | cons i rest ih =>
    obtain ⟨outer, step, s₁, tail, here, onward, rfl⟩ := scanBlock_cons scanned
    rw [List.forall_mem_cons]
    exact ⟨fun used => (here.ready v used).2 gone, ih onward ((here.moved v).mpr (Or.inl gone))⟩

/-- A variable is written before it is used. -/
theorem written_before_used (scanned : scanBlock vs position s block = .ok (steps, s'))
    {j k : Nat} {writer user : Step} {v : VarId} (writes : steps[j]? = some writer)
    (uses : steps[k]? = some user) (written : v ∈ writer.usage.writes) (used : v ∈ user.uses) :
    j < k := by
  induction block generalizing position s steps j k with
  | nil => simp [(scanBlock_nil scanned).1] at writes
  | cons i rest ih =>
    obtain ⟨outer, step, s₁, tail, here, onward, rfl⟩ := scanBlock_cons scanned
    cases k with
    | zero =>
      -- used by the first instruction, so it held a value from the start
      obtain rfl : step = user := by simpa using uses
      have live := (here.ready v used).1
      have again := not_written_again scanned (Or.inl live) writer (List.mem_of_getElem? writes)
      exact absurd written again
    | succ k =>
      cases j with
      | zero => exact Nat.succ_pos k
      | succ j => exact Nat.succ_lt_succ (ih onward (by simpa using writes) (by simpa using uses))

/-- After a branch took a variable away, it is not used any more. -/
theorem used_before_taken (scanned : scanBlock vs position s block = .ok (steps, s'))
    {j k : Nat} {taker user : Step} {outer : OuterUsage} {v : VarId}
    (takes : steps[j]? = some taker) (uses : steps[k]? = some user)
    (outside : branchUsage? vs taker.instr = some outer) (taken : v ∈ outer.moves)
    (used : v ∈ user.uses) : k ≤ j := by
  induction block generalizing position s steps j k with
  | nil => simp [(scanBlock_nil scanned).1] at takes
  | cons i rest ih =>
    obtain ⟨outer', step, s₁, tail, here, onward, rfl⟩ := scanBlock_cons scanned
    cases k with
    | zero => exact Nat.zero_le j
    | succ k =>
      cases j with
      | zero =>
        obtain rfl : step = taker := by simpa using takes
        rw [here.instr, here.outside] at outside
        obtain rfl := Option.some.inj outside
        have gone : v ∈ s₁.moved := (here.moved v).mpr (Or.inr (Or.inr taken))
        have member : user ∈ tail := List.mem_of_getElem? (by simpa using uses)
        exact absurd used (not_used_after onward gone user member)
      | succ j => exact Nat.succ_le_succ (ih onward (by simpa using takes) (by simpa using uses))

theorem mem_written (scanned : scanBlock vs position s block = .ok (steps, s')) {v : VarId}
    {k : Nat} :
    (v, k) ∈ s'.written ↔
      (v, k) ∈ s.written ∨ ∃ j step, steps[j]? = some step ∧ k = position + j ∧
        v ∈ step.usage.writes := by
  induction block generalizing position s steps with
  | nil =>
    obtain ⟨rfl, rfl⟩ := scanBlock_nil scanned
    simp
  | cons i rest ih =>
    obtain ⟨outer, step, s₁, tail, here, onward, rfl⟩ := scanBlock_cons scanned
    rw [ih onward, here.written]
    simp only [List.mem_append, List.mem_map, Prod.mk.injEq]
    constructor
    · rintro ((before | ⟨x, written, rfl, rfl⟩) | ⟨j, step', found, rfl, written⟩)
      · exact Or.inl before
      · exact Or.inr ⟨0, step, rfl, rfl, written⟩
      · exact Or.inr ⟨j + 1, step', by simpa using found, by omega, written⟩
    · rintro (before | ⟨j, step', found, rfl, written⟩)
      · exact Or.inl (Or.inl before)
      · cases j with
        | zero =>
          obtain rfl : step = step' := by simpa using found
          exact Or.inl (Or.inr ⟨v, written, rfl, rfl⟩)
        | succ j => exact Or.inr ⟨j, step', by simpa using found, by omega, written⟩

/-- Each variable is written by one instruction, and stands once in the record of writes. -/
theorem written_nodup (scanned : scanBlock vs position s block = .ok (steps, s'))
    (once : (s.written.map (·.1)).Nodup)
    (known : ∀ v ∈ s.written.map (·.1), v ∈ s.live ∨ v ∈ s.moved) :
    (s'.written.map (·.1)).Nodup := by
  induction block generalizing position s steps with
  | nil =>
    obtain ⟨rfl, rfl⟩ := scanBlock_nil scanned
    exact once
  | cons i rest ih =>
    obtain ⟨outer, step, s₁, tail, here, onward, rfl⟩ := scanBlock_cons scanned
    have names : s₁.written.map (·.1) = s.written.map (·.1) ++ step.usage.writes := by
      simp [here.written, List.map_map, Function.comp_def]
    refine ih onward ?_ ?_
    · rw [names, List.nodup_append]
      refine ⟨once, here.writesOnce, ?_⟩
      rintro v before _ written rfl
      exact (known v before).elim (here.fresh v written).1 (here.fresh v written).2.1
    · intro v member
      rw [names, List.mem_append] at member
      rw [here.live, here.moved]
      grind

theorem mem_movedHere (scanned : scanBlock vs position s block = .ok (steps, s')) {v : VarId} :
    v ∈ s'.movedHere ↔ v ∈ s.movedHere ∨ ∃ step ∈ steps, v ∈ step.usage.moves := by
  induction block generalizing position s steps with
  | nil =>
    obtain ⟨rfl, rfl⟩ := scanBlock_nil scanned
    simp
  | cons i rest ih =>
    obtain ⟨outer, step, s₁, tail, here, onward, rfl⟩ := scanBlock_cons scanned
    rw [ih onward, here.movedHere]
    simp only [List.mem_cons, exists_eq_or_imp]
    exact or_assoc

end Block

end WitnessLang.Ownership
