import Mathlib.Tactic.IntervalCases
import WitnessLang.Proofs.Build.Lowered
import WitnessLang.Proofs.Token.Partition

set_option autoImplicit false

/-! Runs that stop early. Up to the stage at which the shorter of two runs stops they are one and the same run, and
what the longer one does then leaves the trees before it as they are. Whether a stage has failed is only to be seen
from the findings that have been kept, of which there are none until a stage fails. -/
namespace WitnessLang.Build

/-- The number of stages up to the last one that succeeded. -/
def Stage.passed : Option Stage → Nat
  | none => 0
  | some st => st.index + 1

def Trees.Holds (t : Trees) : Stage → Prop
  | .parse => t.surface.isSome = true
  | .resolve => t.resolved.isSome = true
  | .check => t.typed.isSome = true
  | .pass => t.explicit.isSome = true
  | .measure => t.sized.isSome = true
  | .lower => t.lowered.isSome = true
  | .count => t.counted.isSome = true

def Trees.Same (t t' : Trees) : Stage → Prop
  | .parse => t.surface = t'.surface
  | .resolve => t.resolved = t'.resolved
  | .check => t.typed = t'.typed
  | .pass => t.explicit = t'.explicit
  | .measure => t.sized = t'.sized
  | .lower => t.lowered = t'.lowered
  | .count => t.counted = t'.counted

/-- The stage is the one whose time has been taken last, as that of a failure. -/
def Outcome.FailsIn (r : Outcome) (st : Stage) : Prop :=
  r.phases.getLast? = some ⟨st.name, r.path ++ ": failed"⟩

/-- All stages before number `n` have succeeded, and no other has run. -/
structure Outcome.Ready (n : Nat) (r : Outcome) : Prop where
  clean : r.bag.items = []
  room : 0 < r.bag.limit
  passed : Stage.passed r.reached = n
  trees : ∀ st, r.trees.Holds st ↔ st.index < n
  phases : ∀ p ∈ r.phases, p.note = r.path

/-- Stage number `n` has failed, and all stages before have succeeded. -/
structure Outcome.Fallen (n : Nat) (r : Outcome) : Prop where
  failed : r.failed = true
  passed : Stage.passed r.reached = n
  trees : ∀ st, r.trees.Holds st ↔ st.index < n ∨ st = .parse
  failsIn : ∃ st, st.index = n ∧ r.FailsIn st

section Trees

variable {t t' t'' : Trees} {st : Stage}

theorem Trees.Same.refl (t : Trees) (st : Stage) : t.Same t st := by
  cases st <;> rfl

theorem Trees.Same.trans (first : t.Same t' st) (second : t'.Same t'' st) : t.Same t'' st := by
  cases st <;> exact Eq.trans first second

end Trees

section Findings

/-- Every failure that has not been reported on the way is reported as an error. -/
theorem Failure.diagnostic?_error (f : Failure) (functions : List Ir.Function) (other : f ≠ .reported) :
    ∃ d, f.diagnostic? functions = some d ∧ d.severity = .error := by
  cases f with
  | reported => exact absurd rfl other
  | parsing e =>
    refine ⟨_, rfl, ?_⟩
    split <;> rfl
  | resolving e =>
    rw [Failure.diagnostic?]
    split <;> exact ⟨_, rfl, rfl⟩
  | checking e =>
    rw [Failure.diagnostic?]
    split <;> exact ⟨_, rfl, rfl⟩
  | _ => exact ⟨_, rfl, rfl⟩

/-- Whatever is found in the characters of a file is an error. -/
theorem lexicalFindings_error (file : SourceFile) : ∀ d ∈ file.lexicalFindings, d.severity = .error := by
  intro d member
  rcases (file.words_cut.reported d member).2 with ⟨c, same, -⟩ | ⟨t, -, -, same⟩
  · rw [same]
    rfl
  · rw [same]
    rfl

variable {b : Bag} {d : Diagnostic} {ds : List Diagnostic}

theorem hasErrors_add (errors : b.hasErrors = true) : (b.add d).hasErrors = true := by
  rw [Bag.add]
  split
  · simp only [Bag.hasErrors, List.any_append] at errors ⊢
    rw [errors, Bool.true_or]
  · exact errors

theorem hasErrors_addAll (errors : b.hasErrors = true) : (b.addAll ds).hasErrors = true := by
  induction ds generalizing b with
  | nil => exact errors
  | cons d ds ih => exact ih (hasErrors_add errors)

/-- An empty bag has room for an error. -/
theorem hasErrors_add_error (clean : b.items = []) (room : 0 < b.limit) (error : d.severity = .error) :
    (b.add d).hasErrors = true := by
  have fits : b.hasRoom = true := by simp [Bag.hasRoom, clean, room]
  rw [Bag.add, if_pos fits]
  simp [Bag.hasErrors, clean, error, Severity.error]

/-- What a stage found, or its failure, is kept as an error, however few findings are. -/
theorem failed_afterStage {r : Outcome} {st : Stage} {s : StageResult} {f : Failure} (clean : r.bag.items = [])
    (room : 0 < r.bag.limit) (failure : s.failure = some f) (errors : ∀ d ∈ s.findings, d.severity = .error)
    (reported : f = .reported → s.findings ≠ []) : (r.afterStage st s).failed = true := by
  rw [Outcome.afterStage, failure, Outcome.failed]
  dsimp only
  cases found : s.findings with
  | nil =>
    have other : f ≠ .reported := fun same => reported same found
    rw [Outcome.report]
    obtain ⟨d, same, error⟩ := f.diagnostic?_error ((s.trees.lowered.map (·.functions)).getD []) other
    simp only [same]
    exact hasErrors_add_error clean room error
  | cons d ds =>
    have kept : (r.bag.addAll (d :: ds)).hasErrors = true :=
      hasErrors_addAll (b := r.bag.add d) (hasErrors_add_error clean room (errors d (found ▸ List.mem_cons_self)))
    rw [Outcome.report]
    split
    · exact hasErrors_add kept
    · exact kept

end Findings

section Stages

variable {o : Options} {file : SourceFile} {t : Trees} {s : StageResult} {st : Stage}

/-- What a stage does to the trees before it and to its own, and what it finds. -/
structure StageResult.Adds (t : Trees) (st : Stage) (s : StageResult) : Prop where
  same : ∀ st', st'.index < st.index → t.Same s.trees st'
  errors : ∀ d ∈ s.findings, d.severity = .error
  done : s.failure = none → s.findings = [] ∧ ∀ st', s.trees.Holds st' ↔ st'.index < st.index + 1
  failed : ∀ f, s.failure = some f → (f = .reported → s.findings ≠ []) ∧
    ∀ st', s.trees.Holds st' ↔ st'.index < st.index ∨ st' = .parse

def Trees.Upto (t : Trees) (n : Nat) : Prop := ∀ st, t.Holds st ↔ st.index < n

theorem Stage.index_inj {st st' : Stage} (same : st.index = st'.index) : st = st' := by
  cases st <;> cases st' <;> first | rfl | exact absurd same (by decide)

theorem Trees.Same.holds_iff {t t' : Trees} {st : Stage} (same : t.Same t' st) : t'.Holds st ↔ t.Holds st := by
  cases st <;> simp only [Trees.Same] at same <;> simp only [Trees.Holds, same]

/-- A stage that builds its tree and leaves the others as they are. -/
theorem adds_done (upto : t.Upto st.index) (trees : ∀ st', st' ≠ st → t.Same s.trees st') (own : s.trees.Holds st)
    (failure : s.failure = none) (findings : s.findings = []) : s.Adds t st where
  same st' early := trees st' fun same => absurd (same ▸ early) (Nat.lt_irrefl _)
  errors := by simp [findings]
  failed := by simp [failure]
  done _ := by
    refine ⟨findings, fun st' => ?_⟩
    by_cases same : st' = st
    · subst same
      exact iff_of_true own (Nat.lt_succ_self _)
    · have distinct : st'.index ≠ st.index := fun numbers => same (Stage.index_inj numbers)
      rw [(trees st' same).holds_iff, upto st']
      omega

/-- A stage behind the first that fails, and leaves the trees as they are. -/
theorem adds_failed {f : Failure} (upto : t.Upto st.index) (later : st ≠ .parse) (trees : ∀ st', t.Same s.trees st')
    (failure : s.failure = some f) (other : f ≠ .reported) (findings : s.findings = []) : s.Adds t st where
  same st' _ := trees st'
  errors := by simp [findings]
  done := by simp [failure]
  failed f' failure' := by
    obtain rfl : f = f' := by simpa [failure] using failure'
    refine ⟨fun same => absurd same other, fun st' => ?_⟩
    rw [(trees st').holds_iff, upto st']
    refine ⟨Or.inl, fun held => held.elim id fun first => ?_⟩
    have distinct : st.index ≠ Stage.parse.index := fun numbers => later (Stage.index_inj numbers)
    rw [first]
    exact Nat.pos_of_ne_zero distinct

/-- The surface tree is there whether or not the first stage fails. -/
theorem parsed_adds (upto : t.Upto 0) : (parsed file t).Adds t .parse := by
  have held : ∀ st', (parsed file t).trees.Holds st' ↔ st' = .parse := by
    intro st'
    have absent : ¬ t.Holds st' := fun held => Nat.not_lt_zero _ ((upto st').mp held)
    cases st' <;> simp_all [parsed, Trees.Holds]
  have first : ∀ st' : Stage, st'.index < 1 ↔ st' = .parse := by
    intro st'
    cases st' <;> decide
  refine ⟨fun st' early => absurd early (Nat.not_lt_zero _), lexicalFindings_error file, fun fine => ⟨?_, fun st' => ?_⟩,
    fun f failure => ⟨fun reported => ?_, fun st' => ?_⟩⟩
  · rw [parsed] at fine ⊢
    dsimp only at fine ⊢
    split at fine
    · cases fine
    · split at fine
      · exact List.isEmpty_iff.mp ‹_›
      · cases fine
  · rw [held st', ← first st']
    rfl
  · subst reported
    rw [parsed] at failure ⊢
    dsimp only at failure ⊢
    split at failure
    · cases failure
    · split at failure
      · cases failure
      · exact fun none => ‹¬ _› (List.isEmpty_iff.mpr none)
  · rw [held st']
    exact ⟨Or.inr, fun held => held.resolve_left (Nat.not_lt_zero _)⟩

theorem resolve_adds (upto : t.Upto 1) : (resolve o.unit t).Adds t .resolve := by
  have surface : t.surface.isSome = true := (upto .parse).mpr (by decide)
  rw [resolve]
  split
  · rename_i none
    rw [none] at surface
    cases surface
  · split
    · refine adds_done upto (fun st' other => ?_) rfl rfl rfl
      cases st' <;> first | rfl | exact absurd rfl other
    · refine adds_failed upto (by decide) (fun st' => ?_) rfl (by simp) rfl
      cases st' <;> rfl

theorem check_adds (upto : t.Upto 2) : (check t).Adds t .check := by
  have resolved : t.resolved.isSome = true := (upto .resolve).mpr (by decide)
  rw [check]
  split
  · rename_i none
    rw [none] at resolved
    cases resolved
  · split
    · refine adds_done upto (fun st' other => ?_) rfl rfl rfl
      cases st' <;> first | rfl | exact absurd rfl other
    · exact adds_failed upto (by decide) (fun st' => .refl _ _) rfl (by simp) rfl

theorem pass_adds (upto : t.Upto 3) : (pass t).Adds t .pass := by
  have typed : t.typed.isSome = true := (upto .check).mpr (by decide)
  refine adds_done upto (fun st' other => ?_) ?_ rfl rfl
  · cases st' <;> first | rfl | exact absurd rfl other
  · simpa [pass, Trees.Holds] using typed

theorem measure_adds (upto : t.Upto 4) (ran : measure o.target t = .ok s) : s.Adds t .measure := by
  have explicit : t.explicit.isSome = true := (upto .pass).mpr (by decide)
  rw [measure] at ran
  split at ran
  · rename_i none
    rw [none] at explicit
    cases explicit
  · split at ran
    · obtain rfl := Except.ok.inj ran
      refine adds_done upto (fun st' other => ?_) rfl rfl rfl
      cases st' <;> first | rfl | exact absurd rfl other
    · obtain rfl := Except.ok.inj ran
      exact adds_failed upto (by decide) (fun st' => .refl _ _) rfl (by simp) rfl
    · cases ran
    · cases ran

theorem lower_adds (upto : t.Upto 5) (ran : lower t = .ok s) : s.Adds t .lower := by
  have sized : t.sized.isSome = true := (upto .measure).mpr (by decide)
  rw [lower] at ran
  split at ran
  · rename_i none
    rw [none] at sized
    cases sized
  · split at ran
    · obtain rfl := Except.ok.inj ran
      exact adds_failed upto (by decide) (fun st' => .refl _ _) rfl (by simp) rfl
    · cases ran
    · split at ran
      · obtain rfl := Except.ok.inj ran
        refine adds_done upto (fun st' other => ?_) rfl rfl rfl
        cases st' <;> first | rfl | exact absurd rfl other
      · obtain rfl := Except.ok.inj ran
        exact adds_failed upto (by decide) (fun st' => .refl _ _) rfl (by simp) rfl
      · cases ran

theorem count_adds (upto : t.Upto 6) (ran : count t = .ok s) : s.Adds t .count := by
  have lowered : t.lowered.isSome = true := (upto .lower).mpr (by decide)
  rw [count] at ran
  split at ran
  · rename_i none
    rw [none] at lowered
    cases lowered
  · obtain ⟨results, -, ran⟩ := Except.bind_eq_ok.mp ran
    split at ran
    · obtain rfl := Except.ok.inj ran
      refine adds_done upto (fun st' other => ?_) rfl rfl rfl
      cases st' <;> first | rfl | exact absurd rfl other
    · obtain rfl := Except.ok.inj ran
      exact adds_failed upto (by decide) (fun st' => .refl _ _) rfl (by simp) rfl

theorem runStage_adds (upto : t.Upto st.index) (ran : runStage o file t st = .ok s) : s.Adds t st := by
  cases st with
  | parse =>
    obtain ⟨-, rfl⟩ := parse_eq_ok.mp ran
    exact parsed_adds upto
  | resolve =>
    obtain rfl := Except.ok.inj ran
    exact resolve_adds upto
  | check =>
    obtain rfl := Except.ok.inj ran
    exact check_adds upto
  | pass =>
    obtain rfl := Except.ok.inj ran
    exact pass_adds upto
  | measure => exact measure_adds upto ran
  | lower => exact lower_adds upto ran
  | count => exact count_adds upto ran

end Stages

section Runs

variable {o : Options} {r q : Outcome} {st s s' : Stage} {d : StageResult} {n : Nat}

/-- The same wishes for a run that stops at a stage. -/
def Options.until (o : Options) (s : Stage) : Options := { o with stop := s }

theorem report_eq (r : Outcome) (f : Failure) : ∃ bag, r.report f = { r with bag := bag } := by
  rw [Outcome.report]
  split
  · exact ⟨_, rfl⟩
  · exact ⟨r.bag, rfl⟩

theorem Outcome.Ready.not_failed (ready : r.Ready n) : r.failed = false := by
  rw [Outcome.failed, Bag.hasErrors, ready.clean]
  rfl

theorem Outcome.Ready.announced (ready : r.Ready n) (events : List Event) :
    Outcome.Ready n { r with events := events } :=
  ⟨ready.clean, ready.room, ready.passed, ready.trees, ready.phases⟩

/-- A stage that succeeds is followed by the next one. -/
theorem afterStage_ready (ready : r.Ready st.index) (adds : d.Adds r.trees st) (fine : d.failure = none) :
    (r.afterStage st d).Ready (st.index + 1) := by
  obtain ⟨findings, trees⟩ := adds.done fine
  rw [Outcome.afterStage, fine, findings]
  refine ⟨ready.clean, ready.room, rfl, trees, fun p member => ?_⟩
  rcases List.mem_append.mp member with before | last
  · exact ready.phases p before
  · rw [List.mem_singleton.mp last]
    rfl

/-- A stage that fails is the last one. -/
theorem afterStage_fallen {f : Failure} (ready : r.Ready st.index) (adds : d.Adds r.trees st)
    (failure : d.failure = some f) : (r.afterStage st d).Fallen st.index := by
  obtain ⟨reported, trees⟩ := adds.failed f failure
  have failed : (r.afterStage st d).failed = true :=
    failed_afterStage ready.clean ready.room failure adds.errors reported
  rw [Outcome.afterStage, failure] at failed ⊢
  dsimp only at failed ⊢
  obtain ⟨bag, same⟩ := report_eq (f := f) _
  rw [same] at failed ⊢
  exact ⟨failed, ready.passed, trees, st, rfl, by simp [Outcome.FailsIn]⟩

theorem exists_stage (small : n ≤ s.index) : ∃ st : Stage, st.index = n := by
  have bound : s.index ≤ 6 := by cases s <;> decide
  have small : n < 7 := by omega
  interval_cases n
  · exact ⟨.parse, rfl⟩
  · exact ⟨.resolve, rfl⟩
  · exact ⟨.check, rfl⟩
  · exact ⟨.pass, rfl⟩
  · exact ⟨.measure, rfl⟩
  · exact ⟨.lower, rfl⟩
  · exact ⟨.count, rfl⟩

theorem drop_index (st : Stage) : Stage.all.drop st.index = st :: Stage.all.drop (st.index + 1) := by
  cases st <;> rfl

/-- One stage, and those behind it unless it fails or is the last one asked for. -/
theorem runStages_step (working : o.cancelled = false) (s st : Stage) (r : Outcome) :
    runStages (o.until s) (Stage.all.drop st.index) r = runStage o r.file r.trees st >>= fun d =>
      if d.failure.isSome || decide (st = s) then .ok ((r.announce st).afterStage st d)
      else runStages (o.until s) (Stage.all.drop (st.index + 1)) ((r.announce st).afterStage st d) := by
  have same : runStage (o.until s) r.file r.trees st = runStage o r.file r.trees st := by
    cases st <;> rfl
  have going : ¬ (o.until s).cancelled = true := by simp [Options.until, working]
  rw [drop_index, runStages, if_neg going, ← same]
  rfl

/-- A stage fails, and then is the last one, or succeeds. The trees before stay as they are. -/
theorem afterStage_cases (ready : r.Ready st.index) (ran : runStage o r.file r.trees st = .ok d) :
    (d.failure.isSome = true ∧ ((r.announce st).afterStage st d).Fallen st.index ∨
      d.failure.isSome = false ∧ ((r.announce st).afterStage st d).Ready (st.index + 1)) ∧
      ∀ st' : Stage, st'.index < st.index → r.trees.Same ((r.announce st).afterStage st d).trees st' := by
  have adds := runStage_adds ready.trees ran
  have ready' : (r.announce st).Ready st.index := ready.announced _
  refine ⟨?_, fun st' early => ?_⟩
  · cases failure : d.failure with
    | none => exact Or.inr ⟨rfl, afterStage_ready ready' adds failure⟩
    | some f => exact Or.inl ⟨rfl, afterStage_fallen ready' adds failure⟩
  · rw [(afterStage_trees (r.announce st) st d).1]
    exact adds.same st' early

/-- How a run ends from where all stages before number `n` have succeeded: one of the others fails, or the last one
asked for succeeds. The trees before stay as they are. The induction is on how far the last one is away. -/
theorem runStages_ends (working : o.cancelled = false) {k : Nat} (ready : r.Ready n) (here : n + k = s.index)
    (ran : runStages (o.until s) (Stage.all.drop n) r = .ok q) :
    ((∃ m, n ≤ m ∧ m ≤ s.index ∧ q.Fallen m) ∨ q.Ready (s.index + 1)) ∧
      ∀ st : Stage, st.index < n → r.trees.Same q.trees st := by
  induction k generalizing n r with
  | zero =>
    obtain rfl : n = s.index := here
    rw [runStages_step working, Except.bind_eq_ok] at ran
    obtain ⟨d, stage, ran⟩ := ran
    rw [if_pos (by simp)] at ran
    obtain rfl := Except.ok.inj ran
    obtain ⟨cases, trees⟩ := afterStage_cases ready stage
    refine ⟨?_, trees⟩
    rcases cases with ⟨-, fallen⟩ | ⟨-, ready'⟩
    · exact Or.inl ⟨s.index, Nat.le_refl _, Nat.le_refl _, fallen⟩
    · exact Or.inr ready'
  | succ k ih =>
    obtain ⟨st, rfl⟩ := exists_stage (show n ≤ s.index by omega)
    have other : st ≠ s := by
      rintro rfl
      omega
    rw [runStages_step working, Except.bind_eq_ok] at ran
    obtain ⟨d, stage, ran⟩ := ran
    obtain ⟨cases, trees⟩ := afterStage_cases ready stage
    rcases cases with ⟨failure, fallen⟩ | ⟨fine, ready'⟩
    · rw [if_pos (by simp [failure])] at ran
      obtain rfl := Except.ok.inj ran
      exact ⟨Or.inl ⟨st.index, Nat.le_refl _, by omega, fallen⟩, trees⟩
    · rw [if_neg (by simp [fine, other])] at ran
      obtain ⟨ends, trees'⟩ := ih ready' (by omega) ran
      refine ⟨?_, fun st' early => (trees st' early).trans (trees' st' (by omega))⟩
      rcases ends with ⟨m, late, early, fallen⟩ | reached
      · exact Or.inl ⟨m, by omega, early, fallen⟩
      · exact Or.inr reached

/-- A run goes through all that a run which stops earlier goes through, and then on unless a stage has failed. -/
theorem runStages_prefix (working : o.cancelled = false) (order : s.index ≤ s'.index) {k : Nat} (ready : r.Ready n)
    (here : n + k = s.index) :
    runStages (o.until s') (Stage.all.drop n) r = runStages (o.until s) (Stage.all.drop n) r >>= fun q =>
      if q.failed || decide (s = s') then .ok q
      else runStages (o.until s') (Stage.all.drop (s.index + 1)) q := by
  induction k generalizing n r with
  | zero =>
    obtain rfl : n = s.index := here
    rw [runStages_step working, runStages_step working]
    cases stage : runStage o r.file r.trees s with
    | error c => rfl
    | ok d =>
      rcases (afterStage_cases ready stage).1 with ⟨failure, fallen⟩ | ⟨fine, ready'⟩
      · simp [bind, Except.bind, failure, fallen.failed]
      · simp [bind, Except.bind, fine, ready'.not_failed]
  | succ k ih =>
    obtain ⟨st, rfl⟩ := exists_stage (show n ≤ s.index by omega)
    have other : st ≠ s := by
      rintro rfl
      omega
    have other' : st ≠ s' := by
      rintro rfl
      omega
    rw [runStages_step working, runStages_step working]
    cases stage : runStage o r.file r.trees st with
    | error c => rfl
    | ok d =>
      rcases (afterStage_cases ready stage).1 with ⟨failure, fallen⟩ | ⟨fine, ready'⟩
      · simp [bind, Except.bind, failure, fallen.failed]
      · have later := ih ready' (by omega)
        simp only [bind, Except.bind, fine, other, other', decide_false, Bool.or_false, Bool.false_eq_true, if_false]
        exact later

theorem passed_eq {reached : Option Stage} (same : Stage.passed reached = st.index + 1) : reached = some st := by
  cases reached with
  | none => cases same
  | some st' => rw [Stage.index_inj (Nat.succ.inj same)]

theorem Outcome.Ready.not_failsIn (ready : r.Ready n) : ¬ r.FailsIn st := by
  intro fails
  have note : r.path ++ ": failed" = r.path := ready.phases _ (List.mem_of_getLast? fails)
  have lengths := congrArg String.length note
  rw [String.length_append] at lengths
  have some : (": failed" : String).length = 8 := by decide
  omega

theorem Outcome.Fallen.failsIn_iff (fallen : r.Fallen n) : r.FailsIn st ↔ st.index = n := by
  obtain ⟨st', rfl, fails⟩ := fallen.failsIn
  constructor
  · intro fails'
    have names : st'.name = st.name := congrArg Phase.name (Option.some.inj (fails.symm.trans fails'))
    cases st <;> cases st' <;> first | rfl | exact absurd names (by decide)
  · intro numbers
    rwa [Stage.index_inj numbers]

/-- What a run that stops at a stage at the latest shows of itself. -/
structure Outcome.Settled (stop : Stage) (r : Outcome) : Prop where
  failed_iff : r.failed = true ↔ r.reached ≠ some stop
  failsIn_iff : ∀ st, r.FailsIn st ↔ r.failed = true ∧ st.index = Stage.passed r.reached
  trees : ∀ st, r.trees.Holds st ↔ st.index < Stage.passed r.reached ∨ st = .parse

structure Outcome.Begins (s : Stage) (r r' : Outcome) : Prop where
  trees : ∀ st : Stage, st.index ≤ s.index → r.trees.Same r'.trees st
  failed_iff : r.failed = true ↔ ∃ st : Stage, st.index ≤ s.index ∧ r'.FailsIn st
  alike : r.failed = true → r.reached = r'.reached ∧ r.bag = r'.bag

theorem Outcome.Fallen.settled (fallen : r.Fallen n) (early : n ≤ s.index) : r.Settled s := by
  refine ⟨iff_of_true fallen.failed fun reached => ?_, fun st => ?_, ?_⟩
  · have passed := fallen.passed
    rw [reached] at passed
    simp only [Stage.passed] at passed
    omega
  · rw [fallen.failsIn_iff, fallen.passed]
    exact (and_iff_right fallen.failed).symm
  · rw [fallen.passed]
    exact fallen.trees

theorem Outcome.Ready.settled (ready : r.Ready (s.index + 1)) : r.Settled s := by
  have reached := passed_eq ready.passed
  refine ⟨?_, fun st => iff_of_false ready.not_failsIn ?_, fun st => ?_⟩
  · simp [ready.not_failed, reached]
  · simp [ready.not_failed]
  · rw [ready.passed, ready.trees st]
    refine ⟨Or.inl, fun held => held.elim id fun first => ?_⟩
    rw [first]
    exact Nat.succ_pos _

theorem Outcome.Settled.conclude (settled : r.Settled s) : r.conclude.Settled s :=
  ⟨settled.failed_iff, settled.failsIn_iff, settled.trees⟩

theorem Outcome.Begins.conclude (begins : r.Begins s q) : r.conclude.Begins s q.conclude :=
  ⟨begins.trees, begins.failed_iff, begins.alike⟩

theorem compileFile_until_eq (o : Options) (s : Stage) (files : FileSet) (file : SourceFile) :
    compileFile (o.until s) files file =
      runStages (o.until s) (Stage.all.drop 0) (beginning o files file) >>= fun r => .ok r.conclude :=
  compileFile_eq (o.until s) files file

theorem beginning_ready (o : Options) (files : FileSet) (file : SourceFile) : (beginning o files file).Ready 0 := by
  refine ⟨rfl, ?_, rfl, fun st => ?_, List.forall_mem_nil _⟩
  · change 0 < if o.maxDiagnostics ≤ 0 then 100 else o.maxDiagnostics.toNat
    split <;> omega
  · cases st <;> simp [beginning, Trees.Holds]

theorem Outcome.Fallen.begins (fallen : r.Fallen n) (early : n ≤ s.index) : r.Begins s r where
  trees st _ := .refl _ st
  failed_iff := by
    obtain ⟨st, number, fails⟩ := fallen.failsIn
    exact iff_of_true fallen.failed ⟨st, number ▸ early, fails⟩
  alike _ := ⟨rfl, rfl⟩

theorem Outcome.Ready.begins (ready : r.Ready (s.index + 1)) (trees : ∀ st : Stage, st.index ≤ s.index → r.trees.Same q.trees st)
    (ends : (∃ m, s.index < m ∧ q.Fallen m) ∨ ∃ m, q.Ready m) : r.Begins s q where
  trees := trees
  failed_iff := by
    have fine := ready.not_failed
    refine iff_of_false (by simp [fine]) ?_
    rintro ⟨st, early, fails⟩
    rcases ends with ⟨m, late, fallen⟩ | ⟨m, ready'⟩
    · have number := fallen.failsIn_iff.mp fails
      omega
    · exact ready'.not_failsIn fails
  alike failed := by
    rw [ready.not_failed] at failed
    cases failed

/-- A run that stops at a stage shows the beginning of one that goes on: its trees, and its failure if it fails. A
run that breaks down does so at the same place of every longer run. In every run a failure keeps the run from the
stage it was to stop at, and the trees are those of the stages that succeeded, and the surface tree in any case. -/
theorem compileFile_until (o : Options) (files : FileSet) (file : SourceFile) (working : o.cancelled = false)
    {s s' : Stage} (order : s.index ≤ s'.index) :
    (∀ c, compileFile (o.until s) files file = .error c → compileFile (o.until s') files file = .error c) ∧
      (∀ c, compileFile (o.until s') files file = .error c → compileFile (o.until s) files file = .error c ∨
        ∃ r, compileFile (o.until s) files file = .ok r ∧ r.failed = false) ∧
      (∀ r', compileFile (o.until s') files file = .ok r' →
        ∃ r, compileFile (o.until s) files file = .ok r ∧ r.Begins s r') ∧
      ∀ r, compileFile (o.until s) files file = .ok r → r.Settled s := by
  have start := beginning_ready o files file
  have longer := runStages_prefix working order start (Nat.zero_add _)
  cases ran : runStages (o.until s) (Stage.all.drop 0) (beginning o files file) with
  | error c =>
    have first : compileFile (o.until s) files file = .error c := by
      rw [compileFile_until_eq, ran]
      rfl
    have second : compileFile (o.until s') files file = .error c := by
      rw [compileFile_until_eq, longer, ran]
      rfl
    rw [first, second]
    refine ⟨fun _ same => same, fun _ same => Or.inl same, fun r' same => ?_, fun r same => ?_⟩
    · cases same
    · cases same
  | ok q =>
    have first : compileFile (o.until s) files file = .ok q.conclude := by
      rw [compileFile_until_eq, ran]
      rfl
    obtain ⟨ends, -⟩ := runStages_ends working start (Nat.zero_add _) ran
    rw [first]
    refine ⟨fun c same => ?_, ?_⟩
    · cases same
    by_cases last : q.failed = true ∨ s = s'
    · have second : compileFile (o.until s') files file = .ok q.conclude := by
        rw [compileFile_until_eq, longer, ran]
        change ((if q.failed || decide (s = s') then Except.ok q else _) >>= _) = _
        rw [if_pos (by simpa using last)]
        rfl
      have begins : q.Begins s q ∧ q.Settled s := by
        rcases ends with ⟨m, -, early, fallen⟩ | ready
        · exact ⟨fallen.begins early, fallen.settled early⟩
        · exact ⟨ready.begins (fun st _ => .refl _ st) (Or.inr ⟨_, ready⟩), ready.settled⟩
      rw [second]
      refine ⟨fun c same => ?_, fun r' same => ⟨_, rfl, ?_⟩, fun r same => ?_⟩
      · cases same
      · obtain rfl := Except.ok.inj same
        exact begins.1.conclude
      · obtain rfl := Except.ok.inj same
        exact begins.2.conclude
    · obtain ⟨fine, other⟩ := not_or.mp last
      have ready : q.Ready (s.index + 1) := by
        rcases ends with ⟨m, -, -, fallen⟩ | ready
        · exact absurd fallen.failed fine
        · exact ready
      have later : s.index < s'.index := Nat.lt_of_le_of_ne order fun same => other (Stage.index_inj same)
      have second : compileFile (o.until s') files file =
          runStages (o.until s') (Stage.all.drop (s.index + 1)) q >>= fun r => .ok r.conclude := by
        rw [compileFile_until_eq, longer, ran]
        change ((if q.failed || decide (s = s') then Except.ok q else _) >>= _) = _
        rw [if_neg (by simpa using last)]
      rw [second]
      refine ⟨fun c _ => Or.inr ⟨_, rfl, ready.not_failed⟩, fun r' ran' => ⟨_, rfl, ?_⟩, fun r same => ?_⟩
      · obtain ⟨q', went, same⟩ := Except.bind_eq_ok.mp ran'
        obtain rfl := Except.ok.inj same
        obtain ⟨ends', trees⟩ := runStages_ends working ready (Nat.add_sub_cancel' later) went
        refine (ready.begins (fun st early => trees st (Nat.lt_succ_of_le early)) ?_).conclude
        rcases ends' with ⟨m, late, -, fallen⟩ | ready'
        · exact Or.inl ⟨m, late, fallen⟩
        · exact Or.inr ⟨_, ready'⟩
      · obtain rfl := Except.ok.inj same
        exact ready.settled.conclude

/-- A function whose body has another type than it says. -/
def mistypedText : Bytes := Bytes.ofString "func f(x: F64): Bool = x"

/-- The third stage fails on it, whether it is the last one asked for or not. -/
theorem mistypedText_until : ∃ r r', compileFile (Options.until {} .check) {} ⟨0, "a", mistypedText, .memory⟩ = .ok r ∧
    compileFile (Options.until {} .measure) {} ⟨0, "a", mistypedText, .memory⟩ = .ok r' ∧ r.failed = true ∧
      r.Begins .check r' ∧ r.Settled .check := by
  have some : ((compileFile (Options.until {} .check) {} ⟨0, "a", mistypedText, .memory⟩).toOption.map
      fun r => r.failed) = some true := by decide +kernel
  have some' : (compileFile (Options.until {} .measure) {} ⟨0, "a", mistypedText, .memory⟩).toOption.isSome = true := by
    decide +kernel
  obtain ⟨r, ran, failed⟩ := Option.map_eq_some_iff.mp some
  obtain ⟨r', done⟩ := Option.isSome_iff_exists.mp some'
  rw [Except.toOption_eq_some] at ran done
  obtain ⟨-, -, begins, settled⟩ := compileFile_until {} {} ⟨0, "a", mistypedText, .memory⟩ rfl
    (show Stage.check.index ≤ Stage.measure.index by decide)
  obtain ⟨q, same, own⟩ := begins r' done
  obtain rfl : q = r := Except.ok.inj (same.symm.trans ran)
  exact ⟨q, r', ran, done, failed, own, settled q ran⟩

end Runs

end WitnessLang.Build
