import WitnessLang.Proofs.Build.Traced
import WitnessLang.Proofs.Ir.Draft
import WitnessLang.Proofs.Ir.Naming
import WitnessLang.Proofs.Sized.Accepted
import WitnessLang.Proofs.Sized.Endless
import WitnessLang.Proofs.Surface.Parsed
import WitnessLang.Proofs.Text.Utf8
import WitnessLang.Proofs.Token.Partition
import WitnessLang.Proofs.Typed.Program

set_option autoImplicit false

/-! The trees that a file is taken through. Each of them is what its stage makes of the one before. -/
namespace WitnessLang.Build

/-- Each tree is what its stage makes of the tree before. -/
structure Trees.Follow (o : Options) (file : SourceFile) (t : Trees) : Prop where
  surface : ∀ s, t.surface = some s → s = (Surface.read file).file
  resolved : ∀ p, t.resolved = some p → ∃ names table,
    Resolved.resolve (Surface.read file).file (List.foldl SymbolTable.intern .start names) o.unit = (.ok p, table)
  typed : ∀ p, t.typed = some p → ∃ p', t.resolved = some p' ∧ Typed.check p' = .ok p
  explicit : ∀ p, t.explicit = some p → ∃ p', t.typed = some p' ∧ Explicit.pass p' = p
  sized : ∀ p, t.sized = some p → ∃ p', t.explicit = some p' ∧ Sized.measure p' o.target = .ok p
  lowered : ∀ p, t.lowered = some p → ∃ p', t.sized = some p' ∧ Ir.lower p' = .ok p ∧ p.problems = some []

structure Trees.Before (n : Nat) (t : Trees) : Prop where
  table : n ≤ 1 → ∃ names, t.table = List.foldl SymbolTable.intern .start names
  resolved : n ≤ 1 → t.resolved = none
  typed : n ≤ 2 → t.typed = none
  explicit : n ≤ 3 → t.explicit = none
  sized : n ≤ 4 → t.sized = none
  lowered : n ≤ 5 → t.lowered = none

section Stages

variable {o : Options} {file : SourceFile} {t : Trees} {s : StageResult}

/-- What a text is read as, if it is not too long. -/
def parsed (file : SourceFile) (t : Trees) : StageResult :=
  { trees := { t with
      surface := some (Surface.read file).file
      table := ((Surface.read file).namesMet file).foldl SymbolTable.intern t.table }
    findings := file.lexicalFindings
    failure := match (Surface.read file).error with
      | some e => some (.parsing e)
      | none => if file.lexicalFindings.isEmpty then none else some .reported }

theorem parse_eq (short : file.content.length < 2 ^ 32) : parse file t = .ok (parsed file t) := by
  rw [parse, SourceFile.scan_of_short short]
  rfl

theorem parse_eq_ok : parse file t = .ok s ↔ file.content.length < 2 ^ 32 ∧ parsed file t = s := by
  by_cases short : file.content.length < 2 ^ 32
  · rw [parse_eq short, Except.ok.injEq, and_iff_right short]
  · refine iff_of_false (fun done => ?_) fun both => short both.1
    rw [parse, SourceFile.scan_of_long short] at done
    cases done

theorem parsed_follows (before : t.Before 0) :
    (parsed file t).trees.Follow o file ∧ (parsed file t).trees.Before 1 := by
  have none : t.resolved = none ∧ t.typed = none ∧ t.explicit = none ∧ t.sized = none ∧ t.lowered = none :=
    ⟨before.resolved (by decide), before.typed (by decide), before.explicit (by decide),
      before.sized (by decide), before.lowered (by decide)⟩
  obtain ⟨names, table⟩ := before.table (by decide)
  refine ⟨⟨fun s same => (Option.some.inj same).symm, ?_, ?_, ?_, ?_, ?_⟩, ⟨fun _ => ?_, ?_, ?_, ?_, ?_, ?_⟩⟩
  case refine_6 =>
    refine ⟨names ++ ((Surface.read file).namesMet file), ?_⟩
    rw [List.foldl_append, ← table]
    rfl
  all_goals simp [parsed, none]

theorem resolve_follows (follows : t.Follow o file) (before : t.Before 1) :
    (resolve o.unit t).trees.Follow o file ∧ (resolve o.unit t).trees.Before 2 := by
  have none : t.typed = none ∧ t.explicit = none ∧ t.sized = none ∧ t.lowered = none :=
    ⟨before.typed (by decide), before.explicit (by decide), before.sized (by decide), before.lowered (by decide)⟩
  obtain ⟨names, table⟩ := before.table (by decide)
  have unresolved := before.resolved (by decide)
  rw [resolve]
  split
  · exact ⟨follows, by constructor <;> simp [none]⟩
  · rename_i f surface
    obtain rfl := follows.surface f surface
    split
    · rename_i p table' resolved
      refine ⟨⟨follows.surface, fun p' same => ⟨names, table', ?_⟩, by simp [none], by simp [none], by simp [none],
        by simp [none]⟩, by constructor <;> simp [none]⟩
      obtain rfl := Option.some.inj same
      rw [← table]
      exact resolved
    · exact ⟨⟨follows.surface, by simp [unresolved], by simp [none], by simp [none], by simp [none], by simp [none]⟩,
        by constructor <;> simp [none]⟩

theorem check_follows (follows : t.Follow o file) (before : t.Before 2) :
    (check t).trees.Follow o file ∧ (check t).trees.Before 3 := by
  have none : t.explicit = none ∧ t.sized = none ∧ t.lowered = none :=
    ⟨before.explicit (by decide), before.sized (by decide), before.lowered (by decide)⟩
  have unchanged : t.Before 3 := by constructor <;> simp [none]
  rw [check]
  split
  · exact ⟨follows, unchanged⟩
  · rename_i p resolved
    split
    · rename_i p' checked
      refine ⟨⟨follows.surface, follows.resolved, fun q same => ⟨p, resolved, ?_⟩, by simp [none], by simp [none],
        by simp [none]⟩, by constructor <;> simp [none]⟩
      obtain rfl := Option.some.inj same
      exact checked
    · exact ⟨follows, unchanged⟩

theorem pass_follows (follows : t.Follow o file) (before : t.Before 3) :
    (pass t).trees.Follow o file ∧ (pass t).trees.Before 4 := by
  have none : t.sized = none ∧ t.lowered = none := ⟨before.sized (by decide), before.lowered (by decide)⟩
  refine ⟨⟨follows.surface, follows.resolved, follows.typed, fun q same => ?_, by simp [pass, none], by simp [pass, none]⟩,
    by constructor <;> simp [pass, none]⟩
  exact Option.map_eq_some_iff.mp same

theorem measure_follows (follows : t.Follow o file) (before : t.Before 4) (done : measure o.target t = .ok s) :
    s.trees.Follow o file ∧ s.trees.Before 5 := by
  have none : t.lowered = none := before.lowered (by decide)
  have unchanged : t.Before 5 := by constructor <;> simp [none]
  rw [measure] at done
  split at done
  · obtain rfl := Except.ok.inj done
    exact ⟨follows, unchanged⟩
  · rename_i p explicit
    split at done
    · rename_i q measured
      obtain rfl := Except.ok.inj done
      refine ⟨⟨follows.surface, follows.resolved, follows.typed, follows.explicit, fun q' same => ⟨p, explicit, ?_⟩,
        by simp [none]⟩, by constructor <;> simp [none]⟩
      obtain rfl := Option.some.inj same
      exact measured
    · obtain rfl := Except.ok.inj done
      exact ⟨follows, unchanged⟩
    · cases done
    · cases done

theorem lower_follows (follows : t.Follow o file) (before : t.Before 5) (done : lower t = .ok s) :
    s.trees.Follow o file := by
  have none : t.lowered = none := before.lowered (by decide)
  rw [lower] at done
  split at done
  · obtain rfl := Except.ok.inj done
    exact follows
  · rename_i q sized
    split at done
    · obtain rfl := Except.ok.inj done
      exact follows
    · cases done
    · rename_i r lowered
      split at done
      · rename_i sound
        obtain rfl := Except.ok.inj done
        refine ⟨follows.surface, follows.resolved, follows.typed, follows.explicit, follows.sized,
          fun r' same => ⟨q, sized, ?_⟩⟩
        obtain rfl := Option.some.inj same
        exact ⟨lowered, sound⟩
      · obtain rfl := Except.ok.inj done
        exact follows
      · cases done

theorem count_follows (follows : t.Follow o file) (done : count t = .ok s) : s.trees.Follow o file := by
  rw [count] at done
  split at done
  · obtain rfl := Except.ok.inj done
    exact follows
  · obtain ⟨results, -, done⟩ := Except.bind_eq_ok.mp done
    split at done
    · obtain rfl := Except.ok.inj done
      exact ⟨follows.surface, follows.resolved, follows.typed, follows.explicit, follows.sized, follows.lowered⟩
    · obtain rfl := Except.ok.inj done
      exact follows

end Stages

/-- One stage after the other. -/
theorem runStage_follows {o : Options} {file : SourceFile} {t : Trees} {st : Stage} {s : StageResult}
    (follows : t.Follow o file) (before : t.Before st.index) (done : runStage o file t st = .ok s) :
    s.trees.Follow o file ∧ s.trees.Before (st.index + 1) := by
  have nothing : ∀ n, 6 ≤ n → ∀ u : Trees, u.Before n := fun n late u => by
    constructor <;> exact fun early => absurd early (by omega)
  cases st with
  | parse =>
    obtain ⟨-, rfl⟩ := parse_eq_ok.mp done
    exact parsed_follows before
  | resolve =>
    obtain rfl := Except.ok.inj done
    exact resolve_follows follows before
  | check =>
    obtain rfl := Except.ok.inj done
    exact check_follows follows before
  | pass =>
    obtain rfl := Except.ok.inj done
    exact pass_follows follows before
  | measure => exact measure_follows follows before done
  | lower => exact ⟨lower_follows follows before done, nothing _ (by decide) _⟩
  | count => exact ⟨count_follows follows done, nothing _ (by decide) _⟩

theorem report_trees (r : Outcome) (f : Failure) : (r.report f).trees = r.trees ∧ (r.report f).file = r.file := by
  rw [Outcome.report]
  split <;> exact ⟨rfl, rfl⟩

theorem afterStage_trees (r : Outcome) (st : Stage) (s : StageResult) :
    (r.afterStage st s).trees = s.trees ∧ (r.afterStage st s).file = r.file := by
  rw [Outcome.afterStage]
  dsimp only
  split
  · exact report_trees _ _
  · exact ⟨rfl, rfl⟩

/-- The induction is on the stages that are left, which are numbered in order. -/
theorem runStages_follow {o : Options} {stages : List Stage} {n : Nat} {r r' : Outcome}
    (order : stages.map Stage.index = List.range' n stages.length) (follows : r.trees.Follow o r.file)
    (before : r.trees.Before n) (done : runStages o stages r = .ok r') : r'.trees.Follow o r.file := by
  induction stages generalizing n r with
  | nil =>
    obtain rfl := Except.ok.inj done
    exact follows
  | cons st rest ih =>
    rw [List.map_cons, List.length_cons, List.range'_succ, List.cons.injEq] at order
    obtain ⟨rfl, order⟩ := order
    rw [runStages] at done
    split at done
    · obtain rfl := Except.ok.inj done
      rw [(report_trees r .cancelled).1]
      exact follows
    · rw [Except.bind_eq_ok] at done
      obtain ⟨s, ran, done⟩ := done
      obtain ⟨follows', before'⟩ := runStage_follows follows before ran
      obtain ⟨trees, file⟩ := afterStage_trees (r.announce st) st s
      split at done
      · obtain rfl := Except.ok.inj done
        rw [trees]
        exact follows'
      · have kept := ih (r := Outcome.afterStage _ st s) order (by rw [trees, file]; exact follows')
          (by rw [trees]; exact before') done
        rwa [file] at kept

/-- A stage that does not fail is followed by the next one. -/
theorem runStages_passed {o : Options} (working : o.cancelled = false) (st : Stage) (rest : List Stage) (r : Outcome)
    (s : StageResult) (ran : runStage o r.file r.trees st = .ok s) (fine : s.failure = none) :
    ∃ r' : Outcome, r'.trees = s.trees ∧ r'.file = r.file ∧
      runStages o (st :: rest) r = if st = o.stop then .ok r' else runStages o rest r' := by
  refine ⟨_, (afterStage_trees (r.announce st) st s).1, (afterStage_trees (r.announce st) st s).2, ?_⟩
  rw [runStages, if_neg (by simp [working])]
  dsimp only
  simp [ran, fine, bind, Except.bind, pure, Except.pure]

/-- The file of a text that is compiled from memory. -/
def sourceOf (name : String) (content : Bytes) : SourceFile := ⟨0, Path.clean name, content, .memory⟩

/-- What there is of a text before the first stage. -/
def startOf (o : Options) (name : String) (content : Bytes) : Outcome :=
  beginning o (FileSet.add {} name content .memory) (sourceOf name content)

theorem compileSource_eq (o : Options) (name : String) (content : Bytes) : compileSource o name content =
    runStages o Stage.all (startOf o name content) >>= fun r => .ok r.conclude :=
  compileFile_eq o _ _

/-- What the stages make of a text is announced at the end. -/
theorem compileSource_eq_ok {o : Options} {name : String} {content : Bytes} {r : Outcome}
    (ran : runStages o Stage.all (startOf o name content) = .ok r) :
    ∃ r', compileSource o name content = .ok r' ∧ r'.trees = r.trees := by
  rw [compileSource_eq, ran]
  exact ⟨_, rfl, rfl⟩

/-- Whatever a text is taken through, each tree is what its stage makes of the tree before. -/
theorem compileSource_follows {o : Options} {name : String} {content : Bytes} {r : Outcome}
    (done : compileSource o name content = .ok r) : r.trees.Follow o (sourceOf name content) := by
  rw [compileSource_eq, Except.bind_eq_ok] at done
  obtain ⟨r', ran, done⟩ := done
  obtain rfl := Except.ok.inj done
  refine runStages_follow (n := 0) rfl ?_ ?_ ran
  · constructor <;> exact fun _ same => by cases same
  · exact ⟨fun _ => ⟨[], rfl⟩, fun _ => rfl, fun _ => rfl, fun _ => rfl, fun _ => rfl, fun _ => rfl⟩

/-- The trees that a file is taken to, if the usual bound is enough to measure it and the stages before
do not fail. -/
def sized? (unit : Nat) (target : Target) (file : SourceFile) : Option (Typed.Program × Sized.Program) := do
  let r := Surface.read file
  let p ← (Resolved.resolve r.file ((r.namesMet file).foldl SymbolTable.intern .start) unit).1.toOption
  let typed ← (Typed.check p).toOption
  let q ← (Sized.measureWithin Sized.usualDepth (Explicit.pass typed) target).toOption
  guard (r.error.isNone ∧ file.lexicalFindings = [] ∧ file.content.length < 2 ^ 32)
  return (typed, q)

/-- The trees that a file is taken to, and the program that the last one of them is lowered to. -/
def lowered? (unit : Nat) (target : Target) (file : SourceFile) :
    Option (Typed.Program × Sized.Program × Ir.Program) := do
  let (typed, q) ← sized? unit target file
  let m ← (Ir.lower q).toOption
  return (typed, q, m)

theorem lowered?_eq_some {unit : Nat} {target : Target} {file : SourceFile} {typed : Typed.Program}
    {q : Sized.Program} {m : Ir.Program} : lowered? unit target file = some (typed, q, m) ↔
      sized? unit target file = some (typed, q) ∧ Ir.lower q = .ok m := by
  rw [lowered?]
  simp only [Option.bind_eq_bind, Option.bind_eq_some_iff, Except.toOption_eq_some]
  constructor
  · rintro ⟨⟨typed', q'⟩, done, m', lowered, same⟩
    obtain ⟨rfl, rfl, rfl⟩ : typed' = typed ∧ q' = q ∧ m' = m := by simpa using same
    exact ⟨done, lowered⟩
  · rintro ⟨done, lowered⟩
    exact ⟨(typed, q), done, m, lowered, rfl⟩

section Sized

variable {o : Options} {name : String} {content : Bytes} {typed : Typed.Program} {q : Sized.Program}

/-- What the first stages make of a file. None of them fails on it. -/
structure TakenTo (unit : Nat) (target : Target) (file : SourceFile) (typed : Typed.Program) (q : Sized.Program) : Prop where
  read : (Surface.read file).error = none ∧ file.lexicalFindings = [] ∧ file.content.length < 2 ^ 32
  checked : ∃ p, (Resolved.resolve (Surface.read file).file
    (((Surface.read file).namesMet file).foldl SymbolTable.intern .start) unit).1 = .ok p ∧ Typed.check p = .ok typed
  measured : Sized.measure (Explicit.pass typed) target = .ok q

theorem takenTo_of_sized? {unit : Nat} {target : Target} {file : SourceFile}
    (done : sized? unit target file = some (typed, q)) : TakenTo unit target file typed q := by
  rw [sized?] at done
  obtain ⟨p, resolved, done⟩ := Option.bind_eq_some_iff.mp done
  obtain ⟨typed', checked, done⟩ := Option.bind_eq_some_iff.mp done
  obtain ⟨q', measured, done⟩ := Option.bind_eq_some_iff.mp done
  obtain ⟨_, clean, same⟩ := Option.bind_eq_some_iff.mp done
  rw [Except.toOption_eq_some] at resolved checked measured
  obtain ⟨rfl, rfl⟩ : typed' = typed ∧ q' = q := by simpa using same
  refine ⟨?_, ⟨p, resolved, checked⟩, Sized.measure_eq_of_usual measured (by simp)⟩
  rw [← Option.isNone_iff_eq_none]
  by_contra unclean
  rw [guard, if_neg unclean] at clean
  cases clean

/-- A text that passes the type checker is taken to the tree whose type arguments are explicit. -/
theorem runStages_explicit (stop : Stage.pass.index ≤ o.stop.index) (working : o.cancelled = false)
    (read : (Surface.read (sourceOf name content)).error = none ∧ (sourceOf name content).lexicalFindings = [] ∧
      content.length < 2 ^ 32)
    (checked : ∃ p, (Resolved.resolve (Surface.read (sourceOf name content)).file
      (((Surface.read (sourceOf name content)).namesMet (sourceOf name content)).foldl SymbolTable.intern .start)
        o.unit).1 = .ok p ∧ Typed.check p = .ok typed) :
    ∃ r : Outcome, r.trees.typed = some typed ∧ r.trees.explicit = some (Explicit.pass typed) ∧
      runStages o Stage.all (startOf o name content) =
        if Stage.pass = o.stop then .ok r else runStages o [.measure, .lower, .count] r := by
  obtain ⟨noError, noFinding, short⟩ := read
  obtain ⟨p, resolved, checked⟩ := checked
  rcases known : Resolved.resolve (Surface.read (sourceOf name content)).file
    (((Surface.read (sourceOf name content)).namesMet (sourceOf name content)).foldl SymbolTable.intern .start) o.unit
    with ⟨ended, table⟩
  obtain rfl : ended = .ok p := by rwa [known] at resolved
  -- No stage before the last one that is asked for fails, so each is followed by the next.
  obtain ⟨r₁, trees₁, -, next₁⟩ := runStages_passed working .parse [.resolve, .check, .pass, .measure, .lower, .count]
    (startOf o name content) (parsed (sourceOf name content) {}) (parse_eq short) (by simp [parsed, noError, noFinding])
  obtain ⟨r₂, trees₂, -, next₂⟩ := runStages_passed working .resolve [.check, .pass, .measure, .lower, .count] r₁
    ⟨{ r₁.trees with resolved := some p, table }, [], none⟩
    (by simp [runStage, resolve, trees₁, parsed, known]) rfl
  obtain ⟨r₃, trees₃, -, next₃⟩ := runStages_passed working .check [.pass, .measure, .lower, .count] r₂
    ⟨{ r₂.trees with typed := some typed }, [], none⟩ (by simp [runStage, check, trees₂, checked]) rfl
  obtain ⟨r₄, trees₄, -, next₄⟩ := runStages_passed working .pass [.measure, .lower, .count] r₃
    ⟨{ r₃.trees with explicit := some (Explicit.pass typed) }, [], none⟩ (by simp [runStage, pass, trees₃]) rfl
  have going : ∀ st : Stage, st.index < Stage.pass.index → st ≠ o.stop := by
    rintro st early rfl
    omega
  refine ⟨r₄, by simp [trees₃, trees₄], by simp [trees₄], ?_⟩
  rw [Stage.all, next₁, if_neg (going _ (by decide)), next₂, if_neg (going _ (by decide)), next₃,
    if_neg (going _ (by decide)), next₄]

/-- A text that none of the first stages fails on is measured. -/
theorem runStages_sized (stop : Stage.measure.index ≤ o.stop.index) (working : o.cancelled = false)
    (taken : TakenTo o.unit o.target (sourceOf name content) typed q) :
    ∃ r : Outcome, r.trees.typed = some typed ∧ r.trees.sized = some q ∧
      runStages o Stage.all (startOf o name content) =
        if Stage.measure = o.stop then .ok r else runStages o [.lower, .count] r := by
  have early : Stage.pass.index < o.stop.index := Nat.lt_of_lt_of_le (by decide) stop
  obtain ⟨r₄, typed₄, explicit₄, next₄⟩ := runStages_explicit (Nat.le_of_lt early) working taken.read taken.checked
  obtain ⟨r₅, trees₅, -, next₅⟩ := runStages_passed working .measure [.lower, .count] r₄
    ⟨{ r₄.trees with sized := some q }, [], none⟩ (by simp [runStage, measure, explicit₄, taken.measured]) rfl
  refine ⟨r₅, by simp [trees₅, typed₄], by simp [trees₅], ?_⟩
  rw [next₄, if_neg fun same => absurd early (by rw [same]; exact Nat.lt_irrefl _), next₅]

/-- A text that none of the first stages fails on is taken to the measured tree. -/
theorem compileSource_of_sized (stop : o.stop = .measure) (working : o.cancelled = false)
    (done : sized? o.unit o.target (sourceOf name content) = some (typed, q)) :
    ∃ r, compileSource o name content = .ok r ∧ r.trees.typed = some typed ∧ r.trees.sized = some q := by
  obtain ⟨r₅, known, sized, next⟩ := runStages_sized (by rw [stop]) working (takenTo_of_sized? done)
  obtain ⟨r, compiled, same⟩ := compileSource_eq_ok (next.trans (if_pos stop.symm))
  exact ⟨r, compiled, by rw [same, known], by rw [same, sized]⟩

/-- A text that is measured and lowered to something sound is taken to the lowered tree. -/
theorem runStages_lowered (stop : Stage.lower.index ≤ o.stop.index) (working : o.cancelled = false)
    (taken : TakenTo o.unit o.target (sourceOf name content) typed q) {m : Ir.Program}
    (lowered : Ir.lower q = .ok m) (sound : m.problems = some []) :
    ∃ r : Outcome, r.trees.typed = some typed ∧ r.trees.sized = some q ∧ r.trees.lowered = some m ∧
      runStages o Stage.all (startOf o name content) = if Stage.lower = o.stop then .ok r else runStages o [.count] r := by
  have early : Stage.measure.index < o.stop.index := Nat.lt_of_lt_of_le (by decide) stop
  obtain ⟨r₅, known, sized, next₅⟩ := runStages_sized (Nat.le_of_lt early) working taken
  obtain ⟨r₆, trees₆, -, next₆⟩ := runStages_passed working .lower [.count] r₅
    ⟨{ r₅.trees with lowered := some m }, [], none⟩ (by simp [runStage, lower, sized, lowered, sound]) rfl
  refine ⟨r₆, by simp [trees₆, known], by simp [trees₆, sized], by simp [trees₆], ?_⟩
  rw [next₅, if_neg fun same => absurd early (by rw [same]; exact Nat.lt_irrefl _), next₆]

/-- A text that no stage fails on is taken to the last tree. -/
theorem compileSource_of_lowered (stop : o.stop = .lower) (working : o.cancelled = false)
    (done : sized? o.unit o.target (sourceOf name content) = some (typed, q)) {m : Ir.Program}
    (lowered : Ir.lower q = .ok m) (sound : m.problems = some []) :
    ∃ r, compileSource o name content = .ok r ∧ r.trees.typed = some typed ∧ r.trees.sized = some q ∧
      r.trees.lowered = some m := by
  obtain ⟨r₆, known, sized, lowered₆, next⟩ :=
    runStages_lowered (by rw [stop]) working (takenTo_of_sized? done) lowered sound
  obtain ⟨r, compiled, same⟩ := compileSource_eq_ok (next.trans (if_pos stop.symm))
  exact ⟨r, compiled, by rw [same, known], by rw [same, sized], by rw [same, lowered₆]⟩

end Sized

/-- The numbers of the modules that source texts belong to. -/
def IsModule (unit : Nat) : Prop := 1 ≤ unit ∧ unit ≤ Nat.pow 2 32 - 2

theorem IsModule.own {unit : Nat} (proper : IsModule unit) : unit ≠ Tag.builtinUnit := by
  rintro rfl
  exact absurd proper.1 (by decide)

theorem IsModule.foreign {unit : Nat} (proper : IsModule unit) : unit ≠ Tag.syntheticUnit := by
  rintro rfl
  exact absurd proper.2 (by decide)

section Trees

variable {o : Options} {file : SourceFile} {t : Trees}

/-- A file whose types were found has been accepted. -/
theorem Trees.Follow.accepted (follows : t.Follow o file) (proper : IsModule o.unit) {typed : Typed.Program}
    (known : t.typed = some typed) :
    ∃ names, Sized.Accepted (Surface.read file).file names o.unit typed := by
  obtain ⟨p, resolved, checked⟩ := follows.typed typed known
  obtain ⟨names, table, done⟩ := follows.resolved p resolved
  exact ⟨names, proper.own, proper.foreign, p, table, done, checked⟩

end Trees

open Ir (LowerFailure)

section Texts

variable {o : Options} {name : String} {content : Bytes} {r : Outcome}

/-- The names of an accepted text tell apart what has to be told apart. -/
theorem exists_lowerable (proper : IsModule o.unit) (compiled : compileSource o name content = .ok r)
    {typed : Typed.Program} (known : r.trees.typed = some typed) :
    ∃ names N, Sized.Accepted (Surface.read (sourceOf name content)).file names o.unit typed ∧
      Ir.Lowerable typed N := by
  obtain ⟨names, accepted⟩ := (compileSource_follows compiled).accepted proper known
  obtain ⟨N, lowerable⟩ := Ir.lowerable_of_accepted accepted (Surface.read_named _)
  exact ⟨names, N, accepted, lowerable⟩

/-- What a program is measured to is lowered, or has no layout. -/
theorem lower_gives_of_measured {typed : Typed.Program} {N : Ir.Naming} (lowerable : Ir.Lowerable typed N)
    {target : Target} {q : Sized.Program} (measured : Sized.measure (Explicit.pass typed) target = .ok q) :
    Gives LowerFailure.Declared (Ir.lower q) fun p => ∃ closures, Ir.Program.Lowered N q closures p := by
  obtain ⟨depth, within⟩ := Sized.exists_measureWithin measured
  exact Ir.lower_gives lowerable.apart (lowerable.covers target depth q within)

/-- Where no struct is polymorphically recursive, measuring gives a program or a declared error. -/
theorem measure_declared {file : SourceFile} {names : List String} {unit : Nat} {typed : Typed.Program}
    (accepted : Sized.Accepted (Surface.read file).file names unit typed)
    (uniform : Sized.Uniform (typed.structs.map Explicit.structOf)) (target : Target) :
    (∃ e, Sized.measure (Explicit.pass typed) target = .error (.error e)) ∨
      ∃ q, Sized.measure (Explicit.pass typed) target = .ok q := by
  obtain ⟨environments, inside⟩ := accepted.explicit
  have ends := Sized.measure_ends inside uniform target
  cases measured : Sized.measure (Explicit.pass typed) target with
  | ok q => exact Or.inr ⟨q, rfl⟩
  | error e =>
    rw [measured] at ends
    cases e with
    | error e => exact Or.inl ⟨e, rfl⟩
    | inconsistent message =>
      -- Within every bound, measuring fails in declared ways only.
      have within : ∃ depth, Sized.measureWithin depth (Explicit.pass typed) target = .error (.inconsistent message) := by
        rw [Sized.measure] at measured
        split at measured
        · rename_i ended _
          exact measured ▸ ended.within
        · cases measured
      obtain ⟨depth, within⟩ := within
      have gives := Sized.measureWithin_gives target depth inside
      rw [within] at gives
      exact gives.elim
    | endless => exact ends.elim

/-- What a program is measured to has no layout, or is lowered to functions that are built as they should be. -/
theorem lower_declared {typed : Typed.Program} {N : Ir.Naming} (lowerable : Ir.Lowerable typed N) {target : Target}
    {q : Sized.Program} (measured : Sized.measure (Explicit.pass typed) target = .ok q) :
    (∃ struct e, Ir.lower q = .error (.layout struct e)) ∨
      ∃ p closures, Ir.lower q = .ok p ∧ Ir.Program.Lowered N q closures p := by
  have gives := lower_gives_of_measured lowerable measured
  cases lowered : Ir.lower q with
  | ok p =>
    rw [lowered] at gives
    obtain ⟨closures, own⟩ := gives
    exact Or.inr ⟨p, closures, rfl, own⟩
  | error e =>
    rw [lowered] at gives
    cases e with
    | layout struct e => exact Or.inl ⟨struct, e, rfl⟩
    | inconsistent message => exact gives.elim

/-- A measured text and what it was lowered to. -/
theorem lowered_of_sized (proper : IsModule o.unit) (compiled : compileSource o name content = .ok r)
    {q : Sized.Program} (sized : r.trees.sized = some q) {p : Ir.Program} (done : Ir.lower q = .ok p) :
    ∃ typed N closures, r.trees.typed = some typed ∧ Ir.Lowerable typed N ∧ Ir.Program.Lowered N q closures p := by
  obtain ⟨e, explicit, measured⟩ := (compileSource_follows compiled).sized q sized
  obtain ⟨typed, known, rfl⟩ := (compileSource_follows compiled).explicit e explicit
  obtain ⟨-, N, -, lowerable⟩ := exists_lowerable proper compiled known
  have gives := lower_gives_of_measured lowerable measured
  rw [done] at gives
  obtain ⟨closures, own⟩ := gives
  exact ⟨typed, N, closures, known, lowerable, own⟩

/-- A struct with a type parameter, and a function that gives a closure away. -/
def sampleText : Bytes := Bytes.ofString "struct P[a]{v:a}\nfunc f[t](p:P[t]):()->t={let P{v:x}=p;||x}"

def sampleOptions : Options := { stop := .lower }

def obtained {α : Type} {P : α → Prop} [DecidablePred P] {x : Option α} (some : x.any (P ·) = true) :
    { a : α // x = .some a ∧ P a } :=
  match x with
  | .some a => ⟨a, rfl, of_decide_eq_true some⟩
  | none => absurd some Bool.false_ne_true

set_option maxRecDepth 10000 in
def sampleTrees : { t // lowered? 1 Target.wide (sourceOf "a" sampleText) = some t ∧ t.2.2.problems = some [] ∧
    t.2.2.functions.map (·.name) = ["f", "_closure_0"] ∧ t.2.2.structs.map (·.name) = ["P", "_Env0"] ∧
    t.1.structs.map (·.name.name) = ["P"] ∧ t.1.functions.map (·.name.name) = ["f"] ∧
    (∀ d ∈ t.1.structs.map Explicit.structOf,
      ∀ u ∈ Sized.parts (t.1.structs.map Explicit.structOf) (Sized.ownType d), (u matches .generic _) = true) ∧
    ((t.2.2.functions.mapM countAlone).toOption.bind fun gs => (gs.mapM id).toOption.map fun gs => gs.map (·.name)) =
      some ["f", "_closure_0"] } :=
  obtained (by
    rw [sampleText, Utf8.ofString_ofList]
    decide +kernel)

theorem sample_lowered : ∃ r typed q p, compileSource sampleOptions "a" sampleText = .ok r ∧
    r.trees.typed = some typed ∧ r.trees.sized = some q ∧ r.trees.lowered = some p ∧
    p.functions.map (·.name) = ["f", "_closure_0"] ∧ p.structs.map (·.name) = ["P", "_Env0"] ∧
    typed.structs.map (·.name.name) = ["P"] ∧ typed.functions.map (·.name.name) = ["f"] ∧
    Sized.Uniform (typed.structs.map Explicit.structOf) := by
  obtain ⟨⟨typed, q, p⟩, done, sound, functions, structs, ownS, ownF, plain, -⟩ := sampleTrees
  obtain ⟨sized, lowered⟩ := lowered?_eq_some.mp done
  obtain ⟨r, compiled, trees⟩ := compileSource_of_lowered (o := sampleOptions) rfl rfl sized lowered sound
  refine ⟨r, typed, q, p, compiled, trees.1, trees.2.1, trees.2.2, functions, structs, ownS, ownF,
    Sized.uniform_of_plain fun d member t part => ?_⟩
  have generic := plain d member t part
  split at generic
  · exact ⟨_, rfl⟩
  · cases generic

/-- A function that has been built can be counted, and every path of the result passes the check. -/
theorem counted_of_built {N : Ir.Naming} {target : Target} {closures : Nat} {f : Ir.Function}
    (built : f.Built N target closures) :
    ∃ g, Ownership.countFunction f = .ok g ∧ Ownership.checkPaths g = .ok () := by
  obtain ⟨live, known, flows⟩ := built.flows
  refine Ownership.counted_of_flows flows (fun a argument again => built.apart a argument _ again rfl) fun x inside l => ?_
  obtain ⟨v, small, rfl⟩ := Array.mem_iff_getElem.mp inside
  exact built.located v _ (Array.getElem?_eq_getElem small) l

/-- Lowered functions keep to the ownership discipline: each of them, those of closures included, is
counted, and every path of the result passes the check. -/
theorem lowered_owned (proper : IsModule o.unit) (compiled : compileSource o name content = .ok r)
    {p : Ir.Program} (lowered : r.trees.lowered = some p) :
    ∀ f ∈ p.functions, ∃ g, Ownership.countFunction f = .ok g ∧ Ownership.checkPaths g = .ok () := by
  intro f member
  obtain ⟨q, sized, done, -⟩ := (compileSource_follows compiled).lowered p lowered
  obtain ⟨-, N, closures, -, -, own⟩ := lowered_of_sized proper compiled sized done
  exact counted_of_built (own.functions f member)

/-- The function of the sample and its closure are counted. -/
theorem sample_owned : ∃ r p, compileSource sampleOptions "a" sampleText = .ok r ∧ r.trees.lowered = some p ∧
    p.functions.map (·.name) = ["f", "_closure_0"] ∧
    ∀ f ∈ p.functions, ∃ g, Ownership.countFunction f = .ok g ∧ Ownership.checkPaths g = .ok () := by
  obtain ⟨r, -, -, p, compiled, -, -, lowered, names, -⟩ := sample_lowered
  exact ⟨r, p, compiled, lowered, names, lowered_owned ⟨by decide, by decide⟩ compiled lowered⟩

/-- Lowered functions are well-formed: none of them, those of closures included, breaks a rule. -/
theorem lowered_valid (proper : IsModule o.unit) (compiled : compileSource o name content = .ok r)
    {q : Sized.Program} (sized : r.trees.sized = some q) {p : Ir.Program} (done : Ir.lower q = .ok p) :
    ∀ f ∈ p.functions, f.problems = some [] := by
  intro f member
  obtain ⟨-, N, closures, -, -, own⟩ := lowered_of_sized proper compiled sized done
  exact (own.functions f member).valid

/-- The function of the sample and its closure break no rule. -/
theorem sample_valid : ∃ r q p, compileSource sampleOptions "a" sampleText = .ok r ∧ r.trees.sized = some q ∧
    Ir.lower q = .ok p ∧ p.functions.map (·.name) = ["f", "_closure_0"] ∧ ∀ f ∈ p.functions, f.problems = some [] := by
  obtain ⟨r, -, q, p, compiled, -, sized, lowered, names, -⟩ := sample_lowered
  obtain ⟨q', sized', done, -⟩ := (compileSource_follows compiled).lowered p lowered
  obtain rfl : q' = q := Option.some.inj (sized'.symm.trans sized)
  exact ⟨r, q', p, compiled, sized, done, names, lowered_valid ⟨by decide, by decide⟩ compiled sized done⟩

/-- The stages behind the type checker never break down. All types that are described are finished, and every
struct has its builder; where no struct is polymorphically recursive, measuring gives a program or a declared
error, and so does lowering what was measured. -/
theorem stages_declared (proper : IsModule o.unit) (compiled : compileSource o name content = .ok r)
    {typed : Typed.Program} (known : r.trees.typed = some typed)
    (uniform : Sized.Uniform (typed.structs.map Explicit.structOf)) :
    (∀ t ∈ typed.types, t.finishedWitness = .ok t.witnessExpr) ∧
      (∀ d ∈ (Explicit.pass typed).structs, ∃ b, (Explicit.pass typed).builder? d.name.tag = some b ∧
        b.fields.length = d.fields.length) ∧
      ∀ target, (∃ e, Sized.measure (Explicit.pass typed) target = .error (.error e)) ∨
        ∃ q, Sized.measure (Explicit.pass typed) target = .ok q ∧
          ((∃ struct e, Ir.lower q = .error (.layout struct e)) ∨ ∃ p, Ir.lower q = .ok p) := by
  obtain ⟨names, N, accepted, lowerable⟩ := exists_lowerable proper compiled known
  obtain ⟨wellTyped, -⟩ := accepted.wellTyped
  obtain ⟨environments, inside⟩ := accepted.explicit
  refine ⟨fun t member => by rw [Ty.finishedWitness, wellTyped.closed t member],
    fun d member => ⟨_, Sized.builder?_of_scoped inside member, List.length_map _⟩, fun target => ?_⟩
  obtain failed | ⟨q, measured⟩ := measure_declared accepted uniform target
  · exact Or.inl failed
  · obtain failed | ⟨p, -, lowered, -⟩ := lower_declared lowerable measured
    · exact Or.inr ⟨q, measured, Or.inl failed⟩
    · exact Or.inr ⟨q, measured, Or.inr ⟨p, lowered⟩⟩

/-- The struct of the sample is uniform, so the stages behind the type checker do not break down on it. -/
theorem sample_stages : ∃ r typed, compileSource sampleOptions "a" sampleText = .ok r ∧ r.trees.typed = some typed ∧
    typed.structs.map (·.name.name) = ["P"] ∧ Sized.Uniform (typed.structs.map Explicit.structOf) ∧
    (∀ t ∈ typed.types, t.finishedWitness = .ok t.witnessExpr) ∧
    (∀ d ∈ (Explicit.pass typed).structs, ∃ b, (Explicit.pass typed).builder? d.name.tag = some b ∧
      b.fields.length = d.fields.length) ∧
    ∀ target, (∃ e, Sized.measure (Explicit.pass typed) target = .error (.error e)) ∨
      ∃ q, Sized.measure (Explicit.pass typed) target = .ok q ∧
        ((∃ struct e, Ir.lower q = .error (.layout struct e)) ∨ ∃ p, Ir.lower q = .ok p) := by
  obtain ⟨r, typed, -, -, compiled, known, -, -, -, -, structs, -, uniform⟩ := sample_lowered
  exact ⟨r, typed, compiled, known, structs, uniform, stages_declared ⟨by decide, by decide⟩ compiled known uniform⟩

end Texts

end WitnessLang.Build
