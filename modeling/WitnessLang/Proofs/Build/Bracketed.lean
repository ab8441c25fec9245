import WitnessLang.Proofs.Build.Lowered

set_option autoImplicit false

/-! The trace of a file. Whatever is heard of the work on it is bracketed, and nothing is left open unless the work breaks
down, which it does not on a text that is not too long and whose structs can be measured. -/
namespace WitnessLang.Build

open Trace

section Ends

variable {o : Options} {file : SourceFile} {t : Trees}

/-- Stages come to an end if the first one does, and, unless it fails, those after it do. -/
theorem exists_runStages {st : Stage} {rest : List Stage} {r : Outcome} {s : StageResult}
    (ran : runStage o r.file r.trees st = .ok s)
    (next : s.failure = none → ∀ r' : Outcome, r'.trees = s.trees → ∃ q, runStages o rest r' = .ok q) :
    ∃ q, runStages o (st :: rest) r = .ok q := by
  rw [runStages, ran]
  split
  · exact ⟨_, rfl⟩
  · dsimp only [bind, Except.bind]
    split
    · exact ⟨_, rfl⟩
    · rename_i goes
      refine next ?_ _ (afterStage_trees _ st s).1
      rw [Bool.or_eq_true, not_or, Bool.not_eq_true, Option.isSome_eq_false_iff, Option.isNone_iff_eq_none] at goes
      exact goes.1

theorem exists_functionProblems (before : List String) {fs : List Ir.Function}
    (each : ∀ f ∈ fs, ∃ ps, f.problems = some ps) : ∃ ps, Ir.functionProblems before fs = some ps := by
  induction fs generalizing before with
  | nil => exact ⟨[], rfl⟩
  | cons f rest ih =>
    obtain ⟨⟨own, first⟩, each⟩ := List.forall_mem_cons.mp each
    obtain ⟨others, later⟩ := ih (f.name :: before) each
    rw [Ir.functionProblems, first, later]
    exact ⟨_, rfl⟩

/-- What was measured is lowered, or that fails as declared, and so does counting what it was lowered to. -/
theorem exists_lower {typed : Typed.Program} {N : Ir.Naming} (lowerable : Ir.Lowerable typed N) {target : Target}
    {q : Sized.Program} (measured : Sized.measure (Explicit.pass typed) target = .ok q) (sized : t.sized = some q) :
    ∃ s, lower t = .ok s ∧ (s.failure = none → ∃ s', count s.trees = .ok s') := by
  rw [lower, sized]
  dsimp only
  obtain ⟨struct, e, failed⟩ | ⟨p, closures, lowered, own⟩ := lower_declared lowerable measured
  · rw [failed]
    exact ⟨_, rfl, fun none => absurd none (Option.some_ne_none _)⟩
  · rw [lowered]
    dsimp only
    obtain ⟨problems, found⟩ := exists_functionProblems [] fun f member => ⟨_, (own.functions f member).valid⟩
    rw [show p.problems = some problems from found]
    cases problems with
    | cons _ _ => exact ⟨_, rfl, fun none => absurd none (Option.some_ne_none _)⟩
    | nil =>
      refine ⟨_, rfl, fun _ => ?_⟩
      have counted : ∀ f ∈ p.functions, ∃ a, countAlone f = .ok a := fun f member => by
        obtain ⟨g, counted, -⟩ := counted_of_built (own.functions f member)
        exact ⟨.ok g, by rw [countAlone, counted]⟩
      obtain ⟨results, whole⟩ := exists_mapM counted
      rw [count]
      dsimp only
      rw [whole]
      dsimp only [bind, Except.bind]
      split <;> exact ⟨_, rfl⟩

/-- The work on a text that is not too long ends, if none of its structs is polymorphically recursive. -/
theorem exists_compileFile (proper : IsModule o.unit) (short : file.content.length < 2 ^ 32)
    (uniform : ∀ typed, Sized.Accepted (Surface.read file).file ((Surface.read file).namesMet file) o.unit typed →
      Sized.Uniform (typed.structs.map Explicit.structOf)) (files : FileSet) :
    ∃ r, compileFile o files file = .ok r := by
  suffices ends : ∃ r, runStages o Stage.all (beginning o files file) = .ok r by
    obtain ⟨r, ran⟩ := ends
    exact ⟨r.conclude, by rw [compileFile_eq, ran]; rfl⟩
  refine exists_runStages (parse_eq short) fun _ r₁ trees₁ => exists_runStages rfl fun fine₂ r₂ trees₂ =>
    exists_runStages rfl fun fine₃ r₃ trees₃ => exists_runStages rfl fun _ r₄ trees₄ => ?_
  -- Resolving and checking have not failed, so that there is a program.
  obtain ⟨p, table, resolved, tree₂⟩ : ∃ p table, Resolved.resolve (Surface.read file).file
      (((Surface.read file).namesMet file).foldl SymbolTable.intern .start) o.unit = (.ok p, table) ∧
      r₂.trees.resolved = some p := by
    rw [resolve, trees₁] at fine₂ trees₂
    dsimp only [parsed, beginning] at fine₂ trees₂
    split at fine₂
    · rename_i p table known
      exact ⟨p, table, known, by rw [trees₂, known]⟩
    · cases fine₂
  obtain ⟨typed, checked, tree₃⟩ : ∃ typed, Typed.check p = .ok typed ∧ r₃.trees.typed = some typed := by
    rw [check, tree₂] at fine₃ trees₃
    dsimp only at fine₃ trees₃
    split at fine₃
    · rename_i typed known
      exact ⟨typed, known, by rw [trees₃, known]⟩
    · cases fine₃
  have accepted : Sized.Accepted (Surface.read file).file ((Surface.read file).namesMet file) o.unit typed :=
    ⟨proper.own, proper.foreign, p, table, resolved, checked⟩
  obtain ⟨N, lowerable⟩ := Ir.lowerable_of_accepted accepted (Surface.read_named _)
  have tree₄ : r₄.trees.explicit = some (Explicit.pass typed) := by rw [trees₄, pass, tree₃]; rfl
  obtain ⟨e, failed⟩ | ⟨q, measured⟩ := measure_declared accepted (uniform typed accepted) o.target
  · exact exists_runStages (s := { trees := r₄.trees, failure := some (.measuring e) })
      (by simp only [runStage, measure, tree₄, failed]) fun none => absurd none (Option.some_ne_none _)
  · refine exists_runStages (s := { trees := { r₄.trees with sized := some q } })
      (by simp only [runStage, measure, tree₄, measured]) fun _ r₅ trees₅ => ?_
    obtain ⟨s, lowered, counts⟩ := exists_lower (t := r₅.trees) lowerable measured (by rw [trees₅])
    refine exists_runStages lowered fun fine₆ r₆ trees₆ => ?_
    obtain ⟨s', counted⟩ := counts fine₆
    exact exists_runStages (by rw [trees₆]; exact counted) fun _ r₇ _ => ⟨r₇, rfl⟩

end Ends

/-- The trace of a file at any level, whoever listens and however the work ends. What is heard are beginnings and ends
that the level wants, one bracketed by the other, and it is what the level wants of the trace at the finest level, with
other numbers. If the work breaks down, and only then, something that the level follows is left open. -/
theorem compileFile_traced (o : Options) (files : FileSet) (file : SourceFile) :
    (IsModule o.unit → file.content.length < 2 ^ 32 →
      (∀ typed, Sized.Accepted (Surface.read file).file ((Surface.read file).namesMet file) o.unit typed →
        Sized.Uniform (typed.structs.map Explicit.structOf)) → ∃ r, compileFile o files file = .ok r) ∧
    ∃ heard : Level → Nat → List Trace.Event,
      (∀ t : Tracer, (compileFileIn o 0 files file).run t =
        (compileFile o files file, t.hear (heard t.level t.spans))) ∧
      ∀ l k, (∀ e ∈ heard l k, l.admits e.scope = true ∧ (e.kind = Kind.spanBegin ∨ e.kind = Kind.spanEnd)) ∧
        (∃ opened, Bracketed [] (heard l k) opened ∧
          (opened = [] ↔ (compileFile o files file).isOk = true ∨ l.admits .whole = false)) ∧
        ∀ n, ∃ f, f 0 = 0 ∧
          (∀ e ∈ heard .debug n, l.admits e.scope = true → 0 < f e.span ∧
            ∀ e' ∈ heard .debug n, l.admits e'.scope = true → f e.span = f e'.span → e.span = e'.span) ∧
          heard l k = ((heard .debug n).filter fun e => l.admits e.scope).map (Trace.Event.renumber f) := by
  refine ⟨fun proper short uniform => exists_compileFile proper short uniform files, ?_⟩
  obtain ⟨as, nested, runs, broken⟩ := exists_activity o files file (compileFile_eq o files file)
  refine ⟨fun l k => l.events k 0 as, fun t => runs 0 t, fun l k => ⟨fun e member => (Level.mem_events member).2,
    nested.left_open l k broken, fun n => ?_⟩⟩
  have all : ∀ s, Level.debug.admits s = true := fun s => rfl
  have numbers := l.numbers_numberOf n k (scopes as)
  refine ⟨_, rfl, fun e member wanted => ⟨?_, fun e' member' wanted' same => ?_⟩,
    nested.events_renumbered all numbers rfl⟩
  · obtain ⟨done, more, split, span⟩ := Level.span_of_mem all member
    rw [span, numbers _ _ _ split wanted]
    exact Nat.succ_pos _
  · exact numbers.injective all member member' wanted wanted' same

/-- The functions of the sample are counted, and whatever level they are followed at nothing is left open. -/
theorem sample_traced : ∃ r p, compileFile {} (FileSet.add {} "a" sampleText .memory) (sourceOf "a" sampleText) = .ok r ∧
    r.trees.counted = some p ∧ p.functions.map (·.name) = ["f", "_closure_0"] ∧ ∃ heard : Level → Nat → List Trace.Event,
      (∀ t : Tracer, (compileFileIn {} 0 (FileSet.add {} "a" sampleText .memory) (sourceOf "a" sampleText)).run t =
        (.ok r, t.hear (heard t.level t.spans))) ∧ ∀ l k, Bracketed [] (heard l k) [] := by
  obtain ⟨⟨typed, q, m⟩, done, sound, -, -, -, -, plain, counts⟩ := sampleTrees
  obtain ⟨sized, lowered⟩ := lowered?_eq_some.mp done
  have taken := takenTo_of_sized? sized
  have uniform : Sized.Uniform (typed.structs.map Explicit.structOf) :=
    Sized.uniform_of_plain fun d member t part => by
      have generic := plain d member t part
      split at generic
      · exact ⟨_, rfl⟩
      · cases generic
  have only : ∀ typed', Sized.Accepted (Surface.read (sourceOf "a" sampleText)).file
      ((Surface.read (sourceOf "a" sampleText)).namesMet (sourceOf "a" sampleText)) 1 typed' → typed' = typed := by
    rintro typed' ⟨-, -, p', table', resolved', checked'⟩
    obtain ⟨p, resolved, checked⟩ := taken.checked
    rw [resolved'] at resolved
    obtain rfl := Except.ok.inj resolved
    exact Except.ok.inj (checked'.symm.trans checked)
  obtain ⟨ends, heard, runs, traced⟩ := compileFile_traced {} (FileSet.add {} "a" sampleText .memory) (sourceOf "a" sampleText)
  obtain ⟨r, compiled⟩ := ends ⟨by decide, by decide⟩ taken.read.2.2 fun typed' accepted => (only typed' accepted) ▸ uniform
  obtain ⟨results, alone, counts⟩ := Option.bind_eq_some_iff.mp counts
  obtain ⟨gs, whole, names⟩ := Option.map_eq_some_iff.mp counts
  rw [Except.toOption_eq_some] at alone whole
  obtain ⟨r₆, -, -, lowered₆, next₆⟩ := runStages_lowered (o := {}) (by decide) rfl taken lowered sound
  obtain ⟨r₇, trees₇, -, next₇⟩ := runStages_passed (o := {}) rfl .count [] r₆
    ⟨{ r₆.trees with counted := some { m with functions := gs } }, [], none⟩
    (by simp [runStage, count, lowered₆, alone, whole, bind, Except.bind, pure, Except.pure]) rfl
  obtain ⟨r', compiled', same⟩ := compileSource_eq_ok (next₆.trans next₇)
  obtain rfl := Except.ok.inj (compiled'.symm.trans compiled)
  rw [compiled] at runs traced
  refine ⟨r', _, compiled, by rw [same, trees₇], names, heard, runs, fun l k => ?_⟩
  obtain ⟨-, ⟨opened, bracketed, shut⟩, -⟩ := traced l k
  rwa [shut.mpr (.inl rfl)] at bracketed

/-- In the last module the struct has the tag of a made-up name. -/
def unfitText : Bytes := Bytes.ofString "func f(): () -> F64 = || 1\nstruct P { a: F64 }"

set_option maxRecDepth 10000 in
def unfitTyped : { t // (Resolved.resolve (Surface.read (sourceOf "a" unfitText)).file
      (((Surface.read (sourceOf "a" unfitText)).namesMet (sourceOf "a" unfitText)).foldl SymbolTable.intern .start)
      4294967295).1.toOption.bind (fun p => (Typed.check p).toOption) = some t ∧
    ((Surface.read (sourceOf "a" unfitText)).error.isNone = true ∧ (sourceOf "a" unfitText).lexicalFindings = []) ∧
    (match Sized.measureWithin Sized.usualDepth (Explicit.pass t) .wide with
      | .error (.inconsistent message) => message == "sizer: builder of P has 0 fields, struct has 1"
      | _ => false) = true } :=
  obtained (by
    rw [unfitText, Utf8.ofString_ofList]
    decide +kernel)

/-- The work on a text may break down, and leave open what it began. -/
theorem unfitText_open : ∃ es, (∀ t : Tracer, t.level = .phase → t.spans = 0 →
      (compileSourceIn { unit := 4294967295 } 0 "a" unfitText).run t =
        (.error ⟨some "sizer: builder of P has 0 fields, struct has 1"⟩, t.hear es)) ∧
    ¬ Bracketed [] es [] := by
  obtain ⟨typed, checked, ⟨noError, noFinding⟩, unfit⟩ := unfitTyped
  obtain ⟨p, resolved, checked⟩ := Option.bind_eq_some_iff.mp checked
  rw [Except.toOption_eq_some] at resolved checked
  have measured : Sized.measure (Explicit.pass typed) .wide =
      .error (.inconsistent "sizer: builder of P has 0 fields, struct has 1") := by
    split at unfit
    · rename_i message failed
      rw [beq_iff_eq] at unfit
      exact Sized.measure_eq_of_usual (unfit ▸ failed) (by simp)
    · cases unfit
  have short : unfitText.length < 2 ^ 32 := by
    rw [unfitText, Utf8.ofString_ofList]
    decide
  obtain ⟨r₄, -, explicit₄, next₄⟩ := runStages_explicit (o := { unit := 4294967295 }) (by decide) rfl
    ⟨Option.isNone_iff_eq_none.mp noError, noFinding, short⟩ ⟨p, resolved, checked⟩
  have broken : compileFile { unit := 4294967295 } (FileSet.add {} "a" unfitText .memory) (sourceOf "a" unfitText) =
      .error ⟨some "sizer: builder of P has 0 fields, struct has 1"⟩ := by
    rw [compileFile_eq]
    change runStages _ Stage.all (startOf _ "a" unfitText) >>= _ = _
    rw [next₄, if_neg (by decide), runStages, if_neg Bool.false_ne_true]
    simp only [runStage, measure, explicit₄, measured]
    rfl
  obtain ⟨as, nested, runs, inner⟩ := exists_activity { unit := 4294967295 } (FileSet.add {} "a" unfitText .memory)
    (sourceOf "a" unfitText) (compileFile_eq _ _ _)
  rw [broken] at nested runs inner
  obtain ⟨opened, bracketed, shut⟩ := nested.left_open .phase 0 fun _ => inner rfl
  refine ⟨Level.events .phase 0 0 as, fun t level spans => ?_, fun closed => ?_⟩
  · have ran := runs 0 t
    rwa [level, spans] at ran
  · exact absurd (shut.mp (bracketed.unique closed)) (by decide)

end WitnessLang.Build
