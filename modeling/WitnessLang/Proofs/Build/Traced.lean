import WitnessLang.Build.Directory
import WitnessLang.Proofs.Trace.Brackets

set_option autoImplicit false

/-! What comes of a file and what is heard of the work on it. Nothing that comes of it depends on who listens, so that
it can be told without a tracer; and whoever listens hears pieces of work, one inside the other. -/
namespace WitnessLang.Build

open Trace

def countAlone (f : Ir.Function) : Except Crash (Except Ownership.Error Ir.Function) :=
  match Ownership.countFunction f with
  | .ok g => .ok (.ok g)
  | .error e =>
    match e.error? f with
    | none => .error ⟨none⟩
    | some e => .ok (.error e)

/-- What counting the lowered functions comes to. -/
def count (t : Trees) : Except Crash StageResult :=
  match t.lowered with
  | none => .ok { trees := t }
  | some p => do
    let results ← p.functions.mapM countAlone
    match results.mapM id with
    | .ok functions => return { trees := { t with counted := some { p with functions } } }
    | .error e => return { trees := t, failure := some (.counting e) }

def runStage (o : Options) (file : SourceFile) (t : Trees) : Stage → Except Crash StageResult
  | .parse => parse file t
  | .resolve => .ok (resolve o.unit t)
  | .check => .ok (check t)
  | .pass => .ok (pass t)
  | .measure => measure o.target t
  | .lower => lower t
  | .count => count t

/-- What stages come to that run in order until one fails or the last one asked for is reached. -/
def runStages (o : Options) : List Stage → Outcome → Except Crash Outcome
  | [], r => .ok r
  | st :: rest, r =>
    if o.cancelled then .ok (r.report .cancelled)
    else do
      let s ← runStage o r.file r.trees st
      let r := (r.announce st).afterStage st s
      if s.failure.isSome || st = o.stop then return r else runStages o rest r

section Pieces

variable {α : Type} {o : Options} {file : SourceFile} {t : Trees} {size : Nat}

/-- A span to which no facts are added. -/
theorem map_extra_id (span : Option Trace.Span) : (span.map fun s => { s with extra := id s.extra }) = span := by
  cases span <;> rfl

theorem countOne_eq (around : Nat) (f : Ir.Function) : countOne around f =
    liftM (start around .function ("refcount:" ++ f.name)) >>= fun begun =>
      MonadExcept.ofExcept (countAlone f) >>= fun r =>
        liftM (finish begun.2 (if r.isOk then "" else "error")) >>= fun _ => pure r := by
  unfold countOne countAlone
  cases Ownership.countFunction f with
  | ok g => rfl
  | error e =>
    dsimp only
    generalize e.error? f = told
    cases told <;> rfl

theorem goes_countOne (f : Ir.Function) : Goes Scope.stage.number (fun n => countOne n f) (countAlone f) := by
  have order : Scope.stage.number ≤ Scope.function.number := by decide
  rw [← bind_pure (countAlone f), funext fun n => countOne_eq n f]
  exact (goes_ofExcept (countAlone f)).piece (fun r => if r.isOk then "" else "error") (fun _ => id) order
    (fun r _ => goes_pure r) fun r _ span n => by rw [map_extra_id]

theorem goes_count (t : Trees) : Goes Scope.stage.number (fun n => countIn n t) (count t) := by
  unfold countIn count
  cases t.lowered with
  | none => exact goes_pure _
  | some p =>
    refine (Goes.mapM goes_countOne p.functions).bind fun results _ => ?_
    cases results.mapM id <;> exact goes_pure _

-- A function that fails is left in the same way as one that does not.
example :
    let f : Ir.Function :=
      { name := "f", vars := #[⟨"_result", none, .trivial 8, {}⟩], arguments := [⟨0, .out⟩], locals := [], body := [.copy 0 0] }
    let heard := (countIn 7 { lowered := some ⟨1, .wide, [], [f]⟩ }).run { level := .debug, ring := some (.ofCapacity 4) }
    heard.2.events.map (fun e => (e.kind, e.name, e.parent, e.detail)) =
      [(Kind.spanBegin, "refcount:f", 7, ""), (Kind.spanEnd, "refcount:f", 7, "error")] := by decide +kernel

theorem goes_runStage (o : Options) (file : SourceFile) (t : Trees) (st : Stage) :
    Goes Scope.stage.number (fun n => runStageIn o file n t st) (runStage o file t st) := by
  cases st with
  | parse => exact goes_ofExcept _
  | resolve => exact goes_pure _
  | check => exact goes_pure _
  | pass => exact goes_pure _
  | measure => exact goes_ofExcept _
  | lower => exact goes_ofExcept _
  | count => exact goes_count t

theorem runStagesIn_cons (around : Nat) (st : Stage) (rest : List Stage) (r : Outcome) (started : o.cancelled = false) :
    runStagesIn o around (st :: rest) r = liftM (start around .stage st.name) >>= fun begun =>
      runStageIn o r.file begun.1 r.trees st >>= fun s =>
        liftM (finish begun.2 (if s.failure.isSome then "error" else "ok")) >>= fun _ =>
          if s.failure.isSome || st = o.stop then pure ((r.announce st).afterStage st s)
          else runStagesIn o around rest ((r.announce st).afterStage st s) := by
  rw [runStagesIn, started, if_neg Bool.false_ne_true]
  refine bind_congr fun begun => bind_congr fun s => ?_
  cases s.failure.isSome
  · simp only [Bool.false_or, decide_eq_true_eq, if_neg Bool.false_ne_true]
  · rfl

theorem goes_runStages (o : Options) (stages : List Stage) (r : Outcome) :
    Goes Scope.whole.number (fun n => runStagesIn o n stages r) (runStages o stages r) := by
  induction stages generalizing r with
  | nil => exact goes_pure r
  | cons st rest ih =>
    cases started : o.cancelled with
    | true =>
      simp only [runStagesIn, runStages, if_pos started]
      exact goes_pure _
    | false =>
      have order : Scope.whole.number ≤ Scope.stage.number := by decide
      simp only [runStagesIn_cons _ st rest r started]
      rw [runStages, started, if_neg Bool.false_ne_true]
      refine (goes_runStage o r.file r.trees st).piece (fun s => if s.failure.isSome then "error" else "ok")
        (fun _ => id) order (fun s _ => ?_) fun s _ span n => by rw [map_extra_id]
      dsimp only
      split
      · exact goes_pure _
      · exact ih _

/-- What is known of a file when the work on it ends. -/
def Outcome.facts (r : Outcome) (extra : List (String × String)) : List (String × String) :=
  setFact "diagnostics" (toString r.bag.items.length) (setFact "reached" (Stage.nameOf r.reached) extra)

theorem isOk_concluded (x : Except Crash Outcome) : (x >>= fun r => .ok r.conclude).isOk = x.isOk := by
  cases x <;> rfl

/-- What is heard of the work on a file is one piece of work, with the stages inside. It has no end if they break down. -/
theorem exists_activity (o : Options) (files : FileSet) (file : SourceFile) {x : Except Crash Outcome}
    (comes : x = runStages o Stage.all (beginning o files file) >>= fun r => .ok r.conclude) :
    ∃ as, Nested Scope.whole.number x.isOk as ∧
      (∀ n t, (compileFileIn o n files file).run t = (x, t.hear (t.level.events t.spans n as))) ∧
      (x.isOk = false → ∃ inner, as = [.mk .whole ("compile:" ++ file.path) none inner]) := by
  obtain ⟨as, nested, heard, broken⟩ := @Goes.exists_piece _ _ _ _ _ ("compile:" ++ file.path) _ _
    (fun r span _ => liftM (finish (span.map fun s => { s with extra := r.facts s.extra })
      (if r.failed then "error" else "done")) >>= fun _ => pure r.conclude) _ _
    (fun r => if r.failed then "error" else "done") Outcome.facts (goes_runStages o Stage.all (beginning o files file))
    (Nat.le_refl _) (fun r _ => goes_pure r.conclude) fun _ _ _ _ => rfl
  subst comes
  exact ⟨as, nested, heard, fun failed => broken (by rwa [isOk_concluded] at failed)⟩

theorem goes_compileFile (o : Options) (files : FileSet) (file : SourceFile) :
    Goes Scope.whole.number (fun n => compileFileIn o n files file)
      (runStages o Stage.all (beginning o files file) >>= fun r => .ok r.conclude) :=
  let ⟨as, nested, heard, _⟩ := exists_activity o files file rfl
  ⟨as, nested, heard⟩

end Pieces

section Quiet

variable {α β : Type} {o : Options} {m : Traced α} {x : Except Crash α} {size n : Nat}

/-- A tracer that records nothing goes on recording nothing. -/
def Traced.Quiet (m : Traced α) : Prop := m.run .silent = (m.quietly, .silent)

theorem quiet_pure (a : α) : (pure a : Traced α).Quiet := rfl

theorem quietly_bind {f : α → Traced β} (quiet : m.Quiet) :
    (m >>= f).quietly = m.quietly >>= fun a => (f a).quietly := by
  rw [Traced.quietly, run_bind, quiet]
  cases m.quietly <;> rfl

theorem quiet_bind {f : α → Traced β} (quiet : m.Quiet) (next : ∀ a, (f a).Quiet) : (m >>= f).Quiet := by
  rw [Traced.Quiet, quietly_bind quiet, run_bind, quiet]
  cases m.quietly with
  | error e => rfl
  | ok a => exact next a

theorem hear_silent (as : List Activity) : Tracer.silent.hear (Tracer.silent.level.events Tracer.silent.spans n as) = .silent := by
  have none : Tracer.silent.level.events Tracer.silent.spans n as = [] := List.eq_nil_iff_forall_not_mem.mpr fun e member =>
    absurd (Level.mem_events member).2.1 (by simp [Tracer.silent, Level.admits, Level.off])
  rw [none, Tracer.hear_nil]

theorem quiet_of_goes {m : Nat → Traced α} (goes : Goes size m x) (n : Nat) : (m n).quietly = x ∧ (m n).Quiet := by
  obtain ⟨as, -, heard⟩ := goes
  have run := heard n .silent
  rw [hear_silent] at run
  have same : (m n).quietly = x := congrArg Prod.fst run
  exact ⟨same, by rw [Traced.Quiet, same, run]⟩

theorem compileFile_eq (o : Options) (files : FileSet) (file : SourceFile) : compileFile o files file =
    runStages o Stage.all (beginning o files file) >>= fun r => .ok r.conclude :=
  (quiet_of_goes (goes_compileFile o files file) 0).1

theorem quiet_buildAfresh (f : Found) : (buildAfreshIn o 0 f).Quiet := by
  unfold buildAfreshIn
  cases f.content with
  | error reason => exact quiet_pure _
  | ok raw => exact (quiet_of_goes (goes_compileFile _ _ _) 0).2

theorem buildAfresh_eq (o : Options) (f : Found) : buildAfresh o f = match f.content with
    | .error reason => .ok (unreadable o f.path reason)
    | .ok raw => compileFile o (loadFile f.path raw).1 (loadFile f.path raw).2 := by
  unfold buildAfresh buildAfreshIn
  cases f.content <;> rfl

/-- A file is answered from the cache, or built. -/
theorem quiet_buildFile (o : Options) (cache : Option Cache) (f : Found) : (buildFileIn o 0 cache f).Quiet ∧
    buildFile o cache f = match cache, f.content with
      | some c, .ok raw =>
        match c.get? (CacheKey.of o (loaded raw).1) with
        | some s => .ok (Built.ofSummary f.path s, cache)
        | none => buildAfresh o f >>= fun r =>
          .ok (Built.ofOutcome f.path r, some (c.put (CacheKey.of o (loaded raw).1) r.summary))
      | _, _ => buildAfresh o f >>= fun r => .ok (Built.ofOutcome f.path r, cache) := by
  have afresh := quiet_buildAfresh (o := o) f
  unfold buildFile buildFileIn
  cases cache with
  | none => exact ⟨quiet_bind afresh fun r => quiet_pure _, quietly_bind afresh⟩
  | some c =>
    cases f.content with
    | error reason => exact ⟨quiet_bind afresh fun r => quiet_pure _, quietly_bind afresh⟩
    | ok raw =>
      dsimp only
      cases c.get? (CacheKey.of o (loaded raw).1) with
      | some s => exact ⟨rfl, rfl⟩
      | none => exact ⟨quiet_bind afresh fun r => quiet_pure _, quietly_bind afresh⟩

theorem quiet_buildFiles (o : Options) (cache : Option Cache) (fs : List Found) :
    (buildFilesIn o 0 cache fs).Quiet := by
  induction fs generalizing cache with
  | nil => exact quiet_pure _
  | cons f fs ih =>
    exact quiet_bind (quiet_buildFile o cache f).1 fun b => quiet_bind (ih b.2) fun bs => quiet_pure _

theorem buildFiles_cons (o : Options) (cache : Option Cache) (f : Found) (fs : List Found) :
    buildFiles o cache (f :: fs) = buildFile o cache f >>= fun b => buildFiles o b.2 fs >>= fun bs =>
      .ok (b.1 :: bs.1, bs.2) :=
  (quietly_bind (quiet_buildFile o cache f).1).trans <| bind_congr fun b =>
    quietly_bind (quiet_buildFiles o b.2 fs)

end Quiet

end WitnessLang.Build
