import Mathlib.Logic.Relation
import WitnessLang.Proofs.Build.Traced
import WitnessLang.Proofs.Lists
import WitnessLang.Proofs.Run
import WitnessLang.Proofs.Text.Utf8

set_option autoImplicit false

/-! Runs that share a cache. Files are worked on at the same time, in whatever order, and some of the work is
called off; an answer from the cache is the summary of a file of the same key that was built before.

What summaries depend on. The trees of a file are made of its content, for a target and a module; its path
and the number of findings that are kept have no part in them. -/
namespace WitnessLang.Build

section Keys

variable {o o' : Options} {a b x y content content' : Bytes}

/-- Bytes are cut at their last zero in one way. -/
theorem cut_inj (free : 0 ∉ x) (free' : 0 ∉ y) (same : a ++ 0 :: x = b ++ 0 :: y) : a = b ∧ x = y := by
  rcases List.append_eq_append_iff.mp same with ⟨between, rfl, rest⟩ | ⟨between, rfl, rest⟩
  · cases between with
    | nil => exact ⟨(List.append_nil a).symm, (List.cons.inj rest).2⟩
    | cons c between =>
      rw [List.cons_append, List.cons.injEq] at rest
      exact absurd (rest.2 ▸ List.mem_append_right between List.mem_cons_self) free
  · cases between with
    | nil => exact ⟨List.append_nil b, (List.cons.inj rest).2.symm⟩
    | cons c between =>
      rw [List.cons_append, List.cons.injEq] at rest
      exact absurd (rest.2 ▸ List.mem_append_right between List.mem_cons_self) free'

theorem zero_not_mem_decimal (n : Nat) : 0 ∉ Bytes.ofString (toString n) := by
  intro member
  obtain ⟨c, own, zero⟩ := List.mem_flatMap.mp member
  have digit : c.isDigit = true :=
    Nat.isDigit_of_mem_toDigits (b := 10) (n := n) (by decide) (by decide) (by simpa using own)
  rw [show c = Char.ofNat 0 by rw [← Char.ofNat_toNat c, Utf8.zero_of_mem_encode zero]] at digit
  exact absurd digit (by decide)

theorem decimal_inj {m n : Nat} (same : toString m = toString n) : m = n := by
  have digits : Nat.toDigits 10 m = Nat.toDigits 10 n := by simpa using congrArg String.toList same
  rw [← Nat.ofDigitChars_ten_toDigits (n := m), digits, Nat.ofDigitChars_ten_toDigits]

theorem Stage.zero_not_mem_name (st : Stage) : 0 ∉ Bytes.ofString st.name := by
  cases st <;> decide

theorem Stage.name_inj {st st' : Stage} (same : st.name = st'.name) : st = st' := by
  cases st <;> cases st' <;> first | rfl | exact absurd same (by decide)

/-- A key is cut at its last zeros, whatever is in the text and in the triple. -/
theorem CacheKey.of_inj (same : CacheKey.of o content = CacheKey.of o' content') :
    content ++ 0 :: Bytes.ofString o.target.triple = content' ++ 0 :: Bytes.ofString o'.target.triple ∧
      o.stop = o'.stop ∧ o.unit = o'.unit := by
  have bytes := congrArg CacheKey.bytes same
  simp only [CacheKey.of, List.flatMap_cons, List.flatMap_nil, List.append_nil, ← List.append_assoc] at bytes
  obtain ⟨bytes, -⟩ := cut_inj (by decide) (by decide) bytes
  obtain ⟨bytes, unit⟩ := cut_inj (zero_not_mem_decimal _) (zero_not_mem_decimal _) bytes
  obtain ⟨bytes, stop⟩ := cut_inj o.stop.zero_not_mem_name o'.stop.zero_not_mem_name bytes
  exact ⟨bytes, Stage.name_inj (Utf8.ofString_inj stop), decimal_inj (Utf8.ofString_inj unit)⟩

/-- Keys for triples without zeros tell apart all that they are made of. -/
theorem CacheKey.of_eq_iff (free : 0 ∉ Bytes.ofString o.target.triple) (free' : 0 ∉ Bytes.ofString o'.target.triple) :
    CacheKey.of o content = CacheKey.of o' content' ↔
      content = content' ∧ o.target.triple = o'.target.triple ∧ o.stop = o'.stop ∧ o.unit = o'.unit := by
  constructor
  · intro same
    obtain ⟨bytes, wishes⟩ := CacheKey.of_inj same
    obtain ⟨content, triple⟩ := cut_inj free free' bytes
    exact ⟨content, Utf8.ofString_inj triple, wishes⟩
  · rintro ⟨rfl, triple, stop, unit⟩
    rw [CacheKey.of, CacheKey.of, triple, stop, unit]

end Keys

structure Options.Alike (o o' : Options) : Prop where
  stop : o.stop = o'.stop
  target : o.target = o'.target
  unit : o.unit = o'.unit
  cancelled : o.cancelled = o'.cancelled

/-- What was made of files of one content. The paths agree if the files are known by one, and the findings agree
if as many of them are kept. -/
structure Outcome.Alike (named kept : Prop) (r r' : Outcome) : Prop where
  path : named → r.path = r'.path
  id : r.file.id = r'.file.id
  content : r.file.content = r'.file.content
  trees : r.trees = r'.trees
  reached : r.reached = r'.reached
  bag : kept → r.bag = r'.bag

/-- Summaries that agree on what was made. The paths agree if the files are known by one, and the findings agree if
as many of them are kept. -/
structure Summary.Agrees (named kept : Prop) (s s' : Summary) : Prop where
  path : named → s.path = s'.path
  reached : s.reached = s'.reached
  structs : s.structs = s'.structs
  functions : s.functions = s'.functions
  failed : kept → s.failed = s'.failed
  findings : kept → s.findings = s'.findings

theorem Summary.Agrees.refl (named kept : Prop) (s : Summary) : s.Agrees named kept s :=
  ⟨fun _ => rfl, rfl, rfl, rfl, fun _ => rfl, fun _ => rfl⟩

theorem Summary.Agrees.eq {named kept : Prop} {s s' : Summary} (agrees : s.Agrees named kept s') (path : named)
    (findings : kept) : s = s' := by
  cases s
  cases s'
  rw [Summary.mk.injEq]
  exact ⟨agrees.path path, agrees.reached, agrees.failed findings, agrees.structs, agrees.functions,
    agrees.findings findings⟩

theorem Outcome.Alike.summary {named kept : Prop} {r r' : Outcome} (alike : r.Alike named kept r') :
    r.summary.Agrees named kept r'.summary where
  path := alike.path
  reached := alike.reached
  structs := by simp only [Outcome.summary, alike.trees]
  functions := by simp only [Outcome.summary, alike.trees]
  failed same := by simp only [Outcome.summary, Outcome.failed, alike.bag same]
  findings same := by simp only [Outcome.summary, alike.bag same]

section Stages

variable {named kept : Prop} {o o' : Options} {r r' : Outcome}

/-- Stages look at the content of a file only. -/
theorem runStage_alike (wishes : o.Alike o') (alike : r.Alike named kept r') (st : Stage) :
    runStage o r.file r.trees st = runStage o' r'.file r'.trees st := by
  have files : ∀ t, parse r.file t = parse r'.file t := by
    obtain ⟨path, files, ⟨id, name, content, origin⟩⟩ := r
    obtain ⟨path', files', ⟨id', name', content', origin'⟩⟩ := r'
    obtain ⟨-, same, same', -⟩ := alike
    dsimp only at same same'
    subst same same'
    exact fun _ => rfl
  rw [alike.trees]
  cases st with
  | parse => exact files r'.trees
  | resolve => exact congrArg (fun unit => Except.ok (resolve unit r'.trees)) wishes.unit
  | measure => exact congrArg (fun target => measure target r'.trees) wishes.target
  | check => rfl
  | pass => rfl
  | lower => rfl
  | count => rfl

theorem report_alike (alike : r.Alike named kept r') (f : Failure) : (r.report f).Alike named kept (r'.report f) := by
  rw [Outcome.report, Outcome.report, alike.trees]
  split
  · exact ⟨alike.path, alike.id, alike.content, rfl, alike.reached, fun same => by rw [alike.bag same]⟩
  · exact ⟨alike.path, alike.id, alike.content, alike.trees, alike.reached, alike.bag⟩

theorem afterStage_alike (alike : r.Alike named kept r') (st : Stage) (s : StageResult) :
    (r.afterStage st s).Alike named kept (r'.afterStage st s) := by
  rw [Outcome.afterStage, Outcome.afterStage]
  dsimp only
  split
  · refine report_alike ?_ _
    exact ⟨alike.path, alike.id, alike.content, rfl, alike.reached, fun same => by rw [alike.bag same]⟩
  · exact ⟨alike.path, alike.id, alike.content, rfl, rfl, fun same => by rw [alike.bag same]⟩

/-- The induction is on the stages that are left. -/
theorem runStages_alike (wishes : o.Alike o') {stages : List Stage} (alike : r.Alike named kept r') {q : Outcome}
    (done : runStages o stages r = .ok q) : ∃ q', runStages o' stages r' = .ok q' ∧ q.Alike named kept q' := by
  induction stages generalizing r r' with
  | nil =>
    obtain rfl := Except.ok.inj done
    exact ⟨r', rfl, alike⟩
  | cons st rest ih =>
    rw [runStages] at done ⊢
    rw [← wishes.cancelled, ← wishes.stop]
    split at done
    · obtain rfl := Except.ok.inj done
      exact ⟨_, if_pos ‹_›, report_alike alike _⟩
    · rw [if_neg ‹_›]
      dsimp only at done ⊢
      rw [Except.bind_eq_ok] at done
      obtain ⟨s, ran, done⟩ := done
      rw [← runStage_alike wishes alike st, ran]
      have working : Outcome.Alike named kept (r.announce st) (r'.announce st) :=
        ⟨alike.path, alike.id, alike.content, alike.trees, alike.reached, alike.bag⟩
      have after := afterStage_alike working st s
      split at done
      · obtain rfl := Except.ok.inj done
        exact ⟨_, if_pos ‹_›, after⟩
      · obtain ⟨q', done', same⟩ := ih after done
        exact ⟨q', (if_neg ‹_›).trans done', same⟩

end Stages

section Files

variable {o o' : Options} {f f' : Found} {raw raw' : Bytes}

/-- What two files of one content are summarized to, if as much is asked for of one as of the other. -/
theorem summary_alike (wishes : o.Alike o') (here : f.content = .ok raw) (there : f'.content = .ok raw')
    (same : (loaded raw).1 = (loaded raw').1) {r : Outcome} (done : buildAfresh o f = .ok r) :
    ∃ r', buildAfresh o' f' = .ok r' ∧ r.summary.Agrees (Path.clean f.path = Path.clean f'.path)
      (Bag.ofLimit o.maxDiagnostics = Bag.ofLimit o'.maxDiagnostics) r'.summary := by
  rw [buildAfresh_eq, here] at done
  rw [buildAfresh_eq, there]
  dsimp only [loadFile] at done ⊢
  rw [compileFile_eq, Except.bind_eq_ok] at done
  obtain ⟨q, ran, ended⟩ := done
  obtain rfl := Except.ok.inj ended
  have start : Outcome.Alike (Path.clean f.path = Path.clean f'.path)
      (Bag.ofLimit o.maxDiagnostics = Bag.ofLimit o'.maxDiagnostics)
      (beginning o (FileSet.add {} f.path (loaded raw).1 (loaded raw).2)
        ⟨0, Path.clean f.path, (loaded raw).1, (loaded raw).2⟩)
      (beginning o' (FileSet.add {} f'.path (loaded raw').1 (loaded raw').2)
        ⟨0, Path.clean f'.path, (loaded raw').1, (loaded raw').2⟩) :=
    ⟨id, rfl, same, rfl, rfl, id⟩
  obtain ⟨q', ran', alike⟩ := runStages_alike wishes start ran
  rw [compileFile_eq, ran']
  refine ⟨_, rfl, Outcome.Alike.summary ?_⟩
  exact ⟨alike.path, alike.id, alike.content, alike.trees, alike.reached, alike.bag⟩

end Files

/-- Runs stages in order until one fails or the last one asked for is reached; the work is called off after
some of them. -/
def runStagesUntil (o : Options) : Nat → List Stage → Outcome → Except Crash Outcome
  | _, [], r => .ok r
  | 0, _ :: _, r => .ok (r.report .cancelled)
  | n + 1, st :: rest, r => do
    let s ← runStage o r.file r.trees st
    let r := (r.announce st).afterStage st s
    if s.failure.isSome || st = o.stop then return r else runStagesUntil o n rest r

structure Task where
  options : Options
  found : Found
  /-- The number of stages after which the run is called off, if it is. -/
  calledOff : Option Nat
  /-- Runs are not called off before they start. -/
  working : options.cancelled = false

namespace Task

/-- What the summary of a file is kept under, if the file can be read. -/
def key? (t : Task) : Option CacheKey := t.found.content.toOption.map fun raw => CacheKey.of t.options (loaded raw).1

def build (t : Task) : Except Crash Outcome :=
  match t.calledOff, t.found.content with
  | some n, .ok raw => do
    let (files, file) := loadFile t.found.path raw
    runStagesUntil t.options n Stage.all (beginning t.options files file)
  | _, _ => buildAfresh t.options t.found

def Shares (t t' : Task) : Prop := ∃ key, t.key? = some key ∧ t'.key? = some key

end Task

inductive Advance where
  | waiting
  /-- The cache has no answer, and the file is being built. -/
  | building
  | answered (b : Built)

/-- A cache, and all the files of the runs that share it. -/
structure Shared where
  cache : Cache := []
  tasks : List (Task × Advance) := []

namespace Shared

/-- What can happen next. Looking a key up and keeping a summary are done by one worker at a time; between the
two, other workers go on. -/
inductive Step : Shared → Shared → Prop where
  /-- One more file, of a run that starts or of one that is going on. -/
  | arrive (s : Shared) (t : Task) : Step s { s with tasks := s.tasks ++ [(t, .waiting)] }
  | refuse {c : Cache} {front back : List (Task × Advance)} {t : Task} {reason : String}
      (unread : t.found.content = .error reason) :
      Step ⟨c, front ++ (t, .waiting) :: back⟩
        ⟨c, front ++ (t, .answered (.ofOutcome t.found.path (unreadable t.options t.found.path reason))) :: back⟩
  | reuse {c : Cache} {front back : List (Task × Advance)} {t : Task} {key : CacheKey} {summary : Summary}
      (known : t.key? = some key) (kept : c.get? key = some summary) :
      Step ⟨c, front ++ (t, .waiting) :: back⟩ ⟨c, front ++ (t, .answered (.ofSummary t.found.path summary)) :: back⟩
  | miss {c : Cache} {front back : List (Task × Advance)} {t : Task} {key : CacheKey}
      (known : t.key? = some key) (absent : c.get? key = none) :
      Step ⟨c, front ++ (t, .waiting) :: back⟩ ⟨c, front ++ (t, .building) :: back⟩
  | finish {c : Cache} {front back : List (Task × Advance)} {t : Task} {key : CacheKey} {r : Outcome}
      (known : t.key? = some key) (built : t.build = .ok r) :
      Step ⟨c, front ++ (t, .building) :: back⟩
        ⟨c.put key r.summary, front ++ (t, .answered (.ofOutcome t.found.path r)) :: back⟩
  /-- Entries are dropped. -/
  | drop {c c' : Cache} {tasks : List (Task × Advance)} (fewer : c' ⊆ c) : Step ⟨c, tasks⟩ ⟨c', tasks⟩

/-- What has come of some runs, however they took turns. -/
def Reachable (s : Shared) : Prop := Relation.ReflTransGen Step {} s

/-- A summary that one of the files came to when it was built. -/
def Made (s : Shared) (t : Task) (summary : Summary) : Prop :=
  (∃ p, (t, p) ∈ s.tasks) ∧ ∃ r, t.build = .ok r ∧ r.summary = summary

/-- Entries and answers are summaries of files that share the key. -/
structure Sound (s : Shared) : Prop where
  entries : ∀ e ∈ s.cache, ∃ t, s.Made t e.2 ∧ t.key? = some e.1
  answers : ∀ t b, (t, Advance.answered b) ∈ s.tasks → ∃ t', s.Made t' b.summary ∧ (t' = t ∨ t'.Shares t)

section Steps

variable {c c' : Cache} {front back : List (Task × Advance)} {t t' : Task} {p p' : Advance} {summary : Summary}

theorem mem_replace {u : Task} {q : Advance} (member : (u, q) ∈ front ++ (t, p') :: back) :
    (u, q) ∈ front ++ (t, p) :: back ∨ u = t ∧ q = p' := by
  simp only [List.mem_append, List.mem_cons, Prod.mk.injEq] at member ⊢
  tauto

/-- Files stay. -/
theorem Made.replace (made : Made ⟨c, front ++ (t, p) :: back⟩ t' summary) :
    Made ⟨c', front ++ (t, p') :: back⟩ t' summary := by
  obtain ⟨⟨q, member⟩, built⟩ := made
  refine ⟨?_, built⟩
  rcases mem_replace (p := p') member with old | ⟨rfl, -⟩
  · exact ⟨q, old⟩
  · exact ⟨p', by simp⟩

/-- One file gets on, and the cache may change. -/
theorem Sound.replace (sound : Sound ⟨c, front ++ (t, p) :: back⟩)
    (entries : ∀ e ∈ c', e ∈ c ∨ t.key? = some e.1 ∧ ∃ r, t.build = .ok r ∧ r.summary = e.2)
    (answers : ∀ b, p' = .answered b →
      (∃ key, t.key? = some key ∧ (key, b.summary) ∈ c) ∨ ∃ r, t.build = .ok r ∧ r.summary = b.summary) :
    Sound ⟨c', front ++ (t, p') :: back⟩ := by
  have own : ∀ {summary}, (∃ r, t.build = .ok r ∧ r.summary = summary) →
      Made ⟨c', front ++ (t, p') :: back⟩ t summary := fun built => ⟨⟨p', by simp⟩, built⟩
  refine ⟨fun e member => ?_, fun u b member => ?_⟩
  · rcases entries e member with old | ⟨key, built⟩
    · obtain ⟨u, made, key⟩ := sound.entries e old
      exact ⟨u, made.replace, key⟩
    · exact ⟨t, own built, key⟩
  · rcases mem_replace member with old | ⟨rfl, same⟩
    · obtain ⟨t', made, shared⟩ := sound.answers u b old
      exact ⟨t', made.replace, shared⟩
    · rcases answers b same.symm with ⟨key, known, kept⟩ | built
      · obtain ⟨t', made, known'⟩ := sound.entries _ kept
        exact ⟨t', made.replace, Or.inr ⟨key, known', known⟩⟩
      · exact ⟨u, own built, Or.inl rfl⟩

theorem build_unread {reason : String} (unread : t.found.content = .error reason) :
    t.build = .ok (unreadable t.options t.found.path reason) := by
  rw [Task.build, unread]
  cases t.calledOff <;> simp only [buildAfresh_eq, unread]

/-- Whatever happens next, entries and answers stay right. -/
theorem Step.sound {s s' : Shared} (step : Step s s') (sound : s.Sound) : s'.Sound := by
  cases step with
  | arrive _ t =>
    have stays : ∀ {u summary}, s.Made u summary → Made ⟨s.cache, s.tasks ++ [(t, .waiting)]⟩ u summary :=
      fun ⟨⟨p, member⟩, built⟩ => ⟨⟨p, List.mem_append_left _ member⟩, built⟩
    refine ⟨fun e member => ?_, fun u b member => ?_⟩
    · obtain ⟨u, made, key⟩ := sound.entries e member
      exact ⟨u, stays made, key⟩
    · have old : (u, Advance.answered b) ∈ s.tasks := by simpa using member
      obtain ⟨t', made, shared⟩ := sound.answers u b old
      exact ⟨t', stays made, shared⟩
  | refuse unread =>
    refine sound.replace (fun e => Or.inl) fun b same => Or.inr ⟨_, build_unread unread, ?_⟩
    obtain rfl := Advance.answered.inj same
    rfl
  | reuse known kept =>
    refine sound.replace (fun e => Or.inl) fun b same => Or.inl ⟨_, known, ?_⟩
    obtain rfl := Advance.answered.inj same
    exact mem_of_lookup kept
  | miss => exact sound.replace (fun e => Or.inl) fun b same => by cases same
  | finish known built =>
    refine sound.replace (fun e member => ?_) fun b same => Or.inr ⟨_, built, ?_⟩
    · rcases List.mem_cons.mp member with rfl | old
      · exact Or.inr ⟨known, _, built, rfl⟩
      · exact Or.inl (List.mem_filter.mp old).1
    · obtain rfl := Advance.answered.inj same
      rfl
  | drop fewer => exact ⟨fun e member => sound.entries e (fewer member), sound.answers⟩

theorem Reachable.sound {s : Shared} (reachable : s.Reachable) : s.Sound := by
  induction reachable with
  | refl => exact ⟨List.forall_mem_nil _, fun _ _ member => by cases member⟩
  | tail _ step ih => exact step.sound ih

end Steps

/-- Files of a run arrive one after the other. -/
theorem arrive_all (c : Cache) (tasks : List (Task × Advance)) (new : List Task) :
    Relation.ReflTransGen Step ⟨c, tasks⟩ ⟨c, tasks ++ new.map (·, .waiting)⟩ := by
  induction new generalizing tasks with
  | nil => rw [List.map_nil, List.append_nil]
  | cons t rest ih =>
    have later := ih (tasks ++ [(t, .waiting)])
    rw [List.append_assoc] at later
    exact .head (.arrive ⟨c, tasks⟩ t) later

section Runs

variable {o : Options} (working : o.cancelled = false) {c : Cache} {cache : Option Cache}

def taskOf (f : Found) : Task := ⟨o, f, none, working⟩

/-- To build a file is to look it up first, and to keep its summary if there was no answer. -/
theorem buildFile_steps {f : Found} {b : Built} (done : buildFile o (some c) f = .ok (b, cache))
    (front back : List (Task × Advance)) : ∃ c', cache = some c' ∧
      Relation.ReflTransGen Step ⟨c, front ++ (taskOf working f, .waiting) :: back⟩
        ⟨c', front ++ (taskOf working f, .answered b) :: back⟩ := by
  cases content : f.content with
  | error reason =>
    simp only [(quiet_buildFile _ _ _).2, content, buildAfresh_eq] at done
    obtain ⟨rfl, rfl⟩ := Prod.mk.inj (Except.ok.inj done)
    exact ⟨c, rfl, .single (.refuse (t := taskOf working f) content)⟩
  | ok raw =>
    have known : (taskOf working f).key? = some (CacheKey.of o (loaded raw).1) := by
      rw [Task.key?, taskOf, content]
      rfl
    simp only [(quiet_buildFile _ _ _).2, content] at done
    split at done
    · rename_i summary kept
      obtain ⟨rfl, rfl⟩ := Prod.mk.inj (Except.ok.inj done)
      exact ⟨_, rfl, .single (.reuse known kept)⟩
    · rename_i absent
      rw [Except.bind_eq_ok] at done
      obtain ⟨r, built, done⟩ := done
      obtain ⟨rfl, rfl⟩ := Prod.mk.inj (Except.ok.inj done)
      exact ⟨_, rfl, .tail (.single (.miss known absent)) (.finish known built)⟩

/-- Files that are built one after the other take one of the turns that are possible. The induction is on the files
that wait. -/
theorem buildFiles_steps {fs : List Found} {bs : List Built} (done : buildFiles o (some c) fs = .ok (bs, cache))
    (front : List (Task × Advance)) : ∃ c', cache = some c' ∧
      Relation.ReflTransGen Step ⟨c, front ++ fs.map fun f => (taskOf working f, .waiting)⟩
        ⟨c', front ++ List.zipWith (fun f b => (taskOf working f, .answered b)) fs bs⟩ := by
  induction fs generalizing c bs front with
  | nil =>
    obtain ⟨rfl, rfl⟩ := Prod.mk.inj (Except.ok.inj done)
    exact ⟨c, rfl, .refl⟩
  | cons f rest ih =>
    rw [buildFiles_cons, Except.bind_eq_ok] at done
    obtain ⟨⟨b, cache₁⟩, first, done⟩ := done
    rw [Except.bind_eq_ok] at done
    obtain ⟨⟨bs, cache₂⟩, others, done⟩ := done
    obtain ⟨rfl, rfl⟩ := Prod.mk.inj (Except.ok.inj done)
    obtain ⟨c₁, rfl, steps⟩ := buildFile_steps working first front (rest.map fun f => (taskOf working f, .waiting))
    obtain ⟨c₂, rfl, steps'⟩ := ih others (front ++ [(taskOf working f, .answered b)])
    rw [List.append_assoc, List.append_assoc] at steps'
    exact ⟨c₂, rfl, steps.trans steps'⟩

/-- What a run comes to can be reached. -/
theorem Reachable.buildFiles {tasks : List (Task × Advance)} (reachable : Reachable ⟨c, tasks⟩) {fs : List Found}
    {bs : List Built} (done : buildFiles o (some c) fs = .ok (bs, cache)) : ∃ c', cache = some c' ∧
      Reachable ⟨c', tasks ++ List.zipWith (fun f b => (taskOf working f, .answered b)) fs bs⟩ := by
  obtain ⟨c', rfl, steps⟩ := buildFiles_steps working done tasks
  have arrived := arrive_all c tasks (fs.map (taskOf working))
  rw [List.map_map] at arrived
  exact ⟨c', rfl, (reachable.trans arrived).trans steps⟩

/-- A run over one file, and another run after it. -/
def buildTwice (o o' : Options) (f f' : Found) : Except Crash (Built × Built) := do
  let (b, cache) ← buildFile o (some []) f
  let (b', _) ← buildFile o' cache f'
  return (b, b')

theorem Reachable.buildTwice {o' : Options} (working' : o'.cancelled = false) {f f' : Found} {b b' : Built}
    (done : buildTwice o o' f f' = .ok (b, b')) :
    ∃ c, Reachable ⟨c, [(taskOf working f, .answered b), (taskOf working' f', .answered b')]⟩ := by
  rw [Shared.buildTwice, Except.bind_eq_ok] at done
  obtain ⟨⟨b₁, cache₁⟩, first, done⟩ := done
  rw [Except.bind_eq_ok] at done
  obtain ⟨⟨b₂, cache₂⟩, second, done⟩ := done
  obtain ⟨rfl, rfl⟩ := Prod.mk.inj (Except.ok.inj done)
  obtain ⟨c₁, rfl, steps⟩ := buildFile_steps working first [] []
  obtain ⟨c₂, rfl, steps'⟩ := buildFile_steps working' second [(taskOf working f, .answered b₁)] []
  have start : Reachable ⟨c₁, [(taskOf working f, .answered b₁)]⟩ := .head (.arrive {} _) steps
  exact ⟨c₂, (start.tail (.arrive _ _)).trans steps'⟩

end Runs

end Shared

section Transparent

variable {s : Shared} {t t' : Task} {b : Built}

/-- Files of one content that the same is asked for agree, if they are built for one machine. -/
theorem Task.Shares.summary (shared : t'.Shares t) (going : t'.calledOff = none)
    (machine : t'.options.target = t.options.target) {r : Outcome} (built : t'.build = .ok r) :
    ∃ r', buildAfresh t.options t.found = .ok r' ∧ r.summary.Agrees (Path.clean t'.found.path = Path.clean t.found.path)
      (Bag.ofLimit t'.options.maxDiagnostics = Bag.ofLimit t.options.maxDiagnostics) r'.summary := by
  obtain ⟨key, known, known'⟩ := shared
  simp only [Task.key?, Option.map_eq_some_iff] at known known'
  obtain ⟨raw, there, rfl⟩ := known
  obtain ⟨raw', here, same⟩ := known'
  obtain ⟨bytes, stop, unit⟩ := CacheKey.of_inj same
  have content' : (loaded raw').1 = (loaded raw).1 := by
    rw [machine] at bytes
    exact List.append_cancel_right bytes
  rw [Task.build, going] at built
  exact summary_alike ⟨stop.symm, machine, unit.symm, t'.working.trans t.working.symm⟩ (Except.toOption_eq_some.mp there)
    (Except.toOption_eq_some.mp here)
    content'.symm built

/-- Every answer of a run that goes on to its end is the summary of some file that shares the key, be it the file itself
or one that came before. If that file was built to its end and for the same machine, its summary is the one that the
file would have had afresh, but for the path, and for the findings if another number of them is kept. So a cache is
transparent where the files that share a key agree on these. -/
theorem answered_summary (reachable : s.Reachable) (answered : (t, Advance.answered b) ∈ s.tasks)
    (going : t.calledOff = none) :
    (∃ t' p, (t', p) ∈ s.tasks ∧ (t' = t ∨ t'.Shares t) ∧
      (t'.calledOff = none → t'.options.target = t.options.target → ∃ r, buildAfresh t.options t.found = .ok r ∧
        b.summary.Agrees (Path.clean t'.found.path = Path.clean t.found.path)
          (Bag.ofLimit t'.options.maxDiagnostics = Bag.ofLimit t.options.maxDiagnostics) r.summary)) ∧
      ((∀ t' p, (t', p) ∈ s.tasks → t'.Shares t → t'.calledOff = none ∧ t'.options.target = t.options.target ∧
          Path.clean t'.found.path = Path.clean t.found.path ∧
          Bag.ofLimit t'.options.maxDiagnostics = Bag.ofLimit t.options.maxDiagnostics) →
        ∃ r, buildAfresh t.options t.found = .ok r ∧ b.summary = r.summary) := by
  obtain ⟨t', ⟨⟨p, member⟩, r, built, same⟩, shared⟩ := reachable.sound.answers t b answered
  have agrees : t'.calledOff = none → t'.options.target = t.options.target → ∃ r, buildAfresh t.options t.found = .ok r ∧
      b.summary.Agrees (Path.clean t'.found.path = Path.clean t.found.path)
        (Bag.ofLimit t'.options.maxDiagnostics = Bag.ofLimit t.options.maxDiagnostics) r.summary := by
    intro going' machine
    rw [← same]
    rcases shared with rfl | shared
    · rw [Task.build, going] at built
      exact ⟨r, built, .refl _ _ _⟩
    · exact shared.summary going' machine built
  refine ⟨⟨t', p, member, shared, agrees⟩, fun all => ?_⟩
  obtain ⟨going', machine, path, kept⟩ : t'.calledOff = none ∧ t'.options.target = t.options.target ∧
      Path.clean t'.found.path = Path.clean t.found.path ∧
      Bag.ofLimit t'.options.maxDiagnostics = Bag.ofLimit t.options.maxDiagnostics := by
    rcases shared with rfl | shared
    · exact ⟨going, rfl, rfl, rfl⟩
    · exact all t' p member shared
  obtain ⟨r, fresh, agrees⟩ := agrees going' machine
  exact ⟨r, fresh, agrees.eq path kept⟩

/-- A file with line ends of two bytes, and what became of it when they were shortened. -/
def sampleFiles : Found × Found :=
  (⟨"a.kl", .ok (Bytes.ofString "func f():F64=1\r\n")⟩, ⟨"a.kl", .ok (Bytes.ofString "func f():F64=1\n")⟩)

def checkedOptions : Options := { stop := .check }

/-- The shortened file is answered from the cache, with the summary that it has afresh. -/
theorem sample_answered : ∃ s t b, Shared.Reachable s ∧ (t, Advance.answered b) ∈ s.tasks ∧ t.calledOff = none ∧
    t.found = sampleFiles.2 ∧ b.isCached = true ∧ b.summary.reached = some .check ∧
    ∃ r, buildAfresh t.options t.found = .ok r ∧ b.summary = r.summary := by
  have taken : (Shared.buildTwice checkedOptions checkedOptions sampleFiles.1 sampleFiles.2).toOption.map (fun bs =>
      bs.2.isCached && decide (bs.2.summary.reached = some .check)) = some true := by decide +kernel
  obtain ⟨⟨b, b'⟩, done, passed⟩ := Option.map_eq_some_iff.mp taken
  simp only [Bool.and_eq_true, decide_eq_true_eq] at passed
  obtain ⟨c, reachable⟩ := Shared.Reachable.buildTwice (o := checkedOptions) rfl rfl (Except.toOption_eq_some.mp done)
  have answered : (Shared.taskOf (o := checkedOptions) rfl sampleFiles.2, Advance.answered b') ∈
      [(Shared.taskOf (o := checkedOptions) rfl sampleFiles.1, Advance.answered b),
        (Shared.taskOf (o := checkedOptions) rfl sampleFiles.2, Advance.answered b')] := by simp
  refine ⟨_, _, b', reachable, answered, rfl, rfl, passed.1, passed.2,
    (answered_summary reachable answered rfl).2 fun t' p member _ => ?_⟩
  have found : t' = Shared.taskOf (o := checkedOptions) rfl sampleFiles.1 ∨
      t' = Shared.taskOf (o := checkedOptions) rfl sampleFiles.2 := by
    simp only [List.mem_cons, Prod.mk.injEq, List.not_mem_nil, or_false] at member
    exact member.imp And.left And.left
  rcases found with rfl | rfl <;> exact ⟨rfl, rfl, rfl, rfl⟩

def mistakenFile : Found := ⟨"a.kl", .ok (Bytes.ofString "$$")⟩

/-- A run that keeps one finding leaves its summary to one that would keep both. -/
theorem mistaken_answered : ∃ s t b r, Shared.Reachable s ∧ (t, Advance.answered b) ∈ s.tasks ∧
    (∀ t' p, (t', p) ∈ s.tasks → t'.calledOff = none ∧ t'.found = mistakenFile) ∧
    buildAfresh t.options t.found = .ok r ∧ b.summary.findings.length = 1 ∧ r.summary.findings.length = 2 := by
  have taken : (do
      let (_, b) ← Shared.buildTwice { maxDiagnostics := 1 } { maxDiagnostics := 2 } mistakenFile mistakenFile
      let r ← buildAfresh { maxDiagnostics := 2 } mistakenFile
      return (b.summary.findings.length, r.summary.findings.length)).toOption = some (1, 2) := by decide +kernel
  rw [Except.toOption_eq_some, Except.bind_eq_ok] at taken
  obtain ⟨⟨b, b'⟩, twice, taken⟩ := taken
  rw [Except.bind_eq_ok] at taken
  obtain ⟨r, fresh, counts⟩ := taken
  obtain ⟨one, two⟩ := Prod.mk.inj (Except.ok.inj counts)
  obtain ⟨c, reachable⟩ := Shared.Reachable.buildTwice (o := { maxDiagnostics := 1 }) rfl rfl twice
  refine ⟨_, _, b', r, reachable, List.mem_cons_of_mem _ List.mem_cons_self, fun t' p member => ?_, fresh, one, two⟩
  simp only [List.mem_cons, Prod.mk.injEq, List.not_mem_nil, or_false] at member
  rcases member with ⟨rfl, -⟩ | ⟨rfl, -⟩ <;> exact ⟨rfl, rfl⟩

end Transparent

end WitnessLang.Build
