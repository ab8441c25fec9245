import Mathlib.Algebra.Order.Field.Basic
import Mathlib.Algebra.Order.Ring.Rat
import Mathlib.Data.List.Forall2
import Mathlib.Tactic.Linarith
import WitnessLang.Build.Directory
import WitnessLang.Build.Progress
import WitnessLang.Proofs.Build.Stops

set_option autoImplicit false

/-! The view of a running build. The files of a directory are worked on at the same time, so that what is said about
one comes in between what is said about others, in the order in which it was said of each. Whatever turns they take,
the bar never goes back and is full at the end, and a row ends at the stage that failed or at the last one that ran. -/
namespace WitnessLang.Build

/-- News of several files: the events of each in their order, each with some time taken. -/
inductive Arrivals : List (List Event) → List News → Prop
  | nil {left : List (List Event)} (spent : ∀ es ∈ left, es = []) : Arrivals left []
  | cons (front : List (List Event)) {back : List (List Event)} {e : Event} {es : List Event} {ns : List News}
      (elapsed : Int) (more : Arrivals (front ++ es :: back) ns) :
      Arrivals (front ++ (e :: es) :: back) (News.ofEvent e elapsed :: ns)

/-- What the row of a file shows when it is built. A file that cannot be read has no stages, and fails at the first
position. -/
structure Row.Shows (o : Options) (r : Row) (b : Built) : Prop where
  path : r.path = b.path
  cached : b.outcome = none → r.outcome = some .cached
  failed : ∀ q, b.outcome = some q → q.failed = true → r.outcome = some .failed ∧
    ((∃ st, q.FailsIn st ∧ r.stand = st.index) ∨ q.phases = [] ∧ r.stand = 0)
  done : ∀ q, b.outcome = some q → q.failed = false → r.outcome = some .done ∧ q.reached = some o.stop ∧
    r.stand = o.stop.index

section Rows

variable {goal : Row → Prop} {r : Row} {e : Event} {es : List Event} {path : String} {elapsed : Int}

/-- With the events that are left of its file, a row loses no stage and comes to what is wanted. -/
def Row.Leads (goal : Row → Prop) : Row → List Event → Prop
  | r, [] => r.outcome.isSome = true ∧ goal r
  | r, e :: es => e.file = r.path ∧ ∀ elapsed, r.fraction ≤ (r.record (.ofEvent e elapsed)).fraction ∧
      (r.record (.ofEvent e elapsed)).Leads goal es

/-- What an event says about the position and the end of a row. -/
theorem Row.record_ofEvent (r : Row) (e : Event) (elapsed : Int) :
    (r.record (.ofEvent e elapsed)).path = r.path ∧
      (r.record (.ofEvent e elapsed)).stand = (match e.status with
        | .queued => r.stand
        | .failed => stageIndex e.stage + 1
        | .working | .done | .cached => stageIndex e.stage) ∧
      (r.record (.ofEvent e elapsed)).outcome = (match e.status with
        | .queued | .working => r.outcome
        | .failed | .done | .cached => some e.status) := by
  cases status : e.status <;> simp only [record, News.ofEvent, status] <;> split <;> exact ⟨rfl, rfl, rfl⟩

end Rows

section Files

variable {o : Options} {r q : Outcome} {s : Stage} {n : Nat}

end Files

section View

variable {p : Progress} {r : Row} {rows : List Row} {path : String} {f : Row → Row}

theorem updateLast_split {front back : List Row} (own : r.path = path) (others : ∀ r' ∈ back, r'.path ≠ path) :
    updateLast path f (front ++ r :: back) = front ++ f r :: back := by
  induction front with
  | nil =>
    have none : back.any (·.path == path) = false := by simpa using others
    rw [List.nil_append, updateLast, own, none, if_pos (by simp)]
    rfl
  | cons r' front ih =>
    have later : (front ++ r :: back).any (·.path == path) = true := by simp [own]
    rw [List.cons_append, updateLast, later, if_neg (by simp), ih]
    rfl

theorem completion_eq (p : Progress) :
    p.completion = if p.rows.isEmpty then 0 else (p.rows.map Row.fraction).sum / p.rows.length := by
  rw [Progress.completion, List.sum_eq_foldl, List.foldl_map]

theorem completion_le {front back : List Row} {r' : Row} (more : r.fraction ≤ r'.fraction)
    (rows : p.rows = front ++ r :: back) : p.completion ≤ { p with rows := front ++ r' :: back }.completion := by
  have filled : ∀ r : Row, (front ++ r :: back).isEmpty = false := fun r => by simp
  have length : (front ++ r' :: back).length = (front ++ r :: back).length := by simp
  rw [completion_eq, completion_eq, rows, filled, filled, if_neg Bool.false_ne_true,
    if_neg Bool.false_ne_true, length]
  refine div_le_div_of_nonneg_right ?_ (Nat.cast_nonneg _)
  simp only [List.map_append, List.map_cons, List.sum_append, List.sum_cons]
  linarith

/-- What is to become of rows with the events that are left of their files. -/
def Follows (o : Options) (rows : List Row) (left : List (Built × List Event)) : Prop :=
  List.Forall₂ (fun r b => r.Leads (Row.Shows o · b.1) b.2) rows left

/-- An event is taken in by the row of its file. -/
theorem Follows.step {o : Options} {front back : List (Built × List Event)} {b : Built} {e : Event} {es : List Event}
    (follows : Follows o p.rows (front ++ (b, e :: es) :: back)) (distinct : (p.rows.map (·.path)).Nodup)
    (elapsed : Int) : p.completion ≤ (p.record (.ofEvent e elapsed)).completion ∧
      Follows o (p.record (.ofEvent e elapsed)).rows (front ++ (b, es) :: back) ∧
      ((p.record (.ofEvent e elapsed)).rows.map (·.path)).Nodup := by
  have before := List.forall₂_take_append _ _ _ follows
  have behind := List.forall₂_drop_append _ _ _ follows
  generalize early : p.rows.take front.length = rows at before
  obtain ⟨r, rows', own, later, split⟩ := List.forall₂_cons_right_iff.mp behind
  have whole : p.rows = rows ++ r :: rows' := by rw [← early, ← split, List.take_append_drop]
  obtain ⟨file, step⟩ := own
  obtain ⟨more, leads⟩ := step elapsed
  have path := (r.record_ofEvent e elapsed).1
  have others : ∀ r' ∈ rows', r'.path ≠ e.file := by
    rw [whole, List.map_append, List.map_cons] at distinct
    have apart := (List.nodup_cons.mp distinct.of_append_right).1
    intro r' member same
    exact apart (List.mem_map.mpr ⟨r', member, same.trans file⟩)
  have next : (p.record (.ofEvent e elapsed)) = { p with rows := rows ++ r.record (.ofEvent e elapsed) :: rows' } := by
    rw [Progress.record, whole]
    exact congrArg (fun rows => { p with rows := rows }) (updateLast_split file.symm others)
  rw [next]
  refine ⟨completion_le more whole, List.rel_append before (.cons leads later), ?_⟩
  rw [whole, List.map_append, List.map_cons, ← path] at distinct
  rwa [List.map_append, List.map_cons]

theorem Follows.ends {o : Options} {tracks : List (Built × List Event)} (follows : Follows o rows tracks)
    (spent : ∀ b ∈ tracks, b.2 = []) :
    List.Forall₂ (fun r b => r.outcome.isSome = true ∧ r.Shows o b) rows (tracks.map (·.1)) := by
  induction follows with
  | nil => exact .nil
  | @cons r b rows tracks leads more ih =>
    rw [List.forall_mem_cons] at spent
    rw [spent.1] at leads
    exact .cons leads (ih spent.2)

/-- Whatever turns the files take, the bar never goes back, and every row is finished as it should be. The induction
is on the news. -/
theorem Arrivals.follow {o : Options} {left : List (List Event)} {ns : List News} (arrive : Arrivals left ns)
    {tracks : List (Built × List Event)} (events : tracks.map (·.2) = left) (follows : Follows o p.rows tracks)
    (distinct : (p.rows.map (·.path)).Nodup) :
    (∀ early n late, ns = early ++ n :: late →
      (early.foldl Progress.record p).completion ≤ ((early ++ [n]).foldl Progress.record p).completion) ∧
      List.Forall₂ (fun r b => r.outcome.isSome = true ∧ r.Shows o b) (ns.foldl Progress.record p).rows
        (tracks.map (·.1)) := by
  induction arrive generalizing p tracks with
  | @nil left spent =>
    refine ⟨fun early n late split => absurd split.symm (by simp), follows.ends fun b member => ?_⟩
    exact spent _ (events ▸ List.mem_map_of_mem member)
  | @cons front back e es ns elapsed more ih =>
    obtain ⟨before, behind, rfl, rfl, split⟩ := List.map_eq_append_iff.mp events
    obtain ⟨⟨b, es'⟩, behind, rfl, same, rfl⟩ := List.map_eq_cons_iff.mp split
    obtain rfl : es' = e :: es := same
    obtain ⟨below, follows, distinct⟩ := follows.step distinct elapsed
    have left : (before ++ (b, es) :: behind).map (·.2) = before.map (·.2) ++ es :: behind.map (·.2) := by simp
    obtain ⟨rises, ends⟩ := ih left follows distinct
    refine ⟨fun early n late split => ?_, by simpa using ends⟩
    cases early with
    | nil =>
      obtain ⟨rfl, -⟩ := List.cons.inj split
      exact below
    | cons n' early =>
      obtain ⟨rfl, later⟩ := List.cons.inj split
      exact rises early n late later

end View

end WitnessLang.Build
