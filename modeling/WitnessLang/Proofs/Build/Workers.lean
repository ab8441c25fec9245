import Mathlib.Algebra.GroupWithZero.Nat
import Mathlib.Logic.Relation
import WitnessLang.Proofs.Build.Traced
import WitnessLang.Proofs.Ownership.Usage
import WitnessLang.Proofs.Run

set_option autoImplicit false

/-! Counting with several workers at a time. Every function has a worker, and a group starts the workers, runs a
limited number of them at once and waits for all. Whatever turns they take, what comes of a program is what comes
of it when its functions are counted one after the other. -/
namespace WitnessLang

namespace Ownership

open Ir

/-- The instructions of a block and of all branches in it mention variables of the table only. -/
def Mentions (vs : Variables) (b : Block) : Prop := ∀ i ∈ Instr.flattenAll b, ∀ v ∈ i.operands, v < vs.size

/-- Work that never comes across a variable that does not exist. -/
abbrev Finds {α : Type} (r : Except Failure α) : Prop := Gives (· ≠ .missingVariable) r fun _ => True

section Finding

variable {vs : Variables} {i : Instr} {b : Block} {v : VarId}

theorem mem_operands_of_directUsage
    (member : v ∈ (directUsage i).writes ++ (directUsage i).reads ++ (directUsage i).moves) : v ∈ i.operands := by
  have each : ∀ values : List Ir.Value, v ∈ kept values ∨ v ∈ given values → v ∈ values.map (·.var) := by
    simp only [kept, given, List.mem_map, List.mem_filter]
    grind
  have call : ∀ args : List CallArg, v ∈ results args ∨ v ∈ (inputs args).map (·.var) → v ∈ args.map (·.value.var) := by
    simp only [results, inputs, List.mem_map, List.mem_filter]
    grind
  cases i with
  | callDirect function args =>
    simp only [directUsage, List.mem_append] at member
    rw [Instr.operands]
    grind
  | callClosure closure args =>
    simp only [directUsage, List.mem_append, List.mem_cons] at member
    rw [Instr.operands, List.mem_append, List.mem_singleton]
    grind
  | pack dst struct fields =>
    have values := each (fields.map (·.value))
    simp only [directUsage, List.mem_append, List.mem_singleton] at member
    rw [List.map_map] at values
    rw [Instr.operands, List.mem_cons]
    exact member.elim (Or.imp id (values ∘ Or.inl)) fun moved => Or.inr (values (Or.inr moved))
  | makeClosure dst function env =>
    have value := each [env]
    simp only [directUsage, List.mem_append, List.mem_singleton] at member
    rw [List.map_singleton, List.mem_singleton] at value
    simp only [Instr.operands, List.mem_cons, List.not_mem_nil, or_false]
    exact member.elim (Or.imp id (value ∘ Or.inl)) fun moved => Or.inr (value (Or.inr moved))
  | set | copy | move | destroy | primitive | unpack | cond =>
    simpa [directUsage, Instr.operands, or_comm, or_assoc] using member

theorem exists_usage (inside : ∀ v ∈ i.operands, v < vs.size) : ∃ u, usage? vs i = some u := by
  refine ⟨_, if_pos (List.all_eq_true.mpr fun v member => decide_eq_true ?_)⟩
  exact inside v (mem_operands_of_directUsage member)

theorem exists_outerUsage (mentions : Mentions vs b) : ∃ o, outerUsage? vs b = some o := by
  have all : ∀ is : List Instr, (∀ i ∈ is, ∀ v ∈ i.operands, v < vs.size) → ∃ us, is.mapM (usage? vs) = some us := by
    intro is each
    induction is with
    | nil => exact ⟨[], rfl⟩
    | cons i rest ih =>
      rw [List.forall_mem_cons] at each
      obtain ⟨u, own⟩ := exists_usage each.1
      obtain ⟨us, others⟩ := ih each.2
      exact ⟨u :: us, by simp [own, others]⟩
  obtain ⟨us, gathered⟩ := all _ mentions
  exact ⟨_, by rw [outerUsage?, gathered]; rfl⟩

theorem use_finds (s : Scan) (v : VarId) : Finds (s.use v) := by
  rw [Scan.use]
  split
  · exact Failure.noConfusion
  split
  · exact Failure.noConfusion
  · exact trivial

theorem uses_find (s : Scan) (vars : List VarId) : Finds (vars.forM s.use) := by
  induction vars with
  | nil => exact trivial
  | cons v rest ih => exact (use_finds s v).bind fun _ _ => ih

theorem takeHere_finds (s : Scan) (vars : List VarId) : Finds (s.takeHere vars) := by
  induction vars generalizing s with
  | nil => exact trivial
  | cons v rest ih => exact (use_finds s v).bind fun _ _ => ih _

theorem write_finds (position : Nat) (s : Scan) (vars : List VarId) : Finds (s.write position vars) := by
  induction vars generalizing s with
  | nil => exact trivial
  | cons v rest ih =>
    rw [Scan.write]
    split
    · exact Failure.noConfusion
    · exact ih _

theorem scanInstr_finds (position : Nat) (s : Scan) (mentions : Mentions vs [i]) : Finds (scanInstr vs position s i) := by
  have own : ∀ j ∈ i.flatten, ∀ v ∈ j.operands, v < vs.size := fun j member =>
    mentions j (by rwa [flattenAll_cons, Instr.flattenAll, List.append_nil])
  obtain ⟨u, used⟩ := exists_usage (own i (mem_flatten_self i))
  obtain ⟨o, outer⟩ : ∃ o, branchUsage? vs i = some o := by
    cases i with
    | cond dst test yes no =>
      rw [flatten_cond] at own
      have inYes : Mentions vs yes := fun j member => own j (List.mem_cons_of_mem _ (List.mem_append_left _ member))
      have inNo : Mentions vs no := fun j member => own j (List.mem_cons_of_mem _ (List.mem_append_right _ member))
      obtain ⟨y, usedY⟩ := exists_outerUsage inYes
      obtain ⟨n, usedN⟩ := exists_outerUsage inNo
      exact ⟨_, by rw [branchUsage?, usedY, usedN]; rfl⟩
    | _ => exact ⟨_, rfl⟩
  simp only [scanInstr, used, outer]
  exact (uses_find s _).bind fun _ _ => (uses_find s _).bind fun _ _ => (takeHere_finds s _).bind fun taken _ =>
    (write_finds position _ _).bind fun _ _ => trivial

theorem Mentions.head {rest : Block} (mentions : Mentions vs (i :: rest)) : Mentions vs [i] := fun j member =>
  mentions j (by
    rw [flattenAll_cons, Instr.flattenAll, List.append_nil] at member
    rw [flattenAll_cons]
    exact List.mem_append_left _ member)

theorem Mentions.tail {rest : Block} (mentions : Mentions vs (i :: rest)) : Mentions vs rest := fun j member =>
  mentions j (by
    rw [flattenAll_cons]
    exact List.mem_append_right _ member)

theorem scanBlock_finds (position : Nat) (s : Scan) (mentions : Mentions vs b) : Finds (scanBlock vs position s b) := by
  induction b generalizing position s with
  | nil => exact trivial
  | cons i rest ih =>
    exact (scanInstr_finds position s mentions.head).bind fun _ _ => (ih _ _ mentions.tail).bind fun _ _ => trivial

/-- Ways to count branches that find all variables. -/
def Branches (branches : Option (Counter × Counter)) : Prop :=
  ∀ count ∈ branches, ∀ avail keep handed, Finds (count.1 avail keep handed) ∧ Finds (count.2 avail keep handed)

theorem assemble_finds {p : Plan} {keep : List VarId} {branches : List (Option (Counter × Counter))}
    (each : ∀ b ∈ branches, Branches b) (position : Nat) (steps : List Step) :
    Finds (assemble p keep position steps branches) := by
  induction steps generalizing position branches with
  | nil => cases branches <;> exact trivial
  | cons s rest ih =>
    cases branches with
    | nil => exact trivial
    | cons b more =>
      rw [List.forall_mem_cons] at each
      have step : Finds (countStep p keep position s b) := by
        rw [countStep.eq_def]
        split
        · exact (each.1 _ rfl _ _ _).1.bind fun _ _ => (each.1 _ rfl _ _ _).2.bind fun _ _ => trivial
        · exact trivial
      exact step.bind fun _ _ => (ih each.2 _).bind fun _ _ => trivial

theorem countWith_finds {branches : List (Option (Counter × Counter))} (mentions : Mentions vs b)
    (each : ∀ b ∈ branches, Branches b) (avail keep handed : List VarId) :
    Finds (countWith vs b branches avail keep handed) :=
  (scanBlock_finds 0 _ mentions).bind fun _ _ => assemble_finds each 0 _

mutual

theorem branchCounters_find : (i : Instr) → Mentions vs [i] → Branches (branchCounters vs i)
  | .cond dst test yes no, mentions => by
    have inside : ∀ j ∈ Instr.flattenAll yes ++ Instr.flattenAll no, ∀ v ∈ j.operands, v < vs.size := fun j member =>
      mentions j (by
        rw [flattenAll_cons, flatten_cond]
        exact List.mem_append_left _ (List.mem_cons_of_mem _ member))
    have mentionsY : Mentions vs yes := fun j member => inside j (List.mem_append_left _ member)
    have mentionsN : Mentions vs no := fun j member => inside j (List.mem_append_right _ member)
    intro count known avail keep handed
    obtain rfl := Option.some.inj known
    exact ⟨countWith_finds mentionsY (blockCounters_find yes mentionsY) avail keep handed,
      countWith_finds mentionsN (blockCounters_find no mentionsN) avail keep handed⟩
  | .set .., _ | .copy .., _ | .move .., _ | .destroy .., _ | .primitive .., _ | .callDirect .., _ | .callClosure .., _
  | .pack .., _ | .unpack .., _ | .makeClosure .., _ => fun _ known => by cases known

theorem blockCounters_find : (b : Block) → Mentions vs b → ∀ c ∈ blockCounters vs b, Branches c
  | [], _ => List.forall_mem_nil _
  | i :: rest, mentions => List.forall_mem_cons.mpr
    ⟨branchCounters_find i mentions.head, blockCounters_find rest mentions.tail⟩

end

/-- A function that mentions existing variables only is counted or breaks the discipline. -/
theorem countFunction_finds {f : Function} (mentions : Mentions f.vars f.body) : Finds (countFunction f) :=
  (countWith_finds mentions (blockCounters_find f.body mentions) _ _ _).bind fun _ _ => trivial

end Finding

end Ownership

namespace Build

open Ownership (Finds countFunction countFunctions countProgram)

/-- What runs pieces of work beside each other, each of which may fail with an `ε`. -/
structure Group (ε : Type) where
  State : Type
  fresh : State
  /-- One more piece of work can be started at once. -/
  Ready : State → Prop
  start : State → State
  /-- What a piece of work hears that asks whether it is still wanted. -/
  calledOff : State → Option ε
  /-- A piece of work ends, with a failure or without one. -/
  finish : State → Option ε → State
  /-- What waiting for all of the work gives, once it is over. -/
  wait : State → Option (Option ε)

/-- How a group behaves in surroundings that are not called off. It runs a limited number of pieces at once and
remembers the first failure; nothing but a failure calls the others off, and whoever waits is given it. -/
structure Group.Lawful {ε : Type} (G : Group ε) (limit : Nat) (running : G.State → Nat)
    (failure : G.State → Option ε) : Prop where
  fresh : running G.fresh = 0 ∧ failure G.fresh = none
  start : ∀ g, running (G.start g) = running g + 1 ∧ failure (G.start g) = failure g
  finish : ∀ g e, running (G.finish g e) = running g - 1 ∧ failure (G.finish g e) = (failure g).or e
  ready : ∀ g, G.Ready g ↔ running g < limit
  calledOff : ∀ g, (G.calledOff g).isSome = true → (failure g).isSome = true
  wait : ∀ g, G.wait g = if running g = 0 then some (failure g) else none

inductive WorkerState where
  | waiting
  | begun
  | counting
  | stored
  | ended
  deriving DecidableEq

/-- How many things a worker has still to do. -/
def WorkerState.left : WorkerState → Nat
  | .waiting => 4
  | .begun => 3
  | .counting => 2
  | .stored => 1
  | .ended => 0

structure Worker where
  function : Ir.Function
  state : WorkerState := .waiting
  /-- What was put into the places of the function, the latest first. -/
  puts : List (Except Ownership.Failure Ir.Function) := []

namespace Worker

/-- A worker that was started and has not ended. -/
def active (w : Worker) : Bool := decide (w.state ≠ .waiting ∧ w.state ≠ .ended)

def failure? (w : Worker) : Option (Ir.Function × Ownership.Failure) :=
  w.puts.findSome? fun
    | .error e => some (w.function, e)
    | .ok _ => none

/-- The function in the place for counted functions. -/
def counted? (w : Worker) : Option Ir.Function := w.puts.findSome? Except.toOption

end Worker

/-- What comes of counting a program with workers. -/
inductive Answer (ε : Type) where
  /-- A worker came across a variable that does not exist. -/
  | broken
  /-- The group gave up. -/
  | calledOff (e : ε)
  | failed (function : Ir.Function) (e : Ownership.Failure)
  /-- Some function has nothing in its place. -/
  | incomplete
  | done (p : Ir.Program)

section Workers

variable {ε : Type} {G : Group ε}

/-- What counting the functions one after the other comes to. -/
def Answer.ofProgram : Except (Ir.Function × Ownership.Failure) Ir.Program → Answer ε
  | .ok q => .done q
  | .error (f, e) => .failed f e

/-- What is read from the places in the order of the program, the one for failures first. -/
def Answer.ofWorkers (p : Ir.Program) (ws : List Worker) : Answer ε :=
  match ws.findSome? Worker.failure? with
  | some (f, e) => .failed f e
  | none =>
    match ws.mapM Worker.counted? with
    | some fs => .done { p with functions := fs }
    | none => .incomplete

structure Counting (G : Group ε) where
  group : G.State
  workers : List Worker
  answer : Option (Answer ε) := none

namespace Counting

def start (G : Group ε) (p : Ir.Program) : Counting G := ⟨G.fresh, p.functions.map ({ function := · }), none⟩

/-- What can happen next. Workers are started in the order of the program; once they are, any of them may do the
next thing. -/
inductive Step (p : Ir.Program) : Counting G → Counting G → Prop where
  | launch {g : G.State} {front back : List Worker} {f : Ir.Function} {puts}
      (earlier : ∀ w ∈ front, w.state ≠ .waiting) (ready : G.Ready g) :
      Step p ⟨g, front ++ ⟨f, .waiting, puts⟩ :: back, none⟩ ⟨G.start g, front ++ ⟨f, .begun, puts⟩ :: back, none⟩
  | goOn {g : G.State} {front back : List Worker} {f : Ir.Function} {puts} (wanted : G.calledOff g = none) :
      Step p ⟨g, front ++ ⟨f, .begun, puts⟩ :: back, none⟩ ⟨g, front ++ ⟨f, .counting, puts⟩ :: back, none⟩
  | giveUp {g : G.State} {front back : List Worker} {f : Ir.Function} {puts} {e : ε} (off : G.calledOff g = some e) :
      Step p ⟨g, front ++ ⟨f, .begun, puts⟩ :: back, none⟩
        ⟨G.finish g (some e), front ++ ⟨f, .ended, puts⟩ :: back, none⟩
  | store {g : G.State} {front back : List Worker} {f : Ir.Function} {puts}
      (found : countFunction f ≠ .error .missingVariable) :
      Step p ⟨g, front ++ ⟨f, .counting, puts⟩ :: back, none⟩
        ⟨g, front ++ ⟨f, .stored, countFunction f :: puts⟩ :: back, none⟩
  | breakDown {g : G.State} {front back : List Worker} {f : Ir.Function} {puts}
      (missing : countFunction f = .error .missingVariable) :
      Step p ⟨g, front ++ ⟨f, .counting, puts⟩ :: back, none⟩ ⟨g, front ++ ⟨f, .counting, puts⟩ :: back, some .broken⟩
  | finish {g : G.State} {front back : List Worker} {f : Ir.Function} {puts} :
      Step p ⟨g, front ++ ⟨f, .stored, puts⟩ :: back, none⟩
        ⟨G.finish g none, front ++ ⟨f, .ended, puts⟩ :: back, none⟩
  | abandon {g : G.State} {ws : List Worker} {e : ε} (launched : ∀ w ∈ ws, w.state ≠ .waiting)
      (idle : G.wait g = some (some e)) : Step p ⟨g, ws, none⟩ ⟨g, ws, some (.calledOff e)⟩
  | collect {g : G.State} {ws : List Worker} (launched : ∀ w ∈ ws, w.state ≠ .waiting)
      (idle : G.wait g = some none) : Step p ⟨g, ws, none⟩ ⟨g, ws, some (.ofWorkers p ws)⟩

/-- What counting a program may have come to. -/
def Reachable (p : Ir.Program) (s : Counting G) : Prop := Relation.ReflTransGen (Step p) (start G p) s

def left (s : Counting G) : Nat :=
  (s.workers.map (·.state.left)).sum + if s.answer.isNone then 1 else 0

/-- Every step brings the end nearer. -/
theorem Step.left_lt {p : Ir.Program} {s s' : Counting G} (step : Step p s s') : s'.left < s.left := by
  cases step <;> simp [left, WorkerState.left]

theorem acc_step (p : Ir.Program) (s : Counting G) : Acc (fun s' s => Step p s s') s :=
  Subrelation.accessible (fun step => step.left_lt) (InvImage.accessible left (Nat.lt_wfRel.wf.apply _))

end Counting

/-- A worker has put what comes of its function into its place, once, or nothing yet. -/
def Worker.Right (w : Worker) : Prop :=
  w.puts = match w.state with
    | .stored | .ended => [countFunction w.function]
    | _ => []

/-- Places that hold what they should are read as if the functions had been counted one after the other. -/
theorem ofWorkers_of_ended {p : Ir.Program} {ws : List Worker} (functions : ws.map (·.function) = p.functions)
    (ended : ∀ w ∈ ws, w.puts = [countFunction w.function]) :
    Answer.ofWorkers p ws = (.ofProgram (countProgram p) : Answer ε) := by
  have each : ∀ ws : List Worker, (∀ w ∈ ws, w.puts = [countFunction w.function]) →
      match countFunctions (ws.map (·.function)) with
      | .ok gs => ws.findSome? Worker.failure? = none ∧ ws.mapM Worker.counted? = some gs
      | .error (f, e) => ws.findSome? Worker.failure? = some (f, e) := by
    intro ws own
    induction ws with
    | nil => exact ⟨rfl, rfl⟩
    | cons w rest ih =>
      rw [List.forall_mem_cons] at own
      have others := ih own.2
      rw [List.map_cons, countFunctions, List.findSome?_cons, List.mapM_cons, Worker.failure?, Worker.counted?, own.1]
      cases counted : countFunction w.function with
      | error e => rfl
      | ok g =>
        cases more : countFunctions (rest.map (·.function)) with
        | error fe =>
          rw [more] at others
          exact others
        | ok gs =>
          rw [more] at others
          exact ⟨others.1, by rw [others.2]; rfl⟩
  have whole := each ws ended
  rw [functions] at whole
  rw [Answer.ofWorkers, countProgram]
  cases counted : countFunctions p.functions with
  | error fe =>
    rw [counted] at whole
    rw [whole]
    rfl
  | ok gs =>
    rw [counted] at whole
    rw [whole.1, whole.2]
    rfl

/-- What holds however the workers take turns: no failure is known to the group, and every place holds what it
should. -/
structure Counting.Sound (p : Ir.Program) (running : G.State → Nat) (failure : G.State → Option ε) (s : Counting G) :
    Prop where
  quiet : failure s.group = none
  running : running s.group = s.workers.countP Worker.active
  functions : s.workers.map (·.function) = p.functions
  right : ∀ w ∈ s.workers, w.Right
  answer : ∀ a, s.answer = some a → a = .ofProgram (countProgram p) ∧ ∀ w ∈ s.workers, w.state = .ended

namespace Counting

variable {p : Ir.Program} {running : G.State → Nat} {failure : G.State → Option ε} {limit : Nat}
  {g g' : G.State} {front back : List Worker} {w w' : Worker}

/-- One worker gets on. -/
theorem Sound.replace (sound : Sound p running failure ⟨g, front ++ w :: back, none⟩)
    (quiet : failure g' = none) (count : running g' + (if w.active then 1 else 0) = running g + if w'.active then 1 else 0)
    (function : w'.function = w.function) (right : w'.Right) :
    Sound p running failure ⟨g', front ++ w' :: back, none⟩ := by
  refine ⟨quiet, ?_, ?_, ?_, fun a none => by cases none⟩
  · have before := sound.running
    simp only [List.countP_append, List.countP_cons] at before ⊢
    omega
  · have before := sound.functions
    simp only [List.map_append, List.map_cons, function] at before ⊢
    exact before
  · have before := sound.right
    simp only [List.forall_mem_append, List.forall_mem_cons] at before ⊢
    exact ⟨before.1, right, before.2.2⟩

/-- Workers that were all started and none of which runs have ended. -/
theorem Sound.ended {ws : List Worker} (sound : Sound p running failure ⟨g, ws, none⟩)
    (launched : ∀ w ∈ ws, w.state ≠ .waiting) (idle : running g = 0) : ∀ w ∈ ws, w.state = .ended := by
  have resting : ws.countP Worker.active = 0 := sound.running.symm.trans idle
  intro w member
  refine Decidable.byContradiction fun running => ?_
  exact List.countP_eq_zero.mp resting w member (decide_eq_true ⟨launched w member, running⟩)

theorem Step.sound (lawful : G.Lawful limit running failure) (mentions : ∀ f ∈ p.functions, Ownership.Mentions f.vars f.body)
    {s s' : Counting G} (step : Step p s s') (sound : s.Sound p running failure) : s'.Sound p running failure := by
  have worker : ∀ {front back : List Worker} {w : Worker}, s.workers = front ++ w :: back →
      w.Right ∧ Finds (countFunction w.function) := by
    intro front back w all
    have member : w ∈ s.workers := by simp [all]
    refine ⟨sound.right w member, Ownership.countFunction_finds (mentions _ ?_)⟩
    rw [← sound.functions]
    exact List.mem_map_of_mem member
  cases step with
  | launch earlier ready =>
    exact sound.replace ((lawful.start _).2.trans sound.quiet) (by rw [(lawful.start _).1]; rfl) rfl (worker rfl).1
  | goOn wanted => exact sound.replace sound.quiet rfl rfl (worker rfl).1
  | giveUp off =>
    have failed := lawful.calledOff _ (by rw [off]; rfl)
    rw [sound.quiet] at failed
    cases failed
  | store found =>
    exact sound.replace sound.quiet rfl rfl (congrArg (countFunction _ :: ·) (worker rfl).1)
  | breakDown missing =>
    have finds := (worker rfl).2
    rw [missing] at finds
    exact absurd rfl finds
  | @finish g front back f puts =>
    refine sound.replace ?_ ?_ rfl (worker rfl).1
    · rw [(lawful.finish _ _).2, sound.quiet]
      rfl
    · have one : 0 < running g := by
        rw [sound.running, List.countP_pos_iff]
        exact ⟨⟨f, .stored, puts⟩, by simp, rfl⟩
      rw [(lawful.finish _ _).1]
      change running g - 1 + 1 = running g + 0
      omega
  | abandon launched done =>
    rw [lawful.wait, sound.quiet] at done
    split at done <;> cases done
  | @collect g ws launched done =>
    have idle : running g = 0 := by
      rw [lawful.wait] at done
      split at done
      · assumption
      · cases done
    have ended := sound.ended launched idle
    refine ⟨sound.quiet, sound.running, sound.functions, sound.right, fun a same => ?_⟩
    obtain rfl := Option.some.inj same
    refine ⟨ofWorkers_of_ended sound.functions fun w member => ?_, ended⟩
    have right := sound.right w member
    rwa [Worker.Right, ended w member] at right

theorem Reachable.sound (lawful : G.Lawful limit running failure)
    (mentions : ∀ f ∈ p.functions, Ownership.Mentions f.vars f.body) {s : Counting G} (reachable : s.Reachable p) :
    s.Sound p running failure := by
  induction reachable with
  | refl =>
    refine ⟨lawful.fresh.2, ?_, ?_, ?_, fun a none => by cases none⟩
    · refine lawful.fresh.1.trans (Eq.symm (List.countP_eq_zero.mpr ?_))
      exact List.forall_mem_map.mpr fun f _ => by simp [Worker.active]
    · rw [start, List.map_map]
      exact List.map_id _
    · exact List.forall_mem_map.mpr fun f _ => rfl
  | tail _ step ih => exact step.sound lawful mentions ih

/-- As long as there is no answer, something can happen: no worker waits for another one. -/
theorem Sound.exists_step (lawful : G.Lawful limit running failure) (positive : 0 < limit) {s : Counting G}
    (sound : s.Sound p running failure) (unanswered : s.answer = none) : ∃ s', Step p s s' := by
  obtain ⟨g, ws, answer⟩ := s
  obtain rfl : answer = none := unanswered
  by_cases active : ∃ w ∈ ws, w.active = true
  · obtain ⟨⟨f, state, puts⟩, member, runs⟩ := active
    obtain ⟨front, back, rfl⟩ := List.append_of_mem member
    cases state with
    | waiting | ended => cases runs
    | begun =>
      cases wanted : G.calledOff g with
      | none => exact ⟨_, .goOn wanted⟩
      | some e => exact ⟨_, .giveUp wanted⟩
    | counting =>
      by_cases missing : countFunction f = .error .missingVariable
      · exact ⟨_, .breakDown missing⟩
      · exact ⟨_, .store missing⟩
    | stored => exact ⟨_, .finish⟩
  · have idle : running g = 0 := sound.running.trans (List.countP_eq_zero.mpr fun w member runs => active ⟨w, member, runs⟩)
    cases first : ws.find? (·.state = .waiting) with
    | none =>
      have launched : ∀ w ∈ ws, w.state ≠ .waiting := by simpa using first
      exact ⟨_, .collect launched (by rw [lawful.wait, if_pos idle, sound.quiet])⟩
    | some w =>
      obtain ⟨waits, front, back, rfl, earlier⟩ := List.find?_eq_some_iff_append.mp first
      obtain ⟨f, state, puts⟩ := w
      obtain rfl : state = .waiting := of_decide_eq_true waits
      exact ⟨_, .launch (by simpa using earlier) ((lawful.ready g).mpr (by omega))⟩

end Counting

/-- Functions that are counted one by one, all of them, tell of the same as when the first failure ends the work. -/
theorem mapM_countAlone {fs : List Ir.Function} (mentions : ∀ f ∈ fs, Ownership.Mentions f.vars f.body) :
    ∃ results, fs.mapM countAlone = .ok results ∧
      match countFunctions fs with
      | .ok gs => results.mapM id = .ok gs
      | .error (f, e) => ∃ told, e.error? f = some told ∧ results.mapM id = .error told := by
  induction fs with
  | nil => exact ⟨[], rfl, rfl⟩
  | cons f rest ih =>
    obtain ⟨own, mentions⟩ := List.forall_mem_cons.mp mentions
    obtain ⟨results, counted, told⟩ := ih mentions
    have finds := Ownership.countFunction_finds own
    rw [countFunctions, List.mapM_cons, counted]
    cases alone : countFunction f with
    | error e =>
      rw [alone] at finds
      cases e with
      | missingVariable => exact absurd rfl finds
      | breach cause v =>
        refine ⟨.error ⟨cause, f.name, Ir.nameOf f.vars v⟩ :: results, ?_, _, rfl, rfl⟩
        rw [countAlone, alone]
        rfl
    | ok g =>
      refine ⟨.ok g :: results, ?_, ?_⟩
      · rw [countAlone, alone]
        rfl
      · cases more : countFunctions rest with
        | error fe =>
          rw [more] at told
          obtain ⟨e, same, failed⟩ := told
          refine ⟨e, same, ?_⟩
          rw [List.mapM_cons, failed]
          rfl
        | ok gs =>
          rw [more] at told
          change (Except.ok g :: results).mapM id = .ok (g :: gs)
          rw [List.mapM_cons, told]
          rfl

/-- What the stage makes of a lowered program is what counting its functions one after the other comes to. -/
theorem count_eq {t : Trees} {p : Ir.Program} (lowered : t.lowered = some p)
    (mentions : ∀ f ∈ p.functions, Ownership.Mentions f.vars f.body) :
    count t =
      match countProgram p with
      | .ok q => .ok { trees := { t with counted := some q } }
      | .error (f, e) =>
        match e.error? f with
        | some e => .ok { trees := t, failure := some (.counting e) }
        | none => .error ⟨none⟩ := by
  obtain ⟨results, counted, told⟩ := mapM_countAlone mentions
  rw [count, lowered, countProgram]
  dsimp only
  rw [counted]
  cases whole : countFunctions p.functions with
  | error fe =>
    rw [whole] at told
    obtain ⟨e, same, failed⟩ := told
    dsimp only [bind, Except.bind]
    rw [failed]
    dsimp only
    rw [same]
    rfl
  | ok gs =>
    rw [whole] at told
    dsimp only [bind, Except.bind]
    rw [told]
    rfl

/-- However many functions are counted at once, and whatever turns the workers take, the answer is that of counting
one function after the other: the counted functions in the order of the program, each of which was put into its
place once, or the failure of the first function that fails in that order. An answer is always found: as long as
there is none something can happen, and not for ever. The stage of the pipeline gives this answer. -/
theorem counted_in_order {jobs : Int} {running : G.State → Nat} {failure : G.State → Option ε}
    (lawful : G.Lawful (max jobs 1).toNat running failure) {p : Ir.Program}
    (mentions : ∀ f ∈ p.functions, Ownership.Mentions f.vars f.body) {s : Counting G} (reachable : s.Reachable p) :
    (∀ a, s.answer = some a → a = .ofProgram (countProgram p) ∧ ∀ w ∈ s.workers, w.puts = [countFunction w.function]) ∧
      (s.answer = none → ∃ s', Counting.Step p s s') ∧ Acc (fun s' s => Counting.Step p s s') s ∧
      ∀ (t : Trees) (around : Nat) (tracer : Trace.Tracer), t.lowered = some p → ((countIn around t).run tracer).1 =
        match countProgram p with
        | .ok q => .ok { trees := { t with counted := some q } }
        | .error (f, e) =>
          match e.error? f with
          | some e => .ok { trees := t, failure := some (.counting e) }
          | none => .error ⟨none⟩ := by
  have sound := reachable.sound lawful mentions
  refine ⟨fun a same => ⟨(sound.answer a same).1, fun w member => ?_⟩, sound.exists_step lawful (by omega),
    Counting.acc_step p s, fun t around tracer lowered => ?_⟩
  · have right := sound.right w member
    rwa [Worker.Right, (sound.answer a same).2 w member] at right
  · obtain ⟨pieces, -, heard⟩ := goes_count t
    rw [heard, count_eq lowered mentions]

end Workers

/-- A group that knows how many pieces of work are running, and the first failure. -/
def Group.limited (ε : Type) (limit : Nat) : Group ε where
  State := Nat × Option ε
  fresh := (0, none)
  Ready g := g.1 < limit
  start g := (g.1 + 1, g.2)
  calledOff g := g.2
  finish g e := (g.1 - 1, g.2.or e)
  wait g := if g.1 = 0 then some g.2 else none

theorem Group.limited_lawful (ε : Type) (limit : Nat) : (Group.limited ε limit).Lawful limit Prod.fst Prod.snd :=
  ⟨⟨rfl, rfl⟩, fun _ => ⟨rfl, rfl⟩, fun _ _ => ⟨rfl, rfl⟩, fun _ => Iff.rfl, fun _ => id, fun _ => rfl⟩

def writesTwice : Ir.Function where
  name := "f"
  vars := #[⟨"_result", none, .trivial 8, {}⟩]
  arguments := [⟨0, .out⟩]
  locals := []
  body := [.set 0 (.bool true), .set 0 (.bool false)]

/-- A function that reads its result before it is written. -/
def readsFirst : Ir.Function := { writesTwice with name := "g", body := [.copy 0 0] }

def brokenProgram : Ir.Program := ⟨1, .wide, [], [writesTwice, readsFirst]⟩

/-- With two workers, the second function may fail before the first one does; the answer is the failure of the
first one. -/
theorem brokenProgram_counted : ∃ m s : Counting (Group.limited Unit 2), m.Reachable brokenProgram ∧
    Relation.ReflTransGen (Counting.Step brokenProgram) m s ∧
    m.workers.map (·.puts) = [[], [.error (.breach .readBeforeWrite 0)]] ∧
    s.answer = some (.failed writesTwice (.breach .writtenTwice 0)) ∧
    (∀ f ∈ brokenProgram.functions, Ownership.Mentions f.vars f.body) ∧
    (∀ a, s.answer = some a → a = .ofProgram (countProgram brokenProgram) ∧
      ∀ w ∈ s.workers, w.puts = [countFunction w.function]) := by
  have second : countFunction readsFirst = .error (.breach .readBeforeWrite 0) := rfl
  have first : countFunction writesTwice = .error (.breach .writtenTwice 0) := rfl
  have foundSecond : countFunction readsFirst ≠ .error .missingVariable := fun same => by rw [second] at same; cases same
  have foundFirst : countFunction writesTwice ≠ .error .missingVariable := fun same => by rw [first] at same; cases same
  have mentions : ∀ f ∈ brokenProgram.functions, Ownership.Mentions f.vars f.body := by
    simp [brokenProgram, Ownership.Mentions, writesTwice, readsFirst, Ir.Instr.flattenAll, Ir.Instr.flatten,
      Ir.Instr.operands]
  let at' (g : Nat) (sf : WorkerState) (pf : List _) (sg : WorkerState) (pg : List _) : Counting (Group.limited Unit 2) :=
    ⟨(g, none), [⟨writesTwice, sf, pf⟩, ⟨readsFirst, sg, pg⟩], none⟩
  have begun : (at' 2 .begun [] .begun []).Reachable brokenProgram :=
    .tail (.single (@Counting.Step.launch _ _ _ _ [] [_] _ _ (by simp) (show 0 < 2 by decide)))
      (@Counting.Step.launch _ _ _ _ [_] [] _ _ (by simp) (show 1 < 2 by decide))
  have middle : (at' 2 .begun [] .stored [countFunction readsFirst]).Reachable brokenProgram :=
    .tail (.tail begun (@Counting.Step.goOn _ _ _ _ [_] [] _ _ rfl))
      (@Counting.Step.store _ _ _ _ [_] [] _ _ foundSecond)
  have ended : Relation.ReflTransGen (Counting.Step brokenProgram) (at' 2 .begun [] .stored [countFunction readsFirst])
      (at' 0 .ended [countFunction writesTwice] .ended [countFunction readsFirst]) :=
    .tail (.tail (.tail (.single (@Counting.Step.finish _ _ _ _ [_] [] _ _)) (@Counting.Step.goOn _ _ _ _ [] [_] _ _ rfl))
      (@Counting.Step.store _ _ _ _ [] [_] _ _ foundFirst)) (@Counting.Step.finish _ _ _ _ [] [_] _ _)
  have whole := ended.tail (.collect (by simp) rfl)
  refine ⟨_, _, middle, whole, by rw [← second]; rfl, ?_, mentions, ?_⟩
  · rw [Answer.ofWorkers]
    simp only [List.findSome?_cons, Worker.failure?, first]
  · exact (counted_in_order (show (Group.limited Unit 2).Lawful (max (2 : Int) 1).toNat Prod.fst Prod.snd from
      Group.limited_lawful Unit 2) mentions (middle.trans whole)).1

end Build

end WitnessLang
