import Mathlib.Data.List.Count
import WitnessLang.Proofs.Ownership.Flow

set_option autoImplicit false

/-! What accepted bodies do path by path. A trail takes one branch of every condition and lists what
happens to variables on the way, type descriptions included. Whatever is used on a trail of an accepted
body has been written on it before. That it is written once, and not used any more once it has been moved,
is certain for variables that no branch writes: what a branch writes is unknown outside of it. -/
namespace WitnessLang.Ownership

open Ir

inductive Access where
  | read (v : VarId)
  | move (v : VarId)
  | write (v : VarId)
  deriving DecidableEq, Repr

/-- The variables that an instruction reads, the descriptions of all that it touches included. -/
def consulted (vs : Variables) (i : Instr) : List VarId :=
  (directUsage i).reads ++ (touched i).filterMap (describedBy? vs)

def accesses (vs : Variables) (i : Instr) : List Access :=
  (consulted vs i).map .read ++ (directUsage i).moves.map .move ++ (directUsage i).writes.map .write

/-- What a branch does, which fills the destination of its condition. -/
def filling (dst : VarId) (as : List Access) : List Access :=
  if .write dst ∈ as then as else as ++ [.write dst]

inductive Trail (vs : Variables) : Block → List Access → Prop
  | nil : Trail vs [] []
  | step {i : Instr} {rest : Block} {as : List Access} (plain : branches i = false)
      (onward : Trail vs rest as) : Trail vs (i :: rest) (accesses vs i ++ as)
  | yes {dst test : VarId} {yes no rest : Block} {as as' : List Access} (inside : Trail vs yes as)
      (onward : Trail vs rest as') :
      Trail vs (.cond dst test yes no :: rest)
        ((consulted vs (.cond dst test yes no)).map .read ++ filling dst as ++ as')
  | no {dst test : VarId} {yes no rest : Block} {as as' : List Access} (inside : Trail vs no as)
      (onward : Trail vs rest as') :
      Trail vs (.cond dst test yes no :: rest)
        ((consulted vs (.cond dst test yes no)).map .read ++ filling dst as ++ as')

/-- A variable is used only if it is given from the start or was written before. -/
def Supplied (given : Set VarId) (as : List Access) (v : VarId) : Prop :=
  ∀ before a after, as = before ++ a :: after → a = .read v ∨ a = .move v → v ∈ given ∨ .write v ∈ before

/-- A variable is not used again after its value was moved. -/
def Unreused (as : List Access) (v : VarId) : Prop :=
  ∀ before after, as = before ++ .move v :: after → .read v ∉ after ∧ .move v ∉ after

/-- The discipline of ownership, as far as one variable is concerned. -/
structure Obeys (given : Set VarId) (as : List Access) (v : VarId) : Prop where
  once : as.count (.write v) ≤ 1
  supplied : Supplied given as v
  unreused : Unreused as v

section Lists

variable {given given' : Set VarId} {as bs : List Access} {v : VarId}

theorem Supplied.mono (supplied : Supplied given as v) (more : v ∈ given → v ∈ given') :
    Supplied given' as v := fun before a after split used =>
  (supplied before a after split used).imp more id

theorem supplied_append : Supplied given (as ++ bs) v ↔
    Supplied given as v ∧ Supplied (given ∪ {x | .write x ∈ as}) bs v := by
  constructor
  · refine fun supplied => ⟨fun before a after split used => ?_, fun before a after split used => ?_⟩
    · exact supplied before a (after ++ bs) (by rw [split]; simp) used
    · rcases supplied (as ++ before) a after (by rw [split]; simp) used with there | written
      · exact Or.inl (Or.inl there)
      · exact (List.mem_append.mp written).imp Or.inr id
  · rintro ⟨first, second⟩ before a after split used
    obtain ⟨between, rfl, rest⟩ | ⟨between, rfl, rest⟩ := List.append_eq_append_iff.mp split
    · rcases second between a after rest used with (there | written) | written
      · exact Or.inl there
      · exact Or.inr (List.mem_append_left _ written)
      · exact Or.inr (List.mem_append_right _ written)
    · cases between with
      | nil =>
        rw [List.nil_append] at rest
        rcases second [] a after rest.symm used with (there | written) | impossible
        · exact Or.inl there
        · exact Or.inr (List.append_nil before ▸ written)
        · cases impossible
      | cons b between =>
        obtain ⟨rfl, -⟩ := List.cons.inj rest
        exact first before a between rfl used

theorem supplied_of_unused (unread : .read v ∉ as) (unmoved : .move v ∉ as) : Supplied given as v := by
  rintro before a after rfl (rfl | rfl)
  · simp at unread
  · simp at unmoved

theorem unreused_append : Unreused (as ++ bs) v ↔
    Unreused as v ∧ Unreused bs v ∧ (.move v ∈ as → .read v ∉ bs ∧ .move v ∉ bs) := by
  constructor
  · refine fun unreused => ⟨fun before after split => ?_, fun before after split => ?_, fun moved => ?_⟩
    · have := unreused before (after ++ bs) (by rw [split]; simp)
      simp only [List.mem_append, not_or] at this
      exact ⟨this.1.1, this.2.1⟩
    · exact unreused (as ++ before) after (by rw [split]; simp)
    · obtain ⟨before, after, rfl⟩ := List.append_of_mem moved
      have := unreused before (after ++ bs) (by simp)
      simp only [List.mem_append, not_or] at this
      exact ⟨this.1.2, this.2.2⟩
  · rintro ⟨first, second, between⟩ before after split
    obtain ⟨middle, rfl, rest⟩ | ⟨middle, rfl, rest⟩ := List.append_eq_append_iff.mp split
    · exact second middle after rest
    · cases middle with
      | nil => exact second [] after rest.symm
      | cons b middle =>
        obtain ⟨rfl, same⟩ := List.cons.inj rest
        have inside := first before middle rfl
        have outside := between (by simp)
        rw [same]
        exact ⟨fun read => (List.mem_append.mp read).elim inside.1 outside.1,
          fun moved => (List.mem_append.mp moved).elim inside.2 outside.2⟩

end Lists

section Accesses

variable {vs : Variables} {i : Instr} {v dst : VarId} {as : List Access}

@[simp] theorem read_mem_accesses : .read v ∈ accesses vs i ↔ v ∈ consulted vs i := by simp [accesses]

@[simp] theorem move_mem_accesses : .move v ∈ accesses vs i ↔ v ∈ (directUsage i).moves := by
  simp [accesses]

@[simp] theorem write_mem_accesses : .write v ∈ accesses vs i ↔ v ∈ (directUsage i).writes := by
  simp [accesses]

@[simp] theorem read_mem_filling : .read v ∈ filling dst as ↔ .read v ∈ as := by
  rw [filling]
  split <;> simp

@[simp] theorem move_mem_filling : .move v ∈ filling dst as ↔ .move v ∈ as := by
  rw [filling]
  split <;> simp

@[simp] theorem write_mem_filling : .write v ∈ filling dst as ↔ v = dst ∨ .write v ∈ as := by
  rw [filling]
  split
  · rename_i filled
    exact ⟨Or.inr, fun written => written.elim (fun same => same ▸ filled) id⟩
  · simp [or_comm]

theorem supplied_filling {given : Set VarId} : Supplied given (filling dst as) v ↔ Supplied given as v := by
  rw [filling]
  split
  · rfl
  · rw [supplied_append]
    exact and_iff_left (supplied_of_unused (by simp) (by simp))

theorem count_le_filling (dst : VarId) (as : List Access) (a : Access) : as.count a ≤ (filling dst as).count a := by
  rw [filling]
  split
  · exact Nat.le_refl _
  · rw [List.count_append]
    exact Nat.le_add_right _ _

theorem unreused_filling : Unreused (filling dst as) v ↔ Unreused as v := by
  rw [filling]
  split
  · rfl
  · rw [unreused_append]
    exact and_iff_left ⟨fun before after split => by simp [List.singleton_eq_append_iff] at split, by simp⟩

/-- What a step reads and moves is what its instruction does. -/
theorem consulted_of_usage {u : Usage} (known : usage? vs i = some u) :
    u.reads = consulted vs i ∧ u.moves = (directUsage i).moves ∧ u.writes = (directUsage i).writes := by
  obtain ⟨writes, moves, reads, -⟩ := usage?_eq_some known
  exact ⟨reads, moves, writes⟩

theorem Trail.write_mem {block : Block} (trail : Trail vs block as) (written : .write v ∈ as) :
    v ∈ blockWrites block := by
  induction trail with
  | nil => cases written
  | step plain onward ih =>
    rw [mem_blockWrites_plain plain]
    exact (List.mem_append.mp written).imp write_mem_accesses.mp ih
  | yes inside onward ihInside ih =>
    simp only [List.mem_append, List.mem_map, reduceCtorEq, and_false, exists_false, false_or,
      write_mem_filling] at written
    rw [mem_blockWrites_cond]
    exact written.elim (Or.imp id fun own => Or.inl (ihInside own)) fun later => Or.inr (Or.inr (Or.inr (ih later)))
  | no inside onward ihInside ih =>
    simp only [List.mem_append, List.mem_map, reduceCtorEq, and_false, exists_false, false_or,
      write_mem_filling] at written
    rw [mem_blockWrites_cond]
    exact written.elim (Or.imp id fun own => Or.inr (Or.inl (ihInside own)))
      fun later => Or.inr (Or.inr (Or.inr (ih later)))

theorem Trail.move_mem {block : Block} (trail : Trail vs block as) (moved : .move v ∈ as) :
    v ∈ blockMoves block := by
  induction trail with
  | nil => cases moved
  | step plain onward ih =>
    rw [mem_blockMoves_plain plain]
    exact (List.mem_append.mp moved).imp move_mem_accesses.mp ih
  | yes inside onward ihInside ih =>
    simp only [List.mem_append, List.mem_map, reduceCtorEq, and_false, exists_false, false_or,
      move_mem_filling] at moved
    rw [mem_blockMoves_cond]
    exact moved.elim (fun own => Or.inl (ihInside own)) fun later => Or.inr (Or.inr (ih later))
  | no inside onward ihInside ih =>
    simp only [List.mem_append, List.mem_map, reduceCtorEq, and_false, exists_false, false_or,
      move_mem_filling] at moved
    rw [mem_blockMoves_cond]
    exact moved.elim (fun own => Or.inr (Or.inl (ihInside own))) fun later => Or.inr (Or.inr (ih later))

/-- Every route leaves a trail, on which it writes the same. -/
theorem Route.exists_trail (vs : Variables) {block : Block} {path : List Instr} {writes : List VarId}
    (route : Route block path writes) :
    ∃ as, Trail vs block as ∧ ∀ v, .write v ∈ as ↔ v ∈ writes := by
  induction route with
  | nil => exact ⟨[], .nil, by simp⟩
  | step plain onward ih =>
    obtain ⟨as, trail, same⟩ := ih
    exact ⟨_, .step plain trail, by simp [same]⟩
  | yes inside onward ihInside ih =>
    obtain ⟨as, trail, same⟩ := ihInside
    obtain ⟨as', trail', same'⟩ := ih
    exact ⟨_, .yes trail trail', by simp [same, same', mem_filled]⟩
  | no inside onward ihInside ih =>
    obtain ⟨as, trail, same⟩ := ihInside
    obtain ⟨as', trail', same'⟩ := ih
    exact ⟨_, .no trail trail', by simp [same, same', mem_filled]⟩

/-- What a block writes at any depth is written on some trail. -/
theorem exists_trail_writing {block : Block} (written : v ∈ blockWrites block) :
    ∃ as, Trail vs block as ∧ .write v ∈ as := by
  obtain ⟨path, writes, route, member⟩ := exists_route_writing block v written
  obtain ⟨as, trail, same⟩ := route.exists_trail vs
  exact ⟨as, trail, (same v).mpr member⟩

/-- An instruction reads before it moves, and moves what it moves once. -/
theorem unreused_accesses (once : (directUsage i).moves.Nodup) : Unreused (accesses vs i) v := by
  have none : ∀ (xs : List VarId) (mk : VarId → Access), (∀ x, mk x ≠ .move v) → Unreused (xs.map mk) v := by
    intro xs mk other before after split
    have member : Access.move v ∈ xs.map mk := by simp [split]
    obtain ⟨x, -, same⟩ := List.mem_map.mp member
    exact absurd same (other x)
  have moves : Unreused ((directUsage i).moves.map .move) v := by
    intro before after split
    have distinct : ((directUsage i).moves.map Access.move).Nodup :=
      once.map fun x y same => Access.move.inj same
    have behind : ∀ a ∈ after, ∃ x, Access.move x = a := fun a member => by
      obtain ⟨x, -, same⟩ := List.mem_map.mp (show a ∈ (directUsage i).moves.map .move by simp [split, member])
      exact ⟨x, same⟩
    rw [split] at distinct
    refine ⟨fun member => ?_, (List.nodup_cons.mp (List.nodup_append.mp distinct).2.1).1⟩
    obtain ⟨x, same⟩ := behind _ member
    cases same
  rw [accesses, unreused_append, unreused_append]
  exact ⟨⟨none _ _ (by simp), moves, by simp⟩, none _ _ (by simp), by simp⟩

theorem count_accesses : (accesses vs i).count (.write v) = (directUsage i).writes.count v := by
  have none : ∀ (xs : List VarId) (mk : VarId → Access), (∀ x, mk x ≠ .write v) →
      (xs.map mk).count (.write v) = 0 := by
    intro xs mk other
    rw [List.count_eq_zero, List.mem_map]
    rintro ⟨x, -, same⟩
    exact other x same
  rw [accesses, List.count_append, List.count_append, none _ _ (by simp), none _ _ (by simp),
    List.count_map_of_injective _ _ fun x y same => Access.write.inj same]
  simp

end Accesses

section Scans

/-- A body without a breach: every instruction is gone over, and branches find the variables that hold a
value where they start. -/
inductive Scans (vs : Variables) : Scan → Block → Prop
  | nil (s : Scan) : Scans vs s []
  | plain {position : Nat} {s s' : Scan} {i : Instr} {rest : Block} {outer : OuterUsage} {step : Step}
      (plain : branches i = false) (here : Scanned vs position s i outer step s')
      (onward : Scans vs s' rest) : Scans vs s (i :: rest)
  | cond {position : Nat} {s s' inside inside' : Scan} {dst test : VarId} {yes no rest : Block}
      {outer : OuterUsage} {step : Step} (here : Scanned vs position s (.cond dst test yes no) outer step s')
      (liveYes : ∀ v, v ∈ inside.live ↔ v ∈ s.live) (inYes : Scans vs inside yes)
      (liveNo : ∀ v, v ∈ inside'.live ↔ v ∈ s.live) (inNo : Scans vs inside' no)
      (onward : Scans vs s' rest) : Scans vs s (.cond dst test yes no :: rest)

variable {vs : Variables}

/-- A plan leaves to branches only what they use. -/
theorem leavesUsed_plan (steps : List Step) (s : Scan) (keep handed : List VarId) :
    LeavesUsed (plan vs steps s keep handed) 0 steps := by
  have value : ∀ (p : Plan) v, (∀ e ∈ p.handed, usedInBranch steps e.2 e.1 = true) →
      ∀ e ∈ (planValue steps s p v).handed, usedInBranch steps e.2 e.1 = true := by
    intro p v used e member
    rw [planValue] at member
    grind [Plan.hand, Plan.destroy]
  have description : ∀ (p : Plan) v, (∀ e ∈ p.handed, usedInBranch steps e.2 e.1 = true) →
      ∀ e ∈ (planWitness vs steps s p v).handed, usedInBranch steps e.2 e.1 = true := by
    intro p v used e member
    rw [planWitness] at member
    grind [Plan.hand, Plan.destroy]
  have fold : ∀ (place : Plan → VarId → Plan), (∀ (p : Plan) v, (∀ e ∈ p.handed, usedInBranch steps e.2 e.1 = true) →
      ∀ e ∈ (place p v).handed, usedInBranch steps e.2 e.1 = true) → ∀ (vars : List VarId) (p : Plan),
      (∀ e ∈ p.handed, usedInBranch steps e.2 e.1 = true) →
      ∀ e ∈ (vars.foldl place p).handed, usedInBranch steps e.2 e.1 = true := by
    intro place keeps vars
    induction vars with
    | nil => exact fun p used => used
    | cons v rest ih => exact fun p used => ih _ (keeps p v used)
  intro j step found v left
  rw [Nat.zero_add, mem_handedAt, plan, List.partition_eq_filter_filter] at left
  have used := fold _ description _ _ (fold _ value _ {} (by simp)) _ left
  obtain ⟨step', found', inside⟩ := usedInBranch_eq_true used
  rw [found] at found'
  exact Option.some.inj found' ▸ inside

/-- What is counted has no breach. -/
theorem scans_of_assemble (block : Block) {k : Nat} {s last : Scan} {steps : List Step} {p : Plan}
    {keep : List VarId} {counted : Block} (scanned : scanBlock vs k s block = .ok (steps, last))
    (assembled : assemble p keep k steps (blockCounters vs block) = .ok counted)
    (used : LeavesUsed p k steps) : Scans vs s block := by
  induction block using block_induction generalizing k s last steps p keep counted with
  | nil => exact .nil s
  | plain i rest plain ih =>
    obtain ⟨outer, step, s', tail, here, onward, rfl⟩ := scanBlock_cons scanned
    obtain ⟨behind, assembledRest, -⟩ := assemble_plain here.instr plain assembled
    exact .plain plain here (ih onward assembledRest used.tail)
  | cond dst test yes no rest ihYes ihNo ih =>
    obtain ⟨outer, step, s', tail, here, onward, rfl⟩ := scanBlock_cons scanned
    obtain ⟨yes', no', behind, countYes, countNo, assembledRest, -⟩ := assemble_cond here.instr assembled
    obtain ⟨_, _, scannedYes, assembledYes⟩ := countBlock_eq_ok countYes
    obtain ⟨_, _, scannedNo, assembledNo⟩ := countBlock_eq_ok countNo
    have live : ∀ v, v ∈ p.handedAt k ++ step.entry ↔ v ∈ s.live := by
      intro v
      rw [here.entry, List.mem_append]
      exact or_iff_right_of_imp fun left =>
        (here.ready v (by simp [Step.uses, used 0 step rfl v left])).1
    exact .cond here live (ihYes scannedYes assembledYes (leavesUsed_plan _ _ _ _)) live
      (ihNo scannedNo assembledNo (leavesUsed_plan _ _ _ _)) (ih onward assembledRest used.tail)

theorem scans_of_count {block counted : Block} {avail keep handed : List VarId}
    (count : countBlock vs block avail keep handed = .ok counted) :
    Scans vs { live := handed ++ avail } block := by
  obtain ⟨steps, last, scanned, assembled⟩ := countBlock_eq_ok count
  exact scans_of_assemble block scanned assembled (leavesUsed_plan _ _ _ _)

variable {s : Scan} {block : Block} {as : List Access} {v : VarId}

/-- What an instruction uses is there. -/
theorem Scanned.used {position : Nat} {s' : Scan} {i : Instr} {outer : OuterUsage} {step : Step}
    (here : Scanned vs position s i outer step s')
    (used : v ∈ consulted vs i ∨ v ∈ (directUsage i).moves) : v ∈ s.live := by
  obtain ⟨reads, moves, -⟩ := consulted_of_usage here.usage
  refine (here.ready v ?_).1
  simpa [Step.uses, reads, moves, or_assoc] using used.imp_right Or.inl

/-- On every trail of an accepted block, what is used holds a value from the start or was written before. -/
theorem Scans.supplied (scans : Scans vs s block) (trail : Trail vs block as) :
    Supplied {x | x ∈ s.live} as v := by
  have own : ∀ {i : Instr} {position : Nat} {s s' : Scan} {outer : OuterUsage} {step : Step},
      Scanned vs position s i outer step s' → Supplied {x | x ∈ s.live} (accesses vs i) v := by
    intro i position s s' outer step here before a after split used
    refine Or.inl (here.used ?_)
    rcases used with rfl | rfl
    · exact Or.inl (read_mem_accesses.mp (by rw [split]; simp))
    · exact Or.inr (move_mem_accesses.mp (by rw [split]; simp))
  have reads : ∀ {i : Instr} {position : Nat} {s s' : Scan} {outer : OuterUsage} {step : Step},
      Scanned vs position s i outer step s' → Supplied {x | x ∈ s.live} ((consulted vs i).map .read) v := by
    intro i position s s' outer step here
    have whole := own here
    rw [accesses, List.append_assoc, supplied_append] at whole
    exact whole.1
  induction scans generalizing as with
  | nil s =>
    cases trail
    intro before a after split
    simp at split
  | plain plain here onward ih =>
    cases trail with
    | step _ behind =>
      refine supplied_append.mpr ⟨own here, (ih behind).mono fun live => ?_⟩
      simp only [Set.mem_union, Set.mem_ofPred_eq, write_mem_accesses]
      rcases (here.live v).mp live with written | ⟨live, -⟩
      · exact Or.inr ((consulted_of_usage here.usage).2.2 ▸ written)
      · exact Or.inl live
    | yes | no => cases plain
  | @cond position s s' _ _ dst test yes no rest outer step here liveYes inYes liveNo inNo onward ihYes ihNo ih =>
    -- Either branch does no more than what it finds allows it to.
    have one : ∀ {as as' : List Access}, Supplied {x | x ∈ s.live} as v → Trail vs rest as' →
        Supplied {x | x ∈ s.live} ((consulted vs (.cond dst test yes no)).map .read ++ filling dst as ++ as') v := by
      intro as as' inside behind
      refine supplied_append.mpr ⟨supplied_append.mpr ⟨reads here, ?_⟩, (ih behind).mono fun live => ?_⟩
      · exact supplied_filling.mpr (inside.mono Or.inl)
      · simp only [Set.mem_union, Set.mem_ofPred_eq, List.mem_append, write_mem_filling]
        rcases (here.live v).mp live with written | ⟨live, -⟩
        · rw [(consulted_of_usage here.usage).2.2] at written
          exact Or.inr (Or.inr (Or.inl (List.mem_singleton.mp written)))
        · exact Or.inl live
    cases trail with
    | step plain => cases plain
    | yes inside behind => exact one ((ihYes inside).mono (liveYes v).mp) behind
    | no inside behind => exact one ((ihNo inside).mono (liveNo v).mp) behind

/-- A variable is written at most once on every trail, and not at all where a value of it is `known`. -/
def WritesOnce (vs : Variables) (block : Block) (v : VarId) (known : Prop) : Prop :=
  ∀ as, Trail vs block as → as.count (.write v) ≤ 1 ∧ (known → .write v ∉ as)

/-- What holds a value where a scan stands is `known` and not `gone`, and what is gone was known. -/
structure Reckoned (s : Scan) (v : VarId) (known gone : Prop) : Prop where
  live : v ∈ s.live → known ∧ ¬ gone
  lost : gone → known

section Plain

variable {position : Nat} {s' : Scan} {i : Instr} {rest : Block} {outer : OuterUsage} {step : Step} {known gone : Prop}

theorem WritesOnce.onward (once : WritesOnce vs (i :: rest) v known) (plain : branches i = false) :
    WritesOnce vs rest v (known ∨ v ∈ (directUsage i).writes) := by
  intro as later
  have whole := once _ (.step plain later)
  rw [List.count_append, List.mem_append, not_or] at whole
  refine ⟨by omega, fun written again => ?_⟩
  rcases written with early | written
  · exact (whole.2 early).2 again
  · have own : 0 < (accesses vs i).count (.write v) :=
      List.count_pos_iff.mpr (write_mem_accesses.mpr written)
    have more := List.count_pos_iff.mpr again
    omega

theorem Reckoned.onward (reckoned : Reckoned s v known gone) (here : Scanned vs position s i outer step s')
    (once : WritesOnce vs (i :: rest) v known) (plain : branches i = false) (behind : Trail vs rest as) :
    Reckoned s' v (known ∨ v ∈ (directUsage i).writes) (gone ∨ v ∈ (directUsage i).moves) := by
  obtain ⟨-, moves, writes⟩ := consulted_of_usage here.usage
  refine ⟨fun stays => ?_, fun left => ?_⟩
  · rcases (here.live v).mp stays with written | ⟨there, unmoved, -⟩
    · have own := writes ▸ written
      refine ⟨Or.inr own, not_or.mpr ⟨fun early => ?_, fun moved => ?_⟩⟩
      · exact (once _ (.step plain behind)).2 (reckoned.lost early) (by simp [own])
      · exact (here.fresh v written).1 (here.used (Or.inr moved))
    · exact ⟨Or.inl (reckoned.live there).1, not_or.mpr ⟨(reckoned.live there).2, moves ▸ unmoved⟩⟩
  · rcases left with early | moved
    · exact Or.inl (reckoned.lost early)
    · exact Or.inl (reckoned.live (here.used (Or.inr moved))).1

end Plain

section Branches

variable {position : Nat} {s' inside : Scan} {dst test : VarId} {branch yes no rest : Block} {outer : OuterUsage}
  {step : Step} {as' : List Access} {known gone : Prop}

theorem Trail.through (side : branch = yes ∨ branch = no) (within : Trail vs branch as) (behind : Trail vs rest as') :
    Trail vs (.cond dst test yes no :: rest)
      ((consulted vs (.cond dst test yes no)).map .read ++ filling dst as ++ as') := by
  rcases side with rfl | rfl
  · exact .yes within behind
  · exact .no within behind

theorem WritesOnce.into_branch (once : WritesOnce vs (.cond dst test yes no :: rest) v known)
    (side : branch = yes ∨ branch = no) (behind : Trail vs rest as') : WritesOnce vs branch v known := by
  intro as within
  have whole := once _ (.through side within behind)
  rw [List.count_append, List.count_append] at whole
  have filled := count_le_filling dst as (.write v)
  refine ⟨by omega, fun early written => whole.2 early ?_⟩
  simp [written]

theorem WritesOnce.behind_branch (once : WritesOnce vs (.cond dst test yes no :: rest) v known)
    (side : branch = yes ∨ branch = no) (within : Trail vs branch as) :
    WritesOnce vs rest v (known ∨ v = dst ∨ .write v ∈ as) := by
  intro as' later
  have whole := once _ (.through side within later)
  rw [List.count_append] at whole
  simp only [List.mem_append, not_or] at whole
  refine ⟨by omega, fun written again => ?_⟩
  rcases written with early | written
  · exact (whole.2 early).2 again
  · have first : .write v ∈ (consulted vs (.cond dst test yes no)).map .read ++ filling dst as := by
      simp [written]
    have own := List.count_pos_iff.mpr first
    have more := List.count_pos_iff.mpr again
    omega

theorem Reckoned.behind_branch (reckoned : Reckoned s v known gone)
    (here : Scanned vs position s (.cond dst test yes no) outer step s')
    (once : WritesOnce vs (.cond dst test yes no :: rest) v known) (side : branch = yes ∨ branch = no)
    (entered : v ∈ inside.live → v ∈ s.live) (scans : Scans vs inside branch) (own : v = dst → v ∉ blockMoves branch)
    (within : Trail vs branch as) (behind : Trail vs rest as') :
    Reckoned s' v (known ∨ v = dst ∨ .write v ∈ as) (gone ∨ .move v ∈ as) := by
  obtain ⟨-, -, writes⟩ := consulted_of_usage here.usage
  refine ⟨fun stays => ?_, fun left => ?_⟩
  · rcases (here.live v).mp stays with written | ⟨there, -, untaken⟩
    · rw [writes] at written
      obtain rfl := List.mem_singleton.mp written
      refine ⟨Or.inr (Or.inl rfl), not_or.mpr ⟨fun early => ?_, fun moved => ?_⟩⟩
      · exact (once _ (.through side within behind)).2 (reckoned.lost early) (by simp)
      · exact own rfl (within.move_mem moved)
    · refine ⟨Or.inl (reckoned.live there).1, not_or.mpr ⟨(reckoned.live there).2, fun moved => untaken ?_⟩⟩
      refine (branchUsage?_cond side here.outside fun written => ?_).2 (within.move_mem moved)
      obtain ⟨as, within, written⟩ := exists_trail_writing written
      exact (once.into_branch side behind as within).2 (reckoned.live there).1 written
  · rcases left with early | moved
    · exact Or.inl (reckoned.lost early)
    · obtain ⟨before, after, rfl⟩ := List.append_of_mem moved
      rcases scans.supplied within before _ after rfl (Or.inr rfl) with there | written
      · exact Or.inl (reckoned.live (entered there)).1
      · exact Or.inr (Or.inr (List.mem_append_left _ written))

end Branches

/-- A variable that is written once on every trail, and not where a value of it is `known`, is not used
again after it was moved; if its value is `gone` from the start, it is not used at all. -/
theorem Scans.unreused (scans : Scans vs s block) {known gone : Prop} (reckoned : Reckoned s v known gone)
    (once : WritesOnce vs block v known)
    (results : ∀ test yes no, Instr.cond v test yes no ∈ Instr.flattenAll block →
      v ∉ blockMoves yes ∧ v ∉ blockMoves no) (trail : Trail vs block as) :
    Unreused as v ∧ (gone → .read v ∉ as ∧ .move v ∉ as) := by
  induction scans generalizing as known gone with
  | nil s =>
    cases trail
    exact ⟨fun before after split => by simp at split, by simp⟩
  | @plain position s s' i rest outer step plain here onward ih =>
    cases trail with
    | yes | no => cases plain
    | step _ behind =>
      have used : .read v ∈ accesses vs i ∨ .move v ∈ accesses vs i → v ∈ s.live := fun used =>
        here.used (used.imp read_mem_accesses.mp move_mem_accesses.mp)
      obtain ⟨after, gone'⟩ := ih (reckoned.onward here once plain behind) (once.onward plain)
        (fun test yes no member => results test yes no (by simp [flattenAll_cons, member])) behind
      refine ⟨unreused_append.mpr ⟨unreused_accesses ((consulted_of_usage here.usage).2.1 ▸ here.movesOnce), after,
        fun moved => gone' (Or.inr (move_mem_accesses.mp moved))⟩, fun early => ?_⟩
      have none := gone' (Or.inl early)
      simp only [List.mem_append, not_or]
      exact ⟨⟨fun read => (reckoned.live (used (Or.inl read))).2 early, none.1⟩,
        fun moved => (reckoned.live (used (Or.inr moved))).2 early, none.2⟩
  | @cond position s s' _ _ dst test yes no rest outer step here liveYes inYes liveNo inNo onward ihYes ihNo ih =>
    have own : ∀ {branch : Block}, branch = yes ∨ branch = no → v = dst → v ∉ blockMoves branch := by
      rintro branch (rfl | rfl) rfl
      · exact (results test branch no (by simp [flattenAll_cons, flatten_cond])).1
      · exact (results test yes branch (by simp [flattenAll_cons, flatten_cond])).2
    -- The branches are alike.
    have one : ∀ {branch : Block} {inside : Scan} {as as' : List Access}, branch = yes ∨ branch = no →
        (v ∈ inside.live → v ∈ s.live) → Scans vs inside branch →
        Unreused as v ∧ (gone → .read v ∉ as ∧ .move v ∉ as) → Trail vs branch as → Trail vs rest as' →
        Unreused ((consulted vs (.cond dst test yes no)).map .read ++ filling dst as ++ as') v ∧
          (gone → .read v ∉ (consulted vs (.cond dst test yes no)).map .read ++ filling dst as ++ as' ∧
            .move v ∉ (consulted vs (.cond dst test yes no)).map .read ++ filling dst as ++ as') := by
      rintro branch inside as as' side entered scansB ⟨inner, goneB⟩ within behind
      obtain ⟨after, gone'⟩ := ih (reckoned.behind_branch here once side entered scansB (own side) within behind)
        (once.behind_branch side within)
        (fun test yes no member => results test yes no (by simp [flattenAll_cons, member])) behind
      have none : gone → v ∉ consulted vs (.cond dst test yes no) := fun early read =>
        (reckoned.live (here.used (Or.inl read))).2 early
      have reads : Unreused ((consulted vs (.cond dst test yes no)).map .read) v := by
        intro before after split
        have member : Access.move v ∈ (consulted vs (.cond dst test yes no)).map .read := by simp [split]
        simp at member
      refine ⟨unreused_append.mpr ⟨unreused_append.mpr ⟨reads, unreused_filling.mpr inner, by simp⟩, after,
        fun moved => gone' (Or.inr (by simpa using moved))⟩, fun early => ?_⟩
      have inB := goneB early
      have behind' := gone' (Or.inl early)
      simp [none early, inB, behind']
    cases trail with
    | step plain => cases plain
    | yes inside behind =>
      refine one (Or.inl rfl) (liveYes v).mp inYes ?_ inside behind
      exact ihYes ⟨fun there => reckoned.live ((liveYes v).mp there), reckoned.lost⟩ (once.into_branch (Or.inl rfl) behind)
        (fun test yes no member => results test yes no (by simp [flattenAll_cons, flatten_cond, member])) inside
    | no inside behind =>
      refine one (Or.inr rfl) (liveNo v).mp inNo ?_ inside behind
      exact ihNo ⟨fun there => reckoned.live ((liveNo v).mp there), reckoned.lost⟩ (once.into_branch (Or.inr rfl) behind)
        (fun test yes no member => results test yes no (by simp [flattenAll_cons, flatten_cond, member])) inside

/-- What holds a value and is not moved at any depth is not written at any depth either. -/
theorem Scans.not_written (scans : Scans vs s block) (live : v ∈ s.live) (unmoved : v ∉ blockMoves block) :
    v ∉ blockWrites block := by
  induction scans with
  | nil s => simp
  | @plain position s s' i rest outer step plain here onward ih =>
    obtain ⟨-, moves, writes⟩ := consulted_of_usage here.usage
    rw [mem_blockMoves_plain plain, not_or] at unmoved
    rw [mem_blockWrites_plain plain, not_or]
    refine ⟨fun written => (here.fresh v (writes ▸ written)).1 live, ih ?_ unmoved.2⟩
    obtain rfl := branchUsage?_plain plain here.outside
    exact (here.live v).mpr (Or.inr ⟨live, moves ▸ unmoved.1, by simp⟩)
  | @cond position s s' _ _ dst test yes no rest outer step here liveYes _ liveNo _ onward ihYes ihNo ih =>
    obtain ⟨-, moves, writes⟩ := consulted_of_usage here.usage
    have untaken : v ∉ outer.moves := fun taken => unmoved <|
      mem_blockMoves_of_branchMoves (List.mem_cons_self ..) here.outside taken
    simp only [mem_blockMoves_cond, not_or] at unmoved
    simp only [mem_blockWrites_cond, not_or]
    refine ⟨?_, ihYes ((liveYes v).mpr live) unmoved.1, ihNo ((liveNo v).mpr live) unmoved.2.1, ih ?_ unmoved.2.2⟩
    · rintro rfl
      exact (here.fresh v (writes ▸ List.mem_singleton.mpr rfl)).1 live
    · exact (here.live v).mpr (Or.inr ⟨live, by simp [moves, directUsage], untaken⟩)

/-- The variables that are written in a branch. -/
def innerWrites : Block → List VarId
  | [] => []
  | .cond _ _ yes no :: rest => blockWrites yes ++ blockWrites no ++ innerWrites rest
  | _ :: rest => innerWrites rest

theorem innerWrites_plain {i : Instr} {rest : Block} (plain : branches i = false) :
    innerWrites (i :: rest) = innerWrites rest := by
  cases i <;> first | rfl | cases plain

/-- A condition fills its destination once. -/
theorem count_filling_of_not_mem {dst : VarId} (unwritten : .write v ∉ as) :
    (filling dst as).count (.write v) = if v = dst then 1 else 0 := by
  have none := List.count_eq_zero.mpr unwritten
  by_cases filled : .write dst ∈ as
  · rw [filling, if_pos filled, none, if_neg]
    rintro rfl
    exact unwritten filled
  · rw [filling, if_neg filled, List.count_append, none, Nat.zero_add]
    by_cases same : v = dst
    · simp [same]
    · simp [same, Ne.symm same]

/-- A variable that holds a value or was moved does so behind an instruction, too, or was moved by then. -/
theorem Scanned.still_known {position : Nat} {s' : Scan} {i : Instr} {outer : OuterUsage} {step : Step}
    (here : Scanned vs position s i outer step s') (known : v ∈ s.live ∨ v ∈ s.moved) :
    v ∈ s'.live ∨ v ∈ s'.moved := by
  by_cases lost : v ∈ step.usage.moves ∨ v ∈ outer.moves
  · exact Or.inr ((here.moved v).mpr (Or.inr lost))
  · rw [not_or] at lost
    exact known.imp (fun live => (here.live v).mpr (Or.inr ⟨live, lost⟩)) fun moved =>
      (here.moved v).mpr (Or.inl moved)

/-- What no branch writes is written once, and only if it held no value before. -/
theorem Scans.writes (scans : Scans vs s block) (outside : v ∉ innerWrites block)
    (trail : Trail vs block as) :
    as.count (.write v) ≤ 1 ∧ (v ∈ s.live ∨ v ∈ s.moved → .write v ∉ as) := by
  induction scans generalizing as with
  | nil s =>
    cases trail
    simp
  | @plain position s s' i rest outer step plain here onward ih =>
    cases trail with
    | yes | no => cases plain
    | @step _ _ as _ behind =>
      obtain ⟨-, -, writes⟩ := consulted_of_usage here.usage
      obtain ⟨once, before⟩ := ih (innerWrites_plain plain ▸ outside) behind
      have own : (directUsage i).writes.count v ≤ 1 :=
        List.nodup_iff_count_le_one.mp (writes ▸ here.writesOnce) v
      have unwritten : v ∈ (directUsage i).writes → .write v ∉ as := fun written =>
        before (Or.inl ((here.live v).mpr (Or.inl (writes ▸ written))))
      refine ⟨?_, fun early written => ?_⟩
      · rw [List.count_append, count_accesses]
        by_cases written : v ∈ (directUsage i).writes
        · rw [List.count_eq_zero.mpr (unwritten written)]
          exact own
        · rw [List.count_eq_zero.mpr written]
          omega
      · rcases List.mem_append.mp written with now | later
        · have fresh := here.fresh v (writes ▸ write_mem_accesses.mp now)
          exact early.elim fresh.1 fresh.2.1
        · exact before (here.still_known early) later
  | @cond position s s' _ _ dst test yes no rest outer step here _ _ _ _ onward _ _ ih =>
    obtain ⟨-, -, writes⟩ := consulted_of_usage here.usage
    simp only [innerWrites, List.mem_append, not_or] at outside
    obtain ⟨⟨outsideYes, outsideNo⟩, outside⟩ := outside
    have one : ∀ {as as' : List Access}, .write v ∉ as → Trail vs rest as' →
        ((consulted vs (.cond dst test yes no)).map Access.read ++ filling dst as ++ as').count
            (.write v) ≤ 1 ∧
          (v ∈ s.live ∨ v ∈ s.moved →
            .write v ∉ (consulted vs (.cond dst test yes no)).map .read ++ filling dst as ++ as') := by
      intro as as' unwritten behind
      obtain ⟨once, before⟩ := ih outside behind
      have reads : ((consulted vs (.cond dst test yes no)).map Access.read).count (.write v) = 0 :=
        List.count_eq_zero.mpr (by simp)
      rw [List.count_append, List.count_append, reads, count_filling_of_not_mem unwritten]
      by_cases same : v = dst
      · have own : v ∈ step.usage.writes := writes ▸ List.mem_singleton.mpr same
        have none := List.count_eq_zero.mpr (before (Or.inl ((here.live v).mpr (Or.inl own))))
        refine ⟨by rw [if_pos same, none], fun early => ?_⟩
        have fresh := here.fresh v own
        exact (early.elim fresh.1 fresh.2.1).elim
      · refine ⟨by rw [if_neg same]; omega, fun early => ?_⟩
        simp [same, unwritten, before (here.still_known early)]
    cases trail with
    | step plain => cases plain
    | yes inside behind => exact one (fun written => outsideYes (inside.write_mem written)) behind
    | no inside behind => exact one (fun written => outsideNo (inside.write_mem written)) behind

/-- A condition whose destination no branch writes does not use that destination in its branches. -/
theorem Scans.results (scans : Scans vs s block) (outside : v ∉ innerWrites block) {test : VarId}
    {yes no : Block} (member : Instr.cond v test yes no ∈ Instr.flattenAll block) :
    v ∉ blockMoves yes ∧ v ∉ blockMoves no := by
  have written : ∀ {b : Block}, Instr.cond v test yes no ∈ Instr.flattenAll b → v ∈ blockWrites b :=
    fun member => List.mem_flatMap.mpr ⟨_, member, by simp [directUsage]⟩
  induction scans with
  | nil s => simp [Instr.flattenAll] at member
  | plain plain here onward ih =>
    rw [flattenAll_cons, flatten_plain plain, List.singleton_append, List.mem_cons] at member
    rcases member with rfl | later
    · cases plain
    · exact ih (innerWrites_plain plain ▸ outside) later
  | @cond position s s' _ _ dst test' yes' no' rest outer step here _ _ _ _ onward _ _ ih =>
    obtain ⟨-, -, writes⟩ := consulted_of_usage here.usage
    simp only [innerWrites, List.mem_append, not_or] at outside
    obtain ⟨⟨outsideYes, outsideNo⟩, outside⟩ := outside
    simp only [flattenAll_cons, flatten_cond, List.mem_append, List.mem_cons] at member
    rcases member with (same | inYes | inNo) | later
    · obtain ⟨rfl, rfl, rfl, rfl⟩ := Instr.cond.inj same
      have untaken := (here.fresh v (writes ▸ List.mem_singleton.mpr rfl)).2.2
      exact ⟨fun moved => untaken ((branchUsage?_cond (Or.inl rfl) here.outside outsideYes).2 moved),
        fun moved => untaken ((branchUsage?_cond (Or.inr rfl) here.outside outsideNo).2 moved)⟩
    · exact absurd (written inYes) outsideYes
    · exact absurd (written inNo) outsideNo
    · exact ih outside later

end Scans

/-- What makes a variable safe although branches write it: every trail writes it once, arguments not at
all, and a branch does not give away what its condition puts into it. -/
structure Settled (f : Function) (v : VarId) : Prop where
  once : ∀ as, Trail f.vars f.body as → as.count (.write v) ≤ 1
  arguments : v ∈ givenArguments f → v ∉ blockWrites f.body
  results : ∀ test yes no, Instr.cond v test yes no ∈ Instr.flattenAll f.body →
    v ∉ blockMoves yes ∧ v ∉ blockMoves no

/-- On every trail of a function that is counted, what is used was given or written before. A variable
obeys the whole discipline if no branch writes it, or else if it is settled. -/
theorem counted_obeys {f g : Function} (accepted : countFunction f = .ok g) {as : List Access}
    (trail : Trail f.vars f.body as) (v : VarId) :
    Supplied (givenArguments f) as v ∧
      (v ∉ innerWrites f.body ∨ Settled f v → Obeys (givenArguments f) as v) := by
  simp only [countFunction, Except.bind_eq_ok] at accepted
  obtain ⟨body, count, -⟩ := accepted
  have scans := scans_of_count count
  have start : ∀ x, x ∈ ([] ++ ((f.arguments.partition fun a => a.convention == .out).2.map (·.var))) ↔
      x ∈ givenArguments f := fun x => by
    simp [givenArguments, List.partition_eq_filter_filter, and_assoc]
  have supplied : Supplied (givenArguments f) as v := (scans.supplied trail).mono (start v).mp
  refine ⟨supplied, fun safe => ?_⟩
  have fresh : ∀ as, Trail f.vars f.body as →
      as.count (.write v) ≤ 1 ∧ (v ∈ givenArguments f → .write v ∉ as) := by
    intro as trail
    rcases safe with outside | settled
    · have writes := scans.writes outside trail
      exact ⟨writes.1, fun given => writes.2 (Or.inl ((start v).mpr given))⟩
    · exact ⟨settled.once as trail, fun given written => settled.arguments given (trail.write_mem written)⟩
  have results : ∀ test yes no, Instr.cond v test yes no ∈ Instr.flattenAll f.body →
      v ∉ blockMoves yes ∧ v ∉ blockMoves no := fun test yes no member =>
    safe.elim (fun outside => scans.results outside member) fun settled => settled.results test yes no member
  obtain ⟨unreused, -⟩ := scans.unreused ⟨fun live => ⟨(start v).mp live, id⟩, False.elim⟩
    fresh results trail
  exact ⟨(fresh as trail).1, supplied, unreused⟩

/-- Gives back a value of unknown type, which one branch has copied before. -/
def lendBack : Function where
  name := "f"
  vars := #[⟨"T", none, .type, {}⟩, ⟨"a", none, .dynamic 0, {}⟩, ⟨"c", none, .trivial 1, {}⟩,
    ⟨"_result", none, .dynamic 0, {}⟩, ⟨"l", none, .dynamic 0, {}⟩, ⟨"y", none, .dynamic 0, {}⟩]
  arguments := [⟨3, .out⟩, ⟨1, .borrowed⟩, ⟨2, .borrowed⟩, ⟨0, .borrowed⟩]
  locals := [4, 5]
  body := [.cond 5 2 [.copy 4 1, .move 5 4] [.copy 5 1], .move 3 5]

/-- Its copy is written in a branch, and so is what it gives back. -/
theorem lendBack_obeys : ∃ as, Trail lendBack.vars lendBack.body as ∧
    Obeys (givenArguments lendBack) as 3 ∧ Obeys (givenArguments lendBack) as 5 := by
  have trail : Trail lendBack.vars lendBack.body _ := .yes
    (.step (i := .copy 4 1) rfl (.step (i := .move 5 4) rfl .nil)) (.step (i := .move 3 5) rfl .nil)
  refine ⟨_, trail, (counted_obeys (f := lendBack) rfl trail 3).2 (Or.inl (by decide)),
    (counted_obeys (f := lendBack) rfl trail 5).2 (Or.inr ⟨?_, ?_, ?_⟩)⟩
  · intro as other
    cases other with
    | step plain => cases plain
    | yes inside onward =>
      cases inside with | step _ inside => ?_
      cases inside with | step _ inside => ?_
      cases inside
      cases onward with | step _ onward => ?_
      cases onward
      decide
    | no inside onward =>
      cases inside with | step _ inside => ?_
      cases inside
      cases onward with | step _ onward => ?_
      cases onward
      decide
  · simp [givenArguments, lendBack]
  · intro test yes no member
    simp only [lendBack, Instr.flattenAll, Instr.flatten, List.append_nil, List.cons_append,
      List.nil_append, List.mem_cons, Instr.cond.injEq, reduceCtorEq, List.not_mem_nil,
      or_false] at member
    obtain ⟨-, rfl, rfl, rfl⟩ := member
    decide

/-- Writes a variable, gives its value away and writes it again: first in a branch, then behind it. -/
def writeAgain : Function where
  name := "f"
  vars := #[⟨"_result", none, .trivial 8, {}⟩, ⟨"c", none, .trivial 8, {}⟩, ⟨"l", none, .trivial 8, {}⟩,
    ⟨"r", none, .trivial 8, {}⟩, ⟨"x", none, .trivial 8, {}⟩]
  arguments := [⟨0, .out⟩, ⟨1, .borrowed⟩]
  locals := [2, 3, 4]
  body := [.cond 4 1 [.set 2 (.bool true), .move 3 2, .set 4 (.bool true)] [.set 4 (.bool false)],
    .set 2 (.bool false), .copy 0 2]

/-- It is counted without complaint, and writes a variable twice and uses it after it was moved. -/
theorem writeAgain_disobeys : ∃ g as, countFunction writeAgain = .ok g ∧
    Trail writeAgain.vars writeAgain.body as ∧ as.count (.write 2) = 2 ∧ ¬ Unreused as 2 ∧
    ¬ Obeys (givenArguments writeAgain) as 2 := by
  have trail : Trail writeAgain.vars writeAgain.body _ := .yes
    (.step (i := .set 2 (.bool true)) rfl (.step (i := .move 3 2) rfl
      (.step (i := .set 4 (.bool true)) rfl .nil)))
    (.step (i := .set 2 (.bool false)) rfl (.step (i := .copy 0 2) rfl .nil))
  have twice : ∀ as : List Access, as.count (.write 2) = 2 → ¬ Obeys (givenArguments writeAgain) as 2 :=
    fun as two obeys => by have := obeys.once; omega
  refine ⟨_, _, rfl, trail, by decide, fun unreused => ?_, twice _ (by decide)⟩
  exact (unreused [.read 1, .write 2] [.write 3, .write 4, .write 2, .read 2, .write 0] (by decide)).1
    (by decide)

end WitnessLang.Ownership
