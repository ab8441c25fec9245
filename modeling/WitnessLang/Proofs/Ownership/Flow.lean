import Mathlib.Data.Set.Insert
import WitnessLang.Proofs.Ownership.Checked

set_option autoImplicit false

/-! Blocks that count without a breach. A block flows from what holds a value at its start:
it uses only what holds one, and writes only what was never written. Such a block can be
counted, whatever is kept and handed to it, and its routes obey the discipline. -/
namespace WitnessLang.Ownership

open Ir

/-- The variables an instruction touches itself. -/
def touched (i : Instr) : List VarId :=
  (directUsage i).writes ++ (directUsage i).reads ++ (directUsage i).moves

/-- What an instruction may do itself, where `live` holds values and `known` was ever written. -/
structure Allowed (vs : Variables) (live known : Set VarId) (i : Instr) : Prop where
  intact : ∀ v, i ≠ .destroy v
  inside : ∀ v ∈ touched i, v < vs.size
  reads : ∀ v ∈ (directUsage i).reads, v ∈ live
  moves : ∀ v ∈ (directUsage i).moves, v ∈ live ∧ isWitness vs v = false
  movesOnce : (directUsage i).moves.Nodup
  writes : ∀ v ∈ (directUsage i).writes, v ∉ known
  writesOnce : (directUsage i).writes.Nodup
  /-- The descriptions of all that is touched are there. -/
  described : ∀ v ∈ touched i, ∀ w, describedBy? vs v = some w → w ∈ live

theorem usage?_of_inside {vs : Variables} {i : Instr} (inside : ∀ v ∈ touched i, v < vs.size) :
    usage? vs i = some { directUsage i with
      reads := (directUsage i).reads ++ (touched i).filterMap (describedBy? vs) } := by
  exact if_pos (List.all_eq_true.mpr fun v member => decide_eq_true (inside v member))

theorem exists_mapM_usage {vs : Variables} {is : List Instr}
    (inside : ∀ i ∈ is, ∀ v ∈ touched i, v < vs.size) :
    ∃ us, is.mapM (usage? vs) = some us := by
  induction is with
  | nil => exact ⟨[], rfl⟩
  | cons i rest ih =>
    rw [List.forall_mem_cons] at inside
    obtain ⟨us, gathered⟩ := ih inside.2
    exact ⟨_ :: us, by rw [List.mapM_cons, usage?_of_inside inside.1, gathered]; rfl⟩

/-- All that an instruction uses holds a value. -/
theorem Allowed.used {vs : Variables} {live known : Set VarId} {i : Instr}
    (allowed : Allowed vs live known i) {v : VarId} (used : v ∈ uses vs i) : v ∈ live := by
  simp only [uses, usage?_of_inside allowed.inside, List.mem_append, List.mem_filterMap] at used
  rcases used with (read | ⟨x, member, describes⟩) | moved
  · exact allowed.reads v read
  · exact allowed.described x member v describes
  · exact (allowed.moves v moved).1

/-- A block leads from what holds values, and was ever written, to what does and was then. -/
inductive Flows (vs : Variables) : Set VarId → Set VarId → Block → Set VarId → Set VarId → Prop
  | nil (live known : Set VarId) : Flows vs live known [] live known
  | plain {live known live' known' : Set VarId} {i : Instr} {rest : Block}
      (plain : branches i = false) (allowed : Allowed vs live known i)
      (onward : Flows vs (live \ {v | v ∈ (directUsage i).moves} ∪ {v | v ∈ (directUsage i).writes})
        (known ∪ {v | v ∈ (directUsage i).writes}) rest live' known') :
      Flows vs live known (i :: rest) live' known'
  | cond {live known live' known' liveYes knownYes liveNo knownNo : Set VarId} {dst test : VarId}
      {yes no rest : Block} (allowed : Allowed vs live known (.cond dst test yes no))
      (inYes : Flows vs live known yes liveYes knownYes)
      (inNo : Flows vs live known no liveNo knownNo)
      (kept : dst ∉ blockMoves yes ∧ dst ∉ blockMoves no)
      (onward : Flows vs
        (live \ {v | v ∈ blockMoves yes ∨ v ∈ blockMoves no} ∪ {dst})
        (known ∪ {v | v ∈ blockWrites yes ∨ v ∈ blockWrites no} ∪ {dst}) rest live' known') :
      Flows vs live known (.cond dst test yes no :: rest) live' known'

section Flow

variable {vs : Variables} {live known live' known' : Set VarId} {block : Block}

/-- Blocks flow one after the other. -/
theorem Flows.append {live'' known'' : Set VarId} {rest : Block}
    (first : Flows vs live known block live' known')
    (second : Flows vs live' known' rest live'' known'') :
    Flows vs live known (block ++ rest) live'' known'' := by
  induction first with
  | nil => exact second
  | plain plain allowed _ ih => exact .plain plain allowed (ih second)
  | cond allowed inYes inNo kept _ _ _ ih => exact .cond allowed inYes inNo kept (ih second)

/-- What flows through two blocks flows through the first, and from there through the second. -/
theorem Flows.split {front back : Block} (flows : Flows vs live known (front ++ back) live' known') :
    ∃ live₁ known₁, Flows vs live known front live₁ known₁ ∧ Flows vs live₁ known₁ back live' known' := by
  induction front generalizing live known with
  | nil => exact ⟨live, known, .nil live known, flows⟩
  | cons i rest ih =>
    cases flows with
    | plain plain allowed onward =>
      obtain ⟨live₁, known₁, first, second⟩ := ih onward
      exact ⟨live₁, known₁, .plain plain allowed first, second⟩
    | cond allowed inYes inNo kept onward =>
      obtain ⟨live₁, known₁, first, second⟩ := ih onward
      exact ⟨live₁, known₁, .cond allowed inYes inNo kept first, second⟩

theorem Flows.known_subset (flows : Flows vs live known block live' known') : known ⊆ known' := by
  induction flows with
  | nil => exact subset_rfl
  | plain _ _ _ ih => exact Set.subset_union_left.trans ih
  | cond _ _ _ _ _ _ _ ih =>
    exact (Set.subset_union_left.trans Set.subset_union_left).trans ih

/-- What is written was not known, and is afterwards. -/
theorem Flows.writes (flows : Flows vs live known block live' known') :
    ∀ v ∈ blockWrites block, v ∉ known ∧ v ∈ known' := by
  induction flows with
  | nil => simp
  | plain plain allowed onward ih =>
    intro v written
    rcases (mem_blockWrites_plain plain).mp written with own | later
    · exact ⟨allowed.writes v own, onward.known_subset (Or.inr own)⟩
    · obtain ⟨fresh, after⟩ := ih v later
      exact ⟨fun old => fresh (Or.inl old), after⟩
  | cond allowed inYes inNo kept onward ihYes ihNo ih =>
    intro v written
    rcases mem_blockWrites_cond.mp written with rfl | first | second | later
    · exact ⟨allowed.writes v (List.mem_singleton.mpr rfl), onward.known_subset (Or.inr rfl)⟩
    · exact ⟨(ihYes v first).1, onward.known_subset (Or.inl (Or.inr (Or.inl first)))⟩
    · exact ⟨(ihNo v second).1, onward.known_subset (Or.inl (Or.inr (Or.inr second)))⟩
    · obtain ⟨fresh, after⟩ := ih v later
      exact ⟨fun old => fresh (Or.inl (Or.inl old)), after⟩

/-- Nothing else becomes known. -/
theorem Flows.known_of (flows : Flows vs live known block live' known') :
    ∀ v ∈ known', v ∈ known ∨ v ∈ blockWrites block := by
  induction flows with
  | nil => exact fun v member => Or.inl member
  | plain plain _ _ ih =>
    intro v member
    rw [mem_blockWrites_plain plain]
    rcases ih v member with (old | own) | later
    · exact Or.inl old
    · exact Or.inr (Or.inl own)
    · exact Or.inr (Or.inr later)
  | cond _ _ _ _ _ _ _ ih =>
    intro v member
    rw [mem_blockWrites_cond]
    rcases ih v member with ((old | inside) | own) | later
    · exact Or.inl old
    · exact Or.inr (Or.inr (inside.imp id Or.inl))
    · exact Or.inr (Or.inl own)
    · exact Or.inr (Or.inr (Or.inr (Or.inr later)))

/-- What holds a value keeps it unless it is moved. -/
theorem Flows.live_of (flows : Flows vs live known block live' known') (held : live ⊆ known) :
    ∀ v ∈ live, v ∉ blockMoves block → v ∈ live' := by
  induction flows with
  | nil => exact fun v member _ => member
  | plain plain _ _ ih =>
    intro v member unmoved
    rw [mem_blockMoves_plain plain, not_or] at unmoved
    refine ih ?_ v (Or.inl ⟨member, unmoved.1⟩) unmoved.2
    exact Set.union_subset_union_left _ fun v member => held member.1
  | cond _ _ _ _ _ _ _ ih =>
    intro v member unmoved
    rw [mem_blockMoves_cond, not_or, not_or] at unmoved
    refine ih ?_ v (Or.inl ⟨member, ?_⟩) unmoved.2.2
    · refine Set.union_subset_union_left _ ?_
      exact fun v member => Or.inl (held member.1)
    · exact fun moved => moved.elim unmoved.1 unmoved.2.1

/-- Instructions of a flowing block touch variables that exist, and move no descriptions. -/
theorem Flows.instr (flows : Flows vs live known block live' known') :
    ∀ i ∈ Instr.flattenAll block, (∀ v, i ≠ .destroy v) ∧ (∀ v ∈ touched i, v < vs.size) ∧
      ∀ v ∈ (directUsage i).moves, isWitness vs v = false := by
  induction flows with
  | nil => simp [Instr.flattenAll]
  | plain plain allowed _ ih =>
    rw [flattenAll_cons, flatten_plain plain, List.singleton_append, List.forall_mem_cons]
    exact ⟨⟨allowed.intact, allowed.inside, fun v moved => (allowed.moves v moved).2⟩, ih⟩
  | cond allowed _ _ _ _ ihYes ihNo ih =>
    rw [flattenAll_cons, flatten_cond, List.cons_append, List.forall_mem_cons,
      List.forall_mem_append, List.forall_mem_append]
    exact ⟨⟨allowed.intact, allowed.inside, by simp [directUsage]⟩, ⟨ihYes, ihNo⟩, ih⟩

theorem Flows.unmoved (flows : Flows vs live known block live' known') {v : VarId}
    (moved : v ∈ blockMoves block) : isWitness vs v = false := by
  obtain ⟨i, member, moved⟩ := List.mem_flatMap.mp moved
  exact (flows.instr i member).2.2 v moved

/-- No branch moves the destination of its condition. -/
theorem Flows.results (flows : Flows vs live known block live' known') :
    ∀ dst test yes no, Instr.cond dst test yes no ∈ Instr.flattenAll block →
      dst ∉ blockMoves yes ∧ dst ∉ blockMoves no := by
  induction flows with
  | nil => simp [Instr.flattenAll]
  | plain plain _ _ ih =>
    intro dst test yes no member
    rw [flattenAll_cons, flatten_plain plain, List.singleton_append, List.mem_cons] at member
    rcases member with rfl | later
    · cases plain
    · exact ih dst test yes no later
  | cond _ _ _ kept _ ihYes ihNo ih =>
    intro dst test yes no member
    rw [flattenAll_cons, flatten_cond, List.cons_append, List.mem_cons, List.mem_append,
      List.mem_append] at member
    rcases member with same | (first | second) | later
    · cases same
      exact kept
    · exact ihYes dst test yes no first
    · exact ihNo dst test yes no second
    · exact ih dst test yes no later

theorem nodup_filled_append {dst : VarId} {writes writes' : List VarId} (once : writes.Nodup)
    (behind : writes'.Nodup) (apart : ∀ v, v = dst ∨ v ∈ writes → v ∉ writes') :
    (filled dst writes ++ writes').Nodup := by
  refine List.nodup_append.mpr ⟨?_, behind, ?_⟩
  · by_cases inside : dst ∈ writes
    · simpa only [filled, inside, ↓reduceIte] using once
    · simp only [filled, inside, ↓reduceIte]
      exact List.nodup_append.mpr ⟨once, List.nodup_singleton _, by grind⟩
  · rintro v own _ later rfl
    exact apart v (mem_filled.mp own) later

/-- Each route writes every variable at most once. -/
theorem Flows.once (flows : Flows vs live known block live' known') {path : List Instr}
    {writes : List VarId} (route : Route block path writes) : writes.Nodup := by
  induction flows generalizing path writes with
  | nil =>
    cases route
    exact List.nodup_nil
  | plain plain allowed onward ih =>
    cases route with
    | step _ behind =>
      refine List.nodup_append.mpr ⟨allowed.writesOnce, ih behind, ?_⟩
      rintro v own _ later rfl
      exact (onward.writes v (behind.writes_subset later)).1 (Or.inr own)
    | yes => cases plain
    | no => cases plain
  | cond allowed inYes inNo kept onward ihYes ihNo ih =>
    cases route with
    | step plain => cases plain
    | yes inside behind =>
      refine nodup_filled_append (ihYes inside) (ih behind) fun v own later => ?_
      refine (onward.writes v (behind.writes_subset later)).1 ?_
      exact own.elim Or.inr fun own => Or.inl (Or.inr (Or.inl (inside.writes_subset own)))
    | no inside behind =>
      refine nodup_filled_append (ihNo inside) (ih behind) fun v own later => ?_
      refine (onward.writes v (behind.writes_subset later)).1 ?_
      exact own.elim Or.inr fun own => Or.inl (Or.inr (Or.inr (inside.writes_subset own)))

/-- What a block uses and does not write itself holds a value at its start. -/
theorem Flows.used (flows : Flows vs live known block live' known') {v : VarId}
    (used : v ∈ blockUses vs block) (outside : v ∉ blockWrites block) : v ∈ live := by
  induction flows with
  | nil => cases used
  | plain plain allowed _ ih =>
    rw [mem_blockWrites_plain plain, not_or] at outside
    rcases (mem_blockUses_plain plain).mp used with own | later
    · exact allowed.used own
    · rcases ih later outside.2 with stays | written
      · exact stays.1
      · exact absurd written outside.1
  | cond allowed _ _ _ _ ihYes ihNo ih =>
    simp only [mem_blockWrites_cond, not_or] at outside
    rcases mem_blockUses_cond.mp used with own | first | second | later
    · exact allowed.used own
    · exact ihYes first outside.2.1
    · exact ihNo second outside.2.2.1
    · rcases ih later outside.2.2.2 with stays | written
      · exact stays.1
      · exact absurd written outside.1

theorem Flows.uses_of_moves (flows : Flows vs live known block live' known') {v : VarId}
    (moved : v ∈ blockMoves block) : v ∈ blockUses vs block := by
  obtain ⟨us, gathered⟩ := exists_mapM_usage fun i member => (flows.instr i member).2.1
  exact blockUses_of_blockMoves gathered moved

theorem Flows.exists_outerUsage (flows : Flows vs live known block live' known') :
    ∃ o, outerUsage? vs block = some o := by
  obtain ⟨us, gathered⟩ := exists_mapM_usage fun i member => (flows.instr i member).2.1
  simp only [outerUsage?, gathered]
  exact ⟨_, rfl⟩

end Flow

section Counting

variable {vs : Variables} {live known live' known' : Set VarId} {block : Block}

/-- The record of a scan agrees with what holds values; what is gone was known. -/
structure Tracks (live known : Set VarId) (s : Scan) : Prop where
  holds : ∀ v, v ∈ s.live ↔ v ∈ live
  gone : ∀ v ∈ s.moved, v ∈ known ∧ v ∉ live

/-- An instruction is gone over where it is allowed and its branches use only what is there. -/
theorem scanInstr_ok {s : Scan} {i : Instr} {outer : OuterUsage} (position : Nat)
    (tracks : Tracks live known s) (held : live ⊆ known) (allowed : Allowed vs live known i)
    (outside : branchUsage? vs i = some outer) (uses : ∀ v ∈ outer.uses, v ∈ live)
    (moves : ∀ v ∈ outer.moves, v ∈ live) :
    ∃ step s', scanInstr vs position s i = .ok (step, s') := by
  have ready : ∀ v ∈ live, v ∈ s.live ∧ v ∉ s.moved := fun v member =>
    ⟨(tracks.holds v).mpr member, fun gone => (tracks.gone v gone).2 member⟩
  have usage := usage?_of_inside allowed.inside
  obtain ⟨s', scanned, -⟩ := scanInstr_of_ready position usage outside
    (fun v used => ready v <| (List.mem_append.mp used).elim
      (fun own => allowed.used (by simpa only [Ownership.uses, usage] using own)) (uses v))
    allowed.movesOnce allowed.writesOnce fun v written => by
      have new := allowed.writes v written
      exact ⟨fun old => new (held ((tracks.holds v).mp old)), fun gone => new (tracks.gone v gone).1,
        fun moved => new (held (moves v moved))⟩
  exact ⟨_, s', scanned⟩

theorem Tracks.plain {s s' : Scan} {i : Instr} {outer : OuterUsage} {step : Step} {position : Nat}
    (tracks : Tracks live known s) (allowed : Allowed vs live known i) (held : live ⊆ known)
    (plain : branches i = false) (here : Scanned vs position s i outer step s') :
    Tracks (live \ {v | v ∈ (directUsage i).moves} ∪ {v | v ∈ (directUsage i).writes})
      (known ∪ {v | v ∈ (directUsage i).writes}) s' := by
  obtain ⟨writes, moves, -, -⟩ := usage?_eq_some here.usage
  have unmoved : outer.moves = [] := by rw [branchUsage?_plain plain here.outside]
  constructor
  · intro v
    rw [here.live, writes, moves, unmoved, tracks.holds]
    simp only [List.not_mem_nil, not_false_eq_true, and_true]
    exact Or.comm
  · intro v gone
    rw [here.moved, moves, unmoved] at gone
    have fresh := allowed.writes v
    rcases gone with gone | moved | impossible
    · obtain ⟨old, absent⟩ := tracks.gone v gone
      refine ⟨Or.inl old, ?_⟩
      rintro (⟨present, -⟩ | written)
      · exact absent present
      · exact fresh written old
    · have old := held (allowed.moves v moved).1
      refine ⟨Or.inl old, ?_⟩
      rintro (⟨-, unmoved⟩ | written)
      · exact unmoved moved
      · exact fresh written old
    · cases impossible

theorem branchUsage?_of_outer {dst test : VarId} {yes no : Block} {y n : OuterUsage}
    (inYes : outerUsage? vs yes = some y) (inNo : outerUsage? vs no = some n) :
    branchUsage? vs (.cond dst test yes no) =
      some ⟨distinct (y.uses ++ n.uses), distinct (y.moves ++ n.moves)⟩ := by
  simp [branchUsage?, inYes, inNo]

/-- What flowing branches do to the variables around them: they use what is there, and take
away all of it that they move. -/
theorem Flows.branchUsage {dst test : VarId} {yes no : Block}
    {liveYes knownYes liveNo knownNo : Set VarId}
    (inYes : Flows vs live known yes liveYes knownYes)
    (inNo : Flows vs live known no liveNo knownNo) (held : live ⊆ known) :
    ∃ outer, branchUsage? vs (.cond dst test yes no) = some outer ∧
      (∀ v ∈ outer.uses, v ∈ live) ∧
      ∀ v, v ∈ outer.moves ↔ v ∈ live ∧ (v ∈ blockMoves yes ∨ v ∈ blockMoves no) := by
  obtain ⟨y, outsideYes⟩ := inYes.exists_outerUsage
  obtain ⟨n, outsideNo⟩ := inNo.exists_outerUsage
  have ofYes := outerUsage?_eq_some outsideYes
  have ofNo := outerUsage?_eq_some outsideNo
  refine ⟨_, branchUsage?_of_outer outsideYes outsideNo, fun v used => ?_, fun v => ?_⟩
  · simp only [mem_distinct, List.mem_append, ofYes, ofNo] at used
    exact used.elim (fun used => inYes.used used.1 used.2) fun used => inNo.used used.1 used.2
  · simp only [mem_distinct, List.mem_append, ofYes, ofNo]
    have usedYes := fun moved outside => inYes.used (inYes.uses_of_moves (v := v) moved) outside
    have usedNo := fun moved outside => inNo.used (inNo.uses_of_moves (v := v) moved) outside
    have freshYes := fun written old => (inYes.writes v written).1 (held old)
    have freshNo := fun written old => (inNo.writes v written).1 (held old)
    grind

theorem Tracks.cond {s s' : Scan} {dst test : VarId} {yes no : Block} {outer : OuterUsage}
    {step : Step} {position : Nat} (tracks : Tracks live known s)
    (allowed : Allowed vs live known (.cond dst test yes no)) (held : live ⊆ known)
    (moves : ∀ v, v ∈ outer.moves ↔ v ∈ live ∧ (v ∈ blockMoves yes ∨ v ∈ blockMoves no))
    (here : Scanned vs position s (.cond dst test yes no) outer step s') :
    Tracks (live \ {v | v ∈ blockMoves yes ∨ v ∈ blockMoves no} ∪ {dst})
      (known ∪ {v | v ∈ blockWrites yes ∨ v ∈ blockWrites no} ∪ {dst}) s' := by
  obtain ⟨ownWrites, ownMoves, -, -⟩ := usage?_eq_some here.usage
  have writes : step.usage.writes = [dst] := ownWrites
  have unmoved : step.usage.moves = [] := ownMoves
  have fresh : dst ∉ known := allowed.writes dst (List.mem_singleton.mpr rfl)
  constructor
  · intro v
    rw [here.live, writes, unmoved, moves, tracks.holds]
    simp only [List.mem_singleton, List.not_mem_nil, not_false_eq_true, true_and, Set.mem_union,
      Set.mem_sdiff, Set.mem_ofPred_eq, Set.mem_singleton_iff]
    grind
  · intro v gone
    rw [here.moved, unmoved, moves] at gone
    simp only [Set.mem_union, Set.mem_sdiff, Set.mem_ofPred_eq, Set.mem_singleton_iff]
    rcases gone with gone | impossible | ⟨present, moved⟩
    · obtain ⟨old, absent⟩ := tracks.gone v gone
      have other : v ≠ dst := fun same => fresh (same ▸ old)
      exact ⟨Or.inl (Or.inl old), fun back => back.elim (fun back => absent back.1) other⟩
    · cases impossible
    · have other : v ≠ dst := fun same => fresh (same ▸ held present)
      exact ⟨Or.inl (Or.inl (held present)), fun back => back.elim (fun back => back.2 moved) other⟩

theorem held_plain {i : Instr} (held : live ⊆ known) :
    live \ {v | v ∈ (directUsage i).moves} ∪ {v | v ∈ (directUsage i).writes} ⊆
      known ∪ {v | v ∈ (directUsage i).writes} :=
  Set.union_subset_union_left _ fun _ member => held member.1

theorem held_cond {dst : VarId} {moved written : Set VarId} (held : live ⊆ known) :
    live \ moved ∪ {dst} ⊆ known ∪ written ∪ {dst} :=
  Set.union_subset_union_left _ fun _ member => Or.inl (held member.1)

theorem Allowed.mentioned {i : Instr} (allowed : Allowed vs live known i) (held : live ⊆ known) :
    ∀ v ∈ i.operands, v ∈ known ∨ v ∈ (directUsage i).writes := by
  intro v member
  have parts := mem_operands member
  rw [List.mem_append, List.mem_append] at parts
  rcases parts with (written | read) | moved
  · exact Or.inr written
  · exact Or.inl (held (allowed.reads v read))
  · exact Or.inl (held (allowed.moves v moved).1)

/-- Whatever a block mentions has been written when it is done. -/
theorem Flows.mentioned (flows : Flows vs live known block live' known') (held : live ⊆ known) :
    ∀ i ∈ Instr.flattenAll block, ∀ v ∈ i.operands, v ∈ known' := by
  induction flows with
  | nil => simp [Instr.flattenAll]
  | plain plain allowed onward ih =>
    rw [flattenAll_cons, flatten_plain plain, List.singleton_append, List.forall_mem_cons]
    exact ⟨fun v member => onward.known_subset (allowed.mentioned held v member), ih (held_plain held)⟩
  | @cond _ _ _ _ _ _ _ _ dst _ _ _ _ allowed inYes inNo kept onward ihYes ihNo ih =>
    rw [flattenAll_cons, flatten_cond, List.cons_append, List.forall_mem_cons, List.forall_mem_append,
      List.forall_mem_append]
    refine ⟨fun v member => onward.known_subset ?_, ⟨fun i inside v member => onward.known_subset ?_,
      fun i inside v member => onward.known_subset ?_⟩, ih (held_cond held)⟩
    · rcases allowed.mentioned held v member with old | written
      · exact Or.inl (Or.inl old)
      · exact Or.inr (List.mem_singleton.mp written)
    · rcases inYes.known_of v (ihYes held i inside v member) with old | written
      · exact Or.inl (Or.inl old)
      · exact Or.inl (Or.inr (Or.inl written))
    · rcases inNo.known_of v (ihNo held i inside v member) with old | written
      · exact Or.inl (Or.inl old)
      · exact Or.inl (Or.inr (Or.inr written))

/-- What an instruction writes has not been mentioned before. -/
theorem Flows.unmentioned {front back : Block} {i : Instr} {x : VarId}
    (flows : Flows vs live known (front ++ i :: back) live' known') (held : live ⊆ known) (plain : branches i = false)
    (written : x ∈ (directUsage i).writes) : ∀ j ∈ Instr.flattenAll front, x ∉ j.operands := by
  obtain ⟨live₁, known₁, first, second⟩ := flows.split
  have fresh : x ∉ known₁ := by
    cases second with
    | plain _ allowed _ => exact allowed.writes x written
    | cond => cases plain
  exact fun j inside member => fresh (first.mentioned held j inside x member)

/-- A flowing block is gone over without a breach. -/
theorem Flows.scan (flows : Flows vs live known block live' known') (held : live ⊆ known)
    {s : Scan} (tracks : Tracks live known s) (position : Nat) :
    ∃ steps s', scanBlock vs position s block = .ok (steps, s') := by
  induction flows generalizing s position with
  | nil => exact ⟨[], s, rfl⟩
  | @plain live known _ _ i rest plain allowed _ ih =>
    have outside : branchUsage? vs i = some ⟨[], []⟩ := by
      cases i with
      | cond => cases plain
      | _ => rfl
    obtain ⟨step, s', first⟩ := scanInstr_ok position tracks held allowed outside (by simp) (by simp)
    obtain ⟨outer, here⟩ := scanned_of_scanInstr first
    obtain ⟨steps, last, onward⟩ := ih (held_plain held) (tracks.plain allowed held plain here)
      (position + 1)
    exact ⟨step :: steps, last, by simp only [scanBlock, first, onward, bind, Except.bind]; rfl⟩
  | @cond _ _ _ _ _ _ _ _ dst test yes no rest allowed inYes inNo kept _ _ _ ih =>
    obtain ⟨outer, outside, uses, moves⟩ := Flows.branchUsage inYes inNo held
    obtain ⟨step, s', first⟩ := scanInstr_ok position tracks held allowed outside uses
      fun v moved => ((moves v).mp moved).1
    obtain ⟨outer', here⟩ := scanned_of_scanInstr first
    obtain rfl : outer = outer' := Option.some.inj (outside.symm.trans here.outside)
    obtain ⟨steps, last, onward⟩ := ih (held_cond held) (tracks.cond allowed held moves here)
      (position + 1)
    exact ⟨step :: steps, last, by simp only [scanBlock, first, onward, bind, Except.bind]; rfl⟩

/-- What a plan leaves to branches is used there. -/
def LeavesUsed (p : Plan) (position : Nat) (steps : List Step) : Prop :=
  ∀ j step, steps[j]? = some step → ∀ v ∈ p.handedAt (position + j), v ∈ step.branch

theorem LeavesUsed.tail {p : Plan} {position : Nat} {step : Step} {steps : List Step}
    (used : LeavesUsed p position (step :: steps)) : LeavesUsed p (position + 1) steps := by
  intro j step' found v left
  refine used (j + 1) step' (by simpa using found) v ?_
  rwa [Nat.add_comm j, ← Nat.add_assoc]

/-- A block that can be put together from its steps can be counted. -/
theorem Flows.count_of_assemble (flows : Flows vs live known block live' known')
    (held : live ⊆ known) {avail handed : List VarId} (keep : List VarId)
    (start : ∀ v, v ∈ handed ++ avail ↔ v ∈ live)
    (assembles : ∀ p s steps last, Tracks live known s →
      scanBlock vs 0 s block = .ok (steps, last) → LeavesUsed p 0 steps →
      ∃ counted, assemble p keep 0 steps (blockCounters vs block) = .ok counted) :
    ∃ counted, countBlock vs block avail keep handed = .ok counted := by
  have tracks : Tracks live known { live := handed ++ avail } := ⟨start, by simp⟩
  obtain ⟨steps, last, scanned⟩ := flows.scan held tracks 0
  have placement := plan_placement scanned ⟨rfl, rfl, rfl⟩ keep handed fun w witness moved => by
    rw [flows.unmoved moved] at witness
    cases witness
  have used : LeavesUsed (plan vs steps last keep handed) 0 steps := by
    intro j step found v left
    rw [Nat.zero_add, mem_handedAt] at left
    obtain ⟨⟨step', found', inside⟩, -⟩ := placement.left _ left
    rw [found] at found'
    exact Option.some.inj found' ▸ inside
  obtain ⟨counted, assembled⟩ := assembles _ _ steps last tracks scanned used
  exact ⟨counted, by simp only [countBlock, countWith, scanned, bind, Except.bind, assembled]⟩

theorem assemble_plain_ok {p : Plan} {keep : List VarId} {position : Nat} {step : Step}
    {steps : List Step} {i : Instr} {rest behind : Block} (instr : step.instr = i)
    (plain : branches i = false)
    (onward : assemble p keep (position + 1) steps (blockCounters vs rest) = .ok behind) :
    ∃ counted, assemble p keep position (step :: steps) (blockCounters vs (i :: rest)) =
      .ok counted := by
  have kept : countStep p keep position step (branchCounters vs i) = .ok i := by
    subst instr
    unfold countStep
    split
    · rename_i branching _
      simp [branching, branches] at plain
    · rfl
  simp only [blockCounters, assemble, kept, onward, bind, Except.bind]
  exact ⟨_, rfl⟩

theorem assemble_cond_ok {p : Plan} {keep : List VarId} {position : Nat} {step : Step}
    {steps : List Step} {dst test : VarId} {yes no rest behind yes' no' : Block}
    (instr : step.instr = .cond dst test yes no)
    (countYes : countBlock vs yes step.entry (dst :: keep) (p.handedAt position) = .ok yes')
    (countNo : countBlock vs no step.entry (dst :: keep) (p.handedAt position) = .ok no')
    (onward : assemble p keep (position + 1) steps (blockCounters vs rest) = .ok behind) :
    ∃ counted, assemble p keep position (step :: steps)
      (blockCounters vs (.cond dst test yes no :: rest)) = .ok counted := by
  rw [countBlock] at countYes countNo
  simp only [blockCounters, branchCounters, assemble, countStep, instr, countYes, countNo, onward,
    bind, Except.bind, pure, Except.pure]
  exact ⟨_, rfl⟩

/-- A flowing block is put together without a breach. -/
theorem Flows.assembles (flows : Flows vs live known block live' known') (held : live ⊆ known)
    (keep : List VarId) (position : Nat) (p : Plan) (s : Scan) (steps : List Step) (last : Scan)
    (tracks : Tracks live known s) (scanned : scanBlock vs position s block = .ok (steps, last))
    (used : LeavesUsed p position steps) :
    ∃ counted, assemble p keep position steps (blockCounters vs block) = .ok counted := by
  induction flows generalizing keep position p s steps last with
  | nil =>
    obtain ⟨rfl, rfl⟩ := scanBlock_nil scanned
    exact ⟨_, rfl⟩
  | plain plain allowed _ ih =>
    obtain ⟨outer, step, s', tail, here, onward, rfl⟩ := scanBlock_cons scanned
    obtain ⟨behind, assembled⟩ := ih (held_plain held) keep _ p s' tail last
      (tracks.plain allowed held plain here) onward used.tail
    exact assemble_plain_ok here.instr plain assembled
  | @cond live _ _ _ _ _ _ _ _ _ _ _ _ allowed inYes inNo kept _ ihYes ihNo ih =>
    obtain ⟨outer, step, s', tail, here, onward, rfl⟩ := scanBlock_cons scanned
    obtain ⟨outer', outside, uses, moves⟩ := Flows.branchUsage inYes inNo held
    obtain rfl : outer' = outer := Option.some.inj (outside.symm.trans here.outside)
    obtain ⟨behind, assembled⟩ := ih (held_cond held) keep _ p s' tail last
      (tracks.cond allowed held moves here) onward used.tail
    have start : ∀ v, v ∈ p.handedAt position ++ step.entry ↔ v ∈ live := by
      intro v
      rw [List.mem_append, here.entry, tracks.holds, or_iff_right_iff_imp]
      exact fun left => uses v (here.branch ▸ used 0 step rfl v left)
    obtain ⟨yes', countYes⟩ := inYes.count_of_assemble held _ start (ihYes held _ 0)
    obtain ⟨no', countNo⟩ := inNo.count_of_assemble held _ start (ihNo held _ 0)
    exact assemble_cond_ok here.instr countYes countNo assembled

end Counting

/-- The arguments of a function that hold a value from the start. -/
def givenArguments (f : Function) : Set VarId :=
  {v | ∃ a ∈ f.arguments, a.convention ≠ .out ∧ a.var = v}

/-- A function whose body flows from its arguments is counted, and every path of the result
passes the check. -/
theorem counted_of_flows {f : Function} {live known : Set VarId}
    (flows : Flows f.vars (givenArguments f) (givenArguments f) f.body live known)
    (apart : ∀ a ∈ f.arguments, a.var ∉ f.locals)
    (described : ∀ x ∈ f.vars, ∀ l, x.witness.location? = some l → isWitness f.vars l = true) :
    ∃ g, countFunction f = .ok g ∧ checkPaths g = .ok () := by
  have start : ∀ v, v ∈ [] ++ (f.arguments.filter fun a => !(a.convention == .out)).map (·.var) ↔
      v ∈ givenArguments f := by
    intro v
    simp [givenArguments, and_assoc]
  obtain ⟨body, counted⟩ := flows.count_of_assemble subset_rfl
    ((f.arguments.filter (·.convention == .out)).map (·.var)) start
    (flows.assembles subset_rfl _ 0)
  have done : countFunction f = .ok { f with body := body } := by
    simp only [countFunction, List.partition_eq_filter_filter, Function.comp_def, counted, bind,
      Except.bind, pure, Except.pure]
  refine ⟨_, done, checkPaths_of_disciplined ?_ ?_ done⟩
  · exact {
      intact := fun v member => (flows.instr _ member).1 v rfl
      apart := apart
      described := described
      witnesses := fun v moved => flows.unmoved moved
      once := fun path writes route => flows.once route
      results := flows.results }
  · intro a member given written
    exact (flows.writes _ written).1 ⟨a, member, given, rfl⟩

end WitnessLang.Ownership
