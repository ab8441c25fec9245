import WitnessLang.Proofs.Ownership.Recount

set_option autoImplicit false

/-! Counted functions stay as they are when they are counted again. Branches are entered the second time with
what they were left the first time, so they come out the same; and a block is put together from the same
instructions, with nothing more to destroy. -/
namespace WitnessLang.Ownership

open Ir

section Branches

variable {vs : Variables} {dst test : VarId} {yes no yes' no' branch : Block} {outer : OuterUsage} {v : VarId}

/-- What a condition's branches use and take is what either of them uses and takes and does not write. -/
theorem mem_branchUsage (known : branchUsage? vs (.cond dst test yes no) = some outer) :
    (v ∈ outer.uses ↔ v ∈ blockUses vs yes ∧ v ∉ blockWrites yes ∨ v ∈ blockUses vs no ∧ v ∉ blockWrites no) ∧
      (v ∈ outer.moves ↔ v ∈ blockMoves yes ∧ v ∉ blockWrites yes ∨ v ∈ blockMoves no ∧ v ∉ blockWrites no) := by
  simp only [branchUsage?, Option.bind_eq_bind, Option.bind_eq_some_iff, Option.pure_def,
    Option.some.injEq] at known
  obtain ⟨y, inYes, n, inNo, rfl⟩ := known
  simp only [mem_distinct, List.mem_append, outerUsage?_eq_some inYes, outerUsage?_eq_some inNo, and_self]

theorem exists_outerUsage_of_usage {block : Block} (known : ∀ i ∈ Instr.flattenAll block, (usage? vs i).isSome) :
    ∃ o, outerUsage? vs block = some o := by
  obtain ⟨us, gathered⟩ := exists_mapM_usage fun i member v touches => by
    obtain ⟨u, own⟩ := Option.isSome_iff_exists.mp (known i member)
    exact (usage?_eq_some own).2.2.2 v touches
  exact ⟨_, by rw [outerUsage?, gathered]; rfl⟩

/-- A block that writes a variable uses its description. -/
theorem blockUses_of_written {block : Block} (known : ∀ i ∈ Instr.flattenAll block, (usage? vs i).isSome)
    {w : VarId} (written : v ∈ blockWrites block) (describes : describedBy? vs v = some w) :
    w ∈ blockUses vs block := by
  obtain ⟨i, member, written⟩ := List.mem_flatMap.mp written
  obtain ⟨u, usage⟩ := Option.isSome_iff_exists.mp (known i member)
  obtain ⟨-, -, reads, -⟩ := usage?_eq_some usage
  refine List.mem_flatMap.mpr ⟨i, member, ?_⟩
  simp only [uses, usage, reads, List.mem_append, List.mem_filterMap]
  exact Or.inl (Or.inr ⟨v, Or.inl (Or.inl written), describes⟩)

end Branches

/-- How a counted block is entered again, after it was counted with `avail` and `handed`. -/
structure Reentered (vs : Variables) (block : Block) (avail keep handed known avail' handed' : List VarId) :
    Prop where
  unmoved : ∀ w, isWitness vs w = true → w ∉ blockMoves block
  fresh : Unwritten known block
  given : ∀ v ∈ handed, v ∈ known
  once : handed.Nodup
  own : ∀ v ∈ handed, v ∉ keep ∧ isTrivial vs v = false ∧ v < vs.size
  same : ∀ v, v ∈ handed' ↔ v ∈ handed
  fewer : ∀ v ∈ avail', v ∈ avail
  usable : ∀ v ∈ avail, v ∈ blockUses vs block → v ∈ handed' ++ avail'
  described : ∀ v ∈ handed, ∀ w, describedBy? vs v = some w → w ∈ handed' ++ avail'

/-- Counting a counted block changes nothing, wherever it is entered again. -/
def CountsAgain (vs : Variables) (block : Block) : Prop :=
  ∀ avail keep handed known avail' handed' counted,
    countBlock vs block avail keep handed = .ok counted →
    Reentered vs block avail keep handed known avail' handed' →
    countBlock vs counted avail' keep handed' = .ok counted

section Rerun

variable {vs : Variables} {block : Block} {keep handed : List VarId} {start last : Scan}
  {steps : List Step} {own : List VarId} {p : Plan}
  {c : Counting vs block keep handed start steps last own p} {start' : Scan} {k : Nat} {s s' s₁ s₂ : Scan}
  {dst test : VarId} {yes no branch branch' : Block} {rest : Block} {outer : OuterUsage} {step : Step}
  {tail : List Step} {known : List VarId}

/-- What is left to branches was introduced before, and is used by them. -/
theorem Rerun.left {i : Instr} (f : Rerun c start' k s (i :: rest) (step :: tail) known s')
    (here : Scanned vs k s i outer step s₁) {v : VarId} (left : v ∈ p.handedAt k) :
    v ∈ own ∧ v ∈ known ∧ v ∈ outer.uses ∧ Introduced handed last k v := by
  have place := mem_handedAt.mp left
  have mine := c.own_of_place (List.mem_append_right _ place)
  obtain ⟨user, at_, used⟩ := (c.placed.left _ place).branch
  obtain rfl : step = user := Option.some.inj (f.at_position.symm.trans at_)
  have introduced := c.introduced_of_used mine ⟨step, at_, by simp [Step.uses, used]⟩
  exact ⟨mine, f.introduced v mine introduced, here.branch ▸ used, introduced⟩

/-- What describes a value that is left to branches is used by them, too. -/
theorem Rerun.description_used (f : Rerun c start' k s (.cond dst test yes no :: rest) (step :: tail) known s')
    (here : Scanned vs k s (.cond dst test yes no) outer step s₁)
    (scans : ∀ {b}, b = yes ∨ b = no → Scans vs { live := p.handedAt k ++ step.entry } b) {v w : VarId}
    (left : v ∈ p.handedAt k) (describes : describedBy? vs v = some w) : w ∈ outer.uses := by
  obtain ⟨mine, -, inOuter, introduced⟩ := f.left here left
  have witness := c.described v w describes
  have live : w ∈ p.handedAt k ++ step.entry :=
    List.mem_append_right _ (here.entry ▸ (f.descriptions v mine introduced w describes).1)
  have unmoved := f.unmoved w witness
  simp only [mem_blockMoves_cond, not_or] at unmoved
  rw [(mem_branchUsage here.outside).1]
  rcases blockUses_of_branchUsage here.outside inOuter with used | used
  · exact Or.inl ⟨blockUses_description c.described used describes,
      (scans (Or.inl rfl)).not_written live unmoved.1⟩
  · exact Or.inr ⟨blockUses_description c.described used describes,
      (scans (Or.inr rfl)).not_written live unmoved.2.1⟩

theorem Rerun.unmoved_inside (f : Rerun c start' k s (.cond dst test yes no :: rest) (step :: tail) known s')
    (side : branch = yes ∨ branch = no) {w : VarId} (witness : isWitness vs w = true) : w ∉ blockMoves branch := by
  intro moved
  refine f.unmoved w witness (mem_blockMoves_cond.mpr ?_)
  rcases side with rfl | rfl
  · exact Or.inl moved
  · exact Or.inr (Or.inl moved)

/-- The destination of a condition is not left to its branches, nor is what has to be kept. -/
theorem Rerun.left_unkept (f : Rerun c start' k s (.cond dst test yes no :: rest) (step :: tail) known s')
    (here : Scanned vs k s (.cond dst test yes no) outer step s₁) {v : VarId} (left : v ∈ p.handedAt k) :
    v ∉ dst :: keep ∧ isTrivial vs v = false ∧ v < vs.size := by
  obtain ⟨mine, -, inOuter, -⟩ := f.left here left
  obtain ⟨-, unkept, -, costly⟩ := (c.mem_own v).mp mine
  refine ⟨?_, costly, c.inside v mine⟩
  rw [List.mem_cons, not_or]
  refine ⟨?_, unkept⟩
  rintro rfl
  have written : v ∈ step.usage.writes := by
    rw [(usage?_eq_some here.usage).1]
    exact List.mem_singleton_self v
  exact (here.fresh v written).1 (here.ready v (by simp [Step.uses, here.branch, inOuter])).1

/-- What a counted branch uses and takes: no more than before, and what it was left. -/
theorem Rerun.inside_branch (f : Rerun c start' k s (.cond dst test yes no :: rest) (step :: tail) known s')
    (here : Scanned vs k s (.cond dst test yes no) outer step s₁)
    (scans : ∀ {b}, b = yes ∨ b = no → Scans vs { live := p.handedAt k ++ step.entry } b)
    (side : branch = yes ∨ branch = no)
    (count : countBlock vs branch step.entry (dst :: keep) (p.handedAt k) = .ok branch') :
    (∃ o, outerUsage? vs branch' = some o) ∧
    (∀ v, v ∈ blockUses vs branch' ∧ v ∉ blockWrites branch' → v ∈ outer.uses) ∧
    (∀ v, v ∈ blockUses vs branch ∧ v ∉ blockWrites branch → v ∈ blockUses vs branch' ∧ v ∉ blockWrites branch') ∧
    ∀ v, v ∈ blockMoves branch' ∧ v ∉ blockWrites branch' ↔
      v ∈ blockMoves branch ∧ v ∉ blockWrites branch ∨ v ∈ p.handedAt k := by
  have inserts := inserts_of_count count
  have ofBranch : ∀ v, v ∈ blockUses vs branch → v ∉ blockWrites branch → v ∈ outer.uses := fun v used unwritten =>
    (branchUsage?_cond side here.outside unwritten).1 used
  refine ⟨exists_outerUsage_of_usage (inserts.usage_isSome (fun v fits => ?_) (scans side).usage_isSome), ?_, ?_, ?_⟩
  · rcases fits.1 with left | written
    · exact c.inside v (f.left here left).1
    · exact (scans side).inside written
  · rintro v ⟨used, unwritten⟩
    rw [inserts.mem_blockWrites] at unwritten
    rcases inserts.of_mem_blockUses used with used | ⟨x, ⟨fits, -⟩, rfl | describes⟩
    · exact ofBranch v used unwritten
    · exact (f.left here (fits.resolve_right unwritten)).2.2.1
    · rcases fits with left | written
      · exact f.description_used here scans left describes
      · exact ofBranch v (blockUses_of_written (scans side).usage_isSome written describes) unwritten
  · rintro v ⟨used, unwritten⟩
    exact ⟨inserts.blockUses_subset used, mt inserts.mem_blockWrites.mp unwritten⟩
  · intro v
    rw [inserts.mem_blockWrites]
    constructor
    · rintro ⟨moved, unwritten⟩
      rcases inserts.of_mem_blockMoves moved with moved | ⟨fits, -⟩
      · exact Or.inl ⟨moved, unwritten⟩
      · exact Or.inr (fits.resolve_right unwritten)
    · rintro (⟨moved, unwritten⟩ | left)
      · exact ⟨inserts.blockMoves_subset moved, unwritten⟩
      · obtain ⟨unkept, costly, -⟩ := f.left_unkept here left
        exact ⟨moved_of_handed branch (fun w => f.unmoved_inside side) costly count unkept left,
          (f.fresh.inside side).not_mem (f.left here left).2.1⟩

/-- What a condition with counted branches does to the variables around it. -/
theorem Rerun.branchUsage (f : Rerun c start' k s (.cond dst test yes no :: rest) (step :: tail) known s')
    (here : Scanned vs k s (.cond dst test yes no) outer step s₁) {yes' no' : Block}
    (countYes : countBlock vs yes step.entry (dst :: keep) (p.handedAt k) = .ok yes')
    (countNo : countBlock vs no step.entry (dst :: keep) (p.handedAt k) = .ok no') :
    ∃ outer', branchUsage? vs (.cond dst test yes' no') = some outer' ∧
      (∀ v, v ∈ outer'.uses ↔ v ∈ outer.uses) ∧
      ∀ v, v ∈ outer'.moves ↔ v ∈ outer.moves ∨ v ∈ p.handedAt k := by
  have scans : ∀ {b}, b = yes ∨ b = no → Scans vs { live := p.handedAt k ++ step.entry } b := by
    rintro b (rfl | rfl)
    · exact scans_of_count countYes
    · exact scans_of_count countNo
  obtain ⟨⟨y, ofYes⟩, fewerYes, moreYes, movesYes⟩ := f.inside_branch here scans (Or.inl rfl) countYes
  obtain ⟨⟨n, ofNo⟩, fewerNo, moreNo, movesNo⟩ := f.inside_branch here scans (Or.inr rfl) countNo
  have outside : branchUsage? vs (.cond dst test yes' no') = _ := branchUsage?_of_outer ofYes ofNo
  refine ⟨_, outside, fun v => ?_, fun v => ?_⟩
  · rw [(mem_branchUsage outside).1]
    refine ⟨fun used => used.elim (fewerYes v) (fewerNo v), fun used => ?_⟩
    exact ((mem_branchUsage here.outside).1.mp used).imp (moreYes v) (moreNo v)
  · rw [(mem_branchUsage outside).2, (mem_branchUsage here.outside).2, movesYes, movesNo]
    tauto

/-- The branches are entered again as the first time. -/
theorem Rerun.reentered (f : Rerun c start' k s (.cond dst test yes no :: rest) (step :: tail) known s')
    (here : Scanned vs k s (.cond dst test yes no) outer step s₁)
    (scans : ∀ {b}, b = yes ∨ b = no → Scans vs { live := p.handedAt k ++ step.entry } b)
    (side : branch = yes ∨ branch = no) (emptied : Emptied (p.destroysAt k) s' s₂) {handed' : List VarId}
    (same : ∀ v, v ∈ handed' ↔ v ∈ p.handedAt k) :
    Reentered vs branch step.entry (dst :: keep) (p.handedAt k) known s₂.live handed' := by
  have inBlock : ∀ v, v ∈ blockUses vs yes ∨ v ∈ blockUses vs no →
      v ∈ blockUses vs (.cond dst test yes no :: rest) := by
    intro v used
    rw [mem_blockUses_cond]
    tauto
  have there : ∀ v ∈ outer.uses, v ∈ s₂.live := by
    intro v used
    obtain ⟨live, -, kept⟩ := f.ready here (by simp [Step.uses, here.branch, used])
      (inBlock v (blockUses_of_branchUsage here.outside used))
    exact (emptied.live v).mpr ⟨live, kept⟩
  refine ⟨fun w => f.unmoved_inside side, f.fresh.inside side, fun v left => (f.left here left).2.1,
    c.handedAt_nodup k, fun v left => f.left_unkept here left, same, fun v live => ?_, fun v live used => ?_,
    fun v left w describes => List.mem_append_right _ (there w (f.description_used here scans left describes))⟩
  · exact here.entry ▸ ((f.live v).mp ((emptied.live v).mp live).1).1
  · refine List.mem_append_right _ ?_
    rw [here.entry] at live
    by_cases mine : v ∈ own
    · have inKnown := f.introduced v mine (f.introduced_of_live mine live)
      exact there v ((branchUsage?_cond side here.outside ((f.fresh.inside side).not_mem inKnown)).1 used)
    · -- what is not owned has no place in the plan
      refine (emptied.live v).mpr ⟨(f.live v).mpr ⟨live, ?_, f.usable v (inBlock v ?_)⟩, fun destroyed => ?_⟩
      · rintro ⟨j, -, place⟩
        exact mine (c.own_of_place place)
      · rcases side with rfl | rfl
        · exact Or.inl used
        · exact Or.inr used
      · exact mine (c.own_of_place (List.mem_append_left _ (mem_destroysAt.mp destroyed)))

/-- What the second run has found at the end. -/
structure Finished (p : Plan) (last last' : Scan) : Prop where
  movedHere : ∀ v, v ∈ last'.movedHere ↔ v ∈ last.movedHere ∨ ∃ j, (j, v) ∈ p.destroys
  written : last'.written.map (·.1) = last.written.map (·.1)

/-- The second run goes over the counted block, and puts it together again from a plan that destroys nothing
and leaves to branches what they were left before. -/
theorem Rerun.walk (f : Rerun c start' k s rest tail known s')
    (again : ∀ dst test yes no, Instr.cond dst test yes no ∈ rest → CountsAgain vs yes ∧ CountsAgain vs no)
    {counted : Block} (assembled : assemble p keep k tail (blockCounters vs rest) = .ok counted) :
    ∃ tail' last', scanBlock vs (p.startOf k) s' counted = .ok (tail', last') ∧ Finished p last last' ∧
      Echoes vs p k tail tail' ∧ ∀ p', p'.destroys = [] →
        (∀ j v, v ∈ p'.handedAt (p.newPosition j) ↔ v ∈ p.handedAt j) →
        assemble p' keep (p.startOf k) tail' (blockCounters vs counted) = .ok counted := by
  induction rest generalizing k s tail known s' counted with
  | nil =>
    obtain ⟨rfl, rfl⟩ := scanBlock_nil f.scanned
    obtain rfl : (p.destroysAt k).map Instr.destroy = counted := by
      simpa [assemble, blockCounters] using assembled
    obtain ⟨once, ordered⟩ := c.destroysAt_ordered k
    obtain ⟨front, s₂, instrs, destroys, emptied, scans⟩ := scanBlock_destroys once ordered (p.startOf k)
      fun v member => f.ready_destroys member
    have scanned := @scans [] [] s₂ rfl
    rw [List.append_nil, List.append_nil] at scanned
    refine ⟨front, s₂, scanned, ⟨fun v => ?_, by rw [emptied.written, f.written]⟩, .nil destroys ?_, fun p' none _ => ?_⟩
    · rw [emptied.movedHere, f.movedHere, mem_destroysAt]
      obtain ⟨before, split, length⟩ := f.position
      constructor
      · rintro ((moved | ⟨j, -, place⟩) | place)
        · exact Or.inl moved
        · exact Or.inr ⟨j, place⟩
        · exact Or.inr ⟨k, place⟩
      · rintro (moved | ⟨j, place⟩)
        · exact Or.inl (Or.inl moved)
        · have within := (c.placed.destroyed _ place).within
          rw [split, List.append_nil, length] at within
          rcases Nat.lt_or_eq_of_le within with earlier | same
          · exact Or.inl (Or.inr ⟨j, earlier, place⟩)
          · exact Or.inr (same ▸ place)
    · simpa using congrArg List.length instrs
    · have nothing : assemble p' keep (p.startOf k + (p.destroysAt k).length) [] (blockCounters vs []) = .ok [] := by
        simp [assemble, Plan.destroysAt, none]
      simpa using assemble_destroys none instrs nothing
  | cons i rest ih =>
    obtain ⟨outer, step, s₁, tail, here, onward, rfl⟩ := scanBlock_cons f.scanned
    have laterAgain : ∀ dst test yes no, Instr.cond dst test yes no ∈ rest → CountsAgain vs yes ∧ CountsAgain vs no :=
      fun dst test yes no member => again dst test yes no (List.mem_cons_of_mem _ member)
    obtain ⟨once, ordered⟩ := c.destroysAt_ordered k
    obtain ⟨front, s₂, instrs, destroys, emptied, scans⟩ := scanBlock_destroys once ordered (p.startOf k)
      fun v member => f.ready_destroys member
    have length : front.length = (p.destroysAt k).length := by simpa using congrArg List.length instrs
    cases plain : branches i with
    | false =>
      obtain ⟨behind, assembledRest, rfl⟩ := assemble_plain here.instr plain assembled
      have none := branchUsage?_plain plain here.outside
      have unleft : p.handedAt k = [] := List.eq_nil_iff_forall_not_mem.mpr fun v left => by
        have := (f.left here left).2.2.1
        simp [none] at this
      obtain ⟨step', s₃, first, instr, -, same, g⟩ := f.next here onward emptied (Or.inl rfl) here.outside
        (fun v => Iff.rfl) (by simp [unleft]) (by simp [none]) (f.fresh.tail plain) (by simp)
      obtain ⟨tail', last', scanned, finished, echoes, assembles⟩ := ih g laterAgain assembledRest
      refine ⟨_, last', scans (scanBlock_cons_of first scanned), finished, .cons destroys length same echoes,
        fun p' empty left => assemble_destroys empty instrs ?_⟩
      obtain ⟨counted, done⟩ := assemble_plain_ok instr plain (assembles p' empty left)
      obtain ⟨behind', assembled', rfl⟩ := assemble_plain instr plain done
      obtain rfl := Except.ok.inj ((assembles p' empty left).symm.trans assembled')
      simpa [Plan.destroysAt, empty, Plan.newPosition] using done
    | true =>
      obtain ⟨dst, test, yes, no, rfl⟩ := cond_of_branches plain
      obtain ⟨yes', no', behind, countYes, countNo, assembledRest, rfl⟩ := assemble_cond here.instr assembled
      obtain ⟨againYes, againNo⟩ := again dst test yes no (List.mem_cons_self ..)
      obtain ⟨outer', outside, uses, moves⟩ := f.branchUsage here countYes countNo
      have branchScans : ∀ {b}, b = yes ∨ b = no → Scans vs { live := p.handedAt k ++ step.entry } b := by
        rintro b (rfl | rfl)
        · exact scans_of_count countYes
        · exact scans_of_count countNo
      obtain ⟨path, writes, route⟩ := exists_route yes
      obtain ⟨step', s₃, first, instr, entry, same, g⟩ := f.next here onward emptied
        (Or.inr ⟨dst, test, yes, no, yes', no', rfl, rfl⟩) outside uses moves
        (fun v used => by
          have := blockUses_of_branchUsage here.outside used
          rw [mem_blockUses_cond]
          tauto)
        (f.fresh.after (Or.inl route))
        (fun v old => List.mem_append.mpr (old.imp_right fun written =>
          mem_filled.mpr (Or.inl (List.mem_singleton.mp written))))
      obtain ⟨tail', last', scanned, finished, echoes, assembles⟩ := ih g laterAgain assembledRest
      refine ⟨_, last', scans (scanBlock_cons_of first scanned), finished, .cons destroys length same echoes,
        fun p' empty left => assemble_destroys empty instrs ?_⟩
      have recountYes := againYes _ _ _ _ _ _ _ countYes
        (f.reentered here branchScans (Or.inl rfl) emptied (left k))
      have recountNo := againNo _ _ _ _ _ _ _ countNo
        (f.reentered here branchScans (Or.inr rfl) emptied (left k))
      rw [← entry] at recountYes recountNo
      obtain ⟨counted, done⟩ := assemble_cond_ok instr recountYes recountNo (assembles p' empty left)
      obtain ⟨yes'', no'', behind', countYes', countNo', assembled', rfl⟩ := assemble_cond instr done
      obtain rfl := Except.ok.inj (recountYes.symm.trans countYes')
      obtain rfl := Except.ok.inj (recountNo.symm.trans countNo')
      obtain rfl := Except.ok.inj ((assembles p' empty left).symm.trans assembled')
      simpa [Plan.destroysAt, empty, Plan.newPosition] using done

end Rerun

/-- What is true of the branches of its conditions is true of a block. -/
theorem countsAgain_of_branches {vs : Variables} (described : Described vs) {block : Block}
    (again : ∀ dst test yes no, Instr.cond dst test yes no ∈ block → CountsAgain vs yes ∧ CountsAgain vs no) :
    CountsAgain vs block := by
  intro avail keep handed known avail' handed' counted count entered
  obtain ⟨steps, last, scanned, assembled⟩ := countBlock_eq_ok count
  have c := counting_of_scan described keep scanned entered.unmoved entered.fresh
    (fun v given => ⟨entered.given v given, (entered.own v given).2.2⟩) entered.once
  generalize named : plan vs steps last keep handed = p at assembled c
  have old : ∀ v, v ∈ handed' ++ avail' → v ∈ handed ++ avail := fun v member =>
    List.mem_append.mpr ((List.mem_append.mp member).imp (entered.same v).mp (entered.fewer v))
  have early : ∀ {v}, Introduced handed last 0 v → v ∈ handed := by
    rintro v (given | ⟨j, impossible, -⟩)
    · exact given
    · omega
  have f : Rerun c { live := handed' ++ avail' } 0 { live := handed ++ avail } block steps known
      { live := handed' ++ avail' } := by
    refine ⟨scanned, ⟨[], rfl, rfl⟩, entered.unmoved, fun v used live => ?_, fun v mine live => ?_, entered.fresh,
      fun v _ introduced => entered.given v (early introduced), by simp,
      fun v _ introduced _ => List.mem_append_left _ (early introduced), fun v _ introduced w describes => ?_,
      fun v => ⟨fun live => ⟨old v live, ?_, fun _ => live⟩, fun ⟨live, _, stays⟩ => stays live⟩, fun v => ?_,
      fun v => ?_, rfl⟩
    · rcases List.mem_append.mp live with given | live
      · exact List.mem_append_left _ ((entered.same v).mpr given)
      · exact entered.usable v live used
    · rcases ((c.mem_own v).mp mine).1 with given | ⟨j, wrote⟩
      · exact List.mem_append_left _ ((entered.same v).mpr given)
      · obtain ⟨writer, found, written⟩ := (written_at c.scanned c.blank).mp wrote
        exact absurd written (not_written_again scanned (Or.inl live) writer (List.mem_of_getElem? found))
    · have there := entered.described v (early introduced) w describes
      exact ⟨old w there, fun _ => there⟩
    · rintro ⟨j, impossible, -⟩
      omega
    · simp [Plan.Passed]
    · simp
  obtain ⟨steps', last', scanned', finished, echoes, assembles⟩ := f.walk again assembled
  have startScan : scanBlock vs 0 { live := handed' ++ avail' } counted = .ok (steps', last') := scanned'
  -- What is owned the second time was left to branches the first time.
  have mem_owned' : ∀ v, v ∈ owned vs last' keep handed' ↔ ∃ k, (k, v) ∈ p.handed := by
    have written : ∀ v, (∃ k, (v, k) ∈ last'.written) ↔ ∃ k, (v, k) ∈ last.written := fun v => by
      have := congrArg (v ∈ ·) finished.written
      simpa using this
    intro v
    rw [mem_owned, entered.same, written, finished.movedHere]
    constructor
    · rintro ⟨introduced, unkept, unmoved, costly⟩
      rw [not_or] at unmoved
      obtain ⟨k, place⟩ := c.place_of_own ((c.mem_own v).mpr ⟨introduced, unkept, unmoved.1, costly⟩)
      exact ⟨k, (List.mem_append.mp place).resolve_left fun destroyed => unmoved.2 ⟨k, destroyed⟩⟩
    · rintro ⟨k, left⟩
      obtain ⟨introduced, unkept, unmoved, costly⟩ := (c.mem_own v).mp (c.own_of_place (List.mem_append_right _ left))
      refine ⟨introduced, unkept, not_or.mpr ⟨unmoved, ?_⟩, costly⟩
      rintro ⟨j, destroyed⟩
      have places := c.placed.each.nodup_iff.mpr c.once
      exact (List.nodup_append.mp places).2.2 v (List.mem_map_of_mem destroyed) v (List.mem_map_of_mem left) rfl
  have uses : ∀ k v, (k, v) ∈ p.handed → lastUse? v 0 steps' = some (p.newPosition k) ∧
      usedInBranch steps' v (p.newPosition k) = true ∧
      (isWitness vs v = true → describesResult vs steps' v (p.newPosition k) = false) := by
    intro k v left
    obtain ⟨lastUse, inside, apart⟩ := plan_handed (named.symm ▸ left)
    have spared : Spared vs p (k + 1) v := by
      intro j behind x destroyed
      have place := mem_destroysAt.mp destroyed
      refine ⟨?_, fun describes => ?_⟩
      · rintro rfl
        have := c.place_unique (List.mem_append_left _ place) (List.mem_append_right _ left)
        omega
      · have := c.placed.outlives _ place _ (List.mem_append_right _ left) (described x v describes) describes
        simp only at this
        omega
    exact ⟨echoes.lastUse_some lastUse spared, echoes.inBranch inside, fun witness =>
      (echoes.describes inside).trans (apart witness)⟩
  have empty : (plan vs steps' last' keep handed').destroys = [] := plan_destroys_nil fun v mine => by
    obtain ⟨k, left⟩ := (mem_owned' v).mp mine
    exact ⟨_, uses k v left⟩
  have left : ∀ j v, v ∈ (plan vs steps' last' keep handed').handedAt (p.newPosition j) ↔ v ∈ p.handedAt j := by
    intro j v
    rw [mem_handedAt, mem_handedAt]
    constructor
    · intro place
      obtain ⟨k, left⟩ := (mem_owned' v).mp (owned_of_plan (List.mem_append_right _ place))
      have same := (plan_handed place).1.symm.trans (uses k v left).1
      exact p.newPosition_inj (Option.some.inj same) ▸ left
    · intro left
      obtain ⟨k, place⟩ := place_of_owned ((mem_owned' v).mpr ⟨j, left⟩)
      rw [empty, List.nil_append] at place
      have same := (plan_handed place).1.symm.trans (uses j v left).1
      exact Option.some.inj same ▸ place
  simp only [countBlock, countWith, startScan, bind, Except.bind]
  exact assembles _ empty left

/-- A counted block is counted without a change, whatever branches it has. -/
theorem countsAgain {vs : Variables} (described : Described vs) (block : Block) : CountsAgain vs block := by
  apply countsAgain_of_branches described
  induction block using block_induction with
  | nil => simp
  | plain i rest plain ih =>
    intro dst test yes no member
    rcases List.mem_cons.mp member with rfl | later
    · cases plain
    · exact ih dst test yes no later
  | cond dst test yes no rest ihYes ihNo ih =>
    intro dst' test' yes' no' member
    rcases List.mem_cons.mp member with same | later
    · obtain ⟨rfl, rfl, rfl, rfl⟩ := Instr.cond.inj same
      exact ⟨countsAgain_of_branches described ihYes, countsAgain_of_branches described ihNo⟩
    · exact ih dst' test' yes' no' later

/-- Counting puts destroys into a body and does nothing else to the function: they are of variables that exist
and cost something, so that a valid function stays valid. Where values are described by type descriptions, none
of which is moved, and no route writes a variable twice, the counted function is counted without a change. -/
theorem counted_inserts_once {f g : Function} (accepted : countFunction f = .ok g) :
    g = { f with body := g.body } ∧
    Inserts (fun v => v < f.vars.size ∧ isTrivial f.vars v = false) f.body g.body ∧
    (f.problems = some [] → g.problems = some []) ∧
    (Described f.vars → (∀ v ∈ blockMoves f.body, isWitness f.vars v = false) →
      (∀ path writes, Route f.body path writes → writes.Nodup) → countFunction g = .ok g) := by
  obtain ⟨same, inserts⟩ := inserts_of_countFunction accepted
  refine ⟨same, inserts.mono fun v fits => fits.2, counted_valid accepted, fun described unmoved once => ?_⟩
  obtain ⟨body, rfl, count⟩ := countFunction_eq_ok accepted
  have recount := countsAgain described f.body _ _ _ [] _ [] body count {
    unmoved := fun w witness moved => by simp [unmoved w moved] at witness
    fresh := fun path writes route => ⟨once path writes route, by simp⟩
    given := by simp
    once := List.nodup_nil
    own := by simp
    same := by simp
    fewer := fun v member => member
    usable := fun v live _ => live
    described := by simp }
  simp only [countFunction, List.partition_eq_filter_filter]
  have complement : (f.arguments.filter (not ∘ fun a => a.convention == .out)) =
      f.arguments.filter (·.convention != .out) := rfl
  rw [complement, recount]
  rfl

/-- Takes a copy of a value of unknown type, which one branch gives away, and gives back another. -/
def shareOut : Function where
  name := "f"
  vars := #[⟨"T", none, .type, {}⟩, ⟨"a", none, .dynamic 0, {}⟩, ⟨"c", none, .trivial 1, {}⟩,
    ⟨"_result", none, .dynamic 0, {}⟩, ⟨"l", none, .dynamic 0, {}⟩, ⟨"x", none, .dynamic 0, {}⟩]
  arguments := [⟨3, .out⟩, ⟨1, .borrowed⟩, ⟨2, .borrowed⟩, ⟨0, .borrowed⟩]
  locals := [4, 5]
  body := [.copy 4 1, .cond 5 2 [.move 5 4] [.copy 5 1], .copy 3 5]

/-- The other branch destroys the copy, and what was chosen is destroyed at the end. -/
theorem shareOut_counted : ∃ g, countFunction shareOut = .ok g ∧
    g.body = [.copy 4 1, .cond 5 2 [.move 5 4] [.destroy 4, .copy 5 1], .copy 3 5, .destroy 5] ∧
    countFunction g = .ok g := by
  refine ⟨_, rfl, rfl, (counted_inserts_once (f := shareOut) rfl).2.2.2 ?_ (by decide) ?_⟩
  · intro v w known
    obtain ⟨-, x, present, located⟩ := describedBy?_eq_some known
    have member := Array.mem_of_getElem? present
    simp only [shareOut, List.mem_toArray, List.mem_cons, List.not_mem_nil, or_false] at member
    rcases member with rfl | rfl | rfl | rfl | rfl | rfl <;>
      first | (obtain rfl := Option.some.inj located; rfl) | cases located
  · intro path writes route
    cases route with | step _ route => ?_
    cases route with
    | step plain => cases plain
    | yes inside onward | no inside onward =>
      cases inside with | step _ inside => ?_
      cases inside
      cases onward with | step _ onward => ?_
      cases onward
      decide

end WitnessLang.Ownership
