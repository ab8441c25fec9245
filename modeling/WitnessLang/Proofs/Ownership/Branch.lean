import WitnessLang.Proofs.Ownership.Stepwise

set_option autoImplicit false

namespace WitnessLang.Ownership

open Ir

/-- A block that uses a value uses its description. -/
theorem blockUses_description {vs : Variables} (described : Described vs) {block : Block}
    {v w : VarId} (used : v ∈ blockUses vs block) (describes : describedBy? vs v = some w) :
    w ∈ blockUses vs block := by
  obtain ⟨i, member, used⟩ := List.mem_flatMap.mp used
  refine List.mem_flatMap.mpr ⟨i, member, ?_⟩
  simp only [uses] at used ⊢
  cases known : usage? vs i with
  | none => simp [known] at used
  | some u =>
    obtain ⟨-, moves, reads, -⟩ := usage?_eq_some known
    simp only [known, List.mem_append] at used ⊢
    refine Or.inl ?_
    rw [reads, List.mem_append]
    refine Or.inr (List.mem_filterMap.mpr ⟨v, ?_, describes⟩)
    rw [reads, moves, List.mem_append] at used
    rcases used with (read | description) | moved
    · simp [read]
    · -- a description has none itself
      obtain ⟨x, -, found⟩ := List.mem_filterMap.mp description
      rw [describedBy?_of_isWitness (described x v found)] at describes
      cases describes
    · simp [moved]

/-- What the branches of a condition do to the variables around them. -/
theorem branchUsage?_cond {vs : Variables} {dst test : VarId} {yes no branch : Block}
    {outer : OuterUsage} (side : branch = yes ∨ branch = no)
    (known : branchUsage? vs (.cond dst test yes no) = some outer) {v : VarId}
    (outside : v ∉ blockWrites branch) :
    (v ∈ blockUses vs branch → v ∈ outer.uses) ∧ (v ∈ blockMoves branch → v ∈ outer.moves) := by
  simp only [branchUsage?, Option.bind_eq_bind, Option.bind_eq_some_iff, Option.pure_def,
    Option.some.injEq] at known
  obtain ⟨y, inYes, n, inNo, rfl⟩ := known
  simp only [mem_distinct, List.mem_append]
  rcases side with rfl | rfl
  · have := outerUsage?_eq_some inYes v
    exact ⟨fun used => Or.inl (this.1.mpr ⟨used, outside⟩),
      fun moved => Or.inl (this.2.mpr ⟨moved, outside⟩)⟩
  · have := outerUsage?_eq_some inNo v
    exact ⟨fun used => Or.inr (this.1.mpr ⟨used, outside⟩),
      fun moved => Or.inr (this.2.mpr ⟨moved, outside⟩)⟩

theorem blockUses_of_branchUsage {vs : Variables} {dst test : VarId} {yes no : Block}
    {outer : OuterUsage} (known : branchUsage? vs (.cond dst test yes no) = some outer)
    {v : VarId} (used : v ∈ outer.uses) : v ∈ blockUses vs yes ∨ v ∈ blockUses vs no := by
  simp only [branchUsage?, Option.bind_eq_bind, Option.bind_eq_some_iff, Option.pure_def,
    Option.some.injEq] at known
  obtain ⟨y, inYes, n, inNo, rfl⟩ := known
  simp only [mem_distinct, List.mem_append] at used
  exact used.imp (fun used => ((outerUsage?_eq_some inYes v).1.mp used).1)
    fun used => ((outerUsage?_eq_some inNo v).1.mp used).1

section Assemble

variable {vs : Variables} {p : Plan} {keep : List VarId} {k : Nat} {step : Step}
  {tail : List Step} {rest counted : Block}

theorem countBlock_eq_ok {block : Block} {avail handed : List VarId}
    (count : countBlock vs block avail keep handed = .ok counted) :
    ∃ steps last, scanBlock vs 0 { live := handed ++ avail } block = .ok (steps, last) ∧
      assemble (plan vs steps last keep handed) keep 0 steps (blockCounters vs block) =
        .ok counted := by
  simp only [countBlock, countWith, Except.bind_eq_ok] at count
  obtain ⟨⟨steps, last⟩, scanned, assembled⟩ := count
  exact ⟨steps, last, scanned, assembled⟩

/-- An instruction without branches is kept as it is. -/
theorem assemble_plain {i : Instr} (instr : step.instr = i) (plain : branches i = false)
    (assembled : assemble p keep k (step :: tail) (blockCounters vs (i :: rest)) = .ok counted) :
    ∃ behind, assemble p keep (k + 1) tail (blockCounters vs rest) = .ok behind ∧
      counted = (p.destroysAt k).map Instr.destroy ++ i :: behind := by
  simp only [assemble, blockCounters, Except.bind_eq_ok, pure, Except.pure,
    Except.ok.injEq] at assembled
  obtain ⟨i', counting, behind, assembled, rfl⟩ := assembled
  refine ⟨behind, assembled, ?_⟩
  subst instr
  unfold countStep at counting
  split at counting
  · rename_i branching _
    simp [branching, branches] at plain
  · rw [Except.ok.inj counting]

/-- A condition is kept with counted branches. -/
theorem assemble_cond {dst test : VarId} {yes no : Block}
    (instr : step.instr = .cond dst test yes no)
    (assembled : assemble p keep k (step :: tail)
      (blockCounters vs (.cond dst test yes no :: rest)) = .ok counted) :
    ∃ yes' no' behind,
      countBlock vs yes step.entry (dst :: keep) (p.handedAt k) = .ok yes' ∧
      countBlock vs no step.entry (dst :: keep) (p.handedAt k) = .ok no' ∧
      assemble p keep (k + 1) tail (blockCounters vs rest) = .ok behind ∧
      counted = (p.destroysAt k).map Instr.destroy ++ .cond dst test yes' no' :: behind := by
  simp only [assemble, blockCounters, countStep, instr, branchCounters, Except.bind_eq_ok, pure,
    Except.pure, Except.ok.injEq] at assembled
  obtain ⟨_, ⟨yes', countYes, no', countNo, rfl⟩, behind, assembled, rfl⟩ := assembled
  exact ⟨yes', no', behind, countYes, countNo, assembled, rfl⟩

end Assemble

section Cond

variable {vs : Variables} {block : Block} {keep handed : List VarId} {start last : Scan}
  {steps : List Step} {own : List VarId} {p : Plan}
  {c : Counting vs block keep handed start steps last own p} {k : Nat} {s s' : Scan}
  {dst test : VarId} {yes no rest branch : Block} {outer : OuterUsage} {step : Step}
  {tail : List Step} {known gone writes : List VarId} {path : List Instr}

theorem Following.known_of_lost {i : Instr}
    (f : Following c k s (i :: rest) (step :: tail) known gone) :
    ∀ v ∈ p.destroysAt k ++ gone, v ∈ known := by
  intro v lost
  rcases List.mem_append.mp lost with destroyed | lost
  · exact (f.known_of_destroyed destroyed).2
  · exact f.consumed v lost

/-- What is left to branches is used there, and owned. -/
theorem Following.handedAt {i : Instr}
    (f : Following c k s (i :: rest) (step :: tail) known gone) {v : VarId}
    (left : v ∈ p.handedAt k) : v ∈ step.branch ∧ v ∈ own := by
  have left := mem_handedAt.mp left
  obtain ⟨⟨inner, at_, used⟩, -⟩ := c.placed.left _ left
  rw [f.at_position] at at_
  obtain rfl := Option.some.inj at_
  exact ⟨used, c.own_of_place (List.mem_append_right _ left)⟩

theorem Counting.handedAt_nodup (c : Counting vs block keep handed start steps last own p)
    (k : Nat) : (p.handedAt k).Nodup :=
  (List.filter_sublist.map _).nodup
    (List.nodup_append.mp (c.placed.each.nodup_iff.mpr c.once)).2.1

theorem Unwritten.inside (fresh : Unwritten known (.cond dst test yes no :: rest))
    (side : branch = yes ∨ branch = no) : Unwritten known branch := by
  rcases side with rfl | rfl
  · exact fresh.inYes
  · exact fresh.inNo

theorem Sound.inside (sound : Sound vs (.cond dst test yes no :: rest))
    (side : branch = yes ∨ branch = no) : Sound vs branch ∧ dst ∉ blockMoves branch := by
  have moves := sound.results dst test yes no (by simp [flattenAll_cons, flatten_cond])
  rcases side with rfl | rfl
  · exact ⟨sound.inYes, moves.1⟩
  · exact ⟨sound.inNo, moves.2⟩

/-- The branches of a condition use what is still there. -/
theorem Following.present_inside
    (f : Following c k s (.cond dst test yes no :: rest) (step :: tail) known gone)
    (here : Scanned vs k s (.cond dst test yes no) outer step s')
    (side : branch = yes ∨ branch = no) {v : VarId} (live : v ∈ known)
    (used : v ∈ blockUses vs branch) : v ∈ s.live ∧ v ∉ p.destroysAt k ++ gone := by
  have outside := (f.fresh.inside side).not_mem live
  have inBranch := (branchUsage?_cond side here.outside outside).1 used
  rw [← here.branch] at inBranch
  have inUses : v ∈ step.uses := by simp [Step.uses, inBranch]
  refine ⟨(here.ready v inUses).1, f.present here inUses ?_⟩
  rw [mem_blockUses_cond]
  rcases side with rfl | rfl
  · exact Or.inr (Or.inl used)
  · exact Or.inr (Or.inr (Or.inl used))

/-- How the branches of a condition are entered. -/
theorem Following.entered
    (f : Following c k s (.cond dst test yes no :: rest) (step :: tail) known gone)
    (here : Scanned vs k s (.cond dst test yes no) outer step s')
    (side : branch = yes ∨ branch = no) :
    Entered vs branch step.entry (dst :: keep) (p.handedAt k) known (p.destroysAt k ++ gone) := by
  have handedLive : ∀ v ∈ p.handedAt k, v ∈ s.live := fun v left =>
    (here.ready v (by simp [Step.uses, (f.handedAt left).1])).1
  have handedUsed : ∀ v ∈ p.handedAt k, v ∈ blockUses vs yes ∨ v ∈ blockUses vs no := by
    intro v left
    exact blockUses_of_branchUsage here.outside (here.branch ▸ (f.handedAt left).1)
  have live : ∀ v ∈ p.handedAt k ++ step.entry, v ∈ known := by
    intro v member
    rw [here.entry] at member
    exact f.live v ((List.mem_append.mp member).elim (handedLive v) id)
  have usedInside : ∀ v ∈ known, v ∈ blockUses vs yes ∨ v ∈ blockUses vs no →
      v ∈ s.live ∧ v ∉ p.destroysAt k ++ gone := by
    intro v there used
    rcases used with used | used
    · exact f.present_inside here (Or.inl rfl) there used
    · exact f.present_inside here (Or.inr rfl) there used
  refine ⟨(f.sound.inside side).1, f.fresh.inside side, live, f.known_of_lost, ?_,
    c.handedAt_nodup k, fun v left => ?_, fun v left w describes => ?_⟩
  · rintro v member (left | used)
    · exact (usedInside v (live v member) (handedUsed v left)).2
    · exact (f.present_inside here side (live v member) used).2
  · have mine := (f.handedAt left).2
    obtain ⟨-, unkept, -, costly⟩ := (c.mem_own v).mp mine
    have notResult : v ≠ dst := by
      rintro rfl
      have written : v ∈ step.usage.writes := by
        rw [(usage?_eq_some here.usage).1]
        exact List.mem_singleton_self v
      exact (here.fresh v written).1 (handedLive v left)
    exact ⟨by simp [notResult, unkept], costly, c.inside v mine⟩
  · have mine := (f.handedAt left).2
    have introduced : Introduced handed last k v :=
      c.introduced_of_used mine ⟨step, f.at_position, by simp [Step.uses, (f.handedAt left).1]⟩
    obtain ⟨liveThere, -⟩ := f.descriptions v mine introduced w describes
    have used : w ∈ blockUses vs yes ∨ w ∈ blockUses vs no :=
      (handedUsed v left).imp (fun used => blockUses_description c.described used describes)
        fun used => blockUses_description c.described used describes
    rw [here.entry]
    exact ⟨List.mem_append_right _ liveThere, (usedInside w (f.live w liveThere) used).2⟩

/-- An owned variable that a branch writes is the destination of the condition. -/
theorem Following.result_of_written
    (f : Following c k s (.cond dst test yes no :: rest) (step :: tail) known gone)
    (side : branch = yes ∨ branch = no)
    {path' : List Instr} (inside : Route branch path' writes) {v : VarId} (mine : v ∈ own)
    (written : v ∈ writes) : v = dst := by
  have apart : v ∉ known := ((f.fresh.inside side) _ _ inside).2 v written
  have notBefore : ¬ Introduced handed last k v := fun earlier =>
    apart (f.introduced v mine earlier)
  rcases ((c.mem_own v).mp mine).1 with given | ⟨j, wrote⟩
  · exact absurd (Or.inl given) notBefore
  · rcases Nat.lt_trichotomy j k with earlier | rfl | later
    · exact absurd (Or.inr ⟨j, earlier, wrote⟩) notBefore
    · obtain ⟨writer, at_, wrote⟩ := (written_at c.scanned c.blank).mp wrote
      obtain ⟨outer, step', s₁, tail', here, -, same⟩ := scanBlock_cons f.scanned
      obtain ⟨rfl, rfl⟩ := List.cons.inj same
      rw [f.at_position] at at_
      obtain rfl := Option.some.inj at_
      rw [(usage?_eq_some here.usage).1] at wrote
      exact List.mem_singleton.mp wrote
    · -- the rest of the block would write it again
      obtain ⟨writer, at_, wroteLater⟩ := (written_at c.scanned c.blank).mp wrote
      obtain ⟨-, usage, -⟩ := step_at c.scanned at_
      have again : v ∈ blockWrites rest := by
        obtain ⟨outer, step', s₁, tail', here, onward, same⟩ := scanBlock_cons f.scanned
        obtain ⟨rfl, rfl⟩ := List.cons.inj same
        obtain ⟨front, rfl, rfl⟩ := f.position
        obtain ⟨n, rfl⟩ : ∃ n, j = front.length + 1 + n := ⟨j - (front.length + 1), by omega⟩
        rw [List.getElem?_append_right (by omega)] at at_
        have at_ : tail[n]? = some writer := by
          rw [← at_, show front.length + 1 + n - front.length = n + 1 by omega]
          simp
        have found := (step_at onward at_).1
        rw [(usage?_eq_some usage).1] at wroteLater
        exact mem_blockWrites_of_mem (List.mem_of_getElem? found) wroteLater
      have sides : Route yes path' writes ∨ Route no path' writes := by
        rcases side with rfl | rfl
        · exact Or.inl inside
        · exact Or.inr inside
      refine absurd again ((f.fresh.after sides).not_mem ?_)
      exact List.mem_append_right _ (mem_filled.mpr (Or.inr written))

/-- The way through a condition is the way through one of its branches. -/
theorem Following.passed_cond
    (f : Following c k s (.cond dst test yes no :: rest) (step :: tail) known gone)
    (here : Scanned vs k s (.cond dst test yes no) outer step s')
    (side : branch = yes ∨ branch = no) (right : CountsRight vs branch) {counted : Block}
    (count : countBlock vs branch step.entry (dst :: keep) (p.handedAt k) = .ok counted)
    (route : Route counted path writes) :
    Passed c k s (.cond dst test yes no) outer step known gone path (filled dst writes) ∧
      ∃ path', Route branch path' writes := by
  have entered := f.entered here side
  have left := right _ _ _ _ _ _ count entered _ _ route
  obtain ⟨path', inside⟩ := left.original
  obtain ⟨usageWrites, usageMoves, -, -⟩ := usage?_eq_some here.usage
  have result : dst ∉ spent path := fun lost =>
    (f.sound.inside side).2 (left.kept dst (List.mem_cons_self ..) lost)
  have movedOutside : ∀ v, v ∈ p.handedAt k ++ step.entry → v ∈ blockMoves branch →
      v ∈ outer.moves := by
    intro v member moved
    have outside := (f.fresh.inside side).not_mem (entered.live v member)
    exact (branchUsage?_cond side here.outside outside).2 moved
  have inEntry : ∀ v, v ∈ p.handedAt k ++ step.entry → v ∈ s.live := by
    intro v member
    rcases List.mem_append.mp member with left | live
    · exact (here.ready v (by simp [Step.uses, (f.handedAt left).1])).1
    · exact here.entry ▸ live
  refine ⟨⟨left.clean, fun v mine => ?_, fun v lost => ?_, fun v written => ?_,
    fun v written other unkept costly => ?_, fun v moved => ?_, fun v kept lost => ?_,
    fun v destroyed => ?_, fun j member v mentioned => ?_⟩, path', inside⟩
  · by_cases given : v ∈ p.handedAt k
    · rw [left.taken v given]
      simp [(c.handedAt_nodup k).count, given]
    · rw [List.count_eq_zero.mpr given, List.count_eq_zero]
      intro lost
      rcases left.origin v lost with given' | written | ⟨member, moved⟩
      · exact given given'
      · obtain rfl := f.result_of_written side inside mine written
        exact result lost
      · have taken := movedOutside v member moved
        refine given (mem_handedAt.mpr (c.handed_of_taken mine f.at_position ?_ taken))
        rw [here.instr]
        exact here.outside
  · rcases left.origin v lost with given | written | ⟨member, moved⟩
    · exact Or.inl (f.handedAt given).2
    · exact Or.inr (Or.inl (mem_filled.mpr (Or.inr written)))
    · exact Or.inr (Or.inr ⟨inEntry v member, Or.inr (movedOutside v member moved)⟩)
  · rw [usageWrites] at written
    obtain rfl := List.mem_singleton.mp written
    exact ⟨mem_filled.mpr (Or.inl rfl), result⟩
  · have notResult : v ≠ dst := by
      rintro rfl
      exact other (usageWrites ▸ List.mem_singleton_self v)
    have written := (mem_filled.mp written).resolve_left notResult
    exact left.written v written (by simp [notResult, unkept]) costly
  · rw [usageMoves] at moved
    cases moved
  · have moved := left.kept v (List.mem_cons_of_mem _ kept) lost
    rw [mem_blockMoves_cond]
    rcases side with rfl | rfl
    · exact Or.inl moved
    · exact Or.inr (Or.inl moved)
  · rcases left.destroys v destroyed with given | ⟨written, unkept⟩
    · exact Or.inl (f.handedAt given).2
    · exact Or.inr ⟨mem_filled.mpr (Or.inr written),
        fun kept => unkept (List.mem_cons_of_mem _ kept)⟩
  · exact (left.mentions j member v mentioned).imp id fun written =>
      mem_filled.mpr (Or.inr written)

/-- A route through the rest of a counted block, given that its branches are counted right. -/
theorem Following.followed (f : Following c k s rest tail known gone)
    (right : ∀ dst test yes no, Instr.cond dst test yes no ∈ rest →
      CountsRight vs yes ∧ CountsRight vs no)
    {counted : Block} (assembled : assemble p keep k tail (blockCounters vs rest) = .ok counted)
    (route : Route counted path writes) :
    Followed c k s rest tail known gone path writes := by
  induction rest generalizing k s tail known gone counted path writes with
  | nil =>
    obtain ⟨rfl, -⟩ := scanBlock_nil f.scanned
    obtain rfl : (p.destroysAt k).map Instr.destroy = counted := by
      simpa [assemble, blockCounters] using assembled
    rw [← List.append_nil ((p.destroysAt k).map Instr.destroy)] at route
    obtain ⟨path', rfl, behind⟩ := route_destroys route
    cases behind
    simpa using f.finish
  | cons i rest ih =>
    obtain ⟨outer, step, s₁, tail, here, onward, rfl⟩ := scanBlock_cons f.scanned
    have laterRight : ∀ dst test yes no, Instr.cond dst test yes no ∈ rest →
        CountsRight vs yes ∧ CountsRight vs no := fun dst test yes no member =>
      right dst test yes no (List.mem_cons_of_mem _ member)
    cases plain : branches i with
    | false =>
      obtain ⟨behind, assembledRest, rfl⟩ := assemble_plain here.instr plain assembled
      obtain ⟨path', rfl, taken⟩ := route_destroys route
      cases taken with
      | @step _ _ path' writes' _ onward' =>
        have passed := f.passed_plain here plain
        have apart := (fresh_of_writes f plain).2
        have fresh := f.fresh.tail plain
        have following := passed.next f here onward apart fresh
        have followed := ih following laterRight assembledRest onward'
        obtain ⟨whole, original⟩ := followed.original
        exact passed.followed f here onward apart fresh followed ⟨_, .step plain original⟩
      | yes => simp [branches] at plain
      | no => simp [branches] at plain
    | true =>
      obtain ⟨dst, test, yes, no, rfl⟩ := cond_of_branches plain
      obtain ⟨yes', no', behind, countYes, countNo, assembledRest, rfl⟩ :=
        assemble_cond here.instr assembled
      obtain ⟨path', rfl, taken⟩ := route_destroys route
      obtain ⟨rightYes, rightNo⟩ := right dst test yes no (List.mem_cons_self ..)
      -- both branches are alike from here on
      have one : ∀ {branch branch' : Block} {path path' : List Instr} {writes writes' : List VarId},
          branch = yes ∨ branch = no → CountsRight vs branch →
          countBlock vs branch step.entry (dst :: keep) (p.handedAt k) = .ok branch' →
          Route branch' path writes → Route behind path' writes' →
          Followed c k s (.cond dst test yes no :: rest) (step :: tail) known gone
            ((p.destroysAt k).map Instr.destroy ++ (path ++ path'))
            (filled dst writes ++ writes') := by
        intro branch branch' path path' writes writes' side rightSide countSide inside onward'
        obtain ⟨passed, path₁, original⟩ := f.passed_cond here side rightSide countSide inside
        have sides : Route yes path₁ writes ∨ Route no path₁ writes := by
          rcases side with rfl | rfl
          · exact Or.inl original
          · exact Or.inr original
        have whole : ∀ {path₂ writes₂}, Route rest path₂ writes₂ →
            ∃ path₃, Route (.cond dst test yes no :: rest) path₃ (filled dst writes ++ writes₂) :=
          fun behind => sides.elim (fun taken => ⟨_, .yes taken behind⟩)
            fun taken => ⟨_, .no taken behind⟩
        have apart : ∀ v ∈ filled dst writes, v ∉ known := by
          obtain ⟨path₂, writes₂, behind⟩ := exists_route rest
          obtain ⟨path₃, route⟩ := whole behind
          exact fun v written => (f.fresh _ _ route).2 v (List.mem_append_left _ written)
        have fresh := f.fresh.after sides
        have following := passed.next f here onward apart fresh
        have followed := ih following laterRight assembledRest onward'
        obtain ⟨path₂, behind⟩ := followed.original
        exact passed.followed f here onward apart fresh followed (whole behind)
      cases taken with
      | step plain' => simp [branches] at plain'
      | yes inside onward' => exact one (Or.inl rfl) rightYes countYes inside onward'
      | no inside onward' => exact one (Or.inr rfl) rightNo countNo inside onward'

end Cond

/-- A plan for a block places what the block owns. -/
theorem counting_of_scan {vs : Variables} (described : Described vs) {block : Block}
    {avail handed known : List VarId} {steps : List Step} {last : Scan} (keep : List VarId)
    (scanned : scanBlock vs 0 { live := handed ++ avail } block = .ok (steps, last))
    (unmoved : ∀ w, isWitness vs w = true → w ∉ blockMoves block) (fresh : Unwritten known block)
    (given : ∀ v ∈ handed, v ∈ known ∧ v < vs.size) (once : handed.Nodup) :
    Counting vs block keep handed { live := handed ++ avail } steps last
      (owned vs last keep handed) (plan vs steps last keep handed) := by
  have blank : AtStart { live := handed ++ avail } := ⟨rfl, rfl, rfl⟩
  refine ⟨described, blank, scanned, plan_placement scanned blank keep handed unmoved, ?_,
    fun v => mem_owned, fun v mine => ?_⟩
  · refine List.Nodup.filter _ (List.nodup_append.mpr ⟨once, written_once scanned blank, ?_⟩)
    rintro v there _ member rfl
    obtain ⟨⟨_, j⟩, wrote, rfl⟩ := List.mem_map.mp member
    obtain ⟨writer, at_, wrote⟩ := (written_at scanned blank).mp wrote
    obtain ⟨found, usage, -⟩ := step_at scanned at_
    rw [(usage?_eq_some usage).1] at wrote
    exact fresh.not_mem (given _ there).1 (mem_blockWrites_of_mem (List.mem_of_getElem? found) wrote)
  · rcases (mem_owned.mp mine).1 with there | ⟨j, wrote⟩
    · exact (given v there).2
    · obtain ⟨writer, at_, wrote⟩ := (written_at scanned blank).mp wrote
      obtain ⟨writes, -, -, inside⟩ := usage?_eq_some (step_at scanned at_).2.1
      exact inside v (by simp [← writes, wrote])

/-- What is true of the branches of its conditions is true of a block. -/
theorem countsRight_of_branches {vs : Variables} (described : Described vs) {block : Block}
    (right : ∀ dst test yes no, Instr.cond dst test yes no ∈ block →
      CountsRight vs yes ∧ CountsRight vs no) : CountsRight vs block := by
  intro avail keep handed known gone counted count entered path writes route
  obtain ⟨steps, last, scanned, assembled⟩ := countBlock_eq_ok count
  have blank : AtStart { live := handed ++ avail } := ⟨rfl, rfl, rfl⟩
  have unmoved : ∀ w, isWitness vs w = true → w ∉ blockMoves block := by
    intro w witness moved
    rw [entered.sound.witnesses w moved] at witness
    cases witness
  have handedKnown : ∀ v ∈ handed, v ∈ known := fun v given =>
    entered.live v (List.mem_append_left _ given)
  have newWrites : ∀ v ∈ last.written.map (·.1), v ∉ known := by
    intro v member there
    obtain ⟨⟨_, j⟩, wrote, rfl⟩ := List.mem_map.mp member
    obtain ⟨writer, at_, wrote⟩ := (written_at scanned blank).mp wrote
    obtain ⟨found, usage, -⟩ := step_at scanned at_
    rw [(usage?_eq_some usage).1] at wrote
    exact entered.fresh.not_mem there (mem_blockWrites_of_mem (List.mem_of_getElem? found) wrote)
  have c : Counting vs block keep handed { live := handed ++ avail } steps last
      (owned vs last keep handed) (plan vs steps last keep handed) :=
    counting_of_scan described keep scanned unmoved entered.fresh
      (fun v there => ⟨handedKnown v there, (entered.own v there).2.2⟩) entered.once
  have f : Following c 0 { live := handed ++ avail } block steps known gone := by
    have early : ∀ v, Introduced handed last 0 v → v ∈ handed := by
      rintro v (given | ⟨j, impossible, -⟩)
      · exact given
      · omega
    refine ⟨scanned, ⟨[], rfl, rfl⟩, entered.sound, entered.fresh, entered.live, by simp,
      entered.consumed, fun v _ introduced => handedKnown v (early v introduced), ?_, ?_, ?_⟩
    · intro v mine lost
      rcases (mem_owned.mp mine).1 with given | ⟨j, wrote⟩
      · exact absurd lost (entered.usable v (List.mem_append_left _ given) (Or.inl given))
      · exact absurd (entered.consumed v lost) (newWrites v (List.mem_map_of_mem wrote))
    · exact fun v live _ used => entered.usable v live (Or.inr used)
    · intro v _ introduced w describes
      obtain ⟨live, present⟩ := entered.described v (early v introduced) w describes
      exact ⟨live, fun _ => present⟩
  have followed := f.followed right assembled route
  obtain ⟨whole, original⟩ := followed.original
  have ownOnce : ∀ v ∈ owned vs last keep handed, (spent path).count v = 1 := fun v mine => by
    rw [followed.places v mine, c.placesFrom_zero mine]
  have movedOnce : ∀ v ∈ last.movedHere, (spent path).count v = 1 := by
    intro v moved
    rcases (mem_movedHere scanned).mp moved with impossible | ⟨step, member, moved⟩
    · cases impossible
    · exact followed.moves step member v moved
  have onRoute : ∀ v j, (v, j) ∈ last.written → v ∈ writes := by
    intro v j wrote
    obtain ⟨writer, at_, wrote⟩ := (written_at scanned blank).mp wrote
    obtain ⟨found, usage, -⟩ := step_at scanned at_
    rw [(usage?_eq_some usage).1] at wrote
    exact original.writes_of_mem (List.mem_of_getElem? found) wrote
  refine ⟨⟨whole, original⟩, followed.clean, fun v given => ?_, fun v written unkept costly => ?_,
    fun v lost => ?_, followed.kept, fun v destroyed => ?_, followed.mentions⟩
  · by_cases moved : v ∈ last.movedHere
    · exact movedOnce v moved
    · obtain ⟨unkept, costly, -⟩ := entered.own v given
      exact ownOnce v (mem_owned.mpr ⟨Or.inl given, unkept, moved, costly⟩)
  · by_cases moved : v ∈ last.movedHere
    · exact movedOnce v moved
    · by_cases mine : v ∈ owned vs last keep handed
      · exact ownOnce v mine
      · refine followed.inner v written mine (fun step member gone => moved ?_) unkept costly
        exact (mem_movedHere scanned).mpr (Or.inr ⟨step, member, gone⟩)
  · rcases followed.origin v lost with mine | written | moved
    · rcases (mem_owned.mp mine).1 with given | ⟨j, wrote⟩
      · exact Or.inl given
      · exact Or.inr (Or.inl (onRoute v j wrote))
    · exact Or.inr (Or.inl written)
    · exact Or.inr (Or.inr moved)
  · rcases followed.destroys v destroyed with mine | written
    · obtain ⟨given | ⟨j, wrote⟩, unkept, -, -⟩ := mem_owned.mp mine
      · exact Or.inl given
      · exact Or.inr ⟨onRoute v j wrote, unkept⟩
    · exact Or.inr written

/-- Counting is right for every block. -/
theorem countsRight {vs : Variables} (described : Described vs) (block : Block) :
    CountsRight vs block := by
  apply countsRight_of_branches described
  induction block using block_induction with
  | nil => simp
  | plain i rest plain ih =>
    intro dst test yes no member
    rcases List.mem_cons.mp member with rfl | later
    · simp [branches] at plain
    · exact ih dst test yes no later
  | cond dst test yes no rest ihYes ihNo ih =>
    intro dst' test' yes' no' member
    rcases List.mem_cons.mp member with same | later
    · obtain ⟨rfl, rfl, rfl, rfl⟩ := Instr.cond.inj same
      exact ⟨countsRight_of_branches described ihYes, countsRight_of_branches described ihNo⟩
    · exact ih dst' test' yes' no' later

end WitnessLang.Ownership
