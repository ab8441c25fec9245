import WitnessLang.Proofs.Ownership.Branch

set_option autoImplicit false

/-! Counted functions pass the check of every path. The one way to spoil it is to give an
argument away and to write it again in a branch: a branch only knows what holds a value when
it is entered, so it takes such a write for the first one. -/
namespace WitnessLang.Ownership

open Ir

/-- What is asked of a function before it is counted. -/
structure Disciplined (f : Function) : Prop where
  /-- Nothing is destroyed yet. -/
  intact : ∀ v, Instr.destroy v ∉ Instr.flattenAll f.body
  apart : ∀ a ∈ f.arguments, a.var ∉ f.locals
  /-- Values are described by variables that hold type descriptions. -/
  described : ∀ x ∈ f.vars, ∀ l, x.witness.location? = some l → isWitness f.vars l = true
  witnesses : ∀ v ∈ blockMoves f.body, isWitness f.vars v = false
  /-- No path writes a variable twice. -/
  once : ∀ path writes, Route f.body path writes → writes.Nodup
  results : ∀ dst test yes no, Instr.cond dst test yes no ∈ Instr.flattenAll f.body →
    dst ∉ blockMoves yes ∧ dst ∉ blockMoves no

/-- Arguments that hold a value from the start are not written. -/
def ArgumentsUnwritten (f : Function) : Prop :=
  ∀ a ∈ f.arguments, a.convention ≠ .out → a.var ∉ blockWrites f.body

/-- Both branches of every condition write its destination. -/
def Filled (block : Block) : Prop :=
  ∀ dst test yes no, Instr.cond dst test yes no ∈ Instr.flattenAll block →
    dst ∈ blockWrites yes ∧ dst ∈ blockWrites no

section Filled

variable {i : Instr} {rest yes no : Block} {dst test : VarId}

theorem Filled.tail (filled : Filled (i :: rest)) : Filled rest := by
  intro dst test yes no member
  refine filled dst test yes no ?_
  rw [flattenAll_cons]
  exact List.mem_append_right _ member

theorem Filled.head (filled : Filled (.cond dst test yes no :: rest)) :
    dst ∈ blockWrites yes ∧ dst ∈ blockWrites no :=
  filled dst test yes no (by simp [flattenAll_cons, flatten_cond])

theorem Filled.inYes (filled : Filled (.cond dst test yes no :: rest)) : Filled yes :=
  fun dst test yes no member => filled dst test yes no (by simp [flattenAll_cons, flatten_cond, member])

theorem Filled.inNo (filled : Filled (.cond dst test yes no :: rest)) : Filled no :=
  fun dst test yes no member => filled dst test yes no (by simp [flattenAll_cons, flatten_cond, member])

end Filled

theorem described_of_disciplined {f : Function} (d : Disciplined f) : Described f.vars := by
  intro v w describes
  obtain ⟨-, x, present, located⟩ := describedBy?_eq_some describes
  exact d.described x (Array.mem_of_getElem? present) w located

theorem countFunction_eq_ok {f g : Function} (counted : countFunction f = .ok g) :
    ∃ body, g = { f with body := body } ∧
      countBlock f.vars f.body ((f.arguments.filter (·.convention != .out)).map (·.var))
        ((f.arguments.filter (·.convention == .out)).map (·.var)) [] = .ok body := by
  simp only [countFunction, List.partition_eq_filter_filter, Except.bind_eq_ok, pure, Except.pure,
    Except.ok.injEq] at counted
  obtain ⟨body, count, rfl⟩ := counted
  exact ⟨body, rfl, count⟩

/-- A route through a counted function passes the check. -/
theorem checkPath_of_left {f : Function} {body : Block} {avail keep : List VarId}
    {path : List Instr} {writes : List VarId}
    (left : Left f.vars f.body avail keep [] avail [] path writes)
    (arguments : ∀ a ∈ f.arguments, a.var ∈ avail ∨ a.var ∈ keep)
    (apart : ∀ v ∈ f.locals, v ∉ avail ∧ v ∉ keep) (fresh : ∀ v ∈ writes, v ∉ avail) :
    checkPath { f with body := body } path = .ok () := by
  have spared : ∀ v, Instr.destroy v ∈ path → v ∉ f.arguments.map (·.var) := by
    intro v destroyed argument
    obtain ⟨a, member, rfl⟩ := List.mem_map.mp argument
    rcases left.destroys _ destroyed with impossible | ⟨written, unkept⟩
    · cases impossible
    · exact (arguments a member).elim (fresh _ written) unkept
  obtain ⟨after, followed, counts⟩ := followPath_of_clean left.clean (by simp) spared
  simp only [checkPath, followed, bind, Except.bind]
  refine forM_eq_ok.mpr fun v isLocal => ?_
  simp only [checkLocal]
  cases present : f.vars[v]? with
  | none => rfl
  | some x =>
    by_cases mentioned : v ∈ path.flatMap Instr.operands
    · cases trivial : x.witness.isTrivial with
      | true => simp [trivial]
      | false =>
        obtain ⟨unavailable, unkept⟩ := apart v isLocal
        obtain ⟨i, member, mentioned⟩ := List.mem_flatMap.mp mentioned
        have written := (left.mentions i member v mentioned).resolve_left unavailable
        have costly : isTrivial f.vars v = false := by simp [isTrivial, present, trivial]
        have once := left.written v written unkept costly
        simp [counts v, once]
    · simp [mentioned]

/-- Counted functions pass the check if no argument is written that holds a value. -/
theorem checkPaths_of_disciplined {f g : Function} (d : Disciplined f)
    (unwritten : ArgumentsUnwritten f) (counted : countFunction f = .ok g) :
    checkPaths g = .ok () := by
  obtain ⟨body, rfl, count⟩ := countFunction_eq_ok counted
  generalize availIs : (f.arguments.filter (·.convention != .out)).map (·.var) = avail at count
  generalize keepIs : (f.arguments.filter (·.convention == .out)).map (·.var) = keep at count
  have mem_avail : ∀ v, v ∈ avail ↔ ∃ a ∈ f.arguments, a.convention ≠ .out ∧ a.var = v := by
    intro v
    simp [← availIs, and_assoc]
  have mem_keep : ∀ v, v ∈ keep ↔ ∃ a ∈ f.arguments, a.convention = .out ∧ a.var = v := by
    intro v
    simp [← keepIs, and_assoc]
  have fresh : Unwritten avail f.body := by
    intro path writes route
    refine ⟨d.once path writes route, fun v written held => ?_⟩
    obtain ⟨a, member, given, rfl⟩ := (mem_avail v).mp held
    exact unwritten a member given (route.writes_subset written)
  have entered : Entered f.vars f.body avail keep [] avail [] :=
    ⟨⟨d.intact, d.witnesses, d.results⟩, fresh, by simp, by simp, by simp, .nil, by simp, by simp⟩
  refine forM_eq_ok.mpr fun path member => ?_
  obtain ⟨writes, route⟩ := exists_route_of_mem body path member
  have left := countsRight (described_of_disciplined d) f.body _ _ _ _ _ _ count entered _ _ route
  obtain ⟨path', original⟩ := left.original
  refine checkPath_of_left left (fun a member => ?_) (fun v isLocal => ⟨fun held => ?_, fun kept => ?_⟩)
    (fresh _ _ original).2
  · by_cases given : a.convention = .out
    · exact Or.inr ((mem_keep _).mpr ⟨a, member, given, rfl⟩)
    · exact Or.inl ((mem_avail _).mpr ⟨a, member, given, rfl⟩)
  · obtain ⟨a, member, -, rfl⟩ := (mem_avail v).mp held
    exact d.apart a member isLocal
  · obtain ⟨a, member, -, rfl⟩ := (mem_keep v).mp kept
    exact d.apart a member isLocal

section Reuse

/-- A path gives a variable away and mentions it again. -/
def Reuses (v : VarId) (path : List Instr) : Prop :=
  ∃ before after, path = before ++ after ∧ v ∈ spent before ∧ ∃ i ∈ after, v ∈ i.operands

theorem Reuses.before {v : VarId} {path : List Instr} (reuses : Reuses v path)
    (front : List Instr) : Reuses v (front ++ path) := by
  obtain ⟨before, after, rfl, lost, mentioned⟩ := reuses
  exact ⟨front ++ before, after, by simp, by simp [lost], mentioned⟩

theorem Reuses.behind {v : VarId} {path : List Instr} (reuses : Reuses v path)
    (end_ : List Instr) : Reuses v (path ++ end_) := by
  obtain ⟨before, after, rfl, lost, i, member, mentioned⟩ := reuses
  exact ⟨before, after ++ end_, by simp, lost, i, List.mem_append_left _ member, mentioned⟩

/-- An accepted path goes on behind each of its instructions. -/
theorem followPath_cons {vs : Variables} {args gone after : List VarId} {i : Instr}
    {path : List Instr} (followed : followPath vs args gone (i :: path) = .ok after) :
    (∀ v ∈ i.operands, v ∉ gone) ∧ followPath vs args (consumed i ++ gone) path = .ok after := by
  rw [followPath, Except.bind_eq_ok] at followed
  obtain ⟨⟨⟩, mentioned, onward⟩ := followed
  constructor
  · intro v member lost
    have accepted := forM_eq_ok.mp mentioned v member
    rw [mention] at accepted
    split at accepted
    · cases accepted
    · simp [lost] at accepted
  · split at onward
    · cases onward
    · exact onward

theorem followPath_present {vs : Variables} {args gone after : List VarId} {path : List Instr}
    (followed : followPath vs args gone path = .ok after) :
    ∀ i ∈ path, ∀ v ∈ i.operands, v ∉ gone := by
  induction path generalizing gone with
  | nil => simp
  | cons j rest ih =>
    obtain ⟨here, onward⟩ := followPath_cons followed
    rw [List.forall_mem_cons]
    exact ⟨here, fun i member v mentioned lost =>
      ih onward i member v mentioned (List.mem_append_right _ lost)⟩

/-- A path that mentions what it gave away is refused. -/
theorem followPath_ne_ok_of_reuses {vs : Variables} {args gone after : List VarId} {v : VarId}
    {path : List Instr} (reuses : Reuses v path) :
    followPath vs args gone path ≠ .ok after := by
  obtain ⟨before, rest, rfl, lost, i, member, mentioned⟩ := reuses
  intro followed
  induction before generalizing gone with
  | nil => cases lost
  | cons j before ih =>
    obtain ⟨-, onward⟩ := followPath_cons followed
    rcases List.mem_append.mp lost with here | later
    · exact followPath_present onward i (List.mem_append_right _ member) v mentioned
        (List.mem_append_left _ here)
    · exact ih later onward

theorem route_behind_destroys {vars : List VarId} {block : Block} {path : List Instr}
    {writes : List VarId} (route : Route block path writes) :
    Route (vars.map Instr.destroy ++ block) (vars.map Instr.destroy ++ path) writes := by
  induction vars with
  | nil => exact route
  | cons v rest ih => exact .step rfl ih

variable {vs : Variables} {avail keep handed : List VarId} {s last : Scan} {p : Plan} {k : Nat}
  {steps : List Step} {counted : Block}

/-- A counted block keeps its instructions: each stands on some route. -/
theorem exists_route_through (block : Block)
    (scanned : scanBlock vs k s block = .ok (steps, last))
    (assembled : assemble p keep k steps (blockCounters vs block) = .ok counted) {i : Instr}
    (member : i ∈ Instr.flattenAll block) (plain : branches i = false) :
    ∃ path writes, Route counted path writes ∧ i ∈ path := by
  induction block using block_induction generalizing k s last steps p keep counted with
  | nil => simp [Instr.flattenAll] at member
  | plain j rest plain' ih =>
    obtain ⟨outer, step, s', tail, here, onward, rfl⟩ := scanBlock_cons scanned
    obtain ⟨behind, assembledRest, rfl⟩ := assemble_plain here.instr plain' assembled
    rw [flattenAll_cons, flatten_plain plain', List.singleton_append, List.mem_cons] at member
    rcases member with rfl | later
    · obtain ⟨path, writes, route⟩ := exists_route behind
      exact ⟨_, _, route_behind_destroys (.step plain route), by simp⟩
    · obtain ⟨path, writes, route, found⟩ := ih onward assembledRest later
      exact ⟨_, _, route_behind_destroys (.step plain' route), by simp [found]⟩
  | cond dst test yes no rest ihYes ihNo ih =>
    obtain ⟨outer, step, s', tail, here, onward, rfl⟩ := scanBlock_cons scanned
    obtain ⟨yes', no', behind, countYes, countNo, assembledRest, rfl⟩ :=
      assemble_cond here.instr assembled
    obtain ⟨path', writes', routeRest⟩ := exists_route behind
    rw [flattenAll_cons, flatten_cond, List.cons_append, List.mem_cons, List.mem_append,
      List.mem_append] at member
    rcases member with rfl | (inYes | inNo) | later
    · simp [branches] at plain
    · obtain ⟨_, _, scannedYes, assembledYes⟩ := countBlock_eq_ok countYes
      obtain ⟨path, writes, route, found⟩ := ihYes scannedYes assembledYes inYes
      exact ⟨_, _, route_behind_destroys (.yes route routeRest), by simp [found]⟩
    · obtain ⟨_, _, scannedNo, assembledNo⟩ := countBlock_eq_ok countNo
      obtain ⟨path, writes, route, found⟩ := ihNo scannedNo assembledNo inNo
      exact ⟨_, _, route_behind_destroys (.no route routeRest), by simp [found]⟩
    · obtain ⟨path, writes, inside⟩ := exists_route yes'
      obtain ⟨path', writes', route, found⟩ := ih onward assembledRest later
      exact ⟨_, _, route_behind_destroys (.yes inside route), by simp [found]⟩

theorem exists_plain_moving {block : Block} {v : VarId} (moved : v ∈ blockMoves block) :
    ∃ i ∈ Instr.flattenAll block, branches i = false ∧ v ∈ (directUsage i).moves := by
  obtain ⟨i, member, moved⟩ := List.mem_flatMap.mp moved
  refine ⟨i, member, ?_, moved⟩
  cases i with
  | cond => cases moved
  | _ => rfl

/-- Where conditions are filled, every write is one of an instruction without branches. -/
theorem exists_plain_writing {block : Block} (filled : Filled block) {v : VarId}
    (written : v ∈ blockWrites block) :
    ∃ i ∈ Instr.flattenAll block, branches i = false ∧ v ∈ (directUsage i).writes := by
  induction block using block_induction with
  | nil => cases written
  | plain i rest plain ih =>
    rw [flattenAll_cons, flatten_plain plain]
    rcases (mem_blockWrites_plain plain).mp written with own | later
    · exact ⟨i, by simp, plain, own⟩
    · obtain ⟨j, member, found⟩ := ih (filled.tail) later
      exact ⟨j, by simp [member], found⟩
  | cond dst test yes no rest ihYes ihNo ih =>
    rw [flattenAll_cons, flatten_cond]
    rcases mem_blockWrites_cond.mp written with rfl | inYes | inNo | later
    · obtain ⟨j, member, found⟩ := ihYes filled.inYes filled.head.1
      exact ⟨j, by simp [member], found⟩
    · obtain ⟨j, member, found⟩ := ihYes filled.inYes inYes
      exact ⟨j, by simp [member], found⟩
    · obtain ⟨j, member, found⟩ := ihNo filled.inNo inNo
      exact ⟨j, by simp [member], found⟩
    · obtain ⟨j, member, found⟩ := ih filled.tail later
      exact ⟨j, by simp [member], found⟩

theorem mem_operands_of_write {i : Instr} {v : VarId} (written : v ∈ (directUsage i).writes) :
    v ∈ i.operands := by
  cases i <;> simp_all [directUsage, Instr.operands, results] <;> grind

/-- Where a block writes what holds a value at its start, a route reuses it. -/
theorem exists_route_reusing (block : Block) (filled : Filled block)
    (scanned : scanBlock vs k s block = .ok (steps, last))
    (assembled : assemble p keep k steps (blockCounters vs block) = .ok counted) {v : VarId}
    (live : v ∈ s.live) (written : v ∈ blockWrites block) :
    ∃ path writes, Route counted path writes ∧ Reuses v path := by
  induction block using block_induction generalizing k s last steps p keep counted with
  | nil => cases written
  | plain i rest plain ih =>
    obtain ⟨outer, step, s', tail, here, onward, rfl⟩ := scanBlock_cons scanned
    obtain ⟨behind, assembledRest, rfl⟩ := assemble_plain here.instr plain assembled
    obtain ⟨usageWrites, usageMoves, -, -⟩ := usage?_eq_some here.usage
    rcases (mem_blockWrites_plain plain).mp written with own | later
    · exact absurd live (here.fresh v (usageWrites ▸ own)).1
    · by_cases stays : v ∈ s'.live
      · obtain ⟨path, writes, route, reuses⟩ := ih filled.tail onward assembledRest stays later
        exact ⟨_, _, route_behind_destroys (.step plain route), (reuses.before [i]).before _⟩
      · have moved : v ∈ (directUsage i).moves := by
          by_contra kept
          refine stays ((here.live v).mpr (Or.inr ⟨live, usageMoves ▸ kept, ?_⟩))
          simp [branchUsage?_plain plain here.outside]
        obtain ⟨j, member, plain', wrote⟩ := exists_plain_writing filled.tail later
        obtain ⟨path, writes, route, found⟩ :=
          exists_route_through rest onward assembledRest member plain'
        refine ⟨_, _, route_behind_destroys (.step plain route), Reuses.before ?_ _⟩
        exact ⟨[i], path, rfl, by simp [consumed_eq_moves, moved], j, found,
          mem_operands_of_write wrote⟩
  | cond dst test yes no rest ihYes ihNo ih =>
    obtain ⟨outer, step, s', tail, here, onward, rfl⟩ := scanBlock_cons scanned
    obtain ⟨yes', no', behind, countYes, countNo, assembledRest, rfl⟩ :=
      assemble_cond here.instr assembled
    obtain ⟨_, _, scannedYes, assembledYes⟩ := countBlock_eq_ok countYes
    obtain ⟨_, _, scannedNo, assembledNo⟩ := countBlock_eq_ok countNo
    obtain ⟨usageWrites, usageMoves, -, -⟩ := usage?_eq_some here.usage
    obtain ⟨pathRest, writesRest, routeRest⟩ := exists_route behind
    have entry : v ∈ p.handedAt k ++ step.entry := by simp [here.entry, live]
    rcases mem_blockWrites_cond.mp written with rfl | inYes | inNo | later
    · exact absurd live (here.fresh v (usageWrites ▸ List.mem_singleton_self v)).1
    · obtain ⟨path, writes, route, reuses⟩ :=
        ihYes filled.inYes scannedYes assembledYes entry inYes
      exact ⟨_, _, route_behind_destroys (.yes route routeRest), (reuses.behind _).before _⟩
    · obtain ⟨path, writes, route, reuses⟩ := ihNo filled.inNo scannedNo assembledNo entry inNo
      exact ⟨_, _, route_behind_destroys (.no route routeRest), (reuses.behind _).before _⟩
    · by_cases stays : v ∈ s'.live
      · obtain ⟨path, writes, route, reuses⟩ := ih filled.tail onward assembledRest stays later
        obtain ⟨path', writes', inside⟩ := exists_route yes'
        exact ⟨_, _, route_behind_destroys (.yes inside route), (reuses.before _).before _⟩
      · have taken : v ∈ outer.moves := by
          by_contra kept
          refine stays ((here.live v).mpr (Or.inr ⟨live, ?_, kept⟩))
          simp [usageMoves, directUsage]
        obtain ⟨j, member, plain, wrote⟩ := exists_plain_writing filled.tail later
        obtain ⟨path, writes, route, found⟩ :=
          exists_route_through rest onward assembledRest member plain
        have behindMove : ∀ {path' i}, i ∈ path' → v ∈ (directUsage i).moves →
            Reuses v (path' ++ path) := by
          intro path' i member moved
          refine ⟨path', path, rfl, ?_, j, found, mem_operands_of_write wrote⟩
          exact List.mem_flatMap.mpr ⟨i, member, consumed_eq_moves i ▸ moved⟩
        have inside := mem_blockMoves_of_branchMoves (List.mem_singleton_self _) here.outside taken
        rw [mem_blockMoves_cond] at inside
        rcases inside with inYes | inNo | impossible
        · obtain ⟨i, member, plain, moved⟩ := exists_plain_moving inYes
          obtain ⟨path', writes', inside, found⟩ :=
            exists_route_through yes scannedYes assembledYes member plain
          exact ⟨_, _, route_behind_destroys (.yes inside route), (behindMove found moved).before _⟩
        · obtain ⟨i, member, plain, moved⟩ := exists_plain_moving inNo
          obtain ⟨path', writes', inside, found⟩ :=
            exists_route_through no scannedNo assembledNo member plain
          exact ⟨_, _, route_behind_destroys (.no inside route), (behindMove found moved).before _⟩
        · cases impossible

end Reuse

/-- A function that writes an argument which holds a value is refused once it is counted. -/
theorem checkPaths_of_argument_written {f g : Function} (filled : Filled f.body)
    (counted : countFunction f = .ok g) (written : ¬ ArgumentsUnwritten f) :
    checkPaths g ≠ .ok () := by
  obtain ⟨body, rfl, count⟩ := countFunction_eq_ok counted
  simp only [ArgumentsUnwritten, not_forall, not_not] at written
  obtain ⟨a, member, given, written⟩ := written
  obtain ⟨steps, last, scanned, assembled⟩ := countBlock_eq_ok count
  have live : a.var ∈ [] ++ (f.arguments.filter (·.convention != .out)).map (·.var) :=
    List.mem_map_of_mem (List.mem_filter.mpr ⟨member, by simpa using given⟩)
  obtain ⟨path, writes, route, reuses⟩ :=
    exists_route_reusing f.body filled scanned assembled live written
  intro accepted
  have accepted := forM_eq_ok.mp accepted path (mem_blockPaths_of_route route)
  simp only [checkPath, Except.bind_eq_ok] at accepted
  obtain ⟨after, followed, -⟩ := accepted
  exact followPath_ne_ok_of_reuses reuses followed

/-- A disciplined function passes the check of its paths once it is counted, if it leaves the
arguments alone that hold a value; where branches fill their conditions, only then. -/
theorem counted_accepted {f g : Function} (d : Disciplined f) (counted : countFunction f = .ok g) :
    (ArgumentsUnwritten f → checkPaths g = .ok ()) ∧
      (Filled f.body → (checkPaths g = .ok () ↔ ArgumentsUnwritten f)) := by
  refine ⟨fun unwritten => checkPaths_of_disciplined d unwritten counted, fun filled => ?_⟩
  constructor
  · intro accepted
    by_contra written
    exact checkPaths_of_argument_written filled counted written accepted
  · exact fun unwritten => checkPaths_of_disciplined d unwritten counted

/-- Gives back a value of unknown type, which one branch has copied before. -/
def handBack : Function where
  name := "f"
  vars := #[⟨"T", none, .type, {}⟩, ⟨"a", none, .dynamic 0, {}⟩, ⟨"c", none, .trivial 1, {}⟩,
    ⟨"_result", none, .dynamic 0, {}⟩, ⟨"x", none, .dynamic 0, {}⟩, ⟨"r", none, .dynamic 0, {}⟩]
  arguments := [⟨0, .borrowed⟩, ⟨1, .borrowed⟩, ⟨2, .borrowed⟩, ⟨3, .out⟩]
  locals := [4, 5]
  body := [.copy 4 1, .cond 5 2 [.move 5 4] [.copy 5 1], .move 3 5]

theorem handBack_disciplined : Disciplined handBack where
  intact := by simp [handBack, Instr.flattenAll, Instr.flatten]
  apart := by decide
  described := by simp [handBack, Witness.location?, isWitness, Witness.isType]
  witnesses := by decide
  once := by
    intro path writes route
    cases route with | step _ route => ?_
    cases route with
    | step plain => simp [branches] at plain
    | yes inside onward | no inside onward =>
      cases inside with | step _ inside => ?_
      cases inside
      cases onward with | step _ onward => ?_
      cases onward
      decide
  results := by
    intro dst test yes no member
    simp only [handBack, Instr.flattenAll, Instr.flatten, List.append_nil, List.cons_append,
      List.nil_append, List.mem_cons, Instr.cond.injEq, reduceCtorEq, List.not_mem_nil, or_false,
      false_or] at member
    obtain ⟨rfl, rfl, rfl, rfl⟩ := member
    decide

theorem handBack_accepted : ∃ g, countFunction handBack = .ok g ∧ checkPaths g = .ok () :=
  ⟨_, rfl, (counted_accepted handBack_disciplined rfl).1 (by
    intro a member given
    revert a
    decide)⟩

/-- Gives its argument away and writes it again in a branch. -/
def writeBack : Function where
  name := "f"
  vars := #[⟨"_result", none, .trivial 8, {}⟩, ⟨"a", none, .trivial 8, {}⟩,
    ⟨"c", none, .trivial 8, {}⟩, ⟨"x", none, .trivial 8, {}⟩]
  arguments := [⟨0, .out⟩, ⟨1, .borrowed⟩, ⟨2, .borrowed⟩]
  locals := [3]
  body := [.move 0 1, .cond 3 2 [.set 1 (.bool true), .set 3 (.bool true)] [.set 3 (.bool false)]]

/-- A disciplined function that is counted without complaint and then refused. -/
theorem writeBack_refused :
    Disciplined writeBack ∧ ∃ g, countFunction writeBack = .ok g ∧
      checkPaths g = .error (.usedAfterConsumed 1) := by
  refine ⟨⟨?_, by decide, ?_, by decide, ?_, ?_⟩, _, rfl, rfl⟩
  · simp [writeBack, Instr.flattenAll, Instr.flatten]
  · simp [writeBack, Witness.location?]
  · intro path writes route
    cases route with | step _ route => ?_
    cases route with
    | step plain => simp [branches] at plain
    | yes inside onward =>
      cases inside with | step _ inside => ?_
      cases inside with | step _ inside => ?_
      cases inside
      cases onward
      decide
    | no inside onward =>
      cases inside with | step _ inside => ?_
      cases inside
      cases onward
      decide
  · intro dst test yes no member
    simp only [writeBack, Instr.flattenAll, Instr.flatten, List.append_nil, List.cons_append,
      List.nil_append, List.mem_cons, Instr.cond.injEq, reduceCtorEq, List.not_mem_nil, or_false,
      false_or] at member
    obtain ⟨rfl, rfl, rfl, rfl⟩ := member
    decide

end WitnessLang.Ownership
