import WitnessLang.Ownership.Count
import WitnessLang.Ownership.Paths

set_option autoImplicit false

namespace WitnessLang.Ownership

open Ir

/-- The writes of a branch, with the destination of the condition among them. -/
def filled (dst : VarId) (writes : List VarId) : List VarId :=
  if dst ∈ writes then writes else writes ++ [dst]

def branches : Instr → Bool
  | .cond _ _ _ _ => true
  | _ => false

/-- Only a condition has branches. -/
theorem cond_of_branches {i : Instr} (inside : branches i = true) :
    ∃ dst test yes no, i = .cond dst test yes no := by
  cases i with
  | cond dst test yes no => exact ⟨dst, test, yes, no, rfl⟩
  | _ => cases inside

/-- Induction over blocks: a branch is a block inside an instruction. -/
@[elab_as_elim]
theorem block_induction {motive : Block → Prop} (block : Block) (nil : motive [])
    (plain : ∀ i rest, branches i = false → motive rest → motive (i :: rest))
    (cond : ∀ dst test yes no rest, motive yes → motive no → motive rest →
      motive (.cond dst test yes no :: rest)) : motive block :=
  match block with
  | [] => nil
  | .cond dst test yes no :: rest =>
    cond dst test yes no rest (block_induction yes nil plain cond)
      (block_induction no nil plain cond) (block_induction rest nil plain cond)
  | .set dst value :: rest => plain _ rest rfl (block_induction rest nil plain cond)
  | .copy dst src :: rest => plain _ rest rfl (block_induction rest nil plain cond)
  | .move dst src :: rest => plain _ rest rfl (block_induction rest nil plain cond)
  | .destroy v :: rest => plain _ rest rfl (block_induction rest nil plain cond)
  | .primitive dst op left right :: rest => plain _ rest rfl (block_induction rest nil plain cond)
  | .callDirect function args :: rest => plain _ rest rfl (block_induction rest nil plain cond)
  | .callClosure closure args :: rest => plain _ rest rfl (block_induction rest nil plain cond)
  | .pack dst struct fields :: rest => plain _ rest rfl (block_induction rest nil plain cond)
  | .unpack dst src field :: rest => plain _ rest rfl (block_induction rest nil plain cond)
  | .makeClosure dst function env :: rest => plain _ rest rfl (block_induction rest nil plain cond)

/-- A way through a block: the instructions met and the variables written. -/
inductive Route : Block → List Instr → List VarId → Prop
  | nil : Route [] [] []
  | step {i : Instr} {rest : Block} {path : List Instr} {writes : List VarId}
      (plain : branches i = false) (onward : Route rest path writes) :
      Route (i :: rest) (i :: path) ((directUsage i).writes ++ writes)
  | yes {dst test : VarId} {yes no rest : Block} {path path' : List Instr}
      {writes writes' : List VarId} (inside : Route yes path writes)
      (onward : Route rest path' writes') :
      Route (.cond dst test yes no :: rest) (path ++ path') (filled dst writes ++ writes')
  | no {dst test : VarId} {yes no rest : Block} {path path' : List Instr}
      {writes writes' : List VarId} (inside : Route no path writes)
      (onward : Route rest path' writes') :
      Route (.cond dst test yes no :: rest) (path ++ path') (filled dst writes ++ writes')

theorem mem_filled {dst v : VarId} {writes : List VarId} :
    v ∈ filled dst writes ↔ v = dst ∨ v ∈ writes := by
  by_cases inside : dst ∈ writes
  · simp only [filled, inside, ↓reduceIte]
    constructor
    · exact Or.inr
    · rintro (rfl | member)
      · exact inside
      · exact member
  · simp only [filled, inside, ↓reduceIte, List.mem_append, List.mem_singleton]
    exact Or.comm

theorem nodup_of_filled {dst : VarId} {writes : List VarId} (once : (filled dst writes).Nodup) :
    writes.Nodup := by
  by_cases inside : dst ∈ writes
  · simpa only [filled, inside, ↓reduceIte] using once
  · simp only [filled, inside, ↓reduceIte] at once
    exact (List.nodup_append.mp once).1

/-- Paths continue one another in every combination. -/
theorem mem_extendPaths (block : Block) (heads : List (List Instr)) (path : List Instr) :
    path ∈ extendPaths heads block ↔
      ∃ head ∈ heads, ∃ tail ∈ blockPaths block, path = head ++ tail := by
  induction block generalizing heads path with
  | nil => simp [extendPaths, blockPaths]
  | cons i rest ih =>
    rw [blockPaths, extendPaths, extendPaths, ih]
    constructor
    · rintro ⟨head, member, tail, onward, rfl⟩
      simp only [List.mem_flatMap, List.mem_map] at member
      obtain ⟨middle, taken, first, known, rfl⟩ := member
      refine ⟨first, known, middle ++ tail, ?_, by simp⟩
      exact (ih _ _).mpr ⟨middle, by simpa using taken, tail, onward, rfl⟩
    · rintro ⟨head, known, path, member, rfl⟩
      obtain ⟨middle, taken, tail, onward, rfl⟩ := (ih _ _).mp member
      simp only [List.map_cons, List.map_nil, List.nil_append, List.mem_flatMap,
        List.mem_singleton] at taken
      obtain ⟨middle, taken, rfl⟩ := taken
      refine ⟨head ++ middle, ?_, tail, onward, by simp⟩
      simp only [List.mem_flatMap, List.mem_map]
      exact ⟨middle, taken, head, known, rfl⟩

theorem blockPaths_nil : blockPaths [] = [[]] := rfl

theorem mem_blockPaths_cons {i : Instr} {rest : Block} {path : List Instr} :
    path ∈ blockPaths (i :: rest) ↔
      ∃ first ∈ instrPaths i, ∃ tail ∈ blockPaths rest, path = first ++ tail := by
  rw [blockPaths, extendPaths, mem_extendPaths]
  simp

theorem instrPaths_plain {i : Instr} (plain : branches i = false) : instrPaths i = [[i]] := by
  cases i <;> first | rfl | simp [branches] at plain

theorem instrPaths_cond (dst test : VarId) (yes no : Block) :
    instrPaths (.cond dst test yes no) = blockPaths yes ++ blockPaths no := by
  rw [instrPaths, blockPaths, blockPaths]

theorem mem_blockPaths_of_route {block : Block} {path : List Instr} {writes : List VarId}
    (route : Route block path writes) : path ∈ blockPaths block := by
  induction route with
  | nil => simp [blockPaths_nil]
  | @step i rest path writes plain onward ih =>
    rw [mem_blockPaths_cons, instrPaths_plain plain]
    exact ⟨[i], by simp, path, ih, rfl⟩
  | yes inside onward taken ih =>
    rw [mem_blockPaths_cons, instrPaths_cond]
    exact ⟨_, List.mem_append_left _ taken, _, ih, rfl⟩
  | no inside onward taken ih =>
    rw [mem_blockPaths_cons, instrPaths_cond]
    exact ⟨_, List.mem_append_right _ taken, _, ih, rfl⟩

/-- Every path is the path of a route. -/
theorem exists_route_of_mem (block : Block) (path : List Instr)
    (member : path ∈ blockPaths block) : ∃ writes, Route block path writes := by
  induction block using block_induction generalizing path with
  | nil =>
    simp only [blockPaths_nil, List.mem_singleton] at member
    exact ⟨[], member ▸ .nil⟩
  | plain i rest plain ih =>
    obtain ⟨first, taken, tail, onward, rfl⟩ := mem_blockPaths_cons.mp member
    obtain ⟨writes, behind⟩ := ih tail onward
    rw [instrPaths_plain plain] at taken
    obtain rfl := List.mem_singleton.mp taken
    exact ⟨_, .step plain behind⟩
  | cond dst test yes no rest ihYes ihNo ih =>
    obtain ⟨first, taken, tail, onward, rfl⟩ := mem_blockPaths_cons.mp member
    obtain ⟨writes, behind⟩ := ih tail onward
    rw [instrPaths_cond] at taken
    rcases List.mem_append.mp taken with taken | taken
    · obtain ⟨writes, inside⟩ := ihYes first taken
      exact ⟨_, .yes inside behind⟩
    · obtain ⟨writes, inside⟩ := ihNo first taken
      exact ⟨_, .no inside behind⟩

/-- Every block can be gone through. -/
theorem exists_route (block : Block) : ∃ path writes, Route block path writes := by
  induction block using block_induction with
  | nil => exact ⟨[], [], .nil⟩
  | plain i rest plain ih =>
    obtain ⟨path, writes, behind⟩ := ih
    exact ⟨_, _, .step plain behind⟩
  | cond dst test yes no rest ihYes ihNo ih =>
    obtain ⟨path, writes, inside⟩ := ihYes
    obtain ⟨path', writes', behind⟩ := ih
    exact ⟨_, _, .yes inside behind⟩

/-- The variables an instruction uses, type descriptions included, branches excluded. -/
def uses (vs : Variables) (i : Instr) : List VarId :=
  match usage? vs i with
  | some u => u.reads ++ u.moves
  | none => []

/-- The variables written in a block, at any depth. -/
def blockWrites (b : Block) : List VarId := (Instr.flattenAll b).flatMap (directUsage · |>.writes)

/-- The variables moved in a block, at any depth. -/
def blockMoves (b : Block) : List VarId := (Instr.flattenAll b).flatMap (directUsage · |>.moves)

/-- The variables used in a block, at any depth. -/
def blockUses (vs : Variables) (b : Block) : List VarId := (Instr.flattenAll b).flatMap (uses vs)

/-- What a usage adds to the instruction's own: the descriptions of everything it touches. -/
theorem usage?_eq_some {vs : Variables} {i : Instr} {u : Usage} (known : usage? vs i = some u) :
    u.writes = (directUsage i).writes ∧ u.moves = (directUsage i).moves ∧
      u.reads = (directUsage i).reads ++
        ((directUsage i).writes ++ (directUsage i).reads ++ (directUsage i).moves).filterMap
          (describedBy? vs) ∧
      ∀ v ∈ (directUsage i).writes ++ (directUsage i).reads ++ (directUsage i).moves,
        v < vs.size := by
  simp only [usage?] at known
  split at known
  · rename_i inside
    obtain rfl := Option.some.inj known
    exact ⟨rfl, rfl, rfl, fun v member => of_decide_eq_true (List.all_eq_true.mp inside v member)⟩
  · cases known

theorem mem_operands {i : Instr} {v : VarId} (member : v ∈ i.operands) :
    v ∈ (directUsage i).writes ++ (directUsage i).reads ++ (directUsage i).moves := by
  have split : ∀ (values : List Value), v ∈ values.map (·.var) →
      v ∈ kept values ∨ v ∈ given values := by
    intro values
    simp only [kept, given, List.mem_map, List.mem_filter]
    rintro ⟨value, known, rfl⟩
    cases h : value.mode with
    | copy => exact Or.inl ⟨value, ⟨known, by simp [h]⟩, rfl⟩
    | move => exact Or.inr ⟨value, ⟨known, by simp [h]⟩, rfl⟩
  have call : ∀ (args : List CallArg), v ∈ args.map (·.value.var) →
      v ∈ results args ∨ v ∈ (inputs args).map (·.var) := by
    intro args
    simp only [results, inputs, List.mem_map, List.mem_filter]
    rintro ⟨arg, known, rfl⟩
    cases h : arg.convention with
    | out => exact Or.inl ⟨arg, ⟨known, by simp [h]⟩, rfl⟩
    | borrowed => exact Or.inr ⟨_, ⟨arg, ⟨known, by simp [h]⟩, rfl⟩, rfl⟩
    | shared => exact Or.inr ⟨_, ⟨arg, ⟨known, by simp [h]⟩, rfl⟩, rfl⟩
  cases i with
  | callDirect function args =>
    rcases call args member with written | read
    · simp [directUsage, written]
    · rcases split _ read with read | moved
      · simp [directUsage, read]
      · simp [directUsage, moved]
  | callClosure closure args =>
    simp only [Instr.operands, List.mem_append, List.mem_singleton] at member
    rcases member with member | rfl
    · rcases call args member with written | read
      · simp [directUsage, written]
      · rcases split _ read with read | moved
        · simp [directUsage, read]
        · simp [directUsage, moved]
    · simp [directUsage]
  | pack dst struct fields =>
    simp only [Instr.operands, List.mem_cons] at member
    rcases member with rfl | member
    · simp [directUsage]
    · rcases split (fields.map (·.value)) (by simpa using member) with read | moved
      · simp [directUsage, read]
      · simp [directUsage, moved]
  | makeClosure dst function env =>
    simp only [Instr.operands, List.mem_cons, List.not_mem_nil, or_false] at member
    rcases member with rfl | rfl
    · simp [directUsage]
    · rcases split [env] (by simp) with read | moved
      · simp [directUsage, read]
      · simp [directUsage, moved]
  | set | copy | move | destroy | primitive | unpack | cond =>
    simp only [Instr.operands, List.mem_cons, List.not_mem_nil, or_false] at member
    simp only [directUsage, List.mem_append, List.mem_cons, List.not_mem_nil, or_false, false_or]
    grind

theorem consumed_eq_moves (i : Instr) : consumed i = (directUsage i).moves := by
  cases i <;> rfl

theorem flattenAll_cons (i : Instr) (rest : Block) :
    Instr.flattenAll (i :: rest) = i.flatten ++ Instr.flattenAll rest := rfl

theorem flatten_plain {i : Instr} (plain : branches i = false) : i.flatten = [i] := by
  cases i <;> first | rfl | simp [branches] at plain

theorem flatten_cond (dst test : VarId) (yes no : Block) :
    (Instr.cond dst test yes no).flatten =
      .cond dst test yes no :: (Instr.flattenAll yes ++ Instr.flattenAll no) := rfl

theorem mem_flatten_self (i : Instr) : i ∈ i.flatten := by
  cases i <;> simp [Instr.flatten]

section Lists

variable {i : Instr} {rest yes no : Block} {dst test v : VarId} {vs : Variables}

theorem mem_flatMap_cons {f : Instr → List VarId} : v ∈ (Instr.flattenAll (i :: rest)).flatMap f ↔
    v ∈ i.flatten.flatMap f ∨ v ∈ (Instr.flattenAll rest).flatMap f := by
  rw [flattenAll_cons, List.flatMap_append, List.mem_append]

/-- What is gathered from the instructions of a block comes from its first instruction, from the
branches of that, or from those behind it. -/
theorem mem_flatMap_cond {f : Instr → List VarId} :
    v ∈ (Instr.flattenAll (.cond dst test yes no :: rest)).flatMap f ↔
      v ∈ f (.cond dst test yes no) ∨ v ∈ (Instr.flattenAll yes).flatMap f ∨
        v ∈ (Instr.flattenAll no).flatMap f ∨ v ∈ (Instr.flattenAll rest).flatMap f := by
  rw [mem_flatMap_cons, flatten_cond, List.flatMap_cons, List.flatMap_append, List.mem_append,
    List.mem_append, or_assoc, or_assoc]

theorem mem_flatMap_plain {f : Instr → List VarId} (plain : branches i = false) :
    v ∈ (Instr.flattenAll (i :: rest)).flatMap f ↔ v ∈ f i ∨ v ∈ (Instr.flattenAll rest).flatMap f := by
  rw [mem_flatMap_cons, flatten_plain plain, List.flatMap_singleton]

@[simp] theorem mem_blockWrites_cond :
    v ∈ blockWrites (.cond dst test yes no :: rest) ↔
      v = dst ∨ v ∈ blockWrites yes ∨ v ∈ blockWrites no ∨ v ∈ blockWrites rest :=
  mem_flatMap_cond.trans (or_congr_left List.mem_singleton)

@[simp] theorem mem_blockMoves_cond :
    v ∈ blockMoves (.cond dst test yes no :: rest) ↔
      v ∈ blockMoves yes ∨ v ∈ blockMoves no ∨ v ∈ blockMoves rest :=
  mem_flatMap_cond.trans (or_iff_right List.not_mem_nil)

@[simp] theorem mem_blockUses_cond :
    v ∈ blockUses vs (.cond dst test yes no :: rest) ↔
      v ∈ uses vs (.cond dst test yes no) ∨ v ∈ blockUses vs yes ∨ v ∈ blockUses vs no ∨
        v ∈ blockUses vs rest :=
  mem_flatMap_cond

theorem mem_blockWrites_plain (plain : branches i = false) :
    v ∈ blockWrites (i :: rest) ↔ v ∈ (directUsage i).writes ∨ v ∈ blockWrites rest :=
  mem_flatMap_plain plain

theorem mem_blockMoves_plain (plain : branches i = false) :
    v ∈ blockMoves (i :: rest) ↔ v ∈ (directUsage i).moves ∨ v ∈ blockMoves rest :=
  mem_flatMap_plain plain

theorem mem_blockUses_plain (plain : branches i = false) :
    v ∈ blockUses vs (i :: rest) ↔ v ∈ uses vs i ∨ v ∈ blockUses vs rest :=
  mem_flatMap_plain plain

theorem mem_blockUses_of_mem_rest (member : v ∈ blockUses vs rest) :
    v ∈ blockUses vs (i :: rest) :=
  mem_flatMap_cons.mpr (Or.inr member)

theorem mem_blockMoves_of_mem_rest (member : v ∈ blockMoves rest) :
    v ∈ blockMoves (i :: rest) :=
  mem_flatMap_cons.mpr (Or.inr member)

theorem mem_blockWrites_of_mem {block : Block} (member : i ∈ block)
    (written : v ∈ (directUsage i).writes) : v ∈ blockWrites block := by
  induction block with
  | nil => cases member
  | cons first rest ih =>
    refine mem_flatMap_cons.mpr ?_
    rcases List.mem_cons.mp member with rfl | later
    · exact Or.inl (List.mem_flatMap.mpr ⟨i, mem_flatten_self i, written⟩)
    · exact Or.inr (ih later)

@[simp] theorem blockWrites_nil : blockWrites [] = [] := rfl

@[simp] theorem blockMoves_nil : blockMoves [] = [] := rfl

@[simp] theorem blockUses_nil : blockUses vs [] = [] := rfl

end Lists

theorem mem_firsts (before vars : List VarId) (v : VarId) :
    v ∈ firsts before vars ↔ v ∈ vars ∧ v ∉ before := by
  induction vars generalizing before with
  | nil => simp [firsts]
  | cons x rest ih =>
    rw [firsts]
    split
    · rename_i known
      have known : x ∈ before := by simpa using known
      rw [ih, List.mem_cons]
      constructor
      · rintro ⟨member, outside⟩
        exact ⟨Or.inr member, outside⟩
      · rintro ⟨rfl | member, outside⟩
        · exact absurd known outside
        · exact ⟨member, outside⟩
    · rename_i fresh
      have fresh : x ∉ before := by simpa using fresh
      rw [List.mem_cons, ih, List.mem_cons, List.mem_cons]
      by_cases same : v = x
      · subst same
        simp [fresh]
      · simp [same]

@[simp] theorem mem_distinct (vars : List VarId) (v : VarId) : v ∈ distinct vars ↔ v ∈ vars := by
  rw [distinct, mem_firsts]
  simp

/-- The usages of instructions, gathered, are the lists of the instructions themselves. -/
theorem mapM_usage? {vs : Variables} {is : List Instr} {us : List Usage}
    (known : is.mapM (usage? vs) = some us) :
    us.flatMap (·.writes) = is.flatMap (directUsage · |>.writes) ∧
      us.flatMap (·.moves) = is.flatMap (directUsage · |>.moves) ∧
      us.flatMap (fun u => u.reads ++ u.moves) = is.flatMap (uses vs) := by
  induction is generalizing us with
  | nil =>
    simp only [List.mapM_nil, Option.pure_def, Option.some.injEq] at known
    subst known
    exact ⟨rfl, rfl, rfl⟩
  | cons i rest ih =>
    simp only [List.mapM_cons, Option.pure_def, Option.bind_eq_bind, Option.bind_eq_some_iff,
      Option.some.injEq] at known
    obtain ⟨u, own, others, onward, rfl⟩ := known
    obtain ⟨writes, moves, used⟩ := ih onward
    obtain ⟨ownWrites, ownMoves, -, -⟩ := usage?_eq_some own
    simp only [List.flatMap_cons, writes, moves, used, ownWrites, ownMoves, uses, own, and_self]

theorem outerUsage?_eq_some {vs : Variables} {b : Block} {o : OuterUsage}
    (known : outerUsage? vs b = some o) (v : VarId) :
    (v ∈ o.uses ↔ v ∈ blockUses vs b ∧ v ∉ blockWrites b) ∧
      (v ∈ o.moves ↔ v ∈ blockMoves b ∧ v ∉ blockWrites b) := by
  simp only [outerUsage?, Option.bind_eq_bind, Option.bind_eq_some_iff, Option.pure_def,
    Option.some.injEq] at known
  obtain ⟨us, gathered, rfl⟩ := known
  obtain ⟨writes, moves, used⟩ := mapM_usage? gathered
  simp only [List.mem_filter, mem_distinct, writes, moves, used, blockUses, blockMoves,
    blockWrites]
  simp

/-- A block that moves a variable uses it. -/
theorem blockUses_of_blockMoves {vs : Variables} {b : Block} {us : List Usage} {v : VarId}
    (known : (Instr.flattenAll b).mapM (usage? vs) = some us) (moved : v ∈ blockMoves b) :
    v ∈ blockUses vs b := by
  obtain ⟨-, moves, used⟩ := mapM_usage? known
  rw [blockMoves, ← moves] at moved
  rw [blockUses, ← used]
  obtain ⟨u, member, moved⟩ := List.mem_flatMap.mp moved
  exact List.mem_flatMap.mpr ⟨u, member, List.mem_append_right _ moved⟩

theorem Route.writes_subset {b : Block} {path : List Instr} {writes : List VarId}
    (route : Route b path writes) {v : VarId} (member : v ∈ writes) : v ∈ blockWrites b := by
  induction route with
  | nil => exact member
  | step plain onward ih =>
    rw [mem_blockWrites_plain plain]
    exact (List.mem_append.mp member).imp id ih
  | yes inside onward ihInside ih =>
    rw [mem_blockWrites_cond]
    rcases List.mem_append.mp member with member | member
    · exact (mem_filled.mp member).imp id fun member => Or.inl (ihInside member)
    · exact Or.inr (Or.inr (Or.inr (ih member)))
  | no inside onward ihInside ih =>
    rw [mem_blockWrites_cond]
    rcases List.mem_append.mp member with member | member
    · exact (mem_filled.mp member).imp id fun member => Or.inr (Or.inl (ihInside member))
    · exact Or.inr (Or.inr (Or.inr (ih member)))

/-- What an instruction of the block itself writes is written on every route. -/
theorem Route.writes_of_mem {b : Block} {path : List Instr} {writes : List VarId}
    (route : Route b path writes) {i : Instr} (member : i ∈ b) {v : VarId}
    (written : v ∈ (directUsage i).writes) : v ∈ writes := by
  induction route with
  | nil => cases member
  | step plain onward ih =>
    rcases List.mem_cons.mp member with rfl | later
    · exact List.mem_append_left _ written
    · exact List.mem_append_right _ (ih later)
  | yes inside onward _ ih | no inside onward _ ih =>
    rcases List.mem_cons.mp member with rfl | later
    · refine List.mem_append_left _ (mem_filled.mpr (Or.inl ?_))
      exact List.mem_singleton.mp written
    · exact List.mem_append_right _ (ih later)

/-- What a block writes at any depth is written on some route. -/
theorem exists_route_writing (b : Block) (v : VarId) (member : v ∈ blockWrites b) :
    ∃ path writes, Route b path writes ∧ v ∈ writes := by
  induction b using block_induction with
  | nil => cases member
  | plain i rest plain ih =>
    rcases (mem_blockWrites_plain plain).mp member with own | later
    · obtain ⟨path, writes, onward⟩ := exists_route rest
      exact ⟨_, _, .step plain onward, List.mem_append_left _ own⟩
    · obtain ⟨path, writes, onward, written⟩ := ih later
      exact ⟨_, _, .step plain onward, List.mem_append_right _ written⟩
  | cond dst test yes no rest ihYes ihNo ih =>
    obtain ⟨path', writes', onward⟩ := exists_route rest
    obtain ⟨path, writes, inside⟩ := exists_route yes
    rcases mem_blockWrites_cond.mp member with rfl | written | written | later
    · exact ⟨_, _, .yes inside onward, List.mem_append_left _ (mem_filled.mpr (Or.inl rfl))⟩
    · obtain ⟨path, writes, inside, written⟩ := ihYes written
      exact ⟨_, _, .yes inside onward, List.mem_append_left _ (mem_filled.mpr (Or.inr written))⟩
    · obtain ⟨path, writes, inside, written⟩ := ihNo written
      exact ⟨_, _, .no inside onward, List.mem_append_left _ (mem_filled.mpr (Or.inr written))⟩
    · obtain ⟨path', writes', onward, written⟩ := ih later
      exact ⟨_, _, .yes inside onward, List.mem_append_right _ written⟩

end WitnessLang.Ownership
