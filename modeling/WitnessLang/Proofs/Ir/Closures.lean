import WitnessLang.Proofs.Ir.Operands
import WitnessLang.Proofs.Types.Key

set_option autoImplicit false

namespace WitnessLang.Ir

open Ownership

section Branches

variable {allowed : LowerFailure → Prop} {N : Naming} {bound : List Tag}
  {writable movable live known : Set VarId} {s s' s'' : Lowering} {block : Block}

/-- A block that was lowered on its own, and flows from what holds values in front of it. -/
structure Enclosed (N : Naming) (writable movable live known : Set VarId) (size : Nat)
    (block : Block) (s : Lowering) : Prop where
  flows : ∃ live' known', Flows s.draft.vars live known block live' known'
  writes : ∀ v ∈ blockWrites block, size ≤ v ∨ v ∈ writable
  moves : ∀ v ∈ blockMoves block, size ≤ v ∨ v ∈ movable
  fine : N.Fine s.closures block

theorem Enclosed.later {is : Block} {places values live' known' : Set VarId} {size : Nat}
    (enclosed : Enclosed N writable movable live known size block s') (located : Located s'.draft.vars)
    (work : Work N bound places values live known s' is live' known' s'') :
    Enclosed N writable movable live known size block s'' where
  flows := by
    obtain ⟨live', known', flows⟩ := enclosed.flows
    exact ⟨live', known', flows_grow work.vars located flows⟩
  writes := enclosed.writes
  moves := enclosed.moves
  fine := enclosed.fine.mono work.lifts.counted

theorem Enclosed.mono {size size' : Nat} (enclosed : Enclosed N writable movable live known size block s)
    (less : size' ≤ size) : Enclosed N writable movable live known size' block s :=
  { enclosed with
    writes := fun v written => (enclosed.writes v written).imp_left (Nat.le_trans less)
    moves := fun v moved => (enclosed.moves v moved).imp_left (Nat.le_trans less) }

/-- The state in which a block of its own is begun. -/
def Lowering.cleared (s : Lowering) : Lowering := { s with draft := { s.draft with instrs := #[] } }

theorem Spot.cleared {generics vars binders : List Tag} (spot : Spot generics vars binders live known s) :
    Spot generics vars binders live known s.cleared where
  sound := ⟨spot.sound.located, spot.sound.locals, spot.sound.held, spot.sound.inside, spot.sound.described,
    spot.sound.cached⟩
  scope := ⟨spot.scope.generics, spot.scope.vars⟩
  once := spot.once
  apart := spot.apart

theorem Draft.Open.cleared {dst : VarId} (place : s.draft.Open live known dst) :
    s.cleared.draft.Open live known dst := ⟨place.inside, place.fresh, place.described⟩

theorem inBlock_meets {m : Lower Unit} {post : Set VarId → Set VarId → Unit → Lowering → Prop}
    (sound : s.draft.Sound live known)
    (leads : Leads allowed N bound writable movable live known m s.cleared post) :
    Meets allowed (inBlock m) s fun block s' =>
      Work N bound ∅ ∅ live known s [] live known s' ∧
        Enclosed N writable movable live known s.draft.vars.size block s' := by
  rw [inBlock, meets_get_bind, modifyDraft, meets_modify_bind]
  refine Meets.bind leads fun _ s₁ post => ?_
  obtain ⟨is, live₁, known₁, work, -⟩ := post
  rw [meets_get_bind, modifyDraft, meets_modify_bind, meets_pure]
  have code : s₁.draft.instrs.toList = is := by simpa [Lowering.cleared] using work.code
  rw [code]
  have kept : Draft.Sound live known { s₁.draft with locals := s.draft.locals, witnesses := s.draft.witnesses } :=
    sound.extend work.vars work.sound.located rfl fun _ => Or.inl
  exact ⟨{
    lifts := { work.lifts with }
    vars := work.vars
    scope := work.scope
    code := by simp
    sound := { kept with locals := work.sound.locals }
    flows := .nil live known
    writes := by simp
    moves := by simp
    locals := work.locals
    fine := by simp [Naming.Fine, Instr.flattenAll] },
    ⟨live₁, known₁, work.flows⟩, work.writes, work.moves, work.fine⟩

theorem flows_written {vs : Variables} {live' known' : Set VarId}
    (flows : Flows vs live known block live' known') : ∀ v ∈ blockWrites block, v < vs.size := by
  intro v member
  obtain ⟨i, inside, written⟩ := List.mem_flatMap.mp member
  exact (flows.instr i inside).2.1 v (by simp [touched, written])

/-- A condition whose branches fill the same place. -/
theorem Work.branch {dst test : VarId} {yes no : Block} {size : Nat} (sound : s.draft.Sound live known)
    (place : s.draft.Open live known dst) (held : Held live s.draft test)
    (inYes : Enclosed N {dst} movable live known size yes s)
    (inNo : Enclosed N {dst} movable live known size no s) (old : dst < size) (kept : dst ∉ movable) :
    ∃ live' known', dst ∈ live' ∧
      Work N [] ({v | size ≤ v} ∪ {dst}) ({v | size ≤ v} ∪ movable) live known s [.cond dst test yes no]
        live' known' (s.appended (.cond dst test yes no)) := by
  obtain ⟨liveYes, knownYes, flowsYes⟩ := inYes.flows
  obtain ⟨liveNo, knownNo, flowsNo⟩ := inNo.flows
  have unmoved : dst ∉ blockMoves yes ∧ dst ∉ blockMoves no :=
    ⟨fun moved => (inYes.moves dst moved).elim (Nat.not_le.mpr old) kept,
      fun moved => (inNo.moves dst moved).elim (Nat.not_le.mpr old) kept⟩
  have allowed : Allowed s.draft.vars live known (.cond dst test yes no) := {
    intact := by simp
    inside := by simpa [touched, directUsage] using ⟨place.inside, held.inside⟩
    reads := by simpa [directUsage] using held.there
    moves := by simp [directUsage]
    movesOnce := List.nodup_nil
    writes := by simpa [directUsage] using place.fresh
    writesOnce := List.nodup_singleton dst
    described := by
      simp only [touched, directUsage, List.append_nil, List.singleton_append, List.forall_mem_cons]
      exact ⟨place.described, sound.described test held.there, by simp⟩ }
  have described : ∀ w ∈ live, isWitness s.draft.vars w = true →
      w ∈ live \ {v | v ∈ blockMoves yes ∨ v ∈ blockMoves no} ∪ {dst} := by
    refine fun w there kind => Or.inl ⟨there, fun moved => ?_⟩
    have value : isWitness s.draft.vars w = false := moved.elim flowsYes.unmoved flowsNo.unmoved
    rw [kind] at value
    cases value
  refine ⟨_, _, Or.inr rfl, {
    lifts := Lifts.of_draft
    vars := Extends.refl _
    scope := fun _ _ => rfl
    code := by simp [Lowering.appended]
    sound := {
      located := sound.located
      locals := sound.locals
      held := ?_
      inside := ?_
      described := ?_
      cached := fun e member => ⟨described _ (sound.cached e member).1 (sound.cached e member).2,
        (sound.cached e member).2⟩ }
    flows := .cond allowed flowsYes flowsNo unmoved (.nil _ _)
    writes := fun v written => Or.inr ?_
    moves := fun v moved => Or.inr ?_
    locals := ⟨[], by simp [Lowering.appended], by simp⟩
    fine := ?_ }⟩
  · exact held_cond sound.held
  · rintro v ((inside | written | written) | rfl)
    · exact sound.inside v inside
    · exact flows_written flowsYes v written
    · exact flows_written flowsNo v written
    · exact place.inside
  · intro v member w found
    have there : w ∈ live := by
      rcases member with ⟨member, -⟩ | rfl
      · exact sound.described v member w found
      · exact place.described w found
    exact described w there (sound.located.of_described found)
  · rcases mem_blockWrites_cond.mp written with rfl | first | second | impossible
    · exact Or.inr rfl
    · exact inYes.writes v first
    · exact inNo.writes v second
    · cases impossible
  · rcases mem_blockMoves_cond.mp moved with first | second | impossible
    · exact inYes.moves v first
    · exact inNo.moves v second
    · cases impossible
  · rw [Naming.Fine, flattenAll_cons, flatten_cond, Instr.flattenAll, List.append_nil,
      List.forall_mem_cons, List.forall_mem_append]
    exact ⟨⟨rfl, by simp [Instr.mentions]⟩, inYes.fine, inNo.fine⟩

end Branches

section Closures

variable {N : Naming} {c : Sized.Context} {generics vars : List Tag} {live known : Set VarId} {s s' : Lowering}

/-- Names that tell variables apart: declared ones from each other, and from those that every
function comes with. -/
structure Naming.Apart (N : Naming) : Prop where
  tags : ∀ i j, N.declared i → N.declared j → i.mangled = j.mangled → i.tag = j.tag
  temporary : ∀ i k, N.declared i → i.mangled ≠ temporaryName k
  result : ∀ i, N.declared i → i.mangled ≠ "_result"
  env : ∀ i, N.declared i → i.mangled ≠ "_env"

section Names

variable {tags : List Tag} {name : String}

theorem Naming.IsLocal.ne_result (own : N.IsLocal tags name) (distinct : N.Apart) : "_result" ≠ name := by
  rintro rfl
  rcases own with ⟨k, same⟩ | ⟨i, declared, -, same⟩
  · exact numbered_ne (by simp [Stem]) k same.symm
  · exact distinct.result i declared same.symm

theorem Naming.IsLocal.ne_env (own : N.IsLocal tags name) (distinct : N.Apart) : "_env" ≠ name := by
  rintro rfl
  rcases own with ⟨k, same⟩ | ⟨i, declared, -, same⟩
  · exact numbered_ne (by simp [Stem]) k same.symm
  · exact distinct.env i declared same.symm

theorem Naming.IsLocal.ne_mangled (own : N.IsLocal tags name) (distinct : N.Apart) {i : Ident}
    (declared : N.declared i) (other : i.tag ∉ tags) : i.mangled ≠ name := by
  rintro rfl
  rcases own with ⟨k, same⟩ | ⟨j, declared', tag, same⟩
  · exact distinct.temporary i k declared same
  · exact other (distinct.tags i j declared declared' same ▸ tag)

/-- Variables with different tags have different names. -/
theorem Naming.Apart.nodup (distinct : N.Apart) {xs : List Sized.Variable}
    (declared : ∀ x ∈ xs, N.declared x.name) (once : (Sized.variableTags xs).Nodup) :
    (xs.map (·.name.mangled)).Nodup := by
  rw [List.Nodup, List.pairwise_map]
  rw [Sized.variableTags, List.Nodup, List.pairwise_map] at once
  refine once.imp_of_mem fun left right other same => ?_
  exact other (distinct.tags _ _ (declared _ left) (declared _ right) same)

variable {d : Draft} {vs : List VarId} {params : List Sized.Variable}

theorem Naming.Apart.result_not_mem (distinct : N.Apart) (declared : ∀ p ∈ params, N.declared p.name) :
    "_result" ∉ params.map (·.name.mangled) := fun member => by
  obtain ⟨p, param, same⟩ := List.mem_map.mp member
  exact distinct.result _ (declared p param) same

theorem Naming.Apart.env_not_mem (distinct : N.Apart) (declared : ∀ p ∈ params, N.declared p.name) :
    "_env" ∉ params.map (·.name.mangled) := fun member => by
  obtain ⟨p, param, same⟩ := List.mem_map.mp member
  exact distinct.env _ (declared p param) same

/-- No local has the name of an argument, if none is bound under its tag. -/
theorem Draft.Owns.arguments_apart (owns : d.Owns N tags) (distinct : N.Apart)
    (names : vs.map (nameOf d.vars) = params.map (·.name.mangled)) (declared : ∀ p ∈ params, N.declared p.name)
    (fresh : (Sized.variableTags params).Disjoint tags) :
    ∀ v ∈ vs, ∀ w ∈ d.locals, nameOf d.vars v ≠ nameOf d.vars w := by
  intro v member w owned
  obtain ⟨p, param, same⟩ := List.mem_map.mp (names ▸ List.mem_map_of_mem member)
  rw [← same]
  exact (owns w owned).ne_mangled distinct (declared p param) (fresh (List.mem_map_of_mem param))

end Names

/-- A closure is numbered before those in its body, and finished behind them. -/
theorem Lifts.close {f : Function} (lifts : Lifts N { s with closures := s.closures + 1 } s')
    (built : f.Built N s.target s'.closures) (same : f.name = closureName s.closures) :
    Lifts N s { s' with lifted := s'.lifted ++ [f] } := by
  obtain ⟨fs, all, each, names⟩ := lifts.lifted
  have counted : s.closures + 1 ≤ s'.closures := lifts.counted
  refine ⟨lifts.target, lifts.layouts, Nat.le_of_succ_le counted, fs ++ [f], ?_,
    List.forall_mem_append.mpr ⟨each, List.forall_mem_singleton.mpr built⟩, ?_⟩
  · rw [all, List.append_assoc]
  · have split : s'.closures - s.closures = (s'.closures - (s.closures + 1)) + 1 := by omega
    rw [List.map_append, List.map_singleton, same, split, List.range'_succ, List.map_cons]
    exact (List.perm_append_singleton _ _).trans (names.cons _)

/-- Functions were finished beside the one under construction. -/
theorem Work.lifted {bound : List Tag} {writable movable : Set VarId} (lifts : Lifts N s s')
    (same : s'.draft = s.draft) (sound : s.draft.Sound live known) :
    Work N bound writable movable live known s [] live known s' where
  lifts := lifts
  vars := same ▸ Extends.refl _
  scope _ _ := by rw [same]
  code := by simp [same]
  sound := same ▸ sound
  flows := .nil live known
  writes := by simp
  moves := by simp
  locals := ⟨[], by simp [same], by simp⟩
  fine := by simp [Naming.Fine, Instr.flattenAll]

/-- What a closure takes along is copied into its environment. -/
theorem taken_meets {allowed : LowerFailure → Prop} {taken : List Sized.Variable}
    (scope : s.draft.Scope generics vars live)
    (each : ∀ x ∈ taken, x.name.tag ∈ generics ++ vars) :
    Meets allowed (taken.mapM fun v => do
      return PackField.mk v.name.mangled (copyOf (← lookup v.name))) s fun fields s' =>
      (∀ f ∈ fields, f.value.mode = .copy ∧ f.value.var ∈ live) ∧ s' = s := by
  induction taken with
  | nil =>
    rw [List.mapM_nil, meets_pure]
    exact ⟨by simp, rfl⟩
  | cons x rest ih =>
    rw [List.forall_mem_cons] at each
    obtain ⟨v, found, there⟩ : ∃ v, s.draft.scope.lookup x.name.tag = some v ∧ v ∈ live := by
      rcases List.mem_append.mp each.1 with generic | var
      · obtain ⟨v, found, there, -⟩ := scope.generics _ generic
        exact ⟨v, found, there⟩
      · obtain ⟨v, found, there, -⟩ := scope.vars _ var
        exact ⟨v, found, there⟩
    rw [List.mapM_cons, bind_assoc]
    refine Meets.bind (lookup_meets found) fun v' s' post => ?_
    obtain ⟨rfl, rfl⟩ := post
    rw [meets_pure_bind]
    refine Meets.bind (ih each.2) fun fields s' post => ?_
    obtain ⟨copies, rfl⟩ := post
    rw [meets_pure]
    exact ⟨List.forall_mem_cons.mpr ⟨⟨rfl, there⟩, copies⟩, rfl⟩

/-- An environment is packed, and moved into the closure. -/
theorem makeClosure_leads {movable : Set VarId} {dst : VarId} {name : String} {envShape : Sized.Shape}
    {env : Ident} {taken : List Sized.Variable} (sound : s.draft.Sound live known)
    (scope : s.draft.Scope generics vars live) (place : s.draft.Open live known dst)
    (shape : envShape.Scoped c generics) (lays : N.Lays envShape) (defined : N.defined env.mangled)
    (uses : N.Uses s.closures name) (each : ∀ x ∈ taken, x.name.tag ∈ generics ++ vars) :
    Leads LowerFailure.Declared N [] {dst} movable live known (makeClosure dst name envShape env taken) s
      fun live' _ _ _ => dst ∈ live' := by
  have same : makeClosure dst name envShape env taken = (do
      let e ← temporary envShape
      let fields ← taken.mapM fun v => return PackField.mk v.name.mangled (copyOf (← lookup v.name))
      emit (.pack e env.mangled fields)
      emit (.makeClosure dst name ⟨.move, e⟩)) := by
    simp only [makeClosure, temporary, bind_assoc, pure_bind]
  rw [same]
  refine Leads.bind [] [] ∅ ∅ ({v | s.draft.vars.size ≤ v} ∪ {dst}) {v | s.draft.vars.size ≤ v}
    (temporary_leads sound scope shape.layout.names lays) (fun e s₁ is live₁ known₁ work post => ?_) ?_ ?_
  · obtain ⟨_, fresh⟩ := post
    have scope₁ := scope.later sound.held work (List.disjoint_nil_left _)
    have place₁ := place.later sound.located sound.held work (Set.notMem_empty _)
    refine Meets.bind (taken_meets scope₁ each) fun fields s₂ post => ?_
    obtain ⟨copies, rfl⟩ := post
    rw [meets_bind, meets_emit]
    have kept : ∀ v ∈ kept (fields.map (·.value)), v ∈ live₁ := by
      intro v member
      obtain ⟨f, field, same⟩ := List.mem_map.mp (mem_kept.mp member)
      have there := (copies f field).2
      rwa [same] at there
    have unmoved : given (fields.map (·.value)) = [] := by
      refine List.eq_nil_iff_forall_not_mem.mpr fun v member => ?_
      obtain ⟨f, field, same⟩ := List.mem_map.mp (mem_given.mp member)
      have mode := (copies f field).1
      rw [same] at mode
      cases mode
    have packed := Work.fill_copy (N := N) (i := .pack e env.mangled fields) ∅ work.sound
      fresh.place rfl (by simp) rfl kept unmoved rfl (List.forall_mem_singleton.mpr (Or.inl defined))
    have apart : dst ≠ e := fun same => absurd place.inside (Nat.not_lt.mpr (same ▸ fresh.new))
    have place₂ := place₁.later work.sound.located work.sound.held packed apart
    have value : isWitness s₂.draft.vars e = false := by
      rw [← Bool.not_eq_true, fresh.type]
      exact shape.layout.value
    have made := Work.fill (N := N) (i := .makeClosure dst name ⟨.move, e⟩) {v | s.draft.vars.size ≤ v} packed.sound place₂ rfl (by simp) rfl
      (by simp [directUsage, Ownership.kept]) (by
        simp only [directUsage, given, List.filter, List.map, beq_self_eq_true, List.forall_mem_singleton]
        exact ⟨Or.inr rfl, value, fresh.new⟩) (List.nodup_singleton e) rfl
      (List.forall_mem_singleton.mpr (uses.mono work.lifts.counted))
    refine ⟨_, _, _, (packed.mono (fun _ => id) ?_ ?_).trans (made.mono (fun _ => id) ?_ ?_), Or.inr rfl⟩
    · rintro v rfl
      exact Or.inr (Or.inl fresh.new)
    · exact within_empty _ _
    · exact fun v same => Or.inr (Or.inr same)
    · exact fun v new => Or.inr new
  · rintro v (none | new | same)
    · exact absurd none (Set.notMem_empty v)
    · exact Or.inl new
    · exact Or.inr same
  · rintro v (none | new)
    · exact absurd none (Set.notMem_empty v)
    · exact Or.inl new

/-- Captured variables of one kind are taken out of the environment. -/
theorem unpackCaptures_lead {allowed : LowerFailure → Prop} {env : VarId} {xs : List Sized.Variable}
    (kind : Bool) (sound : s.draft.Sound live known) (scope : s.draft.Scope generics vars live)
    (held : Held live s.draft env) (kinds : ∀ x ∈ xs, x.shape.layout.witness = .type ↔ kind = true)
    (inside : ∀ x ∈ xs, ∀ y ∈ x.shape.layout.names, y.tag ∈ generics)
    (covers : ∀ x ∈ xs, N.declared x.name ∧ N.Lays x.shape)
    (apart : (Sized.variableTags xs).Disjoint (generics ++ vars)) :
    Leads allowed N (Sized.variableTags xs) ∅ ∅ live known (xs.forM (unpackCapture env)) s
      fun live' _ _ s' => s'.draft.Scope generics vars live' ∧ ∀ t ∈ Sized.variableTags xs,
        ∃ v, s'.draft.scope.lookup t = some v ∧ v ∈ live' ∧ v < s'.draft.vars.size ∧
          isWitness s'.draft.vars v = kind := by
  induction xs generalizing live known s with
  | nil =>
    rw [List.forM]
    exact leads_pure sound ⟨scope, by simp [Sized.variableTags]⟩
  | cons x rest ih =>
    rw [List.forall_mem_cons] at inside covers kinds
    have apartX : x.name.tag ∉ generics ++ vars := fun member => apart List.mem_cons_self member
    have same : (x :: rest).forM (unpackCapture env) = (do
        let v ← define x
        addLocal v
        emit (.unpack v env x.name.mangled)
        rest.forM (unpackCapture env)) := by
      simp only [List.forM, unpackCapture, bind_assoc]
    rw [same]
    refine own_leads (Sized.variableTags rest) {v | s.draft.vars.size ≤ v} sound scope
      inside.1 covers.1.1 covers.1.2 (fun v s₁ is live₁ known₁ work fresh found => ?_) fun _ => Or.inl
    have heldE := held.later sound work
    have filled := Work.fill_copy (N := N) (i := .unpack v env x.name.mangled) ∅ work.sound
      fresh.place rfl (by simp) rfl (List.forall_mem_singleton.mpr heldE.there) rfl rfl
      (by simp [Instr.mentions])
    have scope₁ := scope.later sound.held work (List.singleton_disjoint.mpr apartX)
    rw [Leads, meets_bind, meets_emit]
    refine Meets.imp (ih filled.sound (scope₁.later work.sound.held filled (List.disjoint_nil_left _))
      (heldE.later work.sound filled) kinds.2 inside.2 covers.2 fun t left right =>
        apart (List.mem_cons_of_mem _ left) right) fun _ s₂ post => ?_
    obtain ⟨js, live₂, known₂, others, scope₂, all⟩ := post
    refine ⟨_, live₂, known₂, (filled.mono (fun _ => id) ?_ fun _ => Or.inr).trans
      (others.mono (fun _ => id) (within_empty _ _) fun _ => Or.inr),
      scope₂, List.forall_mem_cons.mpr ⟨?_, all⟩⟩
    · rintro w rfl
      exact Or.inr fresh.new
    · -- A variable that is taken twice is found where it was put last.
      by_cases again : x.name.tag ∈ Sized.variableTags rest
      · exact all _ again
      · refine ⟨v, ?_, ?_, ?_, ?_⟩
        · rw [others.scope _ again]
          exact found
        · exact others.keeps filled.sound.held (Or.inr rfl) fresh.place.inside
        · exact Nat.lt_of_lt_of_le fresh.place.inside others.vars.size
        · rw [others.vars.isWitness fresh.place.inside, Bool.eq_iff_iff, ← kinds.1]
          exact fresh.type

/-- A function whose instructions flow from its arguments is finished, or has no frame. -/
theorem finish_meets {bound : List Tag} {writable movable live' known' : Set VarId} {is : Block}
    (result : VarId) (params : List VarId) {arguments : List Argument} {name : String} {span : Span}
    {isClosure : Bool} (work : Work N bound writable movable {v | v ∈ params} {v | v ∈ params} s is live' known' s')
    (start : s.draft.instrs = #[])
    (same : arguments = ⟨result, .out⟩ :: params.map (⟨·, .borrowed⟩))
    (inside : ∀ v ∈ result :: params, v < s'.draft.vars.size)
    (once : ((result :: params).map (nameOf s'.draft.vars)).Nodup)
    (apart : ∀ v ∈ result :: params, ∀ w ∈ s'.draft.locals,
      nameOf s'.draft.vars v ≠ nameOf s'.draft.vars w) :
    Meets LowerFailure.Declared (finish name arguments span isClosure) s' fun f t =>
      f.Built N s'.target s'.closures ∧ f.name = name ∧ t = s' := by
  have vars : arguments.map (·.var) = result :: params := by
    rw [same, List.map_cons, List.map_map]
    exact congrArg _ (List.map_id _)
  have each : ∀ a ∈ arguments, a.var ∈ result :: params := fun a member =>
    vars ▸ List.mem_map_of_mem member
  rw [finish, meets_get_bind]
  dsimp only
  split
  · trivial
  · rename_i frame laid
    rw [meets_pure]
    have given : givenArguments ⟨name, s'.draft.vars, arguments, s'.draft.locals, s'.draft.instrs.toList, frame,
        s'.draft.temporaries, span, isClosure⟩ = {v | v ∈ params} := by
      ext v
      simp [givenArguments, same]
    have code : s'.draft.instrs.toList = is := by rw [work.code, start]; rfl
    refine ⟨⟨⟨live', known', ?_⟩, work.sound.located, ⟨result, params, same⟩,
      ⟨fun a member => inside _ (each a member), work.sound.locals⟩, ?_,
      fun a member => apart _ (each a member), laid, ?_⟩, rfl, rfl⟩
    · rw [given, code]
      exact work.flows
    · rwa [← vars, List.map_map] at once
    · rw [code]
      exact work.fine

theorem zipWith_eq_map {α β γ : Type} {R : α → β → Prop} {as : List α} {bs : List β}
    (all : List.Forall₂ R as bs) (f : β → γ) : List.zipWith (fun _ b => f b) as bs = bs.map f := by
  induction all with
  | nil => rfl
  | cons _ _ ih => rw [List.zipWith_cons_cons, List.map_cons, ih]

/-- The body of a closure becomes a function. -/
theorem liftClosure_meets (distinct : N.Apart) {name : String} {envType : Ty}
    {params own captures : List Sized.Variable} {body : Sized.Expr} (fills : Fills N c body)
    (kinds : ∀ v ∈ own, v.IsDescription c)
    (values : ∀ v ∈ captures ++ params, v.shape.Scoped c (Sized.variableTags own))
    (inside : body.Scoped c (Sized.variableTags own) (Sized.variableTags params ++ Sized.variableTags captures))
    (covers : ∀ v ∈ params ++ (own ++ captures), N.declared v.name ∧ N.Lays v.shape)
    (coversB : N.Covers body) (once : (Sized.variableTags params ++ body.binders).Nodup)
    (apart : (Sized.variableTags own).Disjoint (Sized.variableTags captures))
    (fresh : (Sized.variableTags params ++ body.binders).Disjoint
      (Sized.variableTags own ++ Sized.variableTags captures)) :
    Meets LowerFailure.Declared (liftClosure name envType params own captures body (into true body)) s
      fun f s' => f.Built N s.target s'.closures ∧ f.name = name ∧ Lifts N s s' ∧ s'.draft = s.draft := by
  rw [liftClosure, meets_beside, meets_get_bind]
  dsimp only
  rw [meets_bind, meets_addVariable]
  generalize variableIs : Variable.mk "_env" _ _ _ = x
  have unlocated : ∀ l, x.witness.location? ≠ some l := by simp [← variableIs, Witness.location?]
  generalize startIs : Lowering.adding { s with draft := {} } x = s₀
  have empty : s₀.draft.instrs = #[] ∧ s₀.draft.locals = [] ∧ s₀.draft.vars = #[x] := by
    rw [← startIs]
    exact ⟨rfl, rfl, rfl⟩
  have lifts : Lifts N s s₀ := startIs ▸ Lifts.of_draft
  -- The environment holds a value from the start.
  have sound : s₀.draft.Sound ∅ ∅ := by
    rw [← startIs]
    exact sound_empty.push fun l here => absurd here (unlocated l)
  have place : s₀.draft.Open ∅ ∅ 0 := by
    rw [← startIs]
    exact Draft.Sound.open_push (s := { s with draft := {} }) sound_empty fun l here => absurd here (unlocated l)
  have start := (Work.refl (N := N) ∅ ∅ sound).give subset_rfl place
  have env : Held (∅ ∪ {0}) s₀.draft 0 := ⟨Or.inr rfl, place.inside, by
    rw [isWitness, empty.2.2]
    simp [← variableIs, Witness.isType]⟩
  -- Type parameters first: everything else is described by them.
  refine Meets.bind (unpackCaptures_lead true start.sound (show s₀.draft.Scope [] [] _ from ⟨by simp, by simp⟩)
    env (fun v member => by simp [(kinds v member).layout.1])
    (fun v member => by simp [(kinds v member).layout.2]) (fun v member => covers v (by simp [member]))
    (List.disjoint_nil_right _)) fun _ s₁ post => ?_
  obtain ⟨is₁, live₁, known₁, work₁, -, foundG⟩ := post
  have scope₁ : s₁.draft.Scope (Sized.variableTags own) [] live₁ := ⟨fun g member => by
    obtain ⟨v, found, there, -, kind⟩ := foundG g member
    exact ⟨v, found, there, kind⟩, by simp⟩
  refine Meets.bind (newVariable_leads work₁.sound scope₁ "_result" (scoped_shape inside).layout.names
    coversB.shape) fun result s₂ post => ?_
  obtain ⟨is₂, live₂, known₂, work₂, filled⟩ := post
  have scope₂ := scope₁.later work₁.sound.held work₂ (List.disjoint_nil_left _)
  refine Meets.bind (inputs_meets (N := N) id (fun _ => rfl) work₂.sound scope₂
    (fun v member => (values v (List.mem_append_right _ member)).layout.names)
    (fun v member => (covers v (List.mem_append_left _ member)).2) (List.nodup_append'.mp once).1
    fun t left right => fresh (List.mem_append_left _ left) (by simpa using Or.inl right))
    fun args s₃ post => ?_
  obtain ⟨vs, is₃, live₃, known₃, made, behind, work₃, inputs, owns₃⟩ := post
  have held₂ : live₂ ∪ {v | v ∈ vs} ⊆ known₂ ∪ {v | v ∈ vs} :=
    Set.union_subset_union_left _ work₂.sound.held
  have prepared := work₁.trans work₂
  have together := prepared.beside start.sound.held work₃ behind
  have place₃ := filled.place.beside work₂.sound work₃ behind
  have scope₃ : s₃.draft.Scope (Sized.variableTags own) (Sized.variableTags params) live₃ := by
    refine ((scope₂.more fun _ => Or.inl).later held₂ work₃ fun t left right => ?_).inputs inputs fun p param =>
      (values p (List.mem_append_right _ param)).layout.value
    exact fresh (List.mem_append_left _ left) (by simpa using Or.inl right)
  have env₂ : Held live₂ s₂.draft 0 := env.later start.sound prepared
  have env₃ : Held live₃ s₃.draft 0 := by
    refine ⟨work₃.keeps held₂ (Or.inl env₂.there) env₂.inside, Nat.lt_of_lt_of_le env₂.inside work₃.vars.size, ?_⟩
    rw [work₃.vars.isWitness env₂.inside, env₂.value]
  -- Then what was captured, in terms of the type parameters.
  refine Meets.bind (unpackCaptures_lead false work₃.sound scope₃ env₃
    (fun v member => by simpa using (values v (List.mem_append_left _ member)).layout.value)
    (fun v member => (values v (List.mem_append_left _ member)).layout.names)
    (fun v member => covers v (by simp [member])) ?_) fun _ s₄ post => ?_
  · rw [List.disjoint_append_right]
    exact ⟨fun t left right => apart right left, fun t left right => fresh (List.mem_append_left _ right) (List.mem_append_right _ left)⟩
  obtain ⟨is₄, live₄, known₄, work₄, scope₄, foundC⟩ := post
  have spot : Spot (Sized.variableTags own) (Sized.variableTags params ++ Sized.variableTags captures) body.binders
      live₄ known₄ s₄ := by
    refine ⟨work₄.sound, ⟨scope₄.generics, fun t member => ?_⟩, (List.nodup_append'.mp once).2.1, ?_⟩
    · exact (List.mem_append.mp member).elim (scope₄.vars t) (foundC t)
    · intro t left right
      rcases List.mem_append.mp right with generic | right
      · exact fresh (List.mem_append_right _ left) (List.mem_append_left _ generic)
      · rcases List.mem_append.mp right with param | capture
        · exact (List.nodup_append'.mp once).2.2 param left
        · exact fresh (List.mem_append_right _ left) (List.mem_append_right _ capture)
  have nothing : s₀.draft.Owns N [] := by simp [Draft.Owns, empty.2.1]
  have owns₄ := work₄.owns work₃.sound.locals (owns₃ _ (prepared.owns sound.locals nothing))
  have nameR : nameOf s₄.draft.vars result = "_result" := by
    rw [(work₃.vars.trans work₄.vars).nameOf filled.place.inside, filled.name]
  have inside₄ : result < s₄.draft.vars.size :=
    Nat.lt_of_lt_of_le filled.place.inside (work₃.vars.trans work₄.vars).size
  -- The result is no local, so nothing takes it away again.
  have foreign : result ∉ {v | v ∈ s₄.draft.locals} := fun owned =>
    (owns₄ result owned).ne_result distinct nameR.symm
  refine Meets.bind (fills _ _ live₄ known₄ {v | v ∈ s₄.draft.locals} s₄ result true inside coversB spot
    (place₃.later work₃.sound.located work₃.sound.held work₄ (Set.notMem_empty _)) foreign
    fun _ v member => member) fun _ s₅ post => ?_
  obtain ⟨is₅, live₅, known₅, work₅, -⟩ := post
  have owns₅ := work₅.owns work₄.sound.locals owns₄
  have begun := together.trans work₄
  have whole := begun.then ∅ ∅ work₅ ?_ ?_
  · have extend := (work₃.vars.trans work₄.vars).trans work₅.vars
    have params' : (∅ ∪ {0}) ∪ {v | v ∈ vs} = {v | v ∈ vs ++ [0]} := by
      ext v
      simp [or_comm]
    rw [params'] at whole
    have declared : ∀ p ∈ params, N.declared p.name := fun p param =>
      (covers p (List.mem_append_left _ param)).1
    have name₅ : nameOf s₅.draft.vars result = "_result" := by
      rw [work₅.vars.nameOf inside₄, nameR]
    have nameE : nameOf s₅.draft.vars 0 = "_env" := by
      rw [whole.vars.nameOf place.inside, nameOf, empty.2.2, ← variableIs]
      rfl
    have names : vs.map (nameOf s₅.draft.vars) = params.map (·.name.mangled) :=
      map_eq_of_forall₂ inputs fun p v input => by
        rw [(work₄.vars.trans work₅.vars).nameOf input.inside, input.name]
        rfl
    have args' : args = vs.map fun v => ⟨v, .borrowed⟩ := made.trans (zipWith_eq_map inputs _)
    refine (finish_meets result (vs ++ [0]) whole empty.1 (by simp [args']) ?_ ?_ ?_).imp
      fun f t post => ?_
    · rw [List.forall_mem_cons, List.forall_mem_append, List.forall_mem_singleton]
      exact ⟨Nat.lt_of_lt_of_le inside₄ work₅.vars.size, inputs_inside inputs (work₄.vars.trans work₅.vars).size,
        Nat.lt_of_lt_of_le place.inside whole.vars.size⟩
    · rw [List.map_cons, List.map_append, names, name₅, List.map_singleton, nameE, List.nodup_cons,
        List.mem_append, not_or, List.mem_singleton, List.nodup_append']
      exact ⟨⟨distinct.result_not_mem declared, by decide⟩, distinct.nodup declared (List.nodup_append'.mp once).1,
        List.nodup_singleton _, List.disjoint_singleton.mpr (distinct.env_not_mem declared)⟩
    · rw [List.forall_mem_cons, List.forall_mem_append, List.forall_mem_singleton, name₅, nameE]
      refine ⟨fun w owned => (owns₅ w owned).ne_result distinct,
        owns₅.arguments_apart distinct names declared fun t tag bound => ?_,
        fun w owned => (owns₅ w owned).ne_env distinct⟩
      simp only [List.nil_append, List.append_nil, List.mem_append] at bound
      rcases bound with (generic | capture) | binder
      · exact fresh (List.mem_append_left _ tag) (List.mem_append_left _ generic)
      · exact fresh (List.mem_append_left _ tag) (List.mem_append_right _ capture)
      · exact (List.nodup_append'.mp once).2.2 tag binder
    · obtain ⟨built, same, kept⟩ := post
      rw [kept]
      have all := lifts.trans whole.lifts
      exact ⟨all.target ▸ built, same, { all with }, rfl⟩
  · rintro v rfl
    exact Or.inl (Nat.le_trans work₁.vars.size filled.new)
  · intro v owned
    obtain ⟨more, all, each⟩ := begun.locals
    rw [empty.2.1, List.nil_append] at all
    exact Or.inl (each v (all ▸ owned)).1

end Closures

end WitnessLang.Ir
