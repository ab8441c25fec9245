import WitnessLang.Ir.Lower
import WitnessLang.Ir.Validate
import WitnessLang.Proofs.Ir.Table
import WitnessLang.Proofs.Layout.Disjoint
import WitnessLang.Proofs.Run

set_option autoImplicit false

/-! Functions under construction. A piece of lowering adds variables and instructions; the
instructions lead from the values that are there before to those that are there afterwards, and
write nothing but new variables and the place they are asked to fill. -/
namespace WitnessLang.Ir

open Ownership

/-- The ways in which lowering may stop that are no sign of a broken program. -/
def LowerFailure.Declared : LowerFailure → Prop
  | .layout _ _ => True
  | .inconsistent _ => False

def temporaryName (n : Nat) : String := "_" ++ toString n

/-- The name of the function behind a closure. -/
def closureName (n : Nat) : String := "_closure_" ++ toString n

/-- The definitions that an instruction refers to by name. -/
def Instr.mentions : Instr → List String
  | .callDirect function _ => [function]
  | .pack _ struct _ => [struct]
  | .makeClosure _ function _ => [function]
  | _ => []

/-- The result of a call comes first, and there is one only. -/
def Instr.shaped : Instr → Bool
  | .callDirect _ args | .callClosure _ args => (callProblem? args).isNone
  | _ => true

/-- The names that lowering comes across: those of definitions, and the variables that are
declared. -/
structure Naming where
  defined : String → Prop
  declared : Ident → Prop

namespace Naming

variable (N : Naming)

/-- A name of a definition, where some closures have been numbered. -/
def Uses (closures : Nat) (name : String) : Prop :=
  N.defined name ∨ ∃ k < closures, name = closureName k

/-- The name of a temporary, or of a variable that is bound under one of some tags. -/
def IsLocal (bound : List Tag) (name : String) : Prop :=
  (∃ k, name = temporaryName k) ∨ ∃ i, N.declared i ∧ i.tag ∈ bound ∧ name = i.mangled

/-- Instructions of an expected shape, which refer to definitions. -/
def Fine (closures : Nat) (block : Block) : Prop :=
  ∀ i ∈ Instr.flattenAll block, i.shaped = true ∧ ∀ n ∈ i.mentions, N.Uses closures n

end Naming

def localSlots (vs : Variables) (locals : List VarId) : List Slot :=
  locals.map fun v => slotOf vs (nameOf vs v) ((vs[v]?).getD default).size

/-- A function whose body flows from its arguments, and all of whose parts are in place. -/
structure Function.Built (N : Naming) (target : Target) (closures : Nat) (f : Function) : Prop where
  flows : ∃ live known, Flows f.vars (givenArguments f) (givenArguments f) f.body live known
  located : Located f.vars
  arguments : ∃ result, ∃ params : List VarId,
    f.arguments = ⟨result, .out⟩ :: params.map (⟨·, .borrowed⟩)
  inside : (∀ a ∈ f.arguments, a.var < f.vars.size) ∧ ∀ v ∈ f.locals, v < f.vars.size
  once : (f.arguments.map fun a => nameOf f.vars a.var).Nodup
  apart : ∀ a ∈ f.arguments, ∀ v ∈ f.locals, nameOf f.vars a.var ≠ nameOf f.vars v
  frame : Frame.compute f.name (localSlots f.vars f.locals) target = .ok f.frame
  fine : N.Fine closures f.body

/-- What is known while a function is constructed, where `live` holds values and `known` was ever
written. -/
structure Draft.Sound (live known : Set VarId) (d : Draft) : Prop where
  located : Located d.vars
  locals : ∀ v ∈ d.locals, v < d.vars.size
  held : live ⊆ known
  inside : ∀ v ∈ known, v < d.vars.size
  described : ∀ v ∈ live, ∀ w, describedBy? d.vars v = some w → w ∈ live
  cached : ∀ e ∈ d.witnesses, e.2 ∈ live ∧ isWitness d.vars e.2 = true

/-- The names of all locals are those of temporaries, or of variables bound under some tags. -/
def Draft.Owns (N : Naming) (tags : List Tag) (d : Draft) : Prop :=
  ∀ v ∈ d.locals, N.IsLocal tags (nameOf d.vars v)

/-- The functions behind closures that were finished. -/
structure Lifts (N : Naming) (s s' : Lowering) : Prop where
  target : s'.target = s.target
  layouts : s'.layouts.target = s.layouts.target
  counted : s.closures ≤ s'.closures
  lifted : ∃ fs, s'.lifted = s.lifted ++ fs ∧ (∀ f ∈ fs, f.Built N s.target s'.closures) ∧
    (fs.map (·.name)).Perm ((List.range' s.closures (s'.closures - s.closures)).map closureName)

namespace Lowering

def appended (s : Lowering) (i : Instr) : Lowering :=
  { s with draft := { s.draft with instrs := s.draft.instrs.push i } }

def adding (s : Lowering) (x : Variable) : Lowering :=
  { s with draft := { s.draft with vars := s.draft.vars.push x } }

def owning (s : Lowering) (v : VarId) : Lowering :=
  { s with draft := { s.draft with locals := s.draft.locals ++ [v] } }

/-- The state in which one more temporary has been named. -/
def named (s : Lowering) : Lowering :=
  { s with draft := { s.draft with temporaries := s.draft.temporaries + 1 } }

end Lowering

/-- The variables of a set are new or in another one. -/
def Within (size : Nat) (part whole : Set VarId) : Prop := ∀ v ∈ part, size ≤ v ∨ v ∈ whole

theorem within_empty (size : Nat) (whole : Set VarId) : Within size ∅ whole :=
  fun v none => absurd none (Set.notMem_empty v)

/-- A piece of lowering that adds instructions: it binds variables under some tags, and its
instructions write and take away only what is new or allowed. -/
structure Work (N : Naming) (bound : List Tag) (writable movable live known : Set VarId)
    (s : Lowering) (is : Block) (live' known' : Set VarId) (s' : Lowering) : Prop where
  lifts : Lifts N s s'
  vars : Extends s.draft.vars s'.draft.vars
  scope : ∀ t, t ∉ bound → s'.draft.scope.lookup t = s.draft.scope.lookup t
  code : s'.draft.instrs.toList = s.draft.instrs.toList ++ is
  sound : s'.draft.Sound live' known'
  flows : Flows s'.draft.vars live known is live' known'
  writes : ∀ v ∈ blockWrites is, s.draft.vars.size ≤ v ∨ v ∈ writable
  moves : ∀ v ∈ blockMoves is, s.draft.vars.size ≤ v ∨ v ∈ movable
  locals : ∃ more, s'.draft.locals = s.draft.locals ++ more ∧
    ∀ v ∈ more, s.draft.vars.size ≤ v ∧ N.IsLocal bound (nameOf s'.draft.vars v)
  fine : N.Fine s'.closures is

section Naming

variable {N : Naming} {bound bound' : List Tag} {n m : Nat} {name : String} {is js : Block}

theorem Naming.Uses.mono (uses : N.Uses n name) (more : n ≤ m) : N.Uses m name :=
  uses.imp id fun ⟨k, small, same⟩ => ⟨k, Nat.lt_of_lt_of_le small more, same⟩

theorem Naming.IsLocal.mono (own : N.IsLocal bound name) (more : bound ⊆ bound') :
    N.IsLocal bound' name :=
  own.imp id fun ⟨i, declared, tag, same⟩ => ⟨i, declared, more tag, same⟩

theorem Naming.Fine.mono (fine : N.Fine n is) (more : n ≤ m) : N.Fine m is :=
  fun i member => ⟨(fine i member).1, fun name used => ((fine i member).2 name used).mono more⟩

theorem flattenAll_append (is js : Block) :
    Instr.flattenAll (is ++ js) = Instr.flattenAll is ++ Instr.flattenAll js := by
  induction is with
  | nil => rfl
  | cons i rest ih => rw [List.cons_append, flattenAll_cons, flattenAll_cons, ih, List.append_assoc]

theorem Naming.Fine.append (first : N.Fine n is) (second : N.Fine n js) : N.Fine n (is ++ js) := by
  rw [Naming.Fine, flattenAll_append]
  exact List.forall_mem_append.mpr ⟨first, second⟩

theorem blockWrites_append (is js : Block) : blockWrites (is ++ js) = blockWrites is ++ blockWrites js := by
  rw [blockWrites, flattenAll_append, List.flatMap_append, blockWrites, blockWrites]

theorem blockMoves_append (is js : Block) : blockMoves (is ++ js) = blockMoves is ++ blockMoves js := by
  rw [blockMoves, flattenAll_append, List.flatMap_append, blockMoves, blockMoves]

end Naming

theorem Function.Built.mono {N : Naming} {target : Target} {n m : Nat} {f : Function}
    (built : f.Built N target n) (more : n ≤ m) : f.Built N target m :=
  { built with fine := built.fine.mono more }

section Lifts

variable {N : Naming} {s s' s'' : Lowering}

theorem Lifts.refl (N : Naming) (s : Lowering) : Lifts N s s :=
  ⟨rfl, rfl, Nat.le_refl _, [], by simp, by simp, by simp⟩

/-- Only the function under construction changes. -/
theorem Lifts.of_draft {d : Draft} : Lifts N s { s with draft := d } :=
  ⟨rfl, rfl, Nat.le_refl _, [], by simp, by simp, by simp⟩

theorem Lifts.trans (first : Lifts N s s') (second : Lifts N s' s'') : Lifts N s s'' := by
  obtain ⟨fs, gathered, built, names⟩ := first.lifted
  obtain ⟨gs, gathered', built', names'⟩ := second.lifted
  have counted := first.counted
  have counted' := second.counted
  refine ⟨second.target.trans first.target, second.layouts.trans first.layouts,
    Nat.le_trans counted counted', fs ++ gs, ?_, ?_, ?_⟩
  · rw [gathered', gathered, List.append_assoc]
  · refine List.forall_mem_append.mpr ⟨fun f member => (built f member).mono counted', ?_⟩
    rw [← first.target]
    exact built'
  · rw [List.map_append]
    refine (names.append names').trans (List.Perm.of_eq ?_)
    rw [← List.map_append]
    congr 1
    rw [show s''.closures - s.closures = (s'.closures - s.closures) + (s''.closures - s'.closures) by omega,
      ← List.range'_append, show s.closures + 1 * (s'.closures - s.closures) = s'.closures by omega]

end Lifts

section Work

variable {N : Naming} {bound more : List Tag} {writable movable live known live' known' live'' known'' : Set VarId}
  {s s' s'' : Lowering} {is js : Block}

theorem Work.refl (writable movable : Set VarId) (sound : s.draft.Sound live known) :
    Work N [] writable movable live known s [] live known s where
  lifts := Lifts.refl N s
  vars := Extends.refl _
  scope _ _ := rfl
  code := by simp
  sound := sound
  flows := .nil live known
  writes := by simp [blockWrites, Instr.flattenAll]
  moves := by simp [blockMoves, Instr.flattenAll]
  locals := ⟨[], by simp, by simp⟩
  fine := by simp [Naming.Fine, Instr.flattenAll]

theorem Work.mono {bound' : List Tag} {writable' movable' : Set VarId}
    (work : Work N bound writable movable live known s is live' known' s')
    (tags : bound ⊆ bound') (places : Within s.draft.vars.size writable writable')
    (values : Within s.draft.vars.size movable movable') :
    Work N bound' writable' movable' live known s is live' known' s' :=
  { work with
    scope := fun t outside => work.scope t fun member => outside (tags member)
    writes := fun v written => (work.writes v written).elim Or.inl (places v)
    moves := fun v moved => (work.moves v moved).elim Or.inl (values v)
    locals := by
      obtain ⟨more, all, each⟩ := work.locals
      exact ⟨more, all, fun v member => ⟨(each v member).1, (each v member).2.mono tags⟩⟩ }

/-- Pieces of lowering one after the other, where the first one leads to where the second one
starts. -/
theorem Work.join {start seen behind written : Set VarId}
    (first : Work N bound writable movable live known s is live' known' s')
    (flows : Flows s'.draft.vars start seen is behind written)
    (second : Work N more writable movable behind written s' js live'' known'' s'') :
    Work N (bound ++ more) writable movable start seen s (is ++ js) live'' known'' s'' where
  lifts := first.lifts.trans second.lifts
  vars := first.vars.trans second.vars
  scope t outside := by
    rw [List.mem_append, not_or] at outside
    exact (second.scope t outside.2).trans (first.scope t outside.1)
  code := by rw [second.code, first.code, List.append_assoc]
  sound := second.sound
  flows := (flows_grow second.vars first.sound.located flows).append second.flows
  writes := by
    rw [blockWrites_append, List.forall_mem_append]
    exact ⟨first.writes, fun v written =>
      (second.writes v written).imp (Nat.le_trans first.vars.size) id⟩
  moves := by
    rw [blockMoves_append, List.forall_mem_append]
    exact ⟨first.moves, fun v moved => (second.moves v moved).imp (Nat.le_trans first.vars.size) id⟩
  locals := by
    obtain ⟨new, all, each⟩ := first.locals
    obtain ⟨new', all', each'⟩ := second.locals
    refine ⟨new ++ new', by rw [all', all, List.append_assoc], List.forall_mem_append.mpr
      ⟨fun v member => ⟨(each v member).1, ?_⟩, fun v member => ⟨?_, ?_⟩⟩⟩
    · have inside : v < s'.draft.vars.size := first.sound.locals v (all ▸ List.mem_append_right _ member)
      rw [second.vars.nameOf inside]
      exact (each v member).2.mono (List.subset_append_left _ _)
    · exact Nat.le_trans first.vars.size (each' v member).1
    · exact (each' v member).2.mono (List.subset_append_right _ _)
  fine := (first.fine.mono second.lifts.counted).append second.fine

theorem Work.trans (first : Work N bound writable movable live known s is live' known' s')
    (second : Work N more writable movable live' known' s' js live'' known'' s'') :
    Work N (bound ++ more) writable movable live known s (is ++ js) live'' known'' s'' :=
  first.join first.flows second

/-- The second of two pieces may do to the variables of the first one what it likes. -/
theorem Work.then (writable movable : Set VarId) {places values : Set VarId}
    (first : Work N bound writable movable live known s is live' known' s')
    (second : Work N more places values live' known' s' js live'' known'' s'')
    (allowed : Within s.draft.vars.size places writable)
    (given : Within s.draft.vars.size values movable) :
    Work N (bound ++ more) writable movable live known s (is ++ js) live'' known'' s'' := by
  have before : Work N bound (writable ∪ places) (movable ∪ values) live known s is live' known' s' :=
    first.mono (fun _ member => member) (fun _ member => Or.inr (Or.inl member))
      fun _ member => Or.inr (Or.inl member)
  have together := before.trans (second.mono (fun _ member => member)
    (fun _ member => Or.inr (Or.inr member)) fun _ member => Or.inr (Or.inr member))
  refine together.mono (fun _ member => member) (fun v member => ?_) fun v member => ?_
  · exact member.elim Or.inr (allowed v)
  · exact member.elim Or.inr (given v)

/-- What holds a value keeps it, where nothing old may be taken away. -/
theorem Work.keeps (work : Work N bound writable ∅ live known s is live' known' s')
    (held : live ⊆ known) {v : VarId} (member : v ∈ live) (inside : v < s.draft.vars.size) :
    v ∈ live' := by
  refine work.flows.live_of held v member fun moved => ?_
  rcases work.moves v moved with new | impossible
  · exact absurd inside (Nat.not_lt.mpr new)
  · exact impossible

theorem Work.live_subset (work : Work N bound writable ∅ live known s is live' known' s')
    (sound : s.draft.Sound live known) : live ⊆ live' := fun v member =>
  work.keeps sound.held member (sound.inside v (sound.held member))

/-- What has not been written and may not be written stays unwritten. -/
theorem Work.not_known (work : Work N bound writable movable live known s is live' known' s')
    {v : VarId} (inside : v < s.draft.vars.size) (fresh : v ∉ known) (kept : v ∉ writable) :
    v ∉ known' := by
  intro member
  rcases work.flows.known_of v member with old | written
  · exact fresh old
  · rcases work.writes v written with new | allowed
    · exact absurd inside (Nat.not_lt.mpr new)
    · exact kept allowed

/-- Variables keep their names. -/
theorem Work.owns (work : Work N bound writable movable live known s is live' known' s')
    (inside : ∀ v ∈ s.draft.locals, v < s.draft.vars.size) {tags : List Tag}
    (owns : s.draft.Owns N tags) : s'.draft.Owns N (tags ++ bound) := by
  obtain ⟨more, all, each⟩ := work.locals
  rw [Draft.Owns, all]
  refine List.forall_mem_append.mpr ⟨fun v member => ?_, fun v member =>
    (each v member).2.mono (List.subset_append_right _ _)⟩
  rw [work.vars.nameOf (inside v member)]
  exact (owns v member).mono (List.subset_append_left _ _)

/-- A state that differs in what no instruction depends on. -/
theorem Work.quiet {d : Draft} (vars : Extends s.draft.vars d.vars)
    (scope : ∀ t, t ∉ bound → d.scope.lookup t = s.draft.scope.lookup t)
    (code : d.instrs = s.draft.instrs) (locals : d.locals = s.draft.locals)
    (sound : d.Sound live known) :
    Work N bound writable movable live known s [] live known { s with draft := d } where
  lifts := Lifts.of_draft
  vars := vars
  scope := scope
  code := by simp [code]
  sound := sound
  flows := .nil live known
  writes := by simp [blockWrites, Instr.flattenAll]
  moves := by simp [blockMoves, Instr.flattenAll]
  locals := ⟨[], by simp [locals], by simp⟩
  fine := by simp [Naming.Fine, Instr.flattenAll]

/-- A new variable becomes a local. -/
theorem Work.own (work : Work N bound writable movable live known s is live' known' s') {v : VarId}
    (new : s.draft.vars.size ≤ v) (inside : v < s'.draft.vars.size)
    (name : N.IsLocal bound (nameOf s'.draft.vars v)) :
    Work N bound writable movable live known s is live' known' (s'.owning v) :=
  { work with
    lifts := { work.lifts with }
    sound := { work.sound with
      locals := List.forall_mem_append.mpr ⟨work.sound.locals, List.forall_mem_singleton.mpr inside⟩ }
    locals := by
      obtain ⟨more, all, each⟩ := work.locals
      exact ⟨more ++ [v], by rw [← List.append_assoc, ← all]; rfl, List.forall_mem_append.mpr
        ⟨each, List.forall_mem_singleton.mpr ⟨new, name⟩⟩⟩ }

/-- An instruction behind those that are there. -/
theorem Work.emit {i : Instr} (sound : s.draft.Sound live known) (plain : branches i = false)
    (allowed : Allowed s.draft.vars live known i) (shaped : i.shaped = true)
    (mentions : ∀ n ∈ i.mentions, N.Uses s.closures n)
    (writes : ∀ v ∈ (directUsage i).writes, v ∈ writable)
    (moves : ∀ v ∈ (directUsage i).moves, v ∈ movable) :
    Work N [] writable movable live known s [i]
      (live \ {v | v ∈ (directUsage i).moves} ∪ {v | v ∈ (directUsage i).writes})
      (known ∪ {v | v ∈ (directUsage i).writes}) (s.appended i) where
  lifts := Lifts.of_draft
  vars := Extends.refl _
  scope _ _ := rfl
  code := by simp [Lowering.appended]
  sound := {
    located := sound.located
    locals := sound.locals
    held := held_plain sound.held
    inside := by
      rintro v (old | new)
      · exact sound.inside v old
      · exact allowed.inside v (by simpa [touched] using Or.inl new)
    described := by
      intro v member w described
      have here : w ∈ live := by
        rcases member with ⟨old, -⟩ | new
        · exact sound.described v old w described
        · exact allowed.described v (by simpa [touched] using Or.inl new) w described
      refine Or.inl ⟨here, fun moved => ?_⟩
      have kind := sound.located.of_described described
      rw [(allowed.moves w moved).2] at kind
      cases kind
    cached := by
      intro e member
      obtain ⟨here, kind⟩ := sound.cached e member
      refine ⟨Or.inl ⟨here, fun moved => ?_⟩, kind⟩
      rw [(allowed.moves _ moved).2] at kind
      cases kind }
  flows := .plain plain allowed (.nil _ _)
  writes v written := by
    rw [mem_blockWrites_plain plain] at written
    exact Or.inr (writes v (written.elim id (by simp [blockWrites, Instr.flattenAll])))
  moves v moved := by
    rw [mem_blockMoves_plain plain] at moved
    exact Or.inr (moves v (moved.elim id (by simp [blockMoves, Instr.flattenAll])))
  locals := ⟨[], by simp [Lowering.appended], by simp⟩
  fine := by
    rw [Naming.Fine, flattenAll_cons, flatten_plain plain]
    simpa [Instr.flattenAll] using ⟨shaped, mentions⟩

end Work

/-- A place for a value that has not been filled. -/
structure Draft.Open (live known : Set VarId) (d : Draft) (dst : VarId) : Prop where
  inside : dst < d.vars.size
  fresh : dst ∉ known
  described : ∀ w, describedBy? d.vars dst = some w → w ∈ live

/-- Type parameters and variables that can be read. -/
structure Draft.Scope (generics vars : List Tag) (live : Set VarId) (d : Draft) : Prop where
  generics : ∀ g ∈ generics, ∃ v, d.scope.lookup g = some v ∧ v ∈ live ∧ isWitness d.vars v = true
  vars : ∀ x ∈ vars, ∃ v, d.scope.lookup x = some v ∧ v ∈ live ∧ v < d.vars.size ∧
    isWitness d.vars v = false

theorem Draft.Scope.more {generics vars : List Tag} {live live' : Set VarId} {d : Draft}
    (scope : d.Scope generics vars live) (more : live ⊆ live') : d.Scope generics vars live' where
  generics g member := by
    obtain ⟨v, found, there, kind⟩ := scope.generics g member
    exact ⟨v, found, more there, kind⟩
  vars x member := by
    obtain ⟨v, found, there, kind⟩ := scope.vars x member
    exact ⟨v, found, more there, kind⟩

section Later

variable {N : Naming} {bound generics vars : List Tag} {writable live known live' known' : Set VarId}
  {s s' : Lowering} {is : Block}

theorem Draft.Open.later {dst : VarId} (place : s.draft.Open live known dst)
    (located : Located s.draft.vars) (held : live ⊆ known)
    (work : Work N bound writable ∅ live known s is live' known' s') (kept : dst ∉ writable) :
    s'.draft.Open live' known' dst where
  inside := Nat.lt_of_lt_of_le place.inside work.vars.size
  fresh := work.not_known place.inside place.fresh kept
  described w described := by
    rw [work.vars.describedBy? located place.inside] at described
    exact work.keeps held (place.described w described)
      (lt_of_isWitness (located.of_described described))

theorem Draft.Scope.later (scope : s.draft.Scope generics vars live) (held : live ⊆ known)
    (work : Work N bound writable ∅ live known s is live' known' s')
    (apart : bound.Disjoint (generics ++ vars)) : s'.draft.Scope generics vars live' := by
  rw [List.disjoint_append_right] at apart
  refine ⟨fun g member => ?_, fun x member => ?_⟩
  · obtain ⟨v, found, there, kind⟩ := scope.generics g member
    refine ⟨v, ?_, work.keeps held there (lt_of_isWitness kind), ?_⟩
    · rw [work.scope g fun new => apart.1 new member, found]
    · rwa [work.vars.isWitness (lt_of_isWitness kind)]
  · obtain ⟨v, found, there, inside, kind⟩ := scope.vars x member
    refine ⟨v, ?_, work.keeps held there inside, Nat.lt_of_lt_of_le inside work.vars.size, ?_⟩
    · rw [work.scope x fun new => apart.2 new member, found]
    · rwa [work.vars.isWitness inside]

end Later

section Leads

variable {α β : Type} {allowed : LowerFailure → Prop} {N : Naming} {bound bound' : List Tag}
  {writable movable live known : Set VarId} {m : Lower α} {f : α → Lower β} {s : Lowering}

/-- A computation lowers something, or stops in an allowed way. -/
def Leads (allowed : LowerFailure → Prop) (N : Naming) (bound : List Tag)
    (writable movable live known : Set VarId) (m : Lower α) (s : Lowering)
    (post : Set VarId → Set VarId → α → Lowering → Prop) : Prop :=
  Meets allowed m s fun a s' => ∃ is live' known',
    Work N bound writable movable live known s is live' known' s' ∧ post live' known' a s'

theorem Leads.imp {post post' : Set VarId → Set VarId → α → Lowering → Prop}
    (leads : Leads allowed N bound writable movable live known m s post)
    (weaker : ∀ live' known' a s', post live' known' a s' → post' live' known' a s') :
    Leads allowed N bound writable movable live known m s post' :=
  Meets.imp leads fun a s' ⟨is, live', known', work, done⟩ =>
    ⟨is, live', known', work, weaker live' known' a s' done⟩

theorem Leads.mono {writable' movable' : Set VarId}
    {post : Set VarId → Set VarId → α → Lowering → Prop}
    (leads : Leads allowed N bound writable movable live known m s post) (tags : bound ⊆ bound')
    (places : Within s.draft.vars.size writable writable')
    (values : Within s.draft.vars.size movable movable') :
    Leads allowed N bound' writable' movable' live known m s post :=
  Meets.imp leads fun _ _ ⟨is, live', known', work, done⟩ =>
    ⟨is, live', known', work.mono tags places values, done⟩

theorem leads_pure {a : α} {post : Set VarId → Set VarId → α → Lowering → Prop}
    (sound : s.draft.Sound live known) (done : post live known a s) :
    Leads allowed N [] writable movable live known (pure a) s post :=
  meets_pure.mpr ⟨[], live, known, Work.refl _ _ sound, done⟩

/-- What comes behind a piece of lowering starts from what that leaves. -/
theorem Leads.bind (bound bound' : List Tag) (places values places' values' : Set VarId)
    {post : Set VarId → Set VarId → α → Lowering → Prop}
    {post' : Set VarId → Set VarId → β → Lowering → Prop}
    (first : Leads allowed N bound places values live known m s post)
    (next : ∀ a s' is live' known', Work N bound places values live known s is live' known' s' →
      post live' known' a s' → Leads allowed N bound' places' values' live' known' (f a) s' post')
    (filled : Within s.draft.vars.size (places ∪ places') writable)
    (given : Within s.draft.vars.size (values ∪ values') movable) :
    Leads allowed N (bound ++ bound') writable movable live known (m >>= f) s post' := by
  refine Meets.bind first fun a s' post => ?_
  obtain ⟨is, live', known', work, done⟩ := post
  refine Meets.imp (next a s' is live' known' work done)
    fun b s'' post => ?_
  obtain ⟨js, live'', known'', work', done'⟩ := post
  refine ⟨is ++ js, live'', known'', ?_, done'⟩
  exact (work.mono (fun _ member => member) (fun v member => filled v (Or.inl member))
    fun v member => given v (Or.inl member)).then _ _ work' (fun v member => filled v (Or.inr member))
      fun v member => given v (Or.inr member)

theorem Leads.seq (bound bound' : List Tag) {post : Set VarId → Set VarId → α → Lowering → Prop}
    {post' : Set VarId → Set VarId → β → Lowering → Prop}
    (first : Leads allowed N bound writable movable live known m s post)
    (next : ∀ a s' is live' known', Work N bound writable movable live known s is live' known' s' →
      post live' known' a s' → Leads allowed N bound' writable movable live' known' (f a) s' post') :
    Leads allowed N (bound ++ bound') writable movable live known (m >>= f) s post' :=
  first.bind _ _ _ _ _ _ next (fun _ member => Or.inr (member.elim id id)) fun _ member =>
    Or.inr (member.elim id id)

/-- What is prepared may be used at will. -/
theorem Leads.before (bound bound' : List Tag) {post : Set VarId → Set VarId → α → Lowering → Prop}
    {post' : Set VarId → Set VarId → β → Lowering → Prop}
    (first : Leads allowed N bound ∅ ∅ live known m s post)
    (next : ∀ a s' is live' known', Work N bound ∅ ∅ live known s is live' known' s' →
      post live' known' a s' → Leads allowed N bound' writable movable live' known' (f a) s' post') :
    Leads allowed N (bound ++ bound') writable movable live known (m >>= f) s post' :=
  first.bind _ _ _ _ _ _ next (fun _ member => Or.inr (member.elim (absurd · (Set.notMem_empty _)) id))
    fun _ member => Or.inr (member.elim (absurd · (Set.notMem_empty _)) id)

/-- What follows some work is part of it. -/
theorem Leads.after {is : Block} {live' known' : Set VarId} {s' : Lowering} (places values : Set VarId)
    {post : Set VarId → Set VarId → α → Lowering → Prop}
    (leads : Leads allowed N bound' places values live' known' m s' post)
    (work : Work N bound writable movable live known s is live' known' s')
    (filled : Within s.draft.vars.size places writable)
    (given : Within s.draft.vars.size values movable) :
    Meets allowed m s' fun a s'' => ∃ is live'' known'',
      Work N (bound ++ bound') writable movable live known s is live'' known'' s'' ∧
        post live'' known'' a s'' :=
  Meets.imp leads fun _ _ ⟨js, live'', known'', work', done⟩ =>
    ⟨is ++ js, live'', known'', work.then _ _ work' filled given, done⟩

end Leads

section Rules

theorem repeatedNames_eq_nil {before names : List String} (fresh : ∀ n ∈ names, n ∉ before) (once : names.Nodup) :
    repeatedNames before names = [] := by
  induction names generalizing before with
  | nil => rfl
  | cons n rest ih =>
    rw [List.forall_mem_cons] at fresh
    obtain ⟨new, once⟩ := List.nodup_cons.mp once
    rw [repeatedNames, if_neg (by simpa using fresh.1)]
    refine ih (fun m member => ?_) once
    rw [List.mem_cons, not_or]
    exact ⟨fun same => new (same ▸ member), fresh.2 m member⟩

theorem localProblems_eq_nil {frame : Frame} {before names : List String} (fresh : ∀ n ∈ names, n ∉ before)
    (once : names.Nodup) (placed : ∀ n ∈ names, (frame.offset? n).isSome = true) :
    localProblems frame before names = [] := by
  induction names generalizing before with
  | nil => rfl
  | cons n rest ih =>
    rw [List.forall_mem_cons] at fresh placed
    obtain ⟨new, once⟩ := List.nodup_cons.mp once
    have here : (frame.offset? n).isNone = false := by simpa using placed.1
    rw [localProblems, if_neg (by simpa using fresh.1), here, List.nil_append, if_neg Bool.false_ne_true,
      List.nil_append]
    refine ih (fun m member => ?_) once placed.2
    rw [List.mem_cons, not_or]
    exact ⟨fun same => new (same ▸ member), fresh.2 m member⟩

/-- Where values flow, no instruction mentions a variable that is not there, or destroys one. -/
theorem flows_sound {vs : Variables} {live known live' known' : Set VarId} {block : Block}
    (flows : Flows vs live known block live' known') :
    ∀ i ∈ Instr.flattenAll block, (∀ v ∈ i.operands, v < vs.size) ∧ ∀ v, i ≠ .destroy v := by
  have own : ∀ {live known : Set VarId} {i : Instr}, Allowed vs live known i →
      (∀ v ∈ i.operands, v < vs.size) ∧ ∀ v, i ≠ .destroy v := fun allowed =>
    ⟨fun v member => allowed.inside v (mem_operands member), allowed.intact⟩
  induction flows with
  | nil => exact List.forall_mem_nil _
  | plain plain allowed _ ih =>
    rw [flattenAll_cons, flatten_plain plain]
    exact List.forall_mem_cons.mpr ⟨own allowed, ih⟩
  | cond allowed _ _ _ _ ihYes ihNo ih =>
    rw [flattenAll_cons, flatten_cond, List.cons_append, List.forall_mem_cons, List.forall_mem_append,
      List.forall_mem_append]
    exact ⟨own allowed, ⟨ihYes, ihNo⟩, ih⟩

/-- An instruction of an expected shape breaks no rule. -/
theorem problems_eq_nil {vs : Variables} {i : Instr} (located : Located vs) (inside : ∀ v ∈ i.operands, v < vs.size)
    (intact : ∀ v, i ≠ .destroy v) (shaped : i.shaped = true) : i.problems vs = [] := by
  have operands : i.operands.filterMap (operandProblem? vs) = [] := by
    rw [List.filterMap_eq_nil_iff]
    intro v member
    rw [operandProblem?, Array.getElem?_eq_getElem (inside v member)]
    dsimp only
    split
    · rename_i l location
      have known := lt_of_isWitness (located v _ (Array.getElem?_eq_getElem (inside v member)) l location)
      rw [if_pos known]
    · rfl
  have shape : shapeProblem? vs i = none := by
    cases i with
    | destroy v => exact absurd rfl (intact v)
    | callDirect | callClosure => exact Option.isNone_iff_eq_none.mp shaped
    | _ => rfl
  rw [Instr.problems, operands, shape]
  rfl

theorem mapM_names {vs : Variables} {α : Type} {var : α → VarId} {as : List α} (inside : ∀ a ∈ as, var a < vs.size) :
    as.mapM (fun a => (vs[var a]?).map (·.name)) = some (as.map fun a => nameOf vs (var a)) := by
  induction as with
  | nil => rfl
  | cons a rest ih =>
    rw [List.forall_mem_cons] at inside
    rw [List.mapM_cons, ih inside.2, Array.getElem?_eq_getElem inside.1]
    simp [nameOf, Array.getElem?_eq_getElem inside.1]

/-- The names of the locals of a lowered function differ. -/
theorem Function.Built.local_names {N : Naming} {target : Target} {closures : Nat} {f : Function}
    (built : f.Built N target closures) : (f.locals.map (nameOf f.vars)).Nodup := by
  have once := (Frame.slots_of_compute built.frame).1
  rwa [localSlots, List.map_map] at once

/-- A lowered function breaks no rule. -/
theorem Function.Built.valid {N : Naming} {target : Target} {closures : Nat} {f : Function}
    (built : f.Built N target closures) : f.problems = some [] := by
  obtain ⟨live, known, flows⟩ := built.flows
  obtain ⟨result, params, arguments⟩ := built.arguments
  obtain ⟨-, placed⟩ := Frame.slots_of_compute built.frame
  have places : ∀ n ∈ f.locals.map (nameOf f.vars), (f.frame.offset? n).isSome = true :=
    List.forall_mem_map.mpr fun v member => placed _ (List.mem_map_of_mem member)
  have fresh : ∀ n ∈ f.locals.map (nameOf f.vars), n ∉ f.arguments.map fun a => nameOf f.vars a.var := by
    refine List.forall_mem_map.mpr fun v member again => ?_
    obtain ⟨a, argument, same⟩ := List.mem_map.mp again
    exact built.apart a argument v member same
  have body : bodyProblems f.vars f.body = [] := by
    rw [bodyProblems, List.filterMap_eq_nil_iff]
    intro i member
    obtain ⟨inside, intact⟩ := flows_sound flows i member
    rw [problems_eq_nil built.located inside intact (built.fine i member).1]
  have first : (f.arguments.mapM fun a => (f.varAt? a.var).map (·.name)) =
      some (f.arguments.map fun a => nameOf f.vars a.var) := mapM_names built.inside.1
  have second : (f.locals.mapM fun v => (f.varAt? v).map (·.name)) = some (f.locals.map (nameOf f.vars)) :=
    mapM_names (fun v member => built.inside.2 v member)
  rw [Function.problems, first, second]
  simp only [Option.bind_eq_bind, Option.bind_some, Option.pure_def, body,
    repeatedNames_eq_nil (fun _ _ => List.not_mem_nil) built.once, localProblems_eq_nil fresh built.local_names places]
  rw [arguments]
  rfl

end Rules

end WitnessLang.Ir
