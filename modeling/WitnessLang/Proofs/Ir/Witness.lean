import Mathlib.Order.BooleanAlgebra.Set
import WitnessLang.Proofs.Ir.Draft
import WitnessLang.Proofs.Lists
import WitnessLang.Proofs.Sized.Scoped
import WitnessLang.Proofs.Types.Spelled

set_option autoImplicit false

namespace WitnessLang

def Sized.Witness.constructors : Sized.Witness → List Ident
  | .dynamic value => value.constructors
  | _ => []

namespace Ir

open Ownership

/-- A description that is built with definitions only. -/
def Naming.Describes (N : Naming) (constructors : List Ident) : Prop :=
  ∀ i ∈ constructors, N.defined i.mangled

section Steps

variable {α : Type} {allowed : LowerFailure → Prop} {s : Lowering}

theorem meets_emit {i : Instr} {post : Unit → Lowering → Prop} :
    Meets allowed (emit i) s post ↔ post () (s.appended i) := Iff.rfl

theorem meets_addVariable {x : Variable} {post : VarId → Lowering → Prop} :
    Meets allowed (addVariable x) s post ↔ post s.draft.vars.size (s.adding x) := Iff.rfl

theorem meets_addLocal {v : VarId} {post : Unit → Lowering → Prop} :
    Meets allowed (addLocal v) s post ↔ post () (s.owning v) := Iff.rfl

theorem meets_freshName {post : String → Lowering → Prop} :
    Meets allowed freshName s post ↔ post (temporaryName s.draft.temporaries) s.named := Iff.rfl

@[simp] theorem vars_named : s.named.draft.vars = s.draft.vars := rfl

@[simp] theorem vars_adding {x : Variable} : (s.adding x).draft.vars = s.draft.vars.push x := rfl

@[simp] theorem vars_appended {i : Instr} : (s.appended i).draft.vars = s.draft.vars := rfl

theorem lookup_meets {name : Ident} {v : VarId} (found : s.draft.scope.lookup name.tag = some v) :
    Meets allowed (lookup name) s fun v' s' => v' = v ∧ s' = s := by
  rw [lookup, meets_get_bind, found]
  exact meets_pure.mpr ⟨rfl, rfl⟩

end Steps

section Variables

variable {N : Naming} {bound : List Tag} {writable movable live known : Set VarId} {s : Lowering}
  {d d' : Draft}

/-- What is known of a draft stays true in a larger table. -/
theorem Draft.Sound.extend (sound : d.Sound live known) (extend : Extends d.vars d'.vars)
    (located : Located d'.vars) (locals : d'.locals = d.locals)
    (cached : ∀ e ∈ d'.witnesses, e ∈ d.witnesses ∨ e.2 ∈ live ∧ isWitness d'.vars e.2 = true) :
    d'.Sound live known where
  located := located
  locals v member := Nat.lt_of_lt_of_le (sound.locals v (locals ▸ member)) extend.size
  held := sound.held
  inside v member := Nat.lt_of_lt_of_le (sound.inside v member) extend.size
  described v member w described := by
    rw [extend.describedBy? sound.located (sound.inside v (sound.held member))] at described
    exact sound.described v member w described
  cached e member := by
    rcases cached e member with old | new
    · obtain ⟨here, kind⟩ := sound.cached e old
      exact ⟨here, by rwa [extend.isWitness (lt_of_isWitness kind)]⟩
    · exact new

theorem Draft.Sound.push (sound : d.Sound live known) {x : Variable}
    (own : ∀ l, x.witness.location? = some l → isWitness d.vars l = true) :
    { d with vars := d.vars.push x }.Sound live known :=
  sound.extend (extends_push _ x) (sound.located.push own) rfl fun _ => Or.inl

/-- A variable that was just added. -/
theorem get_push (vs : Variables) (x : Variable) : (vs.push x)[vs.size]? = some x := by simp

theorem nameOf_push (vs : Variables) (x : Variable) : nameOf (vs.push x) vs.size = x.name := by
  rw [nameOf, get_push]

theorem isWitness_push (vs : Variables) (x : Variable) :
    isWitness (vs.push x) vs.size = x.witness.isType := by
  rw [isWitness, get_push]

theorem Draft.Sound.named (sound : s.draft.Sound live known) : s.named.draft.Sound live known :=
  sound.extend (Extends.refl _) sound.located rfl fun _ => Or.inl

theorem Work.named (sound : s.draft.Sound live known) :
    Work N [] writable movable live known s [] live known s.named :=
  Work.quiet (Extends.refl _) (fun _ _ => rfl) rfl rfl sound.named

theorem Work.adding (sound : s.draft.Sound live known) {x : Variable}
    (own : ∀ l, x.witness.location? = some l → isWitness s.draft.vars l = true) :
    Work N [] writable movable live known s [] live known (s.adding x) :=
  Work.quiet (extends_push _ x) (fun _ _ => rfl) rfl rfl (sound.push own)

/-- A variable that was just added can be filled. -/
theorem Draft.Sound.open_push (sound : s.draft.Sound live known) {x : Variable}
    (own : ∀ l, x.witness.location? = some l → l ∈ live) :
    (s.adding x).draft.Open live known s.draft.vars.size where
  inside := by simp [Lowering.adding]
  fresh member := Nat.lt_irrefl _ (sound.inside _ member)
  described w described := by
    obtain ⟨y, found, location, -⟩ := describedBy?_eq_some.mp described
    obtain rfl : x = y := Option.some.inj ((get_push _ x).symm.trans found)
    exact own w location

end Variables

section Calls

variable {dst : VarId} {args : List VarId}

theorem results_callArgs : results (callArgs dst args) = [dst] := by
  simp [results, callArgs, copyOf, List.filter_map, Function.comp_def]

theorem inputs_callArgs : inputs (callArgs dst args) = args.map copyOf := by
  have borrowed : (args.map fun a => CallArg.mk (copyOf a) .borrowed).filter (·.convention != .out) =
      args.map fun a => ⟨copyOf a, .borrowed⟩ :=
    List.filter_eq_self.mpr (by simp)
  rw [inputs, callArgs, List.filter_cons_of_neg (by simp), borrowed, List.map_map]
  rfl

theorem kept_copies : kept (args.map copyOf) = args := by
  simp [kept, copyOf, List.filter_map, Function.comp_def]

theorem given_copies : given (args.map copyOf) = [] := by
  simp [given, copyOf, List.filter_map, Function.comp_def]

@[simp] theorem directUsage_callDirect {function : String} :
    directUsage (.callDirect function (callArgs dst args)) = ⟨args, [dst], []⟩ := by
  rw [directUsage, results_callArgs, inputs_callArgs, kept_copies, given_copies]

@[simp] theorem directUsage_callClosure {closure : VarId} :
    directUsage (.callClosure closure (callArgs dst args)) = ⟨closure :: args, [dst], []⟩ := by
  rw [directUsage, results_callArgs, inputs_callArgs, kept_copies, given_copies]

@[simp] theorem callProblem?_callArgs : callProblem? (callArgs dst args) = none := by
  simp [callArgs, callProblem?, Function.comp_def]

end Calls

section Filling

variable {allowed : LowerFailure → Prop} {N : Naming} {live known : Set VarId} {s : Lowering}
  {dst : VarId} {i : Instr}

/-- An instruction that fills a place from what holds values, and takes some of them away. -/
theorem Work.fill (movable : Set VarId) (sound : s.draft.Sound live known)
    (place : s.draft.Open live known dst) (plain : branches i = false)
    (intact : ∀ v, i ≠ .destroy v) (writes : (directUsage i).writes = [dst])
    (reads : ∀ v ∈ (directUsage i).reads, v ∈ live)
    (moves : ∀ v ∈ (directUsage i).moves, v ∈ live ∧ isWitness s.draft.vars v = false ∧ v ∈ movable)
    (once : (directUsage i).moves.Nodup) (shaped : i.shaped = true)
    (mentions : ∀ n ∈ i.mentions, N.Uses s.closures n) :
    Work N [] {dst} movable live known s [i] (live \ {v | v ∈ (directUsage i).moves} ∪ {dst})
      (known ∪ {dst}) (s.appended i) := by
  have written : {v | v ∈ (directUsage i).writes} = {dst} := by
    ext v
    simp [writes]
  have there : ∀ v ∈ touched i, v = dst ∨ v ∈ live := by
    intro v member
    rw [touched, writes, List.append_assoc, List.singleton_append, List.mem_cons,
      List.mem_append] at member
    exact member.imp id fun used => used.elim (reads v) fun moved => (moves v moved).1
  have allowed : Allowed s.draft.vars live known i := {
    intact := intact
    inside := by
      intro v member
      rcases there v member with rfl | used
      · exact place.inside
      · exact sound.inside v (sound.held used)
    reads := reads
    moves := fun v moved => ⟨(moves v moved).1, (moves v moved).2.1⟩
    movesOnce := once
    writes := by
      rw [writes]
      simpa using place.fresh
    writesOnce := by
      rw [writes]
      exact List.nodup_singleton dst
    described := by
      intro v member w described
      rcases there v member with rfl | used
      · exact place.described w described
      · exact sound.described v used w described }
  rw [← written]
  exact Work.emit sound plain allowed shaped mentions (fun v own => own) fun v own => (moves v own).2.2

theorem Work.fill_copy (movable : Set VarId) (sound : s.draft.Sound live known)
    (place : s.draft.Open live known dst) (plain : branches i = false)
    (intact : ∀ v, i ≠ .destroy v) (writes : (directUsage i).writes = [dst])
    (reads : ∀ v ∈ (directUsage i).reads, v ∈ live) (moves : (directUsage i).moves = [])
    (shaped : i.shaped = true) (mentions : ∀ n ∈ i.mentions, N.Uses s.closures n) :
    Work N [] {dst} movable live known s [i] (live ∪ {dst}) (known ∪ {dst}) (s.appended i) := by
  have work : Work N [] {dst} movable live known s [i] _ _ _ :=
    Work.fill _ sound place plain intact writes reads (by simp [moves]) (by simp [moves]) shaped mentions
  have nothing : {v | v ∈ (directUsage i).moves} = ∅ := by simp [moves]
  rwa [nothing, Set.sdiff_empty] at work

theorem leads_emit {α : Type} {writable movable live' known' : Set VarId} {a : α}
    {post : Set VarId → Set VarId → α → Lowering → Prop}
    (work : Work N [] writable movable live known s [i] live' known' (s.appended i))
    (done : post live' known' a (s.appended i)) :
    Leads allowed N [] writable movable live known (emit i >>= fun _ => pure a) s post := by
  rw [Leads, meets_bind, meets_emit, meets_pure]
  exact ⟨[i], live', known', work, done⟩

end Filling

section Descriptions

variable {allowed : LowerFailure → Prop} {N : Naming} {generics vars : List Tag}

mutual

/-- A description is computed where its type parameters can be read. -/
theorem witnessOperand_leads (live known : Set VarId) (s : Lowering)
    (sound : s.draft.Sound live known) (scope : s.draft.Scope generics vars live) :
    (w : WitnessExpr) → (∀ x ∈ w.names, x.tag ∈ generics) → N.Describes w.constructors →
    Leads allowed N [] ∅ ∅ live known (witnessOperand w) s fun live' _ v s' =>
      v ∈ live' ∧ isWitness s'.draft.vars v = true
  | .var name, inside, _ => by
    obtain ⟨v, found, there, kind⟩ := scope.generics name.tag (inside name (by simp [WitnessExpr.names]))
    rw [witnessOperand]
    refine Meets.imp (lookup_meets found) fun v' s' post => ?_
    obtain ⟨same, kept⟩ := post
    rw [same, kept]
    exact ⟨[], live, known, Work.refl _ _ sound, there, kind⟩
  | .build constructor args, inside, defined => by
    rw [WitnessExpr.constructors, Naming.Describes, List.forall_mem_cons] at defined
    rw [witnessOperand, Leads, meets_bind, meets_freshName, meets_get_bind, meets_bind,
      meets_addVariable, meets_bind, meets_addLocal]
    generalize variableIs : Variable.mk _ _ _ _ = x
    have type : x.witness = .type := by rw [← variableIs]
    have unlocated : ∀ l, x.witness.location? ≠ some l := by simp [type, Witness.location?]
    have work : Work N [] ∅ ∅ live known s [] live known
        ((s.named.adding x).owning s.draft.vars.size) := by
      refine Work.own ((Work.named sound).trans (Work.adding sound.named fun l here => absurd here (unlocated l))) (Nat.le_refl _) ?_ (Or.inl ⟨s.draft.temporaries, ?_⟩)
      · simp [Lowering.adding, Lowering.named]
      · exact (nameOf_push _ x).trans (by rw [← variableIs])
    have place : ((s.named.adding x).owning s.draft.vars.size).draft.Open live known
        s.draft.vars.size :=
      { sound.open_push (x := x) fun l here => absurd here (unlocated l) with }
    refine Leads.after {s.draft.vars.size} ∅ ?_ work ?_ fun v impossible =>
      absurd impossible (Set.notMem_empty v)
    · refine Leads.before _ _ (witnessOperands_leads live known _ work.sound
        (scope.later sound.held work (List.disjoint_nil_left _)) args inside defined.2)
        fun vs s' is live' known' work' there => ?_
      refine leads_emit (Work.fill_copy _ work'.sound (place.later work.sound.located work.sound.held work' (Set.notMem_empty _))
        rfl (by simp) (by simp) (by simpa using there) (by simp) (by simp [Instr.shaped]) ?_) ⟨Or.inr rfl, ?_⟩
      · exact List.forall_mem_singleton.mpr (Or.inl defined.1)
      · rw [vars_appended, vars_named, work'.vars.isWitness place.inside]
        exact (isWitness_push _ x).trans (by rw [type]; rfl)
    · rintro v rfl
      exact Or.inl (Nat.le_refl _)

theorem witnessOperands_leads (live known : Set VarId) (s : Lowering)
    (sound : s.draft.Sound live known) (scope : s.draft.Scope generics vars live) :
    (ws : List WitnessExpr) → (∀ x ∈ WitnessExpr.namesAll ws, x.tag ∈ generics) →
    N.Describes (WitnessExpr.constructorsAll ws) →
    Leads allowed N [] ∅ ∅ live known (witnessOperands ws) s fun live' _ vs _ => ∀ v ∈ vs, v ∈ live'
  | [], _, _ => leads_pure sound (by simp)
  | w :: rest, inside, defined => by
    rw [WitnessExpr.namesAll, List.forall_mem_append] at inside
    rw [WitnessExpr.constructorsAll, Naming.Describes, List.forall_mem_append] at defined
    rw [witnessOperands]
    refine Leads.seq _ _ (witnessOperand_leads live known s sound scope w inside.1 defined.1)
      fun v s' is live' known' work post => ?_
    obtain ⟨there, _⟩ := post
    refine Leads.seq _ _ (witnessOperands_leads _ _ _ work.sound
      (scope.later sound.held work (List.disjoint_nil_left _)) rest inside.2 defined.2)
      fun vs s'' js live'' known'' work' all => ?_
    exact leads_pure work'.sound (List.forall_mem_cons.mpr ⟨work'.live_subset work.sound there, all⟩)

end

/-- How values are described, as it was lowered: by a description that is there. -/
structure Lowered (w : Sized.Witness) (live : Set VarId) (vs : Variables) (w' : Witness) : Prop where
  located : ∀ l, w'.location? = some l → l ∈ live ∧ isWitness vs l = true
  type : w'.isType = true ↔ w = .type

/-- A description is computed once in a block. -/
theorem lowerWitness_leads {live known : Set VarId} {s : Lowering} (sound : s.draft.Sound live known)
    (scope : s.draft.Scope generics vars live) {t : Ty} {w : Sized.Witness}
    (inside : ∀ x ∈ w.names, x.tag ∈ generics) (defined : N.Describes w.constructors) :
    Leads allowed N [] ∅ ∅ live known (lowerWitness t w) s fun live' _ w' s' =>
      Lowered w live' s'.draft.vars w' := by
  cases w with
  | trivial size => exact leads_pure sound ⟨by simp [Witness.location?], by simp [Witness.isType]⟩
  | type => exact leads_pure sound ⟨by simp [Witness.location?], by simp [Witness.isType]⟩
  | dynamic value =>
    have dynamic : ∀ v live (vs : Variables), v ∈ live → isWitness vs v = true →
        Lowered (.dynamic value) live vs (.dynamic v) := fun v live vs there kind =>
      ⟨by simp [Witness.location?, there, kind], by simp [Witness.isType]⟩
    rw [lowerWitness, Leads, meets_get_bind]
    split
    · rename_i v found
      obtain ⟨there, kind⟩ := sound.cached _ (mem_of_lookup found)
      exact leads_pure sound (dynamic v live _ there kind)
    · refine Leads.before _ _ (witnessOperand_leads live known s sound scope value inside
        defined) fun v s' is live' known' work post => ?_
      obtain ⟨there, kind⟩ := post
      rw [Leads, modifyDraft, meets_modify_bind, meets_pure]
      refine ⟨[], live', known', Work.quiet (Extends.refl _) (fun _ _ => rfl) rfl rfl
        (work.sound.extend (Extends.refl _) work.sound.located rfl fun e member => ?_),
        dynamic v live' _ there kind⟩
      rcases List.mem_cons.mp member with rfl | old
      · exact Or.inr ⟨there, kind⟩
      · exact Or.inl old

theorem lookups_meets {s : Lowering} {names : List Ident}
    (held : ∀ x ∈ names, ∃ v, s.draft.scope.lookup x.tag = some v) :
    Meets allowed (names.mapM lookup) s fun vs s' =>
      List.Forall₂ (fun x v => s.draft.scope.lookup x.tag = some v) names vs ∧ s' = s := by
  induction names with
  | nil =>
    rw [List.mapM_nil, meets_pure]
    exact ⟨.nil, rfl⟩
  | cons x rest ih =>
    rw [List.forall_mem_cons] at held
    obtain ⟨⟨v, found⟩, held⟩ := held
    rw [List.mapM_cons]
    refine Meets.bind (lookup_meets found) fun v' s' post => ?_
    obtain ⟨same, kept⟩ := post
    rw [same, kept]
    refine Meets.bind (ih held) fun vs s' post => ?_
    obtain ⟨all, kept⟩ := post
    rw [meets_pure, kept]
    exact ⟨.cons found all, rfl⟩

/-- Sizes are in terms of the variables that are declared. -/
theorem lowerSize_meets {s : Lowering} {size : Sized.Size}
    (held : ∀ x ∈ size.dynamic, ∃ v, s.draft.scope.lookup x.tag = some v) :
    Meets allowed (lowerSize size) s fun size' s' => size'.static = size.static ∧
      List.Forall₂ (fun x v => s.draft.scope.lookup x.tag = some v) size.dynamic size'.dynamic ∧
        s' = s := by
  rw [lowerSize]
  refine Meets.bind (lookups_meets held) fun vs s' post => ?_
  obtain ⟨all, kept⟩ := post
  rw [meets_pure, kept]
  exact ⟨rfl, all, rfl⟩

/-- A variable of a shape that can be filled. -/
structure Fresh (n : Nat) (name : String) (shape : Sized.Shape) (live known : Set VarId) (v : VarId)
    (s : Lowering) : Prop where
  new : n ≤ v
  place : s.draft.Open live known v
  name : nameOf s.draft.vars v = name
  type : isWitness s.draft.vars v = true ↔ shape.layout.witness = .type

theorem newVariable_leads {live known : Set VarId} {s : Lowering} (sound : s.draft.Sound live known)
    (scope : s.draft.Scope generics vars live) (name : String) {shape : Sized.Shape}
    (inside : ∀ x ∈ shape.layout.names, x.tag ∈ generics)
    (defined : N.Describes shape.layout.witness.constructors) :
    Leads allowed N [] ∅ ∅ live known (newVariable name shape) s fun live' known' v s' =>
      Fresh s.draft.vars.size name shape live' known' v s' := by
  rw [Sized.Layout.names, List.forall_mem_append] at inside
  rw [newVariable]
  refine Leads.seq _ _ (lowerWitness_leads sound scope inside.1 defined)
    fun w s₁ is live₁ known₁ work described => ?_
  have scope₁ := scope.later sound.held work (List.disjoint_nil_left _)
  rw [Leads]
  refine Meets.bind (lowerSize_meets fun x member => ?_) fun size s₂ post => ?_
  · obtain ⟨v, found, -⟩ := scope₁.generics x.tag (inside.2 x member)
    exact ⟨v, found⟩
  obtain ⟨_, _, kept⟩ := post
  rw [kept, meets_addVariable]
  refine ⟨[], live₁, known₁, Work.adding work.sound fun l here => (described.located l here).2,
    work.vars.size, work.sound.open_push fun l here => (described.located l here).1,
    nameOf_push _ _, ?_⟩
  rw [vars_adding, isWitness_push]
  exact described.type

/-- A declared variable. -/
theorem define_leads {live known : Set VarId} {s : Lowering} (sound : s.draft.Sound live known)
    (scope : s.draft.Scope generics vars live) {x : Sized.Variable}
    (inside : ∀ y ∈ x.shape.layout.names, y.tag ∈ generics)
    (defined : N.Describes x.shape.layout.witness.constructors) :
    Leads allowed N [x.name.tag] ∅ ∅ live known (define x) s fun live' known' v s' =>
      Fresh s.draft.vars.size x.name.mangled x.shape live' known' v s' ∧
        s'.draft.scope.lookup x.name.tag = some v ∧
          ∀ tags, s.draft.Owns N tags → s'.draft.Owns N tags := by
  rw [define]
  refine Leads.before _ _ (newVariable_leads sound scope _ inside defined)
    fun v s₁ is live₁ known₁ work fresh => ?_
  rw [Leads, modifyDraft, meets_modify_bind, meets_pure]
  refine ⟨[], live₁, known₁, Work.quiet (Extends.refl _) (fun t outside => ?_) rfl rfl
    (work.sound.extend (Extends.refl _) work.sound.located rfl fun _ => Or.inl),
    ⟨fresh.new, ⟨fresh.place.inside, fresh.place.fresh, fresh.place.described⟩, fresh.name,
      fresh.type⟩, ?_, fun tags owns => ?_⟩
  · have other : (t == x.name.tag) = false := by simpa using outside
    rw [List.lookup_cons, other]
  · rw [List.lookup_cons]
    simp
  · have kept := work.owns sound.locals owns
    rwa [List.append_nil] at kept

/-- A temporary. -/
theorem temporary_leads {live known : Set VarId} {s : Lowering} (sound : s.draft.Sound live known)
    (scope : s.draft.Scope generics vars live) {shape : Sized.Shape}
    (inside : ∀ x ∈ shape.layout.names, x.tag ∈ generics)
    (defined : N.Describes shape.layout.witness.constructors) :
    Leads allowed N [] ∅ ∅ live known (temporary shape) s fun live' known' v s' =>
      ∃ name, Fresh s.draft.vars.size name shape live' known' v s' := by
  rw [temporary, Leads, meets_bind, meets_freshName, meets_bind]
  have scope' : s.named.draft.Scope generics vars live := ⟨scope.generics, scope.vars⟩
  refine Meets.imp (newVariable_leads sound.named scope' _ inside defined)
    fun v s₁ post => ?_
  obtain ⟨is, live₁, known₁, work, fresh⟩ := post
  rw [meets_bind, meets_addLocal, meets_pure]
  refine ⟨is, live₁, known₁, Work.own ((Work.named sound).trans work) fresh.new fresh.place.inside
    (Or.inl ⟨_, fresh.name⟩), _, fresh.new,
    ⟨fresh.place.inside, fresh.place.fresh, fresh.place.described⟩, fresh.name, fresh.type⟩

end Descriptions

end Ir

end WitnessLang
