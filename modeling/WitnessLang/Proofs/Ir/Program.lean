import WitnessLang.Proofs.Ir.Closures
import WitnessLang.Proofs.Ir.Layouts
import WitnessLang.Proofs.Types.Formed

set_option autoImplicit false

namespace WitnessLang.Ir

open Ownership

section Expressions

attribute [local simp] into Sized.Expr.binders

variable {N : Naming} {c : Sized.Context}

/-- One instruction fills the place. -/
theorem fill_leads {live known : Set VarId} (movable : Set VarId) {s : Lowering} {dst : VarId} {i : Instr}
    (sound : s.draft.Sound live known) (place : s.draft.Open live known dst) (plain : branches i = false)
    (intact : ∀ v, i ≠ .destroy v) (writes : (directUsage i).writes = [dst])
    (reads : ∀ v ∈ (directUsage i).reads, v ∈ live) (moves : (directUsage i).moves = [])
    (shaped : i.shaped = true) (mentions : ∀ n ∈ i.mentions, N.Uses s.closures n) :
    Leads LowerFailure.Declared N [] {dst} movable live known (emit i) s fun live' _ _ _ => dst ∈ live' :=
  meets_emit.mpr ⟨[i], _, _, Work.fill_copy _ sound place plain intact writes reads moves shaped mentions,
    Or.inr rfl⟩

theorem mem_letTags {bs : List Sized.Let} {vars : List Tag} {t : Tag} (member : t ∈ Sized.letTags bs vars) :
    t ∈ vars ∨ t ∈ Sized.Expr.letBinders bs := by
  induction bs generalizing vars with
  | nil => exact Or.inl member
  | cons b rest ih =>
    obtain ⟨x, value⟩ := b
    simp only [Sized.Expr.letBinders, List.mem_append, List.mem_cons]
    rcases ih member with here | later
    · rcases List.mem_cons.mp here with rfl | old
      · exact Or.inr (Or.inr (Or.inl rfl))
      · exact Or.inl old
    · exact Or.inr (Or.inr (Or.inr later))

/-- At the end of a function locals may be taken, also those that were added on the way there. -/
theorem mem_movable {bound : List Tag} {writable values movable live known live' known' : Set VarId}
    {s s' : Lowering} {is : Block} {dst : VarId}
    (work : Work N bound writable values live known s is live' known' s') (inside : dst < s.draft.vars.size)
    (ending : ∀ v ∈ s.draft.locals, v ∈ movable) :
    ∀ v ∈ s'.draft.locals, v ∈ {v | s.draft.vars.size ≤ v ∧ v ≠ dst} ∪ movable := by
  obtain ⟨more, all, each⟩ := work.locals
  rw [all]
  refine List.forall_mem_append.mpr ⟨fun v old => Or.inr (ending v old), fun v new => Or.inl ?_⟩
  refine ⟨(each v new).1, ?_⟩
  rintro rfl
  exact absurd inside (Nat.not_lt.mpr (each _ new).1)

theorem var_fills (shape : Sized.Shape) (name : Ident) : Fills N c (.var shape name) := by
  intro generics vars live known movable s dst tail inside covers spot place kept ending
  obtain ⟨v, held, found⟩ := lookup_held LowerFailure.Declared spot inside.2
  rw [into, Leads]
  refine Meets.bind found fun v' s' post => ?_
  obtain ⟨rfl, rfl⟩ := post
  have copied := fill_leads (N := N) (i := .copy dst v') movable spot.sound place rfl (by simp) rfl
    (by simpa [directUsage] using held.there) rfl rfl (by simp [Instr.mentions])
  cases tail with
  | false => exact copied
  | true =>
    rw [meets_get_bind]
    split
    · rename_i owned
      have given : v' ∈ movable := ending rfl v' (by simpa using owned)
      exact meets_emit.mpr ⟨[.move dst v'], _, _, Work.fill _ spot.sound place rfl (by simp) rfl
        (by simp [directUsage]) (by simpa [directUsage] using ⟨held.there, held.value, given⟩)
        (List.nodup_singleton v') rfl (by simp [Instr.mentions]), Or.inr rfl⟩
    · exact copied

theorem callDirect_fills {shape : Sized.Shape} {function : Ident} {args : List Sized.Expr} {witnesses : List WitnessExpr}
    (each : ∀ e ∈ args, Fills N c e) : Fills N c (.callDirect shape function args witnesses) := by
  intro generics vars live known movable s dst tail inside covers spot place kept ending
  obtain ⟨-, insideA, names⟩ := inside
  obtain ⟨-, defined, coversA, coversW⟩ := covers
  rw [Sized.Expr.binders] at spot ⊢
  rw [into]
  refine (Leads.before _ [] (operands_lead each insideA coversA spot)
    fun vs s₁ is live₁ known₁ work held => ?_).mono (by simp) (fun _ => Or.inr) fun _ => Or.inr
  have spot₁ : Spot generics vars [] live₁ known₁ s₁ := Spot.behind (by rwa [List.append_nil]) work
  refine (Leads.before [] [] (witnessOperands_leads live₁ known₁ s₁ work.sound
    spot₁.scope witnesses ?_ coversW) fun ws s₂ js live₂ known₂ work₂ there => ?_)
  · intro x member
    rw [WitnessExpr.namesAll_eq_flatMap] at member
    obtain ⟨w, argument, read⟩ := List.mem_flatMap.mp member
    exact names w argument x read
  · refine fill_leads _ work₂.sound ((place.past spot.sound work).past work.sound work₂) rfl (by simp) (by simp) ?_ (by simp)
      (by simp [Instr.shaped]) (List.forall_mem_singleton.mpr (Or.inl defined))
    rw [directUsage_callDirect, List.forall_mem_append]
    exact ⟨fun v member => ((held v member).later work.sound work₂).there, there⟩

theorem callClosure_fills {shape : Sized.Shape} {callee : Sized.Expr} {args : List Sized.Expr} (called : Fills N c callee)
    (each : ∀ e ∈ args, Fills N c e) : Fills N c (.callClosure shape callee args) := by
  intro generics vars live known movable s dst tail inside covers spot place kept ending
  obtain ⟨-, insideC, insideA⟩ := inside
  obtain ⟨-, coversC, coversA⟩ := covers
  rw [Sized.Expr.binders] at spot ⊢
  rw [into]
  refine Leads.before _ _ (operand_leads called insideC coversC spot.front)
    fun v s₁ is live₁ known₁ work heldC => ?_
  refine (Leads.before _ [] (operands_lead each insideA coversA (spot.behind work))
    fun vs s₂ js live₂ known₂ work₂ held => ?_).mono (by simp) (fun _ => Or.inr) fun _ => Or.inr
  refine fill_leads _ work₂.sound ((place.past spot.sound work).past work.sound work₂) rfl (by simp) (by simp) ?_ (by simp)
    (by simp [Instr.shaped]) (by simp [Instr.mentions])
  rw [directUsage_callClosure, List.forall_mem_cons]
  exact ⟨(heldC.later work.sound work₂).there, fun v member => (held v member).there⟩

theorem block_fills {shape : Sized.Shape} {bs : List Sized.Let} {result : Sized.Expr} (each : ∀ b ∈ bs, Fills N c b.value)
    (last : Fills N c result) : Fills N c (.block shape bs result) := by
  intro generics vars live known movable s dst tail inside covers spot place kept ending
  obtain ⟨-, insideL, insideR⟩ := inside
  obtain ⟨-, coversL, coversR⟩ := covers
  rw [Sized.Expr.binders] at spot ⊢
  rw [into]
  refine Leads.bind _ _ _ _ {dst} ({v | s.draft.vars.size ≤ v ∧ v ≠ dst} ∪ movable)
    (lets_lead each insideL coversL spot.front) (fun _ s₁ is live₁ known₁ work scope => ?_)
    (fun v member => member.elim (absurd · (Set.notMem_empty v)) Or.inr)
    fun v member => member.elim (absurd · (Set.notMem_empty v)) (Or.imp And.left id)
  have behind := spot.behind work
  refine last _ _ live₁ known₁ _ s₁ dst tail insideR coversR ⟨work.sound, scope, behind.once, ?_⟩
    (place.past spot.sound work) ?_ fun ends => mem_movable work place.inside (ending ends)
  · intro t left right
    rcases List.mem_append.mp right with generic | var
    · exact behind.apart left (List.mem_append_left _ generic)
    · rcases mem_letTags var with old | new
      · exact behind.apart left (List.mem_append_right _ old)
      · exact (List.nodup_append'.mp spot.once).2.2 new left
  · rintro (⟨-, other⟩ | allowed)
    · exact other rfl
    · exact kept allowed

theorem pack_fills {shape : Sized.Shape} {name : Ident} {fields : List Sized.PackField} (each : ∀ f ∈ fields, Fills N c f.value) :
    Fills N c (.pack shape name fields) := by
  intro generics vars live known movable s dst tail inside covers spot place kept ending
  obtain ⟨-, insideF⟩ := inside
  obtain ⟨-, defined, coversF⟩ := covers
  rw [Sized.Expr.binders] at spot ⊢
  rw [into]
  refine (Leads.bind _ [] _ _ {dst} {v | s.draft.vars.size ≤ v}
    (packFields_lead each insideF coversF spot) (fun fs s₁ is live₁ known₁ work taken => ?_)
    (fun v member => member.elim (absurd · (Set.notMem_empty v)) Or.inr)
    fun v member => member.elim (absurd · (Set.notMem_empty v)) Or.inl).mono (by simp) (fun _ => Or.inr)
      fun _ => Or.inr
  refine meets_emit.mpr ⟨_, _, _, Work.fill (i := .pack dst name.mangled fs) _ work.sound (place.past spot.sound work)
    rfl (by simp) rfl (fun v member => ?_) (fun v member => ?_) taken.once rfl
    (List.forall_mem_singleton.mpr (Or.inl defined)), Or.inr rfl⟩
  · exact (taken.each _ (mem_kept.mp member)).held.there
  · have own := taken.each _ (mem_given.mp member)
    exact ⟨own.held.there, own.held.value, own.moved rfl⟩

theorem cond_fills {shape : Sized.Shape} {test yes no : Sized.Expr} (tests : Fills N c test) (accepts : Fills N c yes)
    (refuses : Fills N c no) : Fills N c (.cond shape test yes no) := by
  intro generics vars live known movable s dst tail inside covers spot place kept ending
  obtain ⟨-, insideT, insideY, insideN⟩ := inside
  obtain ⟨-, coversT, coversY, coversN⟩ := covers
  rw [Sized.Expr.binders] at spot ⊢
  rw [into]
  refine Leads.bind _ _ _ _ ({v | s.draft.vars.size ≤ v} ∪ {dst}) ({v | s.draft.vars.size ≤ v} ∪ movable)
    (operand_leads tests insideT coversT spot.front) (fun t s₁ is live₁ known₁ work held => ?_)
    (fun v member => member.elim (absurd · (Set.notMem_empty v)) id)
    fun v member => member.elim (absurd · (Set.notMem_empty v)) id
  have spotB := spot.behind work
  have place₁ := place.past spot.sound work
  have keptAll : dst ∉ {v | s.draft.vars.size ≤ v ∧ v ≠ dst} ∪ movable := by
    rintro (⟨-, other⟩ | allowed)
    · exact other rfl
    · exact kept allowed
  have endingY := fun last => mem_movable work place.inside (ending last)
  refine Meets.bind (inBlock_meets spotB.sound (accepts generics vars live₁ known₁ _ s₁.cleared dst tail insideY
    coversY spotB.front.cleared place₁.cleared keptAll endingY)) fun y s₂ post => ?_
  obtain ⟨workY, inYes⟩ := post
  have spotN := spotB.behind workY
  have place₂ := place₁.past spotB.sound workY
  have endingN := fun last => mem_movable (work.trans workY) place.inside (ending last)
  refine Meets.bind (inBlock_meets spotN.sound (refuses generics vars live₁ known₁ _ s₂.cleared dst tail insideN
    coversN spotN.cleared place₂.cleared keptAll endingN)) fun n s₃ post => ?_
  obtain ⟨workN, inNo⟩ := post
  obtain ⟨live', known', there, branch⟩ := Work.branch workN.sound (place₂.past spotN.sound workN)
    ((held.later work.sound workY).later workY.sound workN)
    ((inYes.mono work.vars.size).later workY.sound.located workN)
    (inNo.mono (work.trans workY).vars.size) place.inside keptAll
  have first : Work N (yes.binders ++ no.binders) ({v | s.draft.vars.size ≤ v} ∪ {dst})
      ({v | s.draft.vars.size ≤ v} ∪ movable) live₁ known₁ s₁ _ live₁ known₁ s₃ :=
    (workY.trans workN).mono (fun _ => id) (within_empty _ _)
      (within_empty _ _)
  have last := first.trans (branch.mono (List.Subset.refl _) (fun _ => Or.inr) ?_)
  · rw [List.append_nil] at last
    exact meets_emit.mpr ⟨_, live', known', last, there⟩
  · rintro v (new | (⟨new, -⟩ | allowed))
    · exact Or.inr (Or.inl new)
    · exact Or.inr (Or.inl new)
    · exact Or.inr (Or.inr allowed)

/-- A type parameter holds a description, and a variable a value. -/
theorem disjoint_of_scope {d : Draft} {generics vars : List Tag} {live : Set VarId} (scope : d.Scope generics vars live) :
    generics.Disjoint vars := by
  intro t generic var
  obtain ⟨v, found, -, kind⟩ := scope.generics t generic
  obtain ⟨w, found', -, -, value⟩ := scope.vars t var
  obtain rfl : v = w := Option.some.inj (found.symm.trans found')
  rw [kind] at value
  cases value

theorem closure_fills (distinct : N.Apart) {shape : Sized.Shape} {params own captures : List Sized.Variable} {env : Ident}
    {envShape : Sized.Shape} {body : Sized.Expr} (inner : Fills N c body) :
    Fills N c (.closure shape params own captures env envShape body) := by
  intro generics vars live known movable s dst tail inside covers spot place kept ending
  obtain ⟨-, insideE, insideG, insideC, insideP, insideB⟩ := inside
  obtain ⟨-, lays, defined, coversV, coversB⟩ := covers
  rw [Sized.Expr.binders] at spot ⊢
  rw [into, Leads, meets_get_bind]
  dsimp only
  rw [meets_modify_bind]
  refine Meets.bind (liftClosure_meets distinct inner (fun v member => (insideG v member).2) ?_ insideB coversV
    coversB spot.once ?_ ?_) fun f s₁ post => ?_
  · exact List.forall_mem_append.mpr ⟨fun v member => (insideC v member).2, insideP⟩
  · intro t left right
    obtain ⟨g, generic, rfl⟩ := List.mem_map.mp left
    obtain ⟨x, capture, same⟩ := List.mem_map.mp right
    exact disjoint_of_scope spot.scope (insideG g generic).1 (same ▸ (insideC x capture).1)
  · refine fun t left right => spot.apart left (List.mem_append.mpr ?_)
    rcases List.mem_append.mp right with generic | capture
    · obtain ⟨g, member, rfl⟩ := List.mem_map.mp generic
      exact Or.inl (insideG g member).1
    · obtain ⟨x, member, rfl⟩ := List.mem_map.mp capture
      exact Or.inr (insideC x member).1
  · obtain ⟨built, same, lifts, kept'⟩ := post
    rw [meets_modify_bind]
    have closed := lifts.close built same
    have numbered : N.Uses s₁.closures (closureName s.closures) :=
      Or.inr ⟨s.closures, Nat.lt_of_succ_le lifts.counted, rfl⟩
    generalize lifted : Lowering.mk _ _ _ _ _ = s₂ at closed
    have draft : s₂.draft = s.draft := by rw [← lifted, kept']
    have work : Work N (Sized.variableTags params ++ body.binders) ∅ ∅ live known s [] live known s₂ :=
      Work.lifted closed draft spot.sound
    have made : Leads LowerFailure.Declared N [] {dst} ∅ live known
        (makeClosure dst (closureName s.closures) envShape env (own ++ captures)) s₂ fun live' _ _ _ => dst ∈ live' :=
      makeClosure_leads work.sound (draft ▸ spot.scope) (draft ▸ place) insideE lays defined (lifted ▸ numbered)
      (List.forall_mem_append.mpr ⟨fun v member => List.mem_append_left _ (insideG v member).1,
        fun v member => List.mem_append_right _ (insideC v member).1⟩)
    have widened : Work N _ {dst} movable live known s [] live known s₂ :=
      work.mono (fun _ => id) (within_empty _ _) (within_empty _ _)
    have whole := made.after {dst} ∅ widened (fun _ => Or.inr) (within_empty _ _)
    rw [List.append_nil] at whole
    exact whole

theorem into_fills (distinct : N.Apart) (e : Sized.Expr) : Fills N c e := by
  induction e with
  | var shape name => exact var_fills shape name
  | number shape text bits =>
    intro generics vars live known movable s dst tail inside covers spot place kept ending
    rw [into]
    exact fill_leads _ spot.sound place rfl (by simp) rfl (by simp [directUsage]) rfl rfl (by simp [Instr.mentions])
  | bool shape value =>
    intro generics vars live known movable s dst tail inside covers spot place kept ending
    rw [into]
    exact fill_leads _ spot.sound place rfl (by simp) rfl (by simp [directUsage]) rfl rfl (by simp [Instr.mentions])
  | callDirect shape function args witnesses ih => exact callDirect_fills ih
  | callClosure shape callee args ihCallee ih => exact callClosure_fills ihCallee ih
  | primitive shape op left right ihLeft ihRight =>
    intro generics vars live known movable s dst tail inside covers spot place kept ending
    obtain ⟨-, insideL, insideR⟩ := inside
    obtain ⟨-, coversL, coversR⟩ := covers
    rw [Sized.Expr.binders] at spot ⊢
    rw [into]
    refine Leads.before _ _ (operand_leads ihLeft insideL coversL spot.front)
      fun l s₁ is live₁ known₁ work heldL => ?_
    refine (Leads.before _ [] (operand_leads ihRight insideR coversR (spot.behind work))
      fun r s₂ js live₂ known₂ work₂ heldR => ?_).mono (by simp) (fun _ => Or.inr) fun _ => Or.inr
    refine fill_leads _ work₂.sound ((place.past spot.sound work).past work.sound work₂) rfl (by simp) rfl ?_ rfl rfl
      (by simp [Instr.mentions])
    simpa [directUsage] using ⟨(heldL.later work.sound work₂).there, heldR.there⟩
  | block shape bs result ih ihResult => exact block_fills ih ihResult
  | pack shape name fields ih => exact pack_fills ih
  | unpack shape value field ih =>
    intro generics vars live known movable s dst tail inside covers spot place kept ending
    rw [Sized.Expr.binders] at spot ⊢
    rw [into]
    refine (Leads.before _ [] (operand_leads ih inside.2 covers.2 spot)
      fun v s₁ is live₁ known₁ work held => ?_).mono (by simp) (fun _ => Or.inr) fun _ => Or.inr
    exact fill_leads _ work.sound (place.past spot.sound work) rfl
      (by simp) rfl (by simpa [directUsage] using held.there) rfl rfl (by simp [Instr.mentions])
  | cond shape test yes no ihTest ihYes ihNo => exact cond_fills ihTest ihYes ihNo
  | closure shape params own captures env envShape body ih => exact closure_fills distinct ih

end Expressions

section Functions

variable {N : Naming} {c : Sized.Context} {s : Lowering}

/-- A function that names definitions and declared variables only. -/
structure Naming.CoversFunction (N : Naming) (result : Sized.Variable) (params generics : List Sized.Variable)
    (f : Sized.Function) : Prop where
  result : result.name.mangled = "_result" ∧ N.Lays result.shape
  arguments : ∀ v ∈ params ++ generics, N.declared v.name ∧ N.Lays v.shape
  body : N.Covers f.body

theorem forall₂_mem_zipWith {α β γ : Type} {R : α → β → Prop} {as : List α} {bs : List β}
    (all : List.Forall₂ R as bs) (f : α → β → γ) :
    List.Forall₂ (fun a b => f a b ∈ List.zipWith f as bs) as bs := by
  induction all with
  | nil => exact .nil
  | cons _ _ ih => exact .cons (by simp) (ih.imp fun _ _ member => List.mem_cons_of_mem _ member)

def borrowed (v : Sized.Variable) : Sized.Argument := ⟨v, .borrowed⟩

theorem partition_descriptions {result : Sized.Variable} {params generics : List Sized.Variable}
    (kinds : ∀ v ∈ generics, v.IsDescription c)
    (values : ∀ v ∈ result :: params, v.shape.layout.witness ≠ .type) :
    (⟨result, .out⟩ :: params.map borrowed ++ generics.map borrowed).partition (fun a => isDescription a.var) =
      (generics.map borrowed, ⟨result, .out⟩ :: params.map borrowed) := by
  have value : ∀ v ∈ result :: params, isDescription v = false := by
    intro v member
    have other := values v member
    rw [isDescription]
    split
    · exact absurd ‹_› other
    · rfl
  have description : ∀ v ∈ generics, isDescription v = true := by
    intro v member
    rw [isDescription, (kinds v member).layout.1]
  rw [List.forall_mem_cons] at value
  have first : (params.map borrowed).filter (fun a => isDescription a.var) = [] := by
    simpa [borrowed] using value.2
  have second : (generics.map borrowed).filter (fun a => isDescription a.var) = generics.map borrowed := by
    simpa [List.filter_eq_self, borrowed] using description
  have third : (params.map borrowed).filter (fun a => !isDescription a.var) = params.map borrowed := by
    simpa [List.filter_eq_self, borrowed] using value.2
  have fourth : (generics.map borrowed).filter (fun a => !isDescription a.var) = [] := by
    simpa [borrowed] using description
  simp only [List.partition_eq_filter_filter, List.filter_append, List.cons_append, List.filter_cons, value.1,
    Function.comp_def, first, second, third, fourth]
  simp

def tagged (a : Sized.Argument) (v : VarId) : Tag × Argument := (a.var.name.tag, ⟨v, a.convention⟩)

def declareArgument (a : Sized.Argument) : Lower (Tag × Argument) := do
  return tagged a (← define a.var)

/-- The place of the result is declared before the parameters, which hold values from the start. -/
theorem values_meet {allowed : LowerFailure → Prop} {result : Sized.Variable} {params : List Sized.Variable}
    {generics : List Tag} {live known : Set VarId} (sound : s.draft.Sound live known)
    (scope : s.draft.Scope generics [] live)
    (inside : ∀ v ∈ result :: params, ∀ x ∈ v.shape.layout.names, x.tag ∈ generics)
    (lays : ∀ v ∈ result :: params, N.Lays v.shape) (once : (Sized.variableTags params).Nodup)
    (apart : (Sized.variableTags (result :: params)).Disjoint generics) :
    Meets allowed ((⟨result, .out⟩ :: params.map borrowed).mapM declareArgument) s fun bs s' =>
      ∃ r vs is live' known', bs = tagged ⟨result, .out⟩ r :: List.zipWith tagged (params.map borrowed) vs ∧
        (∀ v ∈ vs, s.draft.vars.size ≤ v) ∧
        Work N (Sized.variableTags (result :: params)) ∅ ∅ (live ∪ {v | v ∈ vs}) (known ∪ {v | v ∈ vs}) s is
          live' known' s' ∧
        List.Forall₂ (Input live' s'.draft) params vs ∧ s'.draft.Open live' known' r ∧
        nameOf s'.draft.vars r = result.name.mangled ∧
        ∀ tags, s.draft.Owns N tags → s'.draft.Owns N tags := by
  rw [List.forall_mem_cons] at inside lays
  have apartP : (Sized.variableTags params).Disjoint generics := fun t left right =>
    apart (List.mem_cons_of_mem _ left) right
  rw [List.mapM_cons, declareArgument, bind_assoc]
  refine Meets.bind (define_leads sound scope inside.1 lays.1) fun r s₁ post => ?_
  obtain ⟨is₁, live₁, known₁, work₁, fresh, -, owns₁⟩ := post
  rw [meets_pure_bind]
  have scope₁ := scope.later sound.held work₁ (List.singleton_disjoint.mpr fun member =>
    apart List.mem_cons_self (by simpa using member))
  have tags : (params.map borrowed).map (fun a => a.var.name.tag) = Sized.variableTags params := by
    simp [Sized.variableTags, borrowed]
  refine Meets.bind (inputs_meets (N := N) (m := declareArgument) _ (fun _ => rfl) work₁.sound scope₁
    (List.forall_mem_map.mpr inside.2) (List.forall_mem_map.mpr lays.2) (tags ▸ once)
    (by simpa [tags] using apartP)) fun bs s₂ post => ?_
  obtain ⟨vs, is₂, live₂, known₂, made, behind, work₂, inputs, owns₂⟩ := post
  rw [tags] at work₂
  rw [List.forall₂_map_left_iff] at inputs
  rw [meets_pure]
  refine ⟨r, vs, _, live₂, known₂, by rw [made], fun v member => Nat.le_trans work₁.vars.size (behind v member),
    work₁.beside sound.held work₂ behind, inputs, fresh.place.beside work₁.sound work₂ behind, ?_, fun tags owned => owns₂ tags (owns₁ tags owned)⟩
  rw [work₂.vars.nameOf fresh.place.inside, fresh.name]

/-- The declared arguments in their order. -/
theorem arguments_eq {R S : Sized.Variable → VarId → Prop} {result : Sized.Variable}
    {params generics : List Sized.Variable} {r : VarId} {vs ws : List VarId}
    (first : List.Forall₂ R params vs) (second : List.Forall₂ S generics ws)
    (once : (Sized.variableTags generics ++ Sized.variableTags (result :: params)).Nodup) :
    (⟨result, .out⟩ :: params.map borrowed ++ generics.map borrowed).map (fun a =>
      ((List.zipWith tagged (generics.map borrowed) ws ++ tagged ⟨result, .out⟩ r ::
        List.zipWith tagged (params.map borrowed) vs).lookup a.var.name.tag).getD default) =
      ⟨r, .out⟩ :: (vs ++ ws).map (⟨·, .borrowed⟩) := by
  have keys : ∀ {T : Sized.Variable → VarId → Prop} {xs : List Sized.Variable} {us : List VarId},
      List.Forall₂ T xs us → (List.zipWith tagged (xs.map borrowed) us).map (·.1) = Sized.variableTags xs := by
    intro T xs us all
    induction all with
    | nil => rfl
    | cons _ _ ih => exact congrArg _ ih
  generalize definedIs : List.zipWith tagged (generics.map borrowed) ws ++ tagged ⟨result, .out⟩ r ::
    List.zipWith tagged (params.map borrowed) vs = defined
  have distinct : (defined.map (·.1)).Nodup := by
    rw [← definedIs, List.map_append, List.map_cons, keys first, keys second]
    exact once
  have look : ∀ {T : Sized.Variable → VarId → Prop} {xs : List Sized.Variable} {us : List VarId},
      List.Forall₂ T xs us → List.zipWith tagged (xs.map borrowed) us ⊆ defined →
      (xs.map borrowed).map (fun a => (defined.lookup a.var.name.tag).getD default) =
        us.map (⟨·, .borrowed⟩) := by
    intro T xs us all part
    rw [List.zipWith_map_left] at part
    rw [List.map_map]
    refine (map_eq_of_forall₂ (forall₂_mem_zipWith all fun x u => tagged (borrowed x) u) fun x u member => ?_).symm
    rw [Function.comp_apply, lookup_of_nodup distinct (part member)]
    rfl
  rw [List.map_append, List.map_cons, look first ?_, look second ?_, List.map_append, List.cons_append,
    lookup_of_nodup distinct (b := ⟨r, .out⟩) ?_]
  · rfl
  · rw [← definedIs]
    exact List.mem_append_right _ List.mem_cons_self
  · rw [← definedIs]
    exact List.subset_append_left _ _
  · rw [← definedIs]
    exact fun e member => List.mem_append_right _ (List.mem_cons_of_mem _ member)

theorem lowerFunction_meets (distinct : N.Apart) {f : Sized.Function} {result : Sized.Variable}
    {params generics : List Sized.Variable} (inside : f.Scoped c result params generics)
    (covers : N.CoversFunction result params generics f) :
    Meets LowerFailure.Declared (lowerFunction f) s fun g s' =>
      g.Built N s.target s'.closures ∧ g.name = f.name.mangled ∧ Lifts N s s' ∧ s'.draft = s.draft := by
  have shape : f.arguments = ⟨result, .out⟩ :: params.map borrowed ++ generics.map borrowed := inside.arguments
  have once : (result.name.tag :: (Sized.variableTags params ++ Sized.variableTags generics) ++ f.body.binders).Nodup := by
    have all := inside.once
    rw [shape] at all
    simpa [Sized.variableTags, borrowed, Function.comp_def] using all
  rw [List.cons_append, List.nodup_cons, List.append_assoc, List.nodup_append', List.nodup_append'] at once
  obtain ⟨newR, onceP, ⟨onceG, onceB, apartG⟩, apartP⟩ := once
  simp only [List.mem_append, not_or] at newR
  obtain ⟨newRP, newRG, newRB⟩ := newR
  rw [List.disjoint_append_right] at apartP
  rw [lowerFunction, meets_beside, shape, partition_descriptions inside.descriptions
    fun v member => (inside.values v member).layout.value]
  dsimp only
  generalize startIs : ({ s with draft := {} } : Lowering) = s₀
  have empty : s₀.draft = {} := by rw [← startIs]
  have lifts : Lifts N s s₀ := startIs ▸ Lifts.of_draft
  have sound : s₀.draft.Sound ∅ ∅ := empty ▸ sound_empty
  have tags : (generics.map borrowed).map (fun a => a.var.name.tag) = Sized.variableTags generics := by
    simp [Sized.variableTags, borrowed]
  rw [show (fun a : Sized.Argument => (do return (a.var.name.tag, Argument.mk (← define a.var) a.convention) :
    Lower (Tag × Argument))) = declareArgument from rfl, List.mapM_append, bind_assoc]
  -- Type descriptions first.
  refine Meets.bind (inputs_meets (N := N) (m := declareArgument) _ (fun _ => rfl) sound
    (show s₀.draft.Scope [] [] ∅ from ⟨by simp, by simp⟩) (List.forall_mem_map.mpr fun v member => ?_) (List.forall_mem_map.mpr fun v member => ?_)
    (tags ▸ onceG) (List.disjoint_nil_right _)) fun gs s₁ post => ?_
  · simp [borrowed, (inside.descriptions v member).layout.2]
  · exact (covers.arguments v (List.mem_append_right _ member)).2
  obtain ⟨vsG, is₁, live₁, known₁, madeG, -, work₁, inputsG, owns₁⟩ := post
  rw [tags] at work₁
  rw [List.forall₂_map_left_iff] at inputsG
  have scope₁ := scope_of_inputs inputsG inside.descriptions
  -- Then the other arguments, in terms of them.
  rw [bind_assoc]
  refine Meets.bind (values_meet (N := N) work₁.sound scope₁ (fun v member => (inside.values v member).layout.names)
    (List.forall_mem_cons.mpr ⟨covers.result.2, fun v member => (covers.arguments v (List.mem_append_left _ member)).2⟩)
    onceP (List.disjoint_cons_left.mpr ⟨newRG, apartP.1⟩)) fun bs s₂ post => ?_
  obtain ⟨r, vs, is₂, live₂, known₂, madeP, behind, work₂, inputs, place, nameR, owns₂⟩ := post
  rw [meets_pure_bind, madeG, madeP, arguments_eq inputs inputsG]
  · have held₁ : live₁ ∪ {v | v ∈ vs} ⊆ known₁ ∪ {v | v ∈ vs} :=
      Set.union_subset_union_left _ work₁.sound.held
    have begun := work₁.beside subset_rfl work₂ behind
    have spot : Spot (Sized.variableTags generics) (Sized.variableTags params) f.body.binders live₂ known₂ s₂ := by
      refine ⟨work₂.sound, ((scope₁.more fun _ => Or.inl).later held₁ work₂ ?_).inputs inputs fun p param =>
        (inside.values p (List.mem_cons_of_mem _ param)).layout.value, onceB, ?_⟩
      · rw [List.append_nil]
        exact List.disjoint_cons_left.mpr ⟨newRG, apartP.1⟩
      · rw [List.disjoint_append_right]
        exact ⟨fun t left right => apartG right left, fun t left right => apartP.2 right left⟩
    have owns : s₂.draft.Owns N [] := owns₂ [] (owns₁ [] (by simp [Draft.Owns, empty]))
    rw [covers.result.1] at nameR
    -- The result is no local, so nothing takes it away again.
    have foreign : r ∉ {v | v ∈ s₂.draft.locals} := fun owned => (owns r owned).ne_result distinct nameR.symm
    refine Meets.bind (into_fills distinct f.body _ _ live₂ known₂ {v | v ∈ s₂.draft.locals} s₂ r true inside.body
      covers.body spot place foreign fun _ v member => member) fun _ s₃ post => ?_
    obtain ⟨is₃, live₃, known₃, work₃, -⟩ := post
    have owns₃ := work₃.owns work₂.sound.locals owns
    have whole := (begun.mono (fun _ => id) (within_empty _ _) (within_empty _ _)).then {r} {v | v ∈ s₂.draft.locals} work₃
      (fun _ => Or.inr) fun _ => Or.inr
    have start : (∅ ∪ {v | v ∈ vsG}) ∪ {v | v ∈ vs} = {v | v ∈ vs ++ vsG} := by
      ext v
      simp [or_comm]
    rw [start] at whole
    have nameR₃ : nameOf s₃.draft.vars r = "_result" := by rw [work₃.vars.nameOf place.inside, nameR]
    have extend := work₂.vars.trans work₃.vars
    have names : (vs ++ vsG).map (nameOf s₃.draft.vars) = (params ++ generics).map (·.name.mangled) := by
      rw [List.map_append, List.map_append]
      congr 1
      · exact map_eq_of_forall₂ inputs fun p v input => by rw [work₃.vars.nameOf input.inside, input.name]
      · exact map_eq_of_forall₂ inputsG fun g v input => by rw [extend.nameOf input.inside, input.name]; rfl
    have declared := fun v member => (covers.arguments v member).1
    have instrs : s₀.draft.instrs = #[] := by rw [empty]
    refine (finish_meets _ _ whole instrs rfl ?_ ?_ ?_).imp fun g t post => ?_
    · rw [List.forall_mem_cons, List.forall_mem_append]
      exact ⟨Nat.lt_of_lt_of_le place.inside work₃.vars.size, inputs_inside inputs work₃.vars.size,
        inputs_inside inputsG extend.size⟩
    · rw [List.map_cons, names, nameR₃, List.nodup_cons]
      refine ⟨distinct.result_not_mem declared, distinct.nodup declared ?_⟩
      rw [Sized.variableTags, List.map_append, List.nodup_append']
      exact ⟨onceP, onceG, apartP.1⟩
    · rw [List.forall_mem_cons, nameR₃]
      refine ⟨fun w owned => (owns₃ w owned).ne_result distinct, owns₃.arguments_apart distinct names declared ?_⟩
      rw [Sized.variableTags, List.map_append, List.nil_append, List.disjoint_append_left]
      exact ⟨apartP.2, apartG⟩
    · obtain ⟨built, same, kept⟩ := post
      rw [kept]
      have all := lifts.trans whole.lifts
      exact ⟨all.target ▸ built, same, { all with }, rfl⟩
  · rw [List.nodup_append']
    exact ⟨onceG, List.nodup_cons.mpr ⟨newRP, onceP⟩, List.disjoint_cons_right.mpr
      ⟨newRG, fun t left right => apartP.1 right left⟩⟩

/-- What has been lowered of a program is in its place; nothing is under construction. -/
structure Lowering.Between (target : Target) (s : Lowering) : Prop where
  target : s.target = target
  lifted : s.lifted = []

/-- A function with the bodies of its closures behind it. -/
structure Grouped (N : Naming) (target : Target) (first closures : Nat) (f : Sized.Function)
    (group : List Function) : Prop where
  built : ∀ g ∈ group, g.Built N target closures
  counted : first ≤ closures
  names : (group.map (·.name)).Perm
    (f.name.mangled :: (List.range' first (closures - first)).map closureName)

theorem lowerWithClosures_meets (distinct : N.Apart) {target : Target} {f : Sized.Function} {result : Sized.Variable}
    {params generics : List Sized.Variable} (inside : f.Scoped c result params generics)
    (covers : N.CoversFunction result params generics f) (between : s.Between target) :
    Meets LowerFailure.Declared (lowerWithClosures f) s fun group s' =>
      Grouped N target s.closures s'.closures f group ∧ s'.Between target := by
  rw [lowerWithClosures]
  refine Meets.bind (lowerFunction_meets distinct inside covers) fun g s₁ post => ?_
  obtain ⟨built, name, lifts, -⟩ := post
  rw [meets_get_bind]
  dsimp only
  rw [meets_modify_bind, meets_pure]
  obtain ⟨fs, gathered, each, names⟩ := lifts.lifted
  rw [between.lifted, List.nil_append] at gathered
  rw [between.target] at built each
  refine ⟨⟨?_, lifts.counted, ?_⟩, lifts.target.trans between.target, rfl⟩
  · rw [gathered]
    exact List.forall_mem_cons.mpr ⟨built, each⟩
  · rw [gathered, List.map_cons, name]
    exact names.cons _

end Functions

/-- A program that names definitions and declared variables only. -/
structure Naming.CoversProgram (N : Naming) (c : Sized.Context) (p : Sized.Program) : Prop where
  structs : ∀ s ∈ p.structs, s.Scoped c ∧ (Sized.variableTags s.arguments).Nodup ∧ ∀ f ∈ s.fields, N.Lays f.shape
  functions : ∀ f ∈ p.functions, ∃ result params generics,
    f.Scoped c result params generics ∧ N.CoversFunction result params generics f

theorem Naming.CoversProgram.scoped {N : Naming} {c : Sized.Context} {p : Sized.Program} (covers : N.CoversProgram c p) :
    ∀ f ∈ p.functions, ∃ result params generics, f.Scoped c result params generics := by
  intro f member
  obtain ⟨result, params, generics, own, -⟩ := covers.functions f member
  exact ⟨result, params, generics, own⟩

/-- A program and what it was lowered to, where some closures have been numbered. -/
structure Program.Lowered (N : Naming) (p : Sized.Program) (closures : Nat) (r : Program) : Prop where
  unit : r.unit = p.unit
  target : r.target = p.target
  structs : List.Forall₂ (StructLowered N closures) p.structs r.structs
  functions : ∀ f ∈ r.functions, f.Built N p.target closures
  names : (r.functions.map (·.name)).Perm
    (p.functions.map (·.name.mangled) ++ (List.range closures).map closureName)

section Programs

variable {N : Naming} {c : Sized.Context} {s : Lowering} {target : Target}

theorem StructLowered.mono {n m : Nat} {d : Sized.Struct} {r : Struct} (lowered : StructLowered N n d r)
    (more : n ≤ m) : StructLowered N m d r :=
  { lowered with fine := lowered.fine.mono more }

theorem lowerStructs_meet {ds : List Sized.Struct}
    (each : ∀ s ∈ ds, s.Scoped c ∧ (Sized.variableTags s.arguments).Nodup ∧ ∀ f ∈ s.fields, N.Lays f.shape)
    (between : s.Between target) :
    Meets LowerFailure.Declared (ds.mapM lowerStruct) s fun rs s' =>
      List.Forall₂ (StructLowered N s.closures) ds rs ∧ s'.closures = s.closures ∧ s'.Between target := by
  induction ds generalizing s with
  | nil =>
    rw [List.mapM_nil, meets_pure]
    exact ⟨.nil, rfl, between⟩
  | cons d rest ih =>
    rw [List.forall_mem_cons] at each
    obtain ⟨⟨inside, once, lays⟩, others⟩ := each
    have first : Meets LowerFailure.Declared (lowerStruct d) s _ :=
      lowerStruct_meets inside once lays fun _ _ _ _ => trivial
    rw [List.mapM_cons]
    have steady : Meets LowerFailure.Declared (lowerStruct d) s fun r s₁ => StructLowered N s.closures d r ∧
        s₁.closures = s.closures ∧ s₁.Between target := by
      rw [meets_iff] at first ⊢
      refine ⟨fun r s₁ ends => ?_, first.2⟩
      obtain ⟨own, lifts, -⟩ := first.1 r s₁ ends
      obtain ⟨counted, lifted⟩ : s₁.closures = s.closures ∧ s₁.lifted = s.lifted := by
        rw [(lowerStruct_ends ends).2]
        exact ⟨rfl, rfl⟩
      exact ⟨counted ▸ own, counted, lifts.target.trans between.target, lifted.trans between.lifted⟩
    refine Meets.bind steady fun r s₁ post => ?_
    obtain ⟨own, counted, between₁⟩ := post
    refine Meets.bind (ih others between₁) fun rs s₂ post => ?_
    obtain ⟨all, counted₂, between₂⟩ := post
    rw [meets_pure]
    exact ⟨.cons own (counted ▸ all), counted₂.trans counted, between₂⟩

theorem lowerFunctions_meet (distinct : N.Apart) {fs : List Sized.Function}
    (each : ∀ f ∈ fs, ∃ result params generics,
      f.Scoped c result params generics ∧ N.CoversFunction result params generics f)
    (between : s.Between target) :
    Meets LowerFailure.Declared (fs.mapM lowerWithClosures) s fun groups s' =>
      (∀ g ∈ groups.flatten, g.Built N target s'.closures) ∧ s.closures ≤ s'.closures ∧
        (groups.flatten.map (·.name)).Perm (fs.map (·.name.mangled) ++
          (List.range' s.closures (s'.closures - s.closures)).map closureName) := by
  induction fs generalizing s with
  | nil =>
    rw [List.mapM_nil, meets_pure]
    exact ⟨by simp, Nat.le_refl _, by simp⟩
  | cons f rest ih =>
    rw [List.forall_mem_cons] at each
    obtain ⟨⟨result, params, generics, inside, covers⟩, others⟩ := each
    rw [List.mapM_cons]
    refine Meets.bind (lowerWithClosures_meets distinct inside covers between) fun group s₁ post => ?_
    obtain ⟨grouped, between₁⟩ := post
    refine Meets.bind (ih others between₁) fun groups s₂ post => ?_
    obtain ⟨all, counted, names⟩ := post
    rw [meets_pure, List.flatten_cons]
    have numbers : List.range' s.closures (s₂.closures - s.closures) =
        List.range' s.closures (s₁.closures - s.closures) ++ List.range' s₁.closures (s₂.closures - s₁.closures) := by
      have first := grouped.counted
      rw [show s₂.closures - s.closures = (s₁.closures - s.closures) + (s₂.closures - s₁.closures) by omega,
        ← List.range'_append, Nat.one_mul, Nat.add_sub_cancel' first]
    refine ⟨List.forall_mem_append.mpr ⟨fun g member => (grouped.built g member).mono counted, all⟩,
      Nat.le_trans grouped.counted counted, ?_⟩
    rw [numbers, List.map_append, List.map_append, List.map_cons]
    refine (grouped.names.append names).trans ?_
    rw [List.cons_append, List.cons_append, List.perm_cons, ← List.append_assoc, ← List.append_assoc]
    exact List.perm_append_comm.append_right _

theorem gives_of_meets {ε σ α : Type} {allowed : ε → Prop} {m : ExceptT ε (StateM σ) α} {s : σ} {post : α → Prop}
    (meets : Meets allowed m s fun a _ => post a) : Gives allowed (m.run.run s).1 post := by
  rw [Meets, outcome] at meets
  rcases ran : m.run.run s with ⟨⟨e⟩ | ⟨a⟩, s'⟩ <;> rwa [ran] at meets

/-- Lowering never finds a program broken that hangs together. -/
theorem lower_gives (distinct : N.Apart) {p : Sized.Program} (covers : N.CoversProgram c p) :
    Gives LowerFailure.Declared (lower p) fun r => ∃ closures, Program.Lowered N p closures r := by
  have all : Meets LowerFailure.Declared (do
      let structs ← p.structs.mapM lowerStruct
      let functions ← p.functions.mapM lowerWithClosures
      return (⟨p.unit, p.target, structs, functions.flatten⟩ : Program))
      { target := p.target, layouts := ⟨p.target, []⟩ } fun r _ => ∃ closures, Program.Lowered N p closures r := by
    refine Meets.bind (lowerStructs_meet covers.structs ⟨rfl, rfl⟩) fun structs s₁ post => ?_
    obtain ⟨each, counted, between⟩ := post
    refine Meets.bind (lowerFunctions_meet distinct covers.functions between) fun groups s₂ post => ?_
    obtain ⟨built, -, names⟩ := post
    rw [counted] at names
    rw [meets_pure]
    refine ⟨s₂.closures, rfl, rfl, ?_, built, ?_⟩
    · exact each.imp fun d r own => own.mono (Nat.zero_le _)
    · simpa [List.range_eq_range'] using names
  exact gives_of_meets all

end Programs

end WitnessLang.Ir
