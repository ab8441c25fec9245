import WitnessLang.Proofs.Ir.Witness

set_option autoImplicit false

namespace WitnessLang.Ir

open Ownership

/-- A variable that holds the value of a declared one. -/
structure Input (live : Set VarId) (d : Draft) (x : Sized.Variable) (v : VarId) : Prop where
  found : d.scope.lookup x.name.tag = some v
  there : v ∈ live
  inside : v < d.vars.size
  name : nameOf d.vars v = x.name.mangled
  type : isWitness d.vars v = true ↔ x.shape.layout.witness = .type

section Inputs

variable {allowed : LowerFailure → Prop} {N : Naming} {bound bound' generics vars : List Tag}
  {writable live known live' known' live'' known'' extra : Set VarId} {s s' s'' : Lowering}
  {is js : Block}

theorem Input.more {d : Draft} {x : Sized.Variable} {v : VarId} (input : Input live d x v)
    (more : live ⊆ live') : Input live' d x v :=
  { input with there := more input.there }

theorem Input.later {x : Sized.Variable} {v : VarId} (input : Input live s.draft x v)
    (held : live ⊆ known) (work : Work N bound writable ∅ live known s is live' known' s')
    (apart : x.name.tag ∉ bound) : Input live' s'.draft x v where
  found := (work.scope _ apart).trans input.found
  there := work.keeps held input.there input.inside
  inside := Nat.lt_of_lt_of_le input.inside work.vars.size
  name := (work.vars.nameOf input.inside).trans input.name
  type := by rw [work.vars.isWitness input.inside, input.type]

theorem Work.mem_known (work : Work N bound ∅ ∅ live known s is live' known' s')
    (held : live ⊆ known) {v : VarId} (touched : v ∈ blockWrites is ∨ v ∈ blockMoves is) :
    v ∈ known' := by
  by_cases written : v ∈ blockWrites is
  · exact (work.flows.writes v written).2
  · have moved := touched.resolve_left written
    have used := work.flows.used (work.flows.uses_of_moves moved) written
    exact work.flows.known_subset (held used)

/-- A variable that is still to be filled may hold a value from the start. -/
theorem Work.give (work : Work N bound ∅ ∅ live known s is live' known' s') (held : live ⊆ known)
    {v : VarId} (place : s'.draft.Open live' known' v) :
    Work N bound ∅ ∅ (live ∪ {v}) (known ∪ {v}) s is (live' ∪ {v}) (known' ∪ {v}) s' :=
  { work with
    sound := { work.sound with
      held := Set.union_subset_union_left _ work.sound.held
      inside := by
        rintro w (old | rfl)
        · exact work.sound.inside w old
        · exact place.inside
      described := by
        rintro w (old | rfl) l described
        · exact Or.inl (work.sound.described w old l described)
        · exact Or.inl (place.described l described)
      cached := fun e member => (work.sound.cached e member).imp Or.inl id }
    flows := flows_frame work.flows
      (fun w written same => place.fresh (same ▸ work.mem_known held (Or.inl written)))
      fun w moved same => place.fresh (same ▸ work.mem_known held (Or.inr moved)) }

/-- Work before variables are added that hold values from the start is work beside them. -/
theorem Work.beside (first : Work N bound ∅ ∅ live known s is live' known' s') (held : live ⊆ known)
    (second : Work N bound' ∅ ∅ (live' ∪ extra) (known' ∪ extra) s' js live'' known'' s'')
    (new : ∀ v ∈ extra, s'.draft.vars.size ≤ v) :
    Work N (bound ++ bound') ∅ ∅ (live ∪ extra) (known ∪ extra) s (is ++ js) live'' known'' s'' := by
  have apart : ∀ v, v ∈ blockWrites is ∨ v ∈ blockMoves is → v ∉ extra := fun v touched member =>
    absurd (first.sound.inside v (first.mem_known held touched)) (Nat.not_lt.mpr (new v member))
  exact first.join (flows_frame first.flows (fun v written => apart v (Or.inl written))
    fun v moved => apart v (Or.inr moved)) second

/-- Arguments are declared one after the other; `m` declares one of them. -/
theorem inputs_meets {α β : Type} (var : α → Sized.Variable) {make : α → VarId → β}
    {m : α → Lower β} (runs : ∀ a, m a = do return make a (← define (var a))) {items : List α}
    (sound : s.draft.Sound live known) (scope : s.draft.Scope generics vars live)
    (inside : ∀ a ∈ items, ∀ x ∈ (var a).shape.layout.names, x.tag ∈ generics)
    (defined : ∀ a ∈ items, N.Describes (var a).shape.layout.witness.constructors)
    (once : (items.map fun a => (var a).name.tag).Nodup)
    (apart : (items.map fun a => (var a).name.tag).Disjoint (generics ++ vars)) :
    Meets allowed (items.mapM m) s fun bs s' => ∃ vs is live' known',
      bs = List.zipWith make items vs ∧ (∀ v ∈ vs, s.draft.vars.size ≤ v) ∧
      Work N (items.map fun a => (var a).name.tag) ∅ ∅ (live ∪ {v | v ∈ vs}) (known ∪ {v | v ∈ vs})
        s is live' known' s' ∧
      List.Forall₂ (fun a v => Input live' s'.draft (var a) v) items vs ∧
      ∀ tags, s.draft.Owns N tags → s'.draft.Owns N tags := by
  induction items generalizing live known s with
  | nil =>
    rw [List.mapM_nil, meets_pure]
    refine ⟨[], [], live, known, rfl, by simp, ?_, .nil, fun _ => id⟩
    simpa using Work.refl _ _ sound
  | cons a rest ih =>
    rw [List.forall_mem_cons] at inside defined
    obtain ⟨new, once⟩ := List.nodup_cons.mp once
    rw [List.map_cons, List.disjoint_cons_left] at apart
    rw [List.mapM_cons, runs, bind_assoc]
    refine Meets.bind (define_leads sound scope inside.1 defined.1)
      fun v s₁ post => ?_
    obtain ⟨is, live₁, known₁, own, fresh, found, owns⟩ := post
    rw [meets_pure_bind]
    have given := own.give sound.held fresh.place
    have input : Input (live₁ ∪ {v}) s₁.draft (var a) v :=
      ⟨found, Or.inr rfl, fresh.place.inside, fresh.name, fresh.type⟩
    have scope₁ : s₁.draft.Scope generics vars (live₁ ∪ {v}) :=
      (scope.later sound.held own (List.singleton_disjoint.mpr apart.1)).more fun _ => Or.inl
    refine Meets.bind (ih given.sound scope₁ inside.2 defined.2 once apart.2)
      fun bs s₂ post => ?_
    obtain ⟨vs, js, live₂, known₂, made, behind, others, inputs, ownsR⟩ := post
    rw [meets_pure]
    have all : ∀ set : Set VarId, set ∪ {v} ∪ {w | w ∈ vs} = set ∪ {w | w ∈ v :: vs} := by
      intro set
      ext w
      simp [or_assoc, or_left_comm]
    have together := given.beside (Set.union_subset_union_left _ sound.held) others behind
    rw [all, all] at together
    refine ⟨v :: vs, is ++ js, live₂, known₂, by rw [made]; rfl, List.forall_mem_cons.mpr
      ⟨fresh.new, fun w member => Nat.le_trans own.vars.size (behind w member)⟩, together,
      .cons ((input.more fun _ => Or.inl).later (Set.union_subset_union_left _ given.sound.held) others
        new) inputs, fun tags owned => ownsR tags (owns tags owned)⟩

end Inputs

section Structs

variable {allowed : LowerFailure → Prop} {N : Naming} {generics vars : List Tag}
  {live known live' known' : Set VarId} {s s' : Lowering} {is : Block}

/-- A field that was lowered: the same name and type, the same bytes, and the variables behind what
comes on top. -/
structure FieldLowered (d : Draft) (f : Sized.Field) (f' : Field) : Prop where
  name : f'.name = f.name
  type : f'.type = f.shape.type
  static : f'.size.static = f.shape.layout.size.static
  dynamic : List.Forall₂ (fun x v => d.scope.lookup x.tag = some v) f.shape.layout.size.dynamic
    f'.size.dynamic

theorem fields_lead {fs : List Sized.Field} (sound : s.draft.Sound live known)
    (scope : s.draft.Scope generics vars live)
    (inside : ∀ f ∈ fs, ∀ x ∈ f.shape.layout.names, x.tag ∈ generics)
    (defined : ∀ f ∈ fs, N.Describes f.shape.layout.witness.constructors) :
    Leads allowed N [] ∅ ∅ live known (fs.mapM fun f => do
      let witness ← lowerWitness f.shape.type f.shape.layout.witness
      return Field.mk f.name f.shape.type witness (← lowerSize f.shape.layout.size)) s
      fun _ _ fs' s' => List.Forall₂ (FieldLowered s'.draft) fs fs' := by
  induction fs generalizing live known s with
  | nil =>
    rw [List.mapM_nil]
    exact leads_pure sound .nil
  | cons f rest ih =>
    rw [List.forall_mem_cons] at inside defined
    have own := inside.1
    rw [Sized.Layout.names, List.forall_mem_append] at own
    rw [List.mapM_cons, bind_assoc]
    refine Leads.before _ _ (lowerWitness_leads sound scope own.1 defined.1)
      fun w s₁ is live₁ known₁ work _ => ?_
    have scope₁ := scope.later sound.held work (List.disjoint_nil_left _)
    rw [Leads, bind_assoc]
    refine Meets.bind (lowerSize_meets fun x member => ?_) fun size s₂ post => ?_
    · obtain ⟨v, found, -⟩ := scope₁.generics x.tag (own.2 x member)
      exact ⟨v, found⟩
    obtain ⟨static, dynamic, kept⟩ := post
    rw [kept, meets_pure_bind]
    refine Leads.before _ _ (ih work.sound scope₁ inside.2 defined.2)
      fun fs' s₃ js live₃ known₃ later others => ?_
    refine leads_pure later.sound (.cons ⟨rfl, rfl, static, dynamic.imp fun x v found => ?_⟩ others)
    rw [later.scope _ List.not_mem_nil, found]

theorem meets_beside {α : Type} {m : Lower α} {post : α → Lowering → Prop} :
    Meets allowed (beside m) s post ↔
      Meets allowed m { s with draft := {} } fun a s' => post a { s' with draft := s.draft } := by
  rw [beside, meets_get_bind, modifyDraft, meets_modify_bind, meets_bind]
  rfl

theorem struct_cases (l : StructLayouts) (name : String) (slots : List Slot) :
    (∃ f l', l.struct name slots = (.ok f, l') ∧ l'.target = l.target) ∨
      ∃ e, l.struct name slots = (.error e, l) ∧ Frame.compute name slots l.target = .error e := by
  rw [StructLayouts.struct]
  split
  · exact Or.inl ⟨_, _, rfl, rfl⟩
  · split
    · exact Or.inr ⟨_, rfl, ‹_›⟩
    · exact Or.inl ⟨_, _, rfl, rfl⟩

theorem sound_empty : ({} : Draft).Sound ∅ ∅ where
  located := by simp [Located]
  locals := by simp
  held := subset_rfl
  inside := by simp
  described := by simp
  cached := by simp

/-- What arguments describe can be read. -/
theorem scope_of_inputs {c : Sized.Context} {d : Draft} {xs : List Sized.Variable} {vs : List VarId}
    (inputs : List.Forall₂ (Input live d) xs vs) (kinds : ∀ x ∈ xs, x.IsDescription c) :
    d.Scope (Sized.variableTags xs) [] live where
  generics g member := by
    obtain ⟨x, known, rfl⟩ := List.mem_map.mp member
    obtain ⟨v, -, input⟩ := exists_of_forall₂ inputs.flip x known
    refine ⟨v, input.found, input.there, input.type.mpr ?_⟩
    rw [kinds x known]
  vars x member := by cases member

/-- What arguments hold can be read, next to the descriptions at hand. -/
theorem Draft.Scope.inputs {d : Draft} {generics outer : List Tag} {xs : List Sized.Variable} {vs : List VarId}
    (scope : d.Scope generics outer live) (inputs : List.Forall₂ (Input live d) xs vs)
    (values : ∀ x ∈ xs, x.shape.layout.witness ≠ .type) : d.Scope generics (Sized.variableTags xs) live where
  generics := scope.generics
  vars t member := by
    obtain ⟨x, known, rfl⟩ := List.mem_map.mp member
    obtain ⟨v, -, input⟩ := exists_of_forall₂ inputs.flip x known
    refine ⟨v, input.found, input.there, input.inside, ?_⟩
    rw [← Bool.not_eq_true, input.type]
    exact values x known

theorem inputs_inside {d : Draft} {n : Nat} {xs : List Sized.Variable} {vs : List VarId}
    (inputs : List.Forall₂ (Input live d) xs vs) (more : d.vars.size ≤ n) : ∀ v ∈ vs, v < n := by
  intro v member
  obtain ⟨x, -, input⟩ := exists_of_forall₂ inputs v member
  exact Nat.lt_of_lt_of_le input.inside more

theorem forall_mem_zipWith {α β γ : Type} {R : α → β → Prop} {as : List α} {bs : List β} {f : α → β → γ} {P : γ → Prop}
    (all : List.Forall₂ R as bs) (each : ∀ a b, R a b → P (f a b)) : ∀ c ∈ List.zipWith f as bs, P c := by
  induction all with
  | nil => simp
  | cons own _ ih => exact List.forall_mem_cons.mpr ⟨each _ _ own, ih⟩

/-- A struct that was lowered: what comes on top of the bytes of a field are values that
arguments of the builder describe. -/
structure StructLowered (N : Naming) (closures : Nat) (s : Sized.Struct) (r : Struct) : Prop where
  name : r.name = s.name.mangled
  fields : List.Forall₂ (fun f f' => f'.name = f.name ∧
    f'.size.static = f.shape.layout.size.static ∧
    List.Forall₂ (fun x v => ∃ a ∈ s.arguments, a.name.tag = x.tag ∧
      nameOf r.vars v = a.name.mangled) f.shape.layout.size.dynamic f'.size.dynamic)
    s.fields r.fields
  types : r.fields.map (·.type) = s.fields.map (·.shape.type)
  fine : N.Fine closures r.body
  flows : ∃ live known live' known', Flows r.vars live known r.body live' known'
  inside : ∀ a ∈ r.arguments, a.var < r.vars.size

theorem lowerStruct_meets {c : Sized.Context} {st : Sized.Struct} (inside : st.Scoped c)
    (once : (Sized.variableTags st.arguments).Nodup)
    (defined : ∀ f ∈ st.fields, N.Describes f.shape.layout.witness.constructors)
    (stops : ∀ slots e, slots.map (fun x => (x.name, x.static)) =
        st.fields.map (fun f => (f.name, f.shape.layout.size.static)) →
      Frame.compute st.name.mangled slots s.layouts.target = .error e →
      allowed (.layout st.name.mangled e)) :
    Meets allowed (lowerStruct st) s fun r s' => StructLowered N s'.closures st r ∧ Lifts N s s' ∧
      s'.draft = s.draft := by
  rw [lowerStruct, meets_beside, meets_get_bind, meets_bind, meets_addVariable]
  generalize resultIs : Variable.mk "_result" _ _ _ = x
  have unlocated : ∀ l, x.witness.location? ≠ some l := by simp [← resultIs, Witness.location?]
  generalize startIs : Lowering.adding { s with draft := {} } x = s₀
  have sound : s₀.draft.Sound ∅ ∅ := by
    rw [← startIs]
    exact sound_empty.push fun l here => absurd here (unlocated l)
  have lifts : Lifts N s s₀ := by
    rw [← startIs]
    exact Lifts.of_draft
  refine Meets.bind (inputs_meets (N := N) _ (fun _ => rfl) sound
    (⟨by simp, by simp⟩ : s₀.draft.Scope [] [] ∅) (fun a member y impossible => ?_)
    (fun a member i impossible => ?_) once (List.disjoint_nil_right _))
    fun args s₁ ⟨vs, is, live₁, known₁, made, behind, work, inputs, _⟩ => ?_
  · have kind := inside.arguments a member
    rw [Sized.Variable.IsDescription] at kind
    simp [kind, Sized.Layout.names, Sized.Witness.names] at impossible
  · have kind := inside.arguments a member
    rw [Sized.Variable.IsDescription] at kind
    simp [kind, Sized.Witness.constructors] at impossible
  refine Meets.bind (fields_lead work.sound (scope_of_inputs inputs inside.arguments) inside.fields
    defined) fun fields s₂ post => ?_
  obtain ⟨js, live₂, known₂, later, lowered⟩ := post
  rw [meets_get_bind]
  dsimp only
  rw [meets_get_bind, meets_modify_bind]
  obtain ⟨layout, layouts, taken, same⟩ | ⟨e, taken, wrong⟩ := struct_cases s₂.layouts
    st.name.mangled (fields.map fun f => slotOf s₂.draft.vars f.name f.size)
  · rw [taken, meets_pure]
    have lifted := (lifts.trans work.lifts).trans later.lifts
    have code : s₂.draft.instrs.toList = is ++ js := by
      rw [later.code, work.code, ← startIs]
      rfl
    have begun : 0 < s₀.draft.vars.size := by
      rw [← startIs]
      simp [Lowering.adding]
    have grown := (work.vars.trans later.vars).size
    refine ⟨⟨rfl, forall₂_of_mem lowered fun f field f' own => ⟨own.name, own.static,
      forall₂_of_mem own.dynamic fun y member v found => ?_⟩, map_eq_of_forall₂ lowered fun _ _ own => own.type,
      ?_, ?_, ?_⟩,
      ⟨lifted.target, same.trans lifted.layouts, lifted.counted, lifted.lifted⟩, rfl⟩
    · obtain ⟨a, argument, tag⟩ :=
        List.mem_map.mp (inside.fields f field y (List.mem_append_right _ member))
      obtain ⟨w, -, input⟩ := exists_of_forall₂ inputs.flip a argument
      have there := input.later work.sound.held later List.not_mem_nil
      obtain rfl : v = w := Option.some.inj (found.symm.trans (tag ▸ there.found))
      exact ⟨a, argument, tag, there.name⟩
    · change N.Fine s₂.closures s₂.draft.instrs.toList
      rw [code]
      exact (work.fine.mono later.lifts.counted).append later.fine
    · change ∃ live known live' known', Flows s₂.draft.vars live known s₂.draft.instrs.toList live' known'
      rw [code]
      exact ⟨_, _, _, _, (work.trans later).flows⟩
    · change ∀ a ∈ Argument.mk 0 .out :: args, a.var < s₂.draft.vars.size
      refine List.forall_mem_cons.mpr ⟨Nat.lt_of_lt_of_le begun grown, fun a member => ?_⟩
      have own : a.var < s₁.draft.vars.size := by
        rw [made] at member
        revert a
        exact forall_mem_zipWith inputs fun _ _ input => input.inside
      exact Nat.lt_of_lt_of_le own later.vars.size
  · rw [taken, meets_throw]
    rw [later.lifts.layouts, work.lifts.layouts, lifts.layouts] at wrong
    refine stops _ e ?_ wrong
    rw [List.map_map]
    exact map_eq_of_forall₂ lowered fun f f' own => by
      rw [Function.comp_apply, slotOf, own.name, own.static]

end Structs

end WitnessLang.Ir
