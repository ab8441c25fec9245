import WitnessLang.Proofs.Typed.Patterns

set_option autoImplicit false

namespace WitnessLang.Typed

open Bindings
open Resolved (Declared)

def Env.fill (f : Cell → Ty) (env : Env) : Env := env.map fun e => (e.1, e.2.mapCells f)

def Found (g : Globals) (generics binders : List Tag) (env : Env) (e : Expr) (cells : List Cell)
    (b : Bindings) : Prop :=
  Inferred g generics binders e.types e.binders
    (fun f => (e.mapTypes (·.mapCells f)).WellTyped g (env.fill f)) cells b

/-- An expression that is inferred as it should be. -/
def ExprSound (structs : Declared) (g : Globals) (generics : List Tag) (e : Resolved.Expr) : Prop :=
  ∀ env vars cells s e' s', Runs (infer e) g s (.ok e') s' → e.Scoped structs generics vars →
    Ready g generics cells s → Site env vars e.binders s →
      ∃ cells', Step g generics cells s e.binders cells' s' ∧
        Found g generics e.binders env e' cells' s'.bindings

section Lists

attribute [local simp] Expr.letTypes Expr.fieldTypes Expr.fieldBinders Resolved.Expr.fieldBinders
  Resolved.Expr.FieldsScoped Resolved.paramTags

variable {structs : Declared} {g : Globals} {generics vars : List Tag} {env : Env}
  {cells : List Cell} {s s₁ s' : Progress}

theorem Found.type_formed {binders : List Tag} {e : Expr} {b : Bindings}
    (found : Found g generics binders env e cells b) : e.type.Formed g.arity generics cells :=
  found.formed e.type e.type_mem_types

/-- An expression that has to have a type. -/
theorem expected_sound {e : Resolved.Expr} (sound : ExprSound structs g generics e) {t : Ty}
    {span : Span} {e₁ e' : Expr} (inferred : Runs (infer e) g s (.ok e₁) s₁)
    (expected : Runs (expect t span e₁) g s₁ (.ok e') s') (inside : e.Scoped structs generics vars)
    (ready : Ready g generics cells s) (site : Site env vars e.binders s)
    (formed : t.Formed g.arity generics cells) :
    ∃ cells', Step g generics cells s e.binders cells' s' ∧
      Inferred g generics e.binders e'.types e'.binders
        (fun f => (e'.mapTypes (·.mapCells f)).WellTyped g (env.fill f) ∧
          (e'.mapTypes (·.mapCells f)).type.Alike (t.mapCells f)) cells' s'.bindings := by
  obtain ⟨cells', step, found⟩ := sound env vars cells s e₁ s₁ inferred inside ready site
  obtain ⟨rfl, step', alike⟩ :=
    expect_step expected step.ready (formed.grow step.cells) found.type_formed
  refine ⟨cells', by simpa using step.trans step', (found.later step'.cells step'.bindings).imp
    (fun t member => Or.inl member) fun f solves rules => ⟨rules, ?_⟩⟩
  rw [Expr.type_mapCells]
  exact alike f solves

theorem args_sound {es : List Resolved.Expr} (sound : ∀ e ∈ es, ExprSound structs g generics e)
    {ts : List Ty} {es' : List Expr} (ended : Runs (inferArgs es ts) g s (.ok es') s')
    (length : ts.length = es.length) (inside : Resolved.Expr.ScopedAll structs generics vars es)
    (ready : Ready g generics cells s) (site : Site env vars (Resolved.Expr.bindersAll es) s)
    (formed : ∀ t ∈ ts, t.Formed g.arity generics cells) :
    ∃ cells', Step g generics cells s (Resolved.Expr.bindersAll es) cells' s' ∧
      Inferred g generics (Resolved.Expr.bindersAll es) (Expr.typesAll es') (Expr.bindersAll es')
        (fun f => Expr.ArgsTyped g (env.fill f) (es'.map (·.mapTypes (·.mapCells f)))
          (ts.map (·.mapCells f))) cells' s'.bindings := by
  induction es generalizing ts cells s es' with
  | nil =>
    obtain rfl := List.length_eq_zero_iff.mp length
    obtain ⟨rfl, rfl⟩ := runs_inferArgs_nil.mp ended
    exact ⟨cells, .refl ready, by simp, fun f _ => rfl, by simp, by simp⟩
  | cons e rest ih =>
    obtain ⟨t, ts, rfl⟩ := List.exists_cons_of_length_eq_add_one length
    rw [List.forall_mem_cons] at sound formed
    obtain ⟨e₁, s₁, inferred, a, s₂, expected, others, later, rfl⟩ := runs_inferArgs_cons.mp ended
    obtain ⟨cells₁, first, here⟩ :=
      expected_sound sound.1 inferred expected inside.1 ready site.left formed.1
    obtain ⟨cells', second, there⟩ := ih sound.2 later (by simpa using length) inside.2 first.ready
      (site.after first) fun t member => (formed.2 t member).grow first.cells
    refine ⟨cells', first.trans second, ?_⟩
    have both := (here.later second.cells second.bindings).append there site.disjoint
    refine both.imp (fun t member => Or.inl member) fun f _ rules => ?_
    exact ⟨rules.1.1, rules.1.2, rules.2⟩

theorem fieldInferences_lookup {fields : List Resolved.FieldInit} {n : String}
    (given : n ∈ fields.map (·.name)) :
    ∃ x ∈ fields, x.name = n ∧
      (fieldInferences fields).lookup n = some (x.value.span, infer x.value) := by
  induction fields with
  | nil => simp at given
  | cons x rest ih =>
    obtain ⟨span, name, value⟩ := x
    rw [fieldInferences, List.lookup_cons]
    by_cases same : n = name
    · exact ⟨_, List.mem_cons_self, same.symm, by simp [same]⟩
    · have other : (n == name) = false := by simpa using same
      obtain ⟨y, member, named, found⟩ := ih (by simpa [same] using given)
      exact ⟨y, List.mem_cons_of_mem _ member, named, by rw [other]; exact found⟩

theorem fieldBinders_eq_flatMap (fs : List Resolved.FieldInit) :
    Resolved.Expr.fieldBinders fs = fs.flatMap (·.value.binders) := by
  induction fs with
  | nil => rfl
  | cons x rest ih =>
    cases x
    simp [ih]

theorem fieldsScoped_iff {fs : List Resolved.FieldInit} :
    Resolved.Expr.FieldsScoped structs generics vars fs ↔
      ∀ x ∈ fs, x.value.Scoped structs generics vars := by
  induction fs with
  | nil => simp
  | cons x rest ih =>
    cases x
    simp [ih]

/-- Fields whose values are inferred one after the other, in the order of the declaration. -/
theorem fields_sound {fields : List Resolved.FieldInit}
    (sound : ∀ x ∈ fields, ExprSound structs g generics x.value) {sub : Substitution}
    {declared : List Field} {is : List FieldInit}
    (ended : Runs (forFields (fieldInferences fields) (fun f inference => do
      return FieldInit.mk f.name (← expect (f.type.substitute sub) inference.1 (← inference.2)))
      declared) g s (.ok is) s')
    (given : ∀ f ∈ declared, f.name ∈ fields.map (·.name))
    (distinct : (declared.map (·.name)).Nodup)
    (inside : ∀ x ∈ fields, x.value.Scoped structs generics vars)
    (ready : Ready g generics cells s) (closed : ∀ f ∈ declared, f.type.cells = [])
    (formed : ∀ f ∈ declared, (f.type.substitute sub).Formed g.arity generics cells)
    (once : (fields.flatMap (·.value.binders)).Nodup)
    (agree : ∀ t, t ∈ vars ∨ s.vars.lookup t = none → env.lookup t = s.vars.lookup t)
    (fresh : ∀ t ∈ givenTags (·.name) (·.value.binders) fields (declared.map (·.name)),
      s.vars.lookup t = none ∧ t ∉ vars) :
    ∃ cells', Step g generics cells s
        (givenTags (·.name) (·.value.binders) fields (declared.map (·.name))) cells' s' ∧
      Inferred g generics (givenTags (·.name) (·.value.binders) fields (declared.map (·.name)))
        (Expr.fieldTypes is) (Expr.fieldBinders is)
        (fun f => Expr.FieldsTyped g (env.fill f) (sub.map fun e => (e.1, e.2.mapCells f))
          (Expr.mapFieldTypes (·.mapCells f) is) declared) cells' s'.bindings := by
  induction declared generalizing cells s is with
  | nil =>
    rw [forFields] at ended
    obtain ⟨same, rfl⟩ := runs_pure.mp ended
    obtain rfl := Except.ok.inj same
    exact ⟨cells, (Step.refl ready).mono (by simp), by simp, fun f _ => rfl, by simp, by simp⟩
  | cons f rest ih =>
    rw [List.forall_mem_cons] at given formed closed
    rw [List.map_cons, List.nodup_cons] at distinct
    obtain ⟨x, item, named, found⟩ := fieldInferences_lookup given.1
    obtain ⟨b, s₁, others, first, later, rfl⟩ := (forFields_cons found).mp ended
    rw [runs_bind_ok] at first
    obtain ⟨e₁, s₂, inferred, first⟩ := first
    rw [runs_bind_ok] at first
    obtain ⟨e, s₃, expected, done⟩ := first
    obtain ⟨same, rfl⟩ := runs_pure.mp done
    obtain rfl := Except.ok.inj same
    have own : x.value.binders ⊆ givenTags (·.name) (·.value.binders) fields
        (f.name :: rest.map (·.name)) :=
      fun t bound => mem_givenTags.mpr ⟨x, item, named ▸ List.mem_cons_self, bound⟩
    have remaining : givenTags (·.name) (·.value.binders) fields (rest.map (·.name)) ⊆
        givenTags (·.name) (·.value.binders) fields (f.name :: rest.map (·.name)) :=
      givenTags_mono (List.subset_cons_self _ _)
    have apart : x.value.binders.Disjoint
        (givenTags (·.name) (·.value.binders) fields (rest.map (·.name))) :=
      disjoint_givenTags once item (named ▸ distinct.1)
    have onceX : x.value.binders.Nodup := (List.nodup_flatMap.mp once).1 x item
    have site : Site env vars x.value.binders s := ⟨agree, fun t bound => fresh t (own bound), onceX⟩
    obtain ⟨cells₁, step₁, here⟩ :=
      expected_sound (sound x item) inferred expected (inside x item) ready site formed.1
    have later_site : Site env vars [] s₁ := by
      have whole : Site env vars (x.value.binders ++ []) s := by simpa using site
      exact whole.after step₁
    obtain ⟨cells', step, there⟩ := ih later given.2 distinct.2 step₁.ready closed.2
      (fun f member => (formed.2 f member).grow step₁.cells) later_site.agree
      fun t member => by
        rw [step₁.vars t fun bound => apart bound member]
        exact fresh t (remaining member)
    have both := List.append_subset.mpr ⟨own, remaining⟩
    refine ⟨cells', (step₁.trans step).mono both, ?_⟩
    have all := (here.later step.cells step.bindings).append there apart
    refine ⟨by simpa using all.formed, fun h solves => ?_,
      fun t member => both (all.within member), by simpa using all.once⟩
    obtain ⟨⟨typed, alike⟩, rest⟩ := all.rules h solves
    rw [Ty.mapCells_substitute closed.1] at alike
    exact ⟨rfl, typed, alike, rest⟩

theorem lets_sound (whole : g.Formed structs) {bs : List Resolved.Let}
    (sound : ∀ b ∈ bs, ExprSound structs g generics b.value) {bs' : List Let}
    (ended : Runs (inferLets bs) g s (.ok bs') s')
    (inside : Resolved.Expr.LetsScoped structs generics vars bs)
    (ready : Ready g generics cells s) {behind : List Tag}
    (site : Site env vars (Resolved.Expr.letBinders bs ++ behind) s) :
    ∃ cells', Step g generics cells s (Resolved.Expr.letBinders bs) cells' s' ∧
      Site (letScope bs' env) (Resolved.bindLets vars bs) behind s' ∧
      Inferred g generics (Resolved.Expr.letBinders bs) (Expr.letTypes bs') (Expr.letBinders bs')
        (fun f => Expr.LetsTyped g (env.fill f) (Expr.mapLetTypes (·.mapCells f) bs')) cells'
        s'.bindings := by
  induction bs generalizing env vars cells s bs' with
  | nil =>
    obtain ⟨rfl, rfl⟩ := runs_inferLets_nil.mp ended
    exact ⟨cells, .refl ready, site, by simp, fun f _ => trivial, by simp, by simp⟩
  | cons b rest ih =>
    obtain ⟨span, p, value⟩ := b
    rw [List.forall_mem_cons] at sound
    obtain ⟨value', s₁, inferred, p', s₂, matched, others, later, rfl⟩ := runs_inferLets_cons.mp ended
    rw [Resolved.Expr.letBinders, List.append_assoc, List.append_assoc] at site
    obtain ⟨cells₁, first, found⟩ := sound.1 env vars cells s value' s₁ inferred inside.1 ready site.left
    have site₁ := site.after first
    obtain ⟨cells₂, bound⟩ := pattern_sound whole p _ cells₁ s₁ p' s₂ matched inside.2.1 first.ready
      found.type_formed site₁.left.once
    obtain ⟨cells', third, site', there⟩ :=
      ih sound.2 later inside.2.2 bound.step.ready (site₁.bind bound.step bound.scope)
    refine ⟨cells', first.trans (bound.step.trans third), site', ?_⟩
    have apart : p.tags.Disjoint (Resolved.Expr.letBinders rest) := fun _ own member =>
      site₁.disjoint own (List.mem_append_left _ member)
    have apart' : value.binders.Disjoint (p.tags ++ Resolved.Expr.letBinders rest) := by
      intro t own member
      refine site.disjoint own ?_
      rw [← List.append_assoc]
      exact List.mem_append_left _ member
    have all := (Inferred.later found (fun c known => third.cells (bound.step.cells known))
      (bound.step.bindings.trans third.bindings)).append
      ((bound.found.later third.cells third.bindings).append there apart) apart'
    refine ⟨?_, fun f solves => ?_, all.within, all.once⟩
    · intro t member
      refine all.formed t ?_
      simp only [Expr.letTypes, List.mem_append] at member ⊢
      tauto
    · obtain ⟨typed, fits, rest⟩ := all.rules f solves
      rw [Expr.mapLetTypes, Expr.LetsTyped, Expr.type_mapCells]
      refine ⟨typed, fits, ?_⟩
      rwa [Env.fill, Pattern.scope_mapTypes]

theorem Site.congr {vars' binders : List Tag} (site : Site env vars binders s)
    (same : ∀ t, t ∈ vars' ↔ t ∈ vars) : Site env vars' binders s :=
  ⟨fun t known => site.agree t (by rwa [same] at known),
    fun t bound => by rw [same]; exact site.fresh t bound, site.once⟩

theorem closureParams_sound (whole : g.Formed structs) {ps : List Resolved.Param} {ps' : List Param}
    (ended : Runs (closureParams ps) g s (.ok ps') s')
    (inside : ∀ p ∈ ps, p.type.Over generics ∧ p.pattern.Scoped structs)
    (ready : Ready g generics cells s) {behind : List Tag}
    (site : Site env vars (Resolved.paramTags ps ++ behind) s) :
    ∃ cells', Step g generics cells s (Resolved.paramTags ps) cells' s' ∧
      Site (paramScope ps' env) (Resolved.paramTags ps ++ vars) behind s' ∧
      Inferred g generics (Resolved.paramTags ps)
        (ps'.flatMap fun p => p.type :: p.pattern.types)
        (ps'.flatMap fun p => p.pattern.names.map (·.tag))
        (fun f => ∀ p ∈ ps'.map (Param.mapTypes (·.mapCells f)), p.pattern.Fits g p.type) cells'
        s'.bindings := by
  induction ps generalizing env vars cells s ps' with
  | nil =>
    obtain ⟨rfl, rfl⟩ := runs_closureParams_nil.mp ended
    exact ⟨cells, .refl ready, site, by simp, fun f _ => by simp, by simp, by simp⟩
  | cons p rest ih =>
    rw [List.forall_mem_cons] at inside
    obtain ⟨t, s₁, written, p', s₂, matched, others, later, rfl⟩ := runs_closureParams_cons.mp ended
    obtain ⟨same, formed⟩ := writtenType_formed cells written inside.1.1
    obtain rfl : s = s₁ := same.symm
    rw [Resolved.paramTags, List.flatMap_cons, List.append_assoc] at site
    obtain ⟨cells₁, bound⟩ := pattern_sound whole p.pattern _ cells s p' s₂ matched inside.1.2 ready
      formed site.left.once
    obtain ⟨cells', second, site', there⟩ :=
      ih later inside.2 bound.step.ready (site.bind bound.step bound.scope)
    have apart : p.pattern.tags.Disjoint (Resolved.paramTags rest) := fun _ own member =>
      site.disjoint own (List.mem_append_left _ member)
    refine ⟨cells', bound.step.trans second, site'.congr ?_, ?_⟩
    · intro u
      simp only [Resolved.paramTags, List.flatMap_cons, List.mem_append]
      tauto
    · have all := (bound.found.later second.cells second.bindings).append there apart
      refine ⟨?_, fun f solves => ?_, all.within, all.once⟩
      · intro u member
        simp only [List.flatMap_cons, List.cons_append, List.mem_cons] at member
        rcases member with rfl | member
        · exact formed.grow fun c known => second.cells (bound.step.cells known)
        · exact all.formed u member
      · obtain ⟨fits, rest⟩ := all.rules f solves
        exact List.forall_mem_cons.mpr ⟨fits, rest⟩

/-- Alternatives that are only checked leave nothing behind but what they bind. -/
theorem checkArms_step (whole : g.Formed structs) {as : List Resolved.Arm}
    (sound : ∀ a ∈ as, ExprSound structs g generics a.body) {t result : Ty} {u : Unit}
    (ended : Runs (checkArms t result as) g s (.ok u) s')
    (inside : Resolved.Expr.ArmsScoped structs generics vars as)
    (ready : Ready g generics cells s)
    (site : Site env vars (Resolved.Expr.armBinders as) s)
    (formed : t.Formed g.arity generics cells) (formedR : result.Formed g.arity generics cells) :
    ∃ cells', Step g generics cells s (Resolved.Expr.armBinders as) cells' s' := by
  induction as generalizing cells s with
  | nil =>
    obtain rfl := runs_checkArms_nil.mp ended
    exact ⟨cells, .refl ready⟩
  | cons a rest ih =>
    obtain ⟨span, p, body⟩ := a
    rw [List.forall_mem_cons] at sound
    obtain ⟨p', s₁, matched, body', s₂, inferred, body'', s₃, expected, ended⟩ :=
      runs_checkArms_cons.mp ended
    have own : Site env vars (p.tags ++ body.binders) s := site.left
    obtain ⟨cells₁, bound⟩ := pattern_sound whole p _ cells s p' s₁ matched inside.1 ready formed
      own.left.once
    obtain ⟨cells₂, second, -⟩ := expected_sound sound.1 inferred expected inside.2.1 bound.step.ready
      (own.bind bound.step bound.scope) (formedR.grow bound.step.cells)
    have both := bound.step.trans second
    obtain ⟨cells', third⟩ := ih sound.2 ended inside.2.2 both.ready (site.after both)
      (formed.grow both.cells) (formedR.grow both.cells)
    exact ⟨cells', both.trans third⟩

end Lists

section Expressions

attribute [local simp] Expr.type Expr.types Expr.letTypes Expr.binders Expr.letBinders

variable {structs : Declared} {g : Globals} {generics : List Tag}

theorem directCallee?_unchanged {callee : Resolved.Expr} {s s' : Progress} {r : Option Ident}
    (ended : Runs (directCallee? callee) g s (.ok r) s') :
    s' = s ∧ (r ≠ none → callee.binders = []) := by
  unfold directCallee? at ended
  split at ended
  · rw [runs_get_bind, runs_pure] at ended
    exact ⟨ended.2, fun _ => rfl⟩
  · obtain ⟨same, rfl⟩ := runs_pure.mp ended
    obtain rfl := Except.ok.inj same
    exact ⟨rfl, fun some => absurd rfl some⟩

theorem Globals.function?_self {name : Ident} {f : Signature} (found : g.function? name = some f) :
    g.function? f.name = some f := by
  rw [Globals.function?, (g.mem_of_function? found).2]
  exact found

theorem Globals.struct?_self {name : Ident} {d : Struct} (found : g.struct? name = some d) :
    g.struct? d.name = some d := by
  rw [Globals.struct?, (g.mem_of_struct? found).2]
  exact found

/-- What cells put into a definition gives for the types it is written with. -/
theorem formed_instance {gs : List Ident} {sub : Substitution} {cells : List Cell} {t : Ty}
    (tags : sub.map (·.1) = gs.map (·.tag)) (formed : t.Formed g.arity (gs.map (·.tag)) [])
    (formedSub : ∀ e ∈ sub, e.2.Formed g.arity generics cells) :
    (t.substitute sub).Formed g.arity generics cells := by
  refine formed.substitute fun tag known => ?_
  have length : (sub.map (·.2)).length = gs.length := by simpa using congrArg List.length tags
  obtain ⟨u, arg, value⟩ := lookup_instantiation length known
  rw [← eq_instantiation tags] at value
  obtain ⟨e, inSub, rfl⟩ := List.mem_map.mp arg
  exact ⟨e.2, value, formedSub e inSub⟩

theorem mapCells_instance {gs : List Ident} {sub : Substitution} {t : Ty} (f : Cell → Ty)
    (tags : sub.map (·.1) = gs.map (·.tag)) (closed : t.cells = []) :
    (t.substitute sub).mapCells f =
      t.substitute (instantiation gs ((sub.map (·.2)).map (·.mapCells f))) := by
  rw [Ty.mapCells_substitute closed, ← mapCells_instantiation, ← eq_instantiation tags]

theorem call_sound (whole : g.Formed structs) {span : Span} {callee : Resolved.Expr}
    {args : List Resolved.Expr} (ihCallee : ExprSound structs g generics callee)
    (ih : ∀ a ∈ args, ExprSound structs g generics a) :
    ExprSound structs g generics (.call span callee args) := by
  intro env vars cells s e' s' ended inside ready site
  rcases runs_infer_call.mp ended with
    ⟨name, s₀, known, f, found, length, sub, s₁, minted, args', inner, rfl⟩ |
    ⟨s₀, known, target, s₁, inferred, params, result, resolved, length, args', inner, rfl⟩
  · obtain ⟨same, nothing⟩ := directCallee?_unchanged known
    obtain rfl : s = s₀ := same.symm
    obtain ⟨member, -⟩ := g.mem_of_function? found
    obtain ⟨cells₁, first, -, tags, formedSub⟩ := instantiate_step minted ready
    rw [Resolved.Expr.binders, nothing (by simp), List.nil_append] at site
    have site₁ : Site env vars ([] ++ Resolved.Expr.bindersAll args) s := site
    obtain ⟨cells', second, there⟩ := args_sound ih inner (by simpa using length) inside.2 first.ready
      (site₁.after first) (by
        intro t param
        obtain ⟨p, own, rfl⟩ := List.mem_map.mp param
        exact formed_instance tags (whole.params f member p own) formedSub)
    rw [Resolved.Expr.binders, nothing (by simp), List.nil_append]
    refine ⟨cells', by simpa using first.trans second, ?_, fun h solves => ?_, there.within,
      there.once⟩
    · simp only [Expr.types, Expr.type, List.mem_cons, List.mem_append]
      rintro t (rfl | arg | inner)
      · exact (formed_instance tags (whole.result f member) formedSub).grow second.cells
      · obtain ⟨e, known, rfl⟩ := List.mem_map.mp arg
        exact (formedSub e known).grow second.cells
      · exact there.formed t inner
    · have typed := there.rules h solves
      rw [Expr.mapTypes, Expr.WellTyped, Expr.mapTypesAll_eq_map,
        mapCells_instance h tags (whole.result f member).closed]
      refine ⟨f, g.function?_self found, by simpa using congrArg List.length tags, rfl, ?_⟩
      rw [List.map_map, Function.comp_def] at typed
      rwa [List.map_congr_left fun p own =>
        mapCells_instance h tags (whole.params f member p own).closed] at typed
  · obtain ⟨same, -⟩ := directCallee?_unchanged known
    obtain rfl : s = s₀ := same.symm
    obtain ⟨cells₁, first, found⟩ := ihCallee env vars cells s target s₁ inferred inside.1 ready site.left
    have formed : (Ty.func params result).Formed g.arity generics cells₁ := by
      rw [← resolved]
      exact valid_resolve first.ready.sane found.type_formed
    rw [Ty.formed_func] at formed
    obtain ⟨cells', second, there⟩ := args_sound ih inner length inside.2 first.ready (site.after first)
      formed.1
    refine ⟨cells', first.trans second, ?_⟩
    have both := (found.later second.cells second.bindings).append there site.disjoint
    refine both.imp (fun t member => ?_) fun h solves rules => ?_
    · simp only [Expr.types, Expr.type, List.mem_cons] at member
      rcases member with rfl | member
      · exact Or.inr (formed.2.grow second.cells)
      · exact Or.inl member
    · rw [Expr.mapTypes, Expr.WellTyped, Expr.mapTypesAll_eq_map]
      refine ⟨rules.1, params.map (·.mapCells h), ?_, rules.2⟩
      have same := mapCells_resolve (solves.of_extends second.bindings) target.type
      rw [resolved, Ty.mapCells_func] at same
      rw [Expr.type_mapCells, ← same]
      exact .refl _

theorem record_sound (whole : g.Formed structs) {span : Span} {name : Ident}
    {fields : List Resolved.FieldInit}
    (ih : ∀ x ∈ fields, ExprSound structs g generics x.value) :
    ExprSound structs g generics (.record span name fields) := by
  intro env vars cells s e' s' ended inside ready site
  obtain ⟨d, found, sub, s₁, minted, is, inner, rfl⟩ := runs_infer_record.mp ended
  obtain ⟨member, named⟩ := g.mem_of_struct? found
  obtain ⟨cells₁, first, -, tags, formedSub⟩ := instantiate_step minted ready
  obtain ⟨⟨names, listed, -, complete⟩, inside⟩ := inside
  have declared : d.fields.map (·.name) = names := whole.declared _ listed d member named
  have site₁ : Site env vars ([] ++ Resolved.Expr.fieldBinders fields) s := site
  have site₁ := site₁.after first
  rw [fieldBinders_eq_flatMap] at site₁
  have everything : givenTags (·.name) (·.value.binders) fields (d.fields.map (·.name)) ⊆
      (Resolved.Expr.record span name fields).binders := by
    rw [Resolved.Expr.binders, fieldBinders_eq_flatMap]
    exact givenTags_subset
  obtain ⟨cells', second, there⟩ := fields_sound ih inner
    (fun f field => (complete f.name).mpr (declared ▸ List.mem_map_of_mem field))
    (whole.names d member) (fieldsScoped_iff.mp inside) first.ready
    (fun f field => (whole.fields d member f field).closed)
    (fun f field => formed_instance tags (whole.fields d member f field) formedSub)
    site₁.once site₁.agree fun t bound => site₁.fresh t (givenTags_subset bound)
  refine ⟨cells', (first.trans second).mono (by simpa using everything), ?_, fun h solves => ?_,
    fun t bound => everything (there.within bound), there.once⟩
  · simp only [Expr.types, Expr.type, List.mem_cons, List.mem_append]
    have formedArgs : ∀ t ∈ sub.map (·.2), t.Formed g.arity generics cells' := by
      intro t arg
      obtain ⟨e, known, rfl⟩ := List.mem_map.mp arg
      exact (formedSub e known).grow second.cells
    rintro t (rfl | arg | inner)
    · refine Ty.formed_named.mpr ⟨?_, formedArgs⟩
      rw [g.arity_struct whole (g.struct?_self found)]
      simpa using (congrArg List.length tags).symm
    · exact formedArgs t arg
    · exact there.formed t inner
  · have typed := there.rules h solves
    rw [eq_instantiation tags, mapCells_instantiation] at typed
    exact ⟨d, g.struct?_self found, by simpa using congrArg List.length tags, typed⟩

theorem case_sound (whole : g.Formed structs) {span : Span} {scrutinee : Resolved.Expr}
    {arms : List Resolved.Arm} (ihScrutinee : ExprSound structs g generics scrutinee)
    (ih : ∀ a ∈ arms, ExprSound structs g generics a.body) :
    ExprSound structs g generics (.case span scrutinee arms) := by
  intro env vars cells s e' s' ended inside ready site
  obtain ⟨value, s₁, inferred, ended⟩ := runs_infer_case.mp ended
  obtain ⟨cells₁, first, found⟩ :=
    ihScrutinee env vars cells s value s₁ inferred inside.1 ready site.left
  cases arms with
  | nil =>
    obtain ⟨rfl, rfl⟩ := runs_inferArms_nil.mp ended
    rw [Resolved.Expr.binders, Resolved.Expr.armBinders, List.append_nil]
    exact ⟨cells₁, first, found⟩
  | cons a rest =>
    obtain ⟨armSpan, p, body⟩ := a
    rw [List.forall_mem_cons] at ih
    obtain ⟨insideP, insideB, insideR⟩ := inside.2
    obtain ⟨p', s₂, matched, body', s₃, inferredB, ⟨u, checked⟩, rfl⟩ := runs_inferArms_cons.mp ended
    have site₁ := site.after first
    have own : Site env vars (p.tags ++ body.binders) s₁ := site₁.left
    obtain ⟨cells₂, bound⟩ := pattern_sound whole p _ cells₁ s₁ p' s₂ matched insideP first.ready
      found.type_formed own.left.once
    obtain ⟨cells₃, third, foundB⟩ := ih.1 _ _ cells₂ s₂ body' s₃ inferredB insideB bound.step.ready
      (own.bind bound.step bound.scope)
    have both := bound.step.trans third
    obtain ⟨cells', fourth⟩ := checkArms_step whole ih.2 checked insideR both.ready
      (site₁.after both) (found.type_formed.grow both.cells) foundB.type_formed
    refine ⟨cells', first.trans (both.trans fourth), ?_⟩
    have arm := (bound.found.later (fun c known => fourth.cells (third.cells known))
      (third.bindings.trans fourth.bindings)).append
      (foundB.later fourth.cells fourth.bindings) own.disjoint
    have apart : scrutinee.binders.Disjoint (p.tags ++ body.binders) := fun t left right =>
      site.disjoint left (List.mem_append_left _ right)
    have all := (found.later (fun c known => fourth.cells (both.cells known))
      (both.bindings.trans fourth.bindings)).append arm apart
    refine ⟨fun t member => all.formed t ?_, fun h solves => ?_, ?_, ?_⟩
    · simp only [Expr.types, Expr.type, Expr.letTypes, List.mem_cons, List.mem_append,
        List.append_nil] at member ⊢
      rcases member with rfl | (inP | inV) | inB
      · exact Or.inr (Or.inr (Expr.type_mem_types body'))
      · exact Or.inr (Or.inl inP)
      · exact Or.inl inV
      · exact Or.inr (Or.inr inB)
    · obtain ⟨typed, fits, typedB⟩ := all.rules h solves
      simp only [Expr.mapTypes, Expr.mapLetTypes, Expr.WellTyped, Expr.LetsTyped, letScope,
        Expr.type_mapCells, and_true]
      refine ⟨⟨typed, fits⟩, ?_⟩
      rwa [Env.fill, Pattern.scope_mapTypes]
    · have within := all.within
      simp only [Expr.binders, Expr.letBinders, List.append_nil, List.append_assoc] at within ⊢
      refine fun t member => List.mem_append.mpr ((List.mem_append.mp (within member)).imp id ?_)
      exact fun inside => List.mem_append_left _ inside
    · simpa using all.once

theorem closure_sound (whole : g.Formed structs) {span : Span} {params : List Resolved.Param}
    {body : Resolved.Expr} (ih : ExprSound structs g generics body) :
    ExprSound structs g generics (.closure span params body) := by
  intro env vars cells s e' s' ended inside ready site
  obtain ⟨params', s₁, declared, body', inferred, rfl⟩ := runs_infer_closure.mp ended
  obtain ⟨cells₁, first, site₁, foundP⟩ :=
    closureParams_sound whole declared inside.1 ready site
  obtain ⟨cells', second, foundB⟩ :=
    ih _ _ cells₁ s₁ body' s' inferred inside.2 first.ready site₁
  refine ⟨cells', first.trans second, ?_⟩
  have all := (foundP.later second.cells second.bindings).append foundB site.disjoint
  refine ⟨fun t member => ?_, fun h solves => ?_, all.within, all.once⟩
  · simp only [Expr.types, Expr.type, List.mem_cons, List.mem_append, List.mem_map] at member
    rcases member with rfl | (inP | ⟨c, captured, rfl⟩) | inB
    · refine Ty.formed_func.mpr ⟨fun t param => ?_, foundB.type_formed⟩
      obtain ⟨p, own, rfl⟩ := List.mem_map.mp param
      refine all.formed _ (List.mem_append_left _ ?_)
      exact List.mem_flatMap.mpr ⟨p, own, List.mem_cons_self⟩
    · exact all.formed t (List.mem_append_left _ inP)
    · refine all.formed _ (List.mem_append_right _ ?_)
      exact Expr.type_mem_of_reads (mem_of_firstReads captured).1
    · exact all.formed t (List.mem_append_right _ inB)
  · obtain ⟨fits, typed⟩ := all.rules h solves
    rw [Expr.mapTypes, Expr.WellTyped]
    refine ⟨fits, ?_, ?_⟩
    · rw [Env.fill] at typed
      rwa [Env.fill, ← paramScope_mapTypes] at *
    · exact (captures_mapTypes _ params' body').symm

/-- Inference is sound. -/
theorem infer_sound (whole : g.Formed structs) (e : Resolved.Expr) :
    ExprSound structs g generics e := by
  induction e with
  | number span text bits =>
    intro env vars cells s e' s' ended inside ready site
    obtain ⟨rfl, rfl⟩ := runs_infer_number.mp ended
    exact ⟨cells, .refl ready, by simp, fun _ _ => trivial,
      by simp, by simp⟩
  | bool span value =>
    intro env vars cells s e' s' ended inside ready site
    obtain ⟨rfl, rfl⟩ := runs_infer_bool.mp ended
    exact ⟨cells, .refl ready, by simp, fun _ _ => trivial,
      by simp, by simp⟩
  | var span name =>
    intro env vars cells s e' s' ended inside ready site
    obtain ⟨t, found, rfl, rfl⟩ := runs_infer_var.mp ended
    have known := site.agree name.tag (Or.inl inside)
    refine ⟨cells, .refl ready, ?_, fun f _ => ?_, by simp, by simp⟩
    · obtain ⟨before, behind, split, -⟩ := List.lookup_eq_some_iff.mp found
      simpa using ready.vars (name.tag, t) (by simp [split])
    · rw [Expr.mapTypes, Expr.WellTyped, Env.fill, Ty.lookup_map_snd, known, found]
      rfl
  | call span callee args ihCallee ih => exact call_sound whole ihCallee ih
  | operation span op left right ihLeft ihRight =>
    intro env vars cells s e' s' ended inside ready site
    obtain ⟨l₁, s₁, inferredL, l, s₂, expectedL, r₁, s₃, inferredR, r, expectedR, rfl⟩ :=
      runs_infer_operation.mp ended
    obtain ⟨cells₁, first, foundL⟩ :=
      expected_sound ihLeft inferredL expectedL inside.1 ready site.left formed_float
    obtain ⟨cells', second, foundR⟩ := expected_sound ihRight inferredR expectedR inside.2 first.ready
      (site.after first) formed_float
    refine ⟨cells', first.trans second, ?_⟩
    have both := (foundL.later second.cells second.bindings).append foundR site.disjoint
    refine both.imp (fun t member => ?_) fun f _ rules => ?_
    · simp only [Expr.types, Expr.type, List.mem_cons] at member
      rcases member with rfl | member
      · refine Or.inr ?_
        rw [operationType]
        split
        · exact formed_bool
        · exact formed_float
      · exact Or.inl member
    · rw [Ty.mapCells_float] at rules
      exact ⟨rules.1.1, rules.2.1, rules.1.2, rules.2.2⟩
  | record span name fields ih => exact record_sound whole ih
  | block span lets result ih ihResult =>
    intro env vars cells s e' s' ended inside ready site
    obtain ⟨lets', s₁, inferred, result', inferredR, rfl⟩ := runs_infer_block.mp ended
    obtain ⟨cells₁, first, site₁, foundL⟩ := lets_sound whole ih inferred inside.1 ready site
    obtain ⟨cells', second, foundR⟩ :=
      ihResult _ _ cells₁ s₁ result' s' inferredR inside.2 first.ready site₁
    refine ⟨cells', first.trans second, ?_⟩
    have both := (foundL.later second.cells second.bindings).append foundR site.disjoint
    refine both.imp (fun t member => Or.inl ?_) fun f _ rules => ?_
    · simp only [Expr.types, Expr.type, List.mem_cons, List.mem_append] at member ⊢
      rcases member with rfl | member
      · exact Or.inr (Expr.type_mem_types result')
      · exact member
    · rw [Expr.mapTypes, Expr.WellTyped]
      refine ⟨rules.1, ?_⟩
      rw [Expr.mapLetTypes_eq_map, Env.fill, letScope_mapTypes]
      exact rules.2
  | annotated span value type ih =>
    intro env vars cells s e' s' ended inside ready site
    obtain ⟨t, s₁, written, e₁, s₂, inferred, expected⟩ := runs_infer_annotated.mp ended
    obtain ⟨same, formed⟩ := writtenType_formed cells written inside.2
    obtain rfl : s = s₁ := same.symm
    obtain ⟨cells', step, found⟩ :=
      expected_sound ih inferred expected inside.1 ready site formed
    exact ⟨cells', step, found.imp (fun t member => Or.inl member) fun f _ rules => rules.1⟩
  | case span scrutinee arms ihScrutinee ih => exact case_sound whole ihScrutinee ih
  | cond span test yes no ihTest ihYes ihNo =>
    intro env vars cells s e' s' ended inside ready site
    obtain ⟨t₁, s₁, inferredT, t, s₂, expectedT, y, s₃, inferredY, n₁, s₄, inferredN, n, expectedN, rfl⟩ :=
      runs_infer_cond.mp ended
    obtain ⟨cells₁, first, foundT⟩ :=
      expected_sound ihTest inferredT expectedT inside.1 ready site.left formed_bool
    have site₁ := site.after first
    obtain ⟨cells₂, second, foundY⟩ :=
      ihYes env vars cells₁ s₂ y s₃ inferredY inside.2.1 first.ready site₁.left
    obtain ⟨cells', third, foundN⟩ := expected_sound ihNo inferredN expectedN inside.2.2 second.ready
      (site₁.after second) foundY.type_formed
    refine ⟨cells', first.trans (second.trans third), ?_⟩
    have branches := (foundY.later third.cells third.bindings).append foundN site₁.disjoint
    have all := (foundT.later (fun c known => third.cells (second.cells known))
      (second.bindings.trans third.bindings)).append branches site.disjoint
    refine all.imp (fun u member => Or.inl ?_) fun f _ rules => ?_
    · simp only [Expr.types, Expr.type, List.mem_cons, List.mem_append] at member ⊢
      rcases member with rfl | (inT | inY) | inN
      · exact Or.inr (Or.inl (Expr.type_mem_types y))
      · exact Or.inl inT
      · exact Or.inr (Or.inl inY)
      · exact Or.inr (Or.inr inN)
    · obtain ⟨⟨typedT, bool⟩, typedY, typedN, alike⟩ := rules
      rw [Ty.mapCells_bool] at bool
      rw [Expr.mapTypes, Expr.WellTyped, Expr.type_mapCells f y]
      exact ⟨typedT, typedY, typedN, bool, alike.symm⟩
  | closure span params body ih => exact closure_sound whole ih

end Expressions

end WitnessLang.Typed
