import WitnessLang.Proofs.Typed.Asked

set_option autoImplicit false

/-! What decides the cells that checking mints. A solution of the bindings that inference leaves fills the cells of the
parts that stay with finished types exactly if it leaves no cell in the tree. -/
namespace WitnessLang.Typed

open Bindings
open Ty (Fills)
open Resolved (Declared)

/-- What is left of a part of a tree that asks for some cells: they were minted, and where what
was given is filled, the cells that stay are filled exactly if the types found are. -/
structure Decides (asks : List Ask) (given types : List Ty) (s s' : Progress) : Prop where
  minted : s'.minted = s.minted + asks.length
  decided : ∀ f, Solves f s'.bindings → Fills f given →
    (Fills f ((Ask.keptCells s.minted asks).map .cell) ↔ Fills f types)

section Parts

variable {asks more : List Ask} {given given' types types' : List Ty} {s s₁ s' : Progress}

theorem Decides.none (minted : s'.minted = s.minted)
    (types : ∀ f, Solves f s'.bindings → Fills f given → Fills f types') : Decides [] given types' s s' :=
  ⟨minted, fun f solves fills => by simp [Ask.keptCells, types f solves fills]⟩

/-- One part behind another, which fills what is given to it. -/
theorem Decides.append (first : Decides asks given types s s₁) (second : Decides more given' types' s₁ s')
    (grown : Extends s₁.bindings s'.bindings)
    (known : ∀ f, Fills f given → Fills f types → Fills f given') :
    Decides (asks ++ more) given (types ++ types') s s' where
  minted := by rw [second.minted, first.minted, List.length_append]; omega
  decided f solves fills := by
    rw [Ask.keptCells_append, ← first.minted, List.map_append, Ty.fills_append, Ty.fills_append,
      first.decided f (solves.of_extends grown) fills]
    exact and_congr_right fun own => second.decided f solves (known f fills own)

/-- The same for another list of types. -/
theorem Decides.congr (decides : Decides asks given types s s')
    (same : ∀ f, Solves f s'.bindings → Fills f given → (Fills f types ↔ Fills f types')) :
    Decides asks given types' s s' :=
  ⟨decides.minted, fun f solves fills => (decides.decided f solves fills).trans (same f solves fills)⟩

/-- What needs nothing to be filled is decided wherever it stands. -/
theorem Decides.anywhere (decides : Decides asks [] types s s') : Decides asks given types s s' :=
  ⟨decides.minted, fun f solves _ => decides.decided f solves Ty.fills_nil⟩

/-- More bindings. -/
theorem Decides.later (decides : Decides asks given types s s₁) (grown : Extends s₁.bindings s'.bindings)
    (minted : s'.minted = s₁.minted) : Decides asks given types s s' :=
  ⟨minted.trans decides.minted, fun f solves => decides.decided f (solves.of_extends grown)⟩

/-- A part that does not stay. -/
theorem decides_dropped (minted : s'.minted = s.minted + asks.length) :
    Decides (Ask.dropped asks) given [] s s' :=
  ⟨by rwa [Ask.length_dropped], fun f _ _ => by simp⟩

end Parts

section Operations

variable {g : Globals} {generics : List Tag} {cells : List Cell} {s s' : Progress}

/-- What stands for type parameters are the cells that were asked for. -/
theorem instantiate_decides {gs : List Ident} {sub : Substitution}
    (ended : Runs (instantiate gs) g s (.ok sub) s') :
    Decides (Ask.each gs) [] (sub.map (·.2)) s s' := by
  have minted : s'.minted = s.minted + gs.length ∧
      sub.map (·.2) = (Ask.keptCells s.minted (Ask.each gs)).map .cell := by
    induction gs generalizing s sub with
    | nil =>
      obtain ⟨same, rfl⟩ := runs_pure.mp ended
      obtain rfl := Except.ok.inj same
      exact ⟨rfl, rfl⟩
    | cons i rest ih =>
      rw [instantiate, runs_get_bind, runs_modify_bind, runs_bind_ok] at ended
      obtain ⟨sub', s₁, inner, ended⟩ := ended
      obtain ⟨same, rfl⟩ := runs_pure.mp ended
      obtain rfl := Except.ok.inj same
      obtain ⟨count, cells⟩ := ih inner
      refine ⟨count.trans ?_, ?_⟩
      · show s.minted + 1 + rest.length = s.minted + (i :: rest).length
        rw [List.length_cons, Nat.add_assoc, Nat.add_comm 1]
      · rw [List.map_cons, cells]
        rfl
  exact ⟨by rw [minted.1, Ask.length_each], fun f _ _ => by rw [minted.2]⟩

theorem unify_minted {a b : Ty} {span : Span} {u : Unit} (ended : Runs (unify a b span) g s (.ok u) s') :
    s'.minted = s.minted := by
  rw [unify, runs_get_bind] at ended
  generalize (Unify.types a b).run.run s.bindings = outcome at ended
  obtain ⟨result, bindings⟩ := outcome
  simp only [runs_modify_bind] at ended
  cases result with
  | ok u' => rw [(runs_pure.mp ended).2]
  | error clash => cases clash <;> simp at ended

theorem expect_minted {expected : Ty} {span : Span} {e e' : Expr}
    (ended : Runs (expect expected span e) g s (.ok e') s') : s'.minted = s.minted := by
  rw [expect, runs_bind_ok] at ended
  obtain ⟨u, s₁, unified, ended⟩ := ended
  rw [(runs_pure.mp ended).2, unify_minted unified]

end Operations

section Patterns

variable {structs : Declared} {g : Globals} {generics : List Tag}

/-- A pattern whose cells are decided as they should be, where it is bound to a filled type. -/
def PatternDecided (structs : Declared) (g : Globals) (generics : List Tag) (p : Resolved.Pattern) : Prop :=
  ∀ t cells s p' s', Runs (bindPattern p t) g s (.ok p') s' → p.Scoped structs →
    Ready g generics cells s → t.Formed g.arity generics cells → p.tags.Nodup →
      Decides (p.asks g) [t] p'.types s s'

theorem fieldAsks_lookup {fields : List Resolved.FieldPattern} {n : String} (given : n ∈ fields.map (·.name)) :
    ∃ x ∈ fields, (fieldBinders fields).lookup n = some (bindPattern x.pattern) ∧
      (Resolved.Pattern.fieldAsks g fields).lookup n = some (x.pattern.asks g) := by
  induction fields with
  | nil => simp at given
  | cons x rest ih =>
    obtain ⟨span, name, p⟩ := x
    rw [fieldBinders, Resolved.Pattern.fieldAsks, List.lookup_cons, List.lookup_cons]
    by_cases same : n = name
    · exact ⟨_, List.mem_cons_self, by simp [same]⟩
    · have other : (n == name) = false := by simpa using same
      obtain ⟨y, member, found⟩ := ih (by simpa [same] using given)
      exact ⟨y, List.mem_cons_of_mem _ member, by rwa [other]⟩

/-- Fields that are taken apart one after the other. -/
theorem bindFields_decides (whole : g.Formed structs) {fields : List Resolved.FieldPattern}
    (sound : ∀ x ∈ fields, PatternDecided structs g generics x.pattern) {sub : Substitution}
    {declared : List Field} {cells : List Cell} {s s' : Progress} {ps : List FieldPattern}
    (ended : Runs (forFields (fieldBinders fields) (fun f bind => do
      return FieldPattern.mk f.name (← bind (f.type.substitute sub))) declared) g s (.ok ps) s')
    (given : ∀ f ∈ declared, f.name ∈ fields.map (·.name))
    (inside : ∀ x ∈ fields, x.pattern.Scoped structs) (ready : Ready g generics cells s)
    (closed : ∀ f ∈ declared, f.type.cells = [])
    (formed : ∀ f ∈ declared, (f.type.substitute sub).Formed g.arity generics cells)
    (once : (fields.flatMap (·.pattern.tags)).Nodup) :
    Decides (declared.flatMap fun f => ((Resolved.Pattern.fieldAsks g fields).lookup f.name).getD [])
        (sub.map (·.2)) (Pattern.fieldTypes ps) s s' ∧ Extends s.bindings s'.bindings := by
  induction declared generalizing cells s ps with
  | nil =>
    rw [forFields] at ended
    obtain ⟨same, rfl⟩ := runs_pure.mp ended
    obtain rfl := Except.ok.inj same
    exact ⟨.none rfl fun f _ _ => Ty.fills_nil, .refl _⟩
  | cons f rest ih =>
    rw [List.forall_mem_cons] at given formed closed
    obtain ⟨x, item, found, asked⟩ := fieldAsks_lookup (g := g) given.1
    obtain ⟨b, s₁, others, first, later, rfl⟩ := (forFields_cons found).mp ended
    rw [runs_bind_ok] at first
    obtain ⟨p, s₂, first, done⟩ := first
    obtain ⟨same, rfl⟩ := runs_pure.mp done
    obtain rfl := Except.ok.inj same
    have onceX : x.pattern.tags.Nodup := (List.nodup_flatMap.mp once).1 x item
    obtain ⟨cells₁, bound⟩ := pattern_sound whole x.pattern _ _ _ _ _ first (inside x item) ready formed.1 onceX
    have own := sound x item _ _ _ _ _ first (inside x item) ready formed.1 onceX
    obtain ⟨behind, grown⟩ := ih later given.2 bound.step.ready closed.2
      fun f member => (formed.2 f member).grow bound.step.cells
    refine ⟨?_, bound.step.bindings.trans grown⟩
    rw [List.flatMap_cons, asked, Option.getD_some]
    have filled : ∀ h, Fills h (sub.map (·.2)) → Fills h [f.type.substitute sub] := fun h all =>
      Ty.fills_cons.mpr ⟨all.substitute closed.1, Ty.fills_nil⟩
    refine Decides.append ⟨own.minted, fun h solves all => ?_⟩ behind grown fun h all _ => all
    exact own.decided h solves (filled h all)

theorem pattern_decided (whole : g.Formed structs) (p : Resolved.Pattern) :
    PatternDecided structs g generics p := by
  induction p with
  | var span name =>
    intro t cells s p' s' ended inside ready formed once
    rw [bindPattern, runs_modify_bind] at ended
    obtain ⟨same, rfl⟩ := runs_pure.mp ended
    obtain rfl := Except.ok.inj same
    exact .none rfl fun f _ given => given
  | record span name fields ih =>
    intro t cells s p' s' ended inside ready formed once
    rw [bindPattern, runs_read_bind] at ended
    split at ended
    · rename_i d found
      rw [runs_bind_ok] at ended
      obtain ⟨sub, s₁, minted, ended⟩ := ended
      obtain ⟨cells₁, first, unchanged, tags, formedSub⟩ := instantiate_step minted ready
      rw [runs_bind_ok] at ended
      obtain ⟨u, s₂, unified, ended⟩ := ended
      have formedNamed : (Ty.named name (sub.map (·.2))).Formed g.arity generics cells₁ := by
        refine Ty.formed_named.mpr ⟨?_, ?_⟩
        · rw [g.arity_struct whole found]
          simpa using (congrArg List.length tags).symm
        · intro t member
          obtain ⟨e, known, rfl⟩ := List.mem_map.mp member
          exact formedSub e known
      obtain ⟨second, -, alike⟩ := unify_step unified first.ready formedNamed (formed.grow first.cells)
      rw [runs_bind_ok] at ended
      obtain ⟨ps, s₃, inner, ended⟩ := ended
      obtain ⟨same, rfl⟩ := runs_pure.mp ended
      obtain rfl := Except.ok.inj same
      obtain ⟨member, named⟩ := g.mem_of_struct? found
      obtain ⟨⟨names, listed, -, complete⟩, inside⟩ := inside
      have declared : d.fields.map (·.name) = names := whole.declared _ listed d member named
      rw [Resolved.Pattern.tags, fieldTags_eq_flatMap] at once
      obtain ⟨behind, grown⟩ := bindFields_decides whole ih inner
        (fun f field => (complete f.name).mpr (declared ▸ List.mem_map_of_mem field))
        (patternFieldsScoped_iff.mp inside) second.ready
        (fun f field => (whole.fields d member f field).closed)
        (fun f field => formed_instance tags (whole.fields d member f field) formedSub) once
      rw [Resolved.Pattern.asks_record g found]
      have own := ((instantiate_decides minted).later second.bindings (unify_minted unified)).append
        behind grown fun f _ all => all
      -- the type that the pattern is bound to is alike to the struct applied to the new cells
      refine ⟨own.minted, fun f solves _ => (own.decided f solves Ty.fills_nil).trans ?_⟩
      have same := (alike f (solves.of_extends grown)).cells
      rw [Pattern.types, Ty.fills_cons, Ty.fills_append, ← same, Ty.fills_named]
    · simp at ended

end Patterns

/-- The functions of a file are in sight and hidden by no variable. -/
def Unhidden (g : Globals) (vars : List Tag) (s : Progress) : Prop :=
  ∀ f ∈ g.functions, f.name.tag ∈ vars ∧ s.vars.lookup f.name.tag = none

section Unhidden

variable {g : Globals} {generics : List Tag} {cells cells' : List Cell} {s s' : Progress} {env : Env}
  {vars more before behind : List Tag}

theorem Unhidden.after (unhidden : Unhidden g vars s) (site : Site env vars (before ++ behind) s)
    (step : Step g generics cells s before cells' s') : Unhidden g vars s' := by
  intro f function
  obtain ⟨seen, unbound⟩ := unhidden f function
  refine ⟨seen, ?_⟩
  rw [step.vars _ fun bound => (site.fresh _ (List.mem_append_left _ bound)).2 seen, unbound]

theorem Unhidden.mono (unhidden : Unhidden g vars s) (grown : vars ⊆ more) : Unhidden g more s :=
  fun f function => ⟨grown (unhidden f function).1, (unhidden f function).2⟩

end Unhidden

/-- An expression whose cells are decided as they should be, where the variables at hand have
filled types. -/
def ExprDecided (structs : Declared) (g : Globals) (generics : List Tag) (e : Resolved.Expr) : Prop :=
  ∀ env vars cells s e' s', Runs (infer e) g s (.ok e') s' → e.Scoped structs generics vars →
    Ready g generics cells s → Site env vars e.binders s → Unhidden g vars s →
      Decides (e.asks g) (env.map (·.2)) e'.types s s'

section Lists

variable {structs : Declared} {g : Globals} {generics vars : List Tag} {env : Env}
  {cells : List Cell} {s s₁ s' : Progress}

theorem expected_decides (whole : g.Formed structs) {e : Resolved.Expr} (sound : ExprDecided structs g generics e)
    {t : Ty} {span : Span} {e₁ e' : Expr} (inferred : Runs (infer e) g s (.ok e₁) s₁)
    (expected : Runs (expect t span e₁) g s₁ (.ok e') s') (inside : e.Scoped structs generics vars)
    (ready : Ready g generics cells s) (site : Site env vars e.binders s) (unhidden : Unhidden g vars s)
    (formed : t.Formed g.arity generics cells) : Decides (e.asks g) (env.map (·.2)) e'.types s s' := by
  obtain ⟨cells₁, step, found⟩ := infer_sound whole e env vars cells s e₁ s₁ inferred inside ready site
  obtain ⟨rfl, step', -⟩ := expect_step expected step.ready (formed.grow step.cells) found.type_formed
  exact (sound env vars cells s _ s₁ inferred inside ready site unhidden).later step'.bindings
    (expect_minted expected)

theorem args_decide (whole : g.Formed structs) {es : List Resolved.Expr}
    (sound : ∀ e ∈ es, ExprDecided structs g generics e) {ts : List Ty} {es' : List Expr}
    (ended : Runs (inferArgs es ts) g s (.ok es') s') (length : ts.length = es.length)
    (inside : Resolved.Expr.ScopedAll structs generics vars es) (ready : Ready g generics cells s)
    (site : Site env vars (Resolved.Expr.bindersAll es) s) (unhidden : Unhidden g vars s)
    (formed : ∀ t ∈ ts, t.Formed g.arity generics cells) :
    Decides (Resolved.Expr.asksAll g es) (env.map (·.2)) (Expr.typesAll es') s s' := by
  induction es generalizing ts cells s es' with
  | nil =>
    obtain rfl := List.length_eq_zero_iff.mp length
    obtain ⟨rfl, rfl⟩ := runs_inferArgs_nil.mp ended
    exact .none rfl fun f _ _ => Ty.fills_nil
  | cons e rest ih =>
    obtain ⟨t, ts, rfl⟩ := List.exists_cons_of_length_eq_add_one length
    rw [List.forall_mem_cons] at sound formed
    obtain ⟨e₁, s₁, inferred, a, s₂, expected, others, later, rfl⟩ := runs_inferArgs_cons.mp ended
    obtain ⟨cells₁, first, -⟩ := expected_sound (infer_sound whole e) inferred expected inside.1 ready
      site.left formed.1
    have formed' := fun t member => (formed.2 t member).grow first.cells
    obtain ⟨cells', second, -⟩ := args_sound (fun e _ => infer_sound whole e) later (by simpa using length)
      inside.2 first.ready (site.after first) formed'
    have here := expected_decides whole sound.1 inferred expected inside.1 ready site.left unhidden formed.1
    exact here.append (ih sound.2 later (by simpa using length) inside.2 first.ready (site.after first)
      (unhidden.after site first) formed') second.bindings fun f given _ => given

theorem fieldInferences_asks {fields : List Resolved.FieldInit} {n : String} (given : n ∈ fields.map (·.name)) :
    ∃ x ∈ fields, x.name = n ∧ (fieldInferences fields).lookup n = some (x.value.span, infer x.value) ∧
      (Resolved.Expr.fieldAsks g fields).lookup n = some (x.value.asks g) := by
  induction fields with
  | nil => simp at given
  | cons x rest ih =>
    obtain ⟨span, name, value⟩ := x
    rw [fieldInferences, Resolved.Expr.fieldAsks, List.lookup_cons, List.lookup_cons]
    by_cases same : n = name
    · exact ⟨_, List.mem_cons_self, same.symm, by simp [same]⟩
    · have other : (n == name) = false := by simpa using same
      obtain ⟨y, member, named, found⟩ := ih (by simpa [same] using given)
      exact ⟨y, List.mem_cons_of_mem _ member, named, by rwa [other]⟩

/-- Fields whose values are inferred one after the other. -/
theorem fields_decide (whole : g.Formed structs) {fields : List Resolved.FieldInit}
    (sound : ∀ x ∈ fields, ExprDecided structs g generics x.value) {sub : Substitution}
    {declared : List Field} {is : List FieldInit}
    (ended : Runs (forFields (fieldInferences fields) (fun f inference => do
      return FieldInit.mk f.name (← expect (f.type.substitute sub) inference.1 (← inference.2)))
      declared) g s (.ok is) s')
    (given : ∀ f ∈ declared, f.name ∈ fields.map (·.name))
    (distinct : (declared.map (·.name)).Nodup)
    (inside : ∀ x ∈ fields, x.value.Scoped structs generics vars) (ready : Ready g generics cells s)
    (formed : ∀ f ∈ declared, (f.type.substitute sub).Formed g.arity generics cells)
    (once : (fields.flatMap (·.value.binders)).Nodup)
    (agree : ∀ t, t ∈ vars ∨ s.vars.lookup t = none → env.lookup t = s.vars.lookup t)
    (fresh : ∀ t ∈ givenTags (·.name) (·.value.binders) fields (declared.map (·.name)),
      s.vars.lookup t = none ∧ t ∉ vars) (unhidden : Unhidden g vars s) :
    Decides (declared.flatMap fun f => ((Resolved.Expr.fieldAsks g fields).lookup f.name).getD [])
      (env.map (·.2)) (Expr.fieldTypes is) s s' ∧ Extends s.bindings s'.bindings := by
  induction declared generalizing cells s is with
  | nil =>
    rw [forFields] at ended
    obtain ⟨same, rfl⟩ := runs_pure.mp ended
    obtain rfl := Except.ok.inj same
    exact ⟨.none rfl fun f _ _ => Ty.fills_nil, .refl _⟩
  | cons f rest ih =>
    rw [List.forall_mem_cons] at given formed
    rw [List.map_cons, List.nodup_cons] at distinct
    obtain ⟨x, item, named, found, asked⟩ := fieldInferences_asks (g := g) given.1
    obtain ⟨b, s₁, others, first, later, rfl⟩ := (forFields_cons found).mp ended
    rw [runs_bind_ok] at first
    obtain ⟨e₁, s₂, inferred, first⟩ := first
    rw [runs_bind_ok] at first
    obtain ⟨e, s₃, expected, done⟩ := first
    obtain ⟨same, rfl⟩ := runs_pure.mp done
    obtain rfl := Except.ok.inj same
    have own : x.value.binders ⊆ givenTags (·.name) (·.value.binders) fields (f.name :: rest.map (·.name)) :=
      fun t bound => mem_givenTags.mpr ⟨x, item, named ▸ List.mem_cons_self, bound⟩
    have apart : x.value.binders.Disjoint
        (givenTags (·.name) (·.value.binders) fields (rest.map (·.name))) :=
      disjoint_givenTags once item (named ▸ distinct.1)
    have site : Site env vars (x.value.binders ++ []) s := by
      rw [List.append_nil]
      exact ⟨agree, fun t bound => fresh t (own bound), (List.nodup_flatMap.mp once).1 x item⟩
    obtain ⟨cells₁, step, -⟩ := expected_sound (infer_sound whole x.value) inferred expected (inside x item)
      ready site.left formed.1
    have here := expected_decides whole (sound x item) inferred expected (inside x item) ready site.left unhidden
      formed.1
    obtain ⟨behind, grown⟩ := ih later given.2 distinct.2 step.ready
      (fun f member => (formed.2 f member).grow step.cells) (site.after step).agree
      (fun t member => by
        rw [step.vars t fun bound => apart bound member]
        exact fresh t (givenTags_mono (List.subset_cons_self _ _) member)) (unhidden.after site step)
    refine ⟨?_, step.bindings.trans grown⟩
    rw [List.flatMap_cons, asked, Option.getD_some]
    exact here.append behind grown fun f given _ => given

mutual

/-- What a pattern brings into scope has types of the pattern. -/
theorem scope_types (p : Pattern) (env : Env) : (p.scope env).map (·.2) ⊆ p.types ++ env.map (·.2) := by
  cases p with
  | var span name type =>
    rw [Pattern.scope, Pattern.types, List.map_cons]
    exact fun t member => member
  | record span name type fields =>
    rw [Pattern.scope, Pattern.types]
    exact fun t member => List.mem_cons_of_mem _ (fieldScope_types fields env member)

theorem fieldScope_types (fs : List FieldPattern) (env : Env) :
    (Pattern.fieldScope fs env).map (·.2) ⊆ Pattern.fieldTypes fs ++ env.map (·.2) := by
  match fs with
  | [] => exact fun t member => member
  | ⟨_, p⟩ :: rest =>
    intro t member
    have later := fieldScope_types rest (p.scope env) member
    have here := @scope_types p env t
    simp only [Pattern.fieldTypes, List.mem_append] at later here ⊢
    tauto

end

theorem fills_scope {p : Pattern} {f : Cell → Ty} (given : Fills f (env.map (·.2)))
    (types : Fills f p.types) : Fills f ((p.scope env).map (·.2)) :=
  (Ty.fills_append.mpr ⟨types, given⟩).subset (scope_types p env)

/-- Bindings, and what they bring into scope. -/
theorem lets_decide (whole : g.Formed structs) {bs : List Resolved.Let}
    (sound : ∀ b ∈ bs, ExprDecided structs g generics b.value) {bs' : List Let}
    (ended : Runs (inferLets bs) g s (.ok bs') s')
    (inside : Resolved.Expr.LetsScoped structs generics vars bs) (ready : Ready g generics cells s)
    {behind : List Tag} (site : Site env vars (Resolved.Expr.letBinders bs ++ behind) s)
    (unhidden : Unhidden g vars s) :
    Decides (Resolved.Expr.letAsks g bs) (env.map (·.2)) (Expr.letTypes bs') s s' ∧
      Unhidden g (Resolved.bindLets vars bs) s' ∧
      ∀ f, Fills f (env.map (·.2)) → Fills f (Expr.letTypes bs') →
        Fills f ((letScope bs' env).map (·.2)) := by
  induction bs generalizing env vars cells s bs' with
  | nil =>
    obtain ⟨rfl, rfl⟩ := runs_inferLets_nil.mp ended
    exact ⟨.none rfl fun f _ _ => Ty.fills_nil, unhidden, fun f given _ => given⟩
  | cons b rest ih =>
    obtain ⟨span, p, value⟩ := b
    rw [List.forall_mem_cons] at sound
    obtain ⟨value', s₁, inferred, p', s₂, matched, others, later, rfl⟩ := runs_inferLets_cons.mp ended
    rw [Resolved.Expr.letBinders, List.append_assoc, List.append_assoc] at site
    obtain ⟨cells₁, first, found⟩ :=
      infer_sound whole value env vars cells s value' s₁ inferred inside.1 ready site.left
    have site₁ := site.after first
    obtain ⟨cells₂, bound⟩ := pattern_sound whole p _ cells₁ s₁ p' s₂ matched inside.2.1 first.ready
      found.type_formed site₁.left.once
    have site₂ := site₁.bind bound.step bound.scope
    obtain ⟨cells₃, third, -⟩ := lets_sound whole (fun b _ => infer_sound whole b.value) later inside.2.2
      bound.step.ready site₂
    obtain ⟨behind, unhidden', scope⟩ := ih sound.2 later inside.2.2 bound.step.ready site₂
      (((unhidden.after site first).after site₁ bound.step).mono (List.subset_append_right _ _))
    have ofValue := sound.1 env vars cells s value' s₁ inferred inside.1 ready site.left unhidden
    have ofPattern := pattern_decided whole p _ cells₁ s₁ p' s₂ matched inside.2.1 first.ready found.type_formed
      site₁.left.once
    refine ⟨?_, unhidden', fun f given types => ?_⟩
    · have tail : Decides (p.asks g ++ Resolved.Expr.letAsks g rest) (value'.type :: env.map (·.2))
          (p'.types ++ Expr.letTypes others) s₁ s' := by
        refine Decides.append ⟨ofPattern.minted, fun f solves given => ?_⟩ behind third.bindings
          fun f given types => fills_scope (Ty.fills_cons.mp given).2 types
        exact ofPattern.decided f solves (Ty.fills_cons.mpr ⟨(Ty.fills_cons.mp given).1, Ty.fills_nil⟩)
      have all := ofValue.append tail (bound.step.bindings.trans third.bindings) fun f given types =>
        Ty.fills_cons.mpr ⟨types _ value'.type_mem_types, given⟩
      refine all.congr fun f _ _ => ?_
      rw [Expr.letTypes]
      simp only [Ty.fills_append]
      tauto
    · rw [Expr.letTypes, Ty.fills_append, Ty.fills_append] at types
      exact scope f (fills_scope given types.1.1) types.2

theorem closureParams_decide (whole : g.Formed structs) {ps : List Resolved.Param} {ps' : List Param}
    (ended : Runs (closureParams ps) g s (.ok ps') s')
    (inside : ∀ p ∈ ps, p.type.Over generics ∧ p.pattern.Scoped structs) (ready : Ready g generics cells s)
    {behind : List Tag} (site : Site env vars (Resolved.paramTags ps ++ behind) s) (unhidden : Unhidden g vars s) :
    Decides (Resolved.paramAsks g ps) (env.map (·.2)) (ps'.flatMap fun p => p.type :: p.pattern.types) s s' ∧
      Unhidden g (Resolved.paramTags ps ++ vars) s' ∧
      ∀ f, Fills f (env.map (·.2)) → Fills f (ps'.flatMap fun p => p.type :: p.pattern.types) →
        Fills f ((paramScope ps' env).map (·.2)) := by
  induction ps generalizing env vars cells s ps' with
  | nil =>
    obtain ⟨rfl, rfl⟩ := runs_closureParams_nil.mp ended
    exact ⟨.none rfl fun f _ _ => Ty.fills_nil, unhidden, fun f given _ => given⟩
  | cons p rest ih =>
    rw [List.forall_mem_cons] at inside
    obtain ⟨t, s₁, written, p', s₂, matched, others, later, rfl⟩ := runs_closureParams_cons.mp ended
    obtain ⟨same, formed⟩ := writtenType_formed [] written inside.1.1
    obtain rfl : s = s₁ := same.symm
    rw [Resolved.paramTags, List.flatMap_cons, List.append_assoc] at site
    have formed' := formed.grow (List.nil_subset cells)
    obtain ⟨cells₁, bound⟩ := pattern_sound whole p.pattern _ cells s p' s₂ matched inside.1.2 ready
      formed' site.left.once
    have site₁ := site.bind bound.step bound.scope
    obtain ⟨cells₂, second, -⟩ := closureParams_sound whole later inside.2 bound.step.ready site₁
    obtain ⟨behind, unhidden', scope⟩ := ih later inside.2 bound.step.ready site₁
      ((unhidden.after site bound.step).mono (List.subset_append_right _ _))
    have own := pattern_decided whole p.pattern _ cells s p' s₂ matched inside.1.2 ready formed' site.left.once
    refine ⟨?_, unhidden'.mono fun u => ?_, fun f given types => ?_⟩
    · have closed : ∀ f, (t.mapCells f).cells = [] := fun f => Ty.cells_mapCells_of_closed formed.closed
      have first : Decides (p.pattern.asks g) (env.map (·.2)) (t :: p'.types) s s₂ :=
        ⟨own.minted, fun f solves _ => by
          rw [own.decided f solves (Ty.fills_cons.mpr ⟨closed f, Ty.fills_nil⟩), Ty.fills_cons]
          exact (and_iff_right (closed f)).symm⟩
      exact first.append behind second.bindings fun f given types =>
        fills_scope given (Ty.fills_cons.mp types).2
    · simp only [Resolved.paramTags, List.flatMap_cons, List.mem_append]
      tauto
    · rw [List.flatMap_cons, Ty.fills_append, Ty.fills_cons] at types
      exact scope f (fills_scope given types.1.2) types.2

/-- Alternatives that are only checked mint cells as well. -/
theorem checkArms_minted (whole : g.Formed structs) {as : List Resolved.Arm}
    (sound : ∀ a ∈ as, ExprDecided structs g generics a.body) {t result : Ty} {u : Unit}
    (ended : Runs (checkArms t result as) g s (.ok u) s')
    (inside : Resolved.Expr.ArmsScoped structs generics vars as) (ready : Ready g generics cells s)
    (site : Site env vars (Resolved.Expr.armBinders as) s) (unhidden : Unhidden g vars s)
    (formed : t.Formed g.arity generics cells) (formedR : result.Formed g.arity generics cells) :
    s'.minted = s.minted + (Resolved.Expr.armAsks g as).flatten.length := by
  induction as generalizing cells s with
  | nil =>
    obtain rfl := runs_checkArms_nil.mp ended
    rfl
  | cons a rest ih =>
    obtain ⟨span, p, body⟩ := a
    rw [List.forall_mem_cons] at sound
    obtain ⟨p', s₁, matched, body', s₂, inferred, body'', s₃, expected, ended⟩ :=
      runs_checkArms_cons.mp ended
    have own : Site env vars (p.tags ++ body.binders) s := site.left
    obtain ⟨cells₁, bound⟩ := pattern_sound whole p _ cells s p' s₁ matched inside.1 ready formed
      own.left.once
    have site₁ := own.bind bound.step bound.scope
    have unhidden₁ := (unhidden.after own bound.step).mono (List.subset_append_right p.tags vars)
    have formed₁ := formedR.grow bound.step.cells
    obtain ⟨cells₂, second, -⟩ := expected_sound (infer_sound whole body) inferred expected inside.2.1
      bound.step.ready site₁ formed₁
    have both := bound.step.trans second
    have ofPattern := (pattern_decided whole p _ cells s p' s₁ matched inside.1 ready formed own.left.once).minted
    have ofBody : s₃.minted = s₁.minted + (body.asks g).length :=
      (expected_decides whole sound.1 inferred expected inside.2.1 bound.step.ready site₁ unhidden₁
        formed₁).minted
    rw [ih sound.2 ended inside.2.2 both.ready (site.after both) (unhidden.after site both)
      (formed.grow both.cells) (formedR.grow both.cells), ofBody, ofPattern, Resolved.Expr.armAsks_cons,
      List.flatten_cons, List.length_append, List.length_append]
    omega

end Lists

section Expressions

variable {structs : Declared} {g : Globals} {generics : List Tag}

/-- A callee names a function exactly if checking takes it for one. -/
theorem directCallee?_asks {callee : Resolved.Expr} {vars : List Tag} {s s' : Progress} {r : Option Ident}
    (ended : Runs (directCallee? callee) g s (.ok r) s') (unhidden : Unhidden g vars s) :
    (∀ name, r = some name → callee.asks g = [] ∧
      Resolved.calleeAsks g callee = (g.function? name).elim [] fun f => Ask.each f.generics) ∧
    (r = none → Resolved.calleeAsks g callee = []) := by
  unfold directCallee? at ended
  split at ended
  · rename_i span name
    rw [runs_get_bind] at ended
    obtain ⟨same, rfl⟩ := runs_pure.mp ended
    obtain rfl := Except.ok.inj same
    refine ⟨fun name' same => ?_, fun local_ => ?_⟩
    · split at same
      · cases same
      · obtain rfl := Option.some.inj same
        exact ⟨rfl, rfl⟩
    · split at local_
      · rename_i bound
        show (g.function? name).elim [] (fun f => Ask.each f.generics) = []
        cases found : g.function? name with
        | none => rfl
        | some f =>
          obtain ⟨function, same⟩ := g.mem_of_function? found
          rw [← same, (unhidden f function).2] at bound
          cases bound
      · cases local_
  · rename_i other
    obtain ⟨same, rfl⟩ := runs_pure.mp ended
    obtain rfl := Except.ok.inj same
    refine ⟨fun name direct => absurd direct (by simp), fun _ => ?_⟩
    cases callee with
    | var span name => exact absurd rfl (other span name)
    | _ => rfl

theorem call_decides (whole : g.Formed structs) {span : Span} {callee : Resolved.Expr}
    {args : List Resolved.Expr} (ihCallee : ExprDecided structs g generics callee)
    (ih : ∀ a ∈ args, ExprDecided structs g generics a) :
    ExprDecided structs g generics (.call span callee args) := by
  intro env vars cells s e' s' ended inside ready site unhidden
  rw [Resolved.Expr.asks_call]
  rcases runs_infer_call.mp ended with
    ⟨name, s₀, known, f, found, length, sub, s₁, minted, args', inner, rfl⟩ |
    ⟨s₀, known, target, s₁, inferred, params, result, resolved, length, args', inner, rfl⟩
  · obtain ⟨same, nothing⟩ := directCallee?_unchanged known
    obtain rfl : s = s₀ := same.symm
    obtain ⟨silent, asked⟩ := (directCallee?_asks known unhidden).1 name rfl
    obtain ⟨member, -⟩ := g.mem_of_function? found
    obtain ⟨cells₁, first, unchanged, tags, formedSub⟩ := instantiate_step minted ready
    rw [Resolved.Expr.binders, nothing (by simp), List.nil_append] at site
    have site₁ : Site env vars ([] ++ Resolved.Expr.bindersAll args) s := site
    have formedP : ∀ t ∈ f.params.map (·.substitute sub), t.Formed g.arity generics cells₁ := by
      intro t param
      obtain ⟨p, own, rfl⟩ := List.mem_map.mp param
      exact formed_instance tags (whole.params f member p own) formedSub
    have enough : (f.params.map (·.substitute sub)).length = args.length := by simpa using length
    obtain ⟨cells', second, -⟩ := args_sound (fun e _ => infer_sound whole e) inner enough inside.2
      first.ready (site₁.after first) formedP
    have behind := args_decide whole ih inner enough inside.2 first.ready (site₁.after first)
      (unhidden.after site₁ first) formedP
    rw [asked, silent, found, List.nil_append]
    have all := (instantiate_decides minted).anywhere.append behind second.bindings fun h given _ => given
    refine all.congr fun h _ _ => ?_
    rw [Expr.types, Ty.fills_cons]
    refine (and_iff_right_of_imp fun filled => ?_).symm
    exact Ty.Fills.substitute (Ty.fills_append.mp filled).1 (whole.result f member).closed
  · obtain ⟨same, -⟩ := directCallee?_unchanged known
    obtain rfl : s = s₀ := same.symm
    obtain ⟨cells₁, first, found⟩ :=
      infer_sound whole callee env vars cells s target s₁ inferred inside.1 ready site.left
    have formed : (Ty.func params result).Formed g.arity generics cells₁ := by
      rw [← resolved]
      exact valid_resolve first.ready.sane found.type_formed
    obtain ⟨formedP, -⟩ := Ty.formed_func.mp formed
    obtain ⟨cells', second, -⟩ := args_sound (fun e _ => infer_sound whole e) inner length inside.2
      first.ready (site.after first) formedP
    have behind := args_decide whole ih inner length inside.2 first.ready (site.after first)
      (unhidden.after site first) formedP
    rw [(directCallee?_asks known unhidden).2 rfl, List.nil_append]
    have all := (ihCallee env vars cells s target s₁ inferred inside.1 ready site.left unhidden).append
      behind second.bindings fun h given _ => given
    refine all.congr fun h solves _ => ?_
    rw [Expr.types, Ty.fills_cons]
    refine (and_iff_right_of_imp fun filled => ?_).symm
    -- the function type that the callee was found to have is filled with its type
    have same := mapCells_resolve (solves.of_extends second.bindings) target.type
    have filled := (Ty.fills_append.mp filled).1 _ target.type_mem_types
    rw [← same, resolved, Ty.fills_func] at filled
    exact filled.2

theorem record_decides (whole : g.Formed structs) {span : Span} {name : Ident}
    {fields : List Resolved.FieldInit} (ih : ∀ x ∈ fields, ExprDecided structs g generics x.value) :
    ExprDecided structs g generics (.record span name fields) := by
  intro env vars cells s e' s' ended inside ready site unhidden
  obtain ⟨d, found, sub, s₁, minted, is, inner, rfl⟩ := runs_infer_record.mp ended
  obtain ⟨member, named⟩ := g.mem_of_struct? found
  obtain ⟨cells₁, first, -, tags, formedSub⟩ := instantiate_step minted ready
  obtain ⟨⟨names, listed, -, complete⟩, inside⟩ := inside
  have declared : d.fields.map (·.name) = names := whole.declared _ listed d member named
  have site₁ : Site env vars ([] ++ Resolved.Expr.fieldBinders fields) s := site
  have unhidden₁ := unhidden.after site₁ first
  have site₁ := site₁.after first
  rw [fieldBinders_eq_flatMap] at site₁
  obtain ⟨behind, grown⟩ := fields_decide whole ih inner
    (fun f field => (complete f.name).mpr (declared ▸ List.mem_map_of_mem field)) (whole.names d member)
    (fieldsScoped_iff.mp inside) first.ready
    (fun f field => formed_instance tags (whole.fields d member f field) formedSub)
    site₁.once site₁.agree (fun t bound => site₁.fresh t (givenTags_subset bound)) unhidden₁
  rw [Resolved.Expr.asks_record g found]
  have all := (instantiate_decides minted).anywhere.append behind grown fun h given _ => given
  refine all.congr fun h _ _ => ?_
  rw [Expr.types, Ty.fills_cons]
  exact (and_iff_right_of_imp fun filled => Ty.fills_named.mpr (Ty.fills_append.mp filled).1).symm

theorem case_decides (whole : g.Formed structs) {span : Span} {scrutinee : Resolved.Expr}
    {arms : List Resolved.Arm} (ihScrutinee : ExprDecided structs g generics scrutinee)
    (ih : ∀ a ∈ arms, ExprDecided structs g generics a.body) :
    ExprDecided structs g generics (.case span scrutinee arms) := by
  intro env vars cells s e' s' ended inside ready site unhidden
  obtain ⟨value, s₁, inferred, ended⟩ := runs_infer_case.mp ended
  obtain ⟨cells₁, first, found⟩ :=
    infer_sound whole scrutinee env vars cells s value s₁ inferred inside.1 ready site.left
  have ofValue := ihScrutinee env vars cells s value s₁ inferred inside.1 ready site.left unhidden
  rw [Resolved.Expr.asks_case]
  cases arms with
  | nil =>
    obtain ⟨rfl, rfl⟩ := runs_inferArms_nil.mp ended
    show Decides (scrutinee.asks g ++ []) _ _ s _
    rwa [List.append_nil]
  | cons a rest =>
    obtain ⟨armSpan, p, body⟩ := a
    rw [List.forall_mem_cons] at ih
    obtain ⟨insideP, insideB, insideR⟩ := inside.2
    obtain ⟨p', s₂, matched, body', s₃, inferredB, ⟨u, checked⟩, rfl⟩ := runs_inferArms_cons.mp ended
    have site₁ := site.after first
    have unhidden₁ := unhidden.after site first
    have own : Site env vars (p.tags ++ body.binders) s₁ := site₁.left
    obtain ⟨cells₂, bound⟩ := pattern_sound whole p _ cells₁ s₁ p' s₂ matched insideP first.ready
      found.type_formed own.left.once
    have site₂ := own.bind bound.step bound.scope
    have unhidden₂ := (unhidden₁.after own bound.step).mono (List.subset_append_right p.tags vars)
    obtain ⟨cells₃, third, foundB⟩ := infer_sound whole body _ _ cells₂ s₂ body' s₃ inferredB insideB
      bound.step.ready site₂
    have both := bound.step.trans third
    obtain ⟨cells', fourth⟩ := checkArms_step whole (fun a _ => infer_sound whole a.body) checked insideR
      both.ready (site₁.after both) (found.type_formed.grow both.cells) foundB.type_formed
    have ofPattern := pattern_decided whole p _ cells₁ s₁ p' s₂ matched insideP first.ready found.type_formed
      own.left.once
    have ofBody := ih.1 _ _ cells₂ s₂ body' s₃ inferredB insideB bound.step.ready site₂ unhidden₂
    have ofRest : Decides (Ask.dropped (Resolved.Expr.armAsks g rest).flatten) (env.map (·.2)) [] s₃ s' :=
      decides_dropped (checkArms_minted whole ih.2 checked insideR both.ready (site₁.after both)
        (unhidden₁.after site₁ both) (found.type_formed.grow both.cells) foundB.type_formed)
    have arm : Decides ((p.asks g ++ body.asks g) ++ Ask.dropped (Resolved.Expr.armAsks g rest).flatten)
        (value.type :: env.map (·.2)) ((p'.types ++ body'.types) ++ []) s₁ s' := by
      refine Decides.append (Decides.append ⟨ofPattern.minted, fun f solves given => ?_⟩ ofBody third.bindings
        fun f given types => fills_scope (Ty.fills_cons.mp given).2 types) ofRest fourth.bindings
        fun f given _ => (Ty.fills_cons.mp given).2
      exact ofPattern.decided f solves (Ty.fills_cons.mpr ⟨(Ty.fills_cons.mp given).1, Ty.fills_nil⟩)
    rw [Resolved.Expr.armAsks_cons, Ask.ofFirst]
    have all := ofValue.append arm (both.bindings.trans fourth.bindings) fun f given types =>
      Ty.fills_cons.mpr ⟨types _ value.type_mem_types, given⟩
    refine all.congr fun f _ _ => ?_
    have last : Fills f body'.types → (body'.type.mapCells f).cells = [] := fun types =>
      types _ body'.type_mem_types
    simp only [Expr.types, Expr.type, Expr.letTypes, List.append_nil, Ty.fills_cons, Ty.fills_append]
    tauto

theorem closure_decides (whole : g.Formed structs) {span : Span} {params : List Resolved.Param}
    {body : Resolved.Expr} (ih : ExprDecided structs g generics body) :
    ExprDecided structs g generics (.closure span params body) := by
  intro env vars cells s e' s' ended inside ready site unhidden
  obtain ⟨params', s₁, declared, body', inferred, rfl⟩ := runs_infer_closure.mp ended
  obtain ⟨cells₁, first, site₁, -⟩ := closureParams_sound whole declared inside.1 ready site
  obtain ⟨ofParams, unhidden₁, scope⟩ := closureParams_decide whole declared inside.1 ready site unhidden
  obtain ⟨cells', second, -⟩ :=
    infer_sound whole body _ _ cells₁ s₁ body' s' inferred inside.2 first.ready site₁
  have ofBody := ih _ _ cells₁ s₁ body' s' inferred inside.2 first.ready site₁ unhidden₁
  rw [Resolved.Expr.asks_closure]
  refine (ofParams.append ofBody second.bindings scope).congr fun f _ _ => ?_
  -- the type of the closure and what it captures are made of the rest
  refine ⟨fun filled => ?_, fun filled => filled.subset ?_⟩
  · rw [Expr.types, Ty.fills_cons, Ty.fills_append, Ty.fills_append]
    obtain ⟨inP, inB⟩ := Ty.fills_append.mp filled
    refine ⟨Ty.fills_func.mpr ⟨fun t param => ?_, inB _ body'.type_mem_types⟩,
      ⟨inP, fun t captured => ?_⟩, inB⟩
    · obtain ⟨p, own, rfl⟩ := List.mem_map.mp param
      exact inP _ (List.mem_flatMap.mpr ⟨p, own, List.mem_cons_self⟩)
    · obtain ⟨c, read, rfl⟩ := List.mem_map.mp captured
      exact inB _ (Expr.type_mem_of_reads (mem_of_firstReads read).1)
  · rw [Expr.types]
    intro t member
    simp only [List.mem_append, List.mem_cons] at member ⊢
    tauto

/-- Inference decides cells as it should. -/
theorem infer_decides (whole : g.Formed structs) (e : Resolved.Expr) : ExprDecided structs g generics e := by
  induction e with
  | number span text bits =>
    intro env vars cells s e' s' ended inside ready site unhidden
    obtain ⟨rfl, rfl⟩ := runs_infer_number.mp ended
    exact .none rfl fun f _ _ => by simp [Expr.types, Expr.type]
  | bool span value =>
    intro env vars cells s e' s' ended inside ready site unhidden
    obtain ⟨rfl, rfl⟩ := runs_infer_bool.mp ended
    exact .none rfl fun f _ _ => by simp [Expr.types, Expr.type]
  | var span name =>
    intro env vars cells s e' s' ended inside ready site unhidden
    obtain ⟨t, found, rfl, rfl⟩ := runs_infer_var.mp ended
    refine .none rfl fun f _ given => ?_
    rw [← site.agree name.tag (Or.inl inside)] at found
    obtain ⟨before, behind, split, -⟩ := List.lookup_eq_some_iff.mp found
    rw [Expr.types, Ty.fills_cons]
    exact ⟨given t (by simp [split]), Ty.fills_nil⟩
  | call span callee args ihCallee ih => exact call_decides whole ihCallee ih
  | operation span op left right ihLeft ihRight =>
    intro env vars cells s e' s' ended inside ready site unhidden
    obtain ⟨l₁, s₁, inferredL, l, s₂, expectedL, r₁, s₃, inferredR, r, expectedR, rfl⟩ :=
      runs_infer_operation.mp ended
    obtain ⟨cells₁, first, -⟩ := expected_sound (infer_sound whole left) inferredL expectedL inside.1 ready
      site.left formed_float
    obtain ⟨cells', second, -⟩ := expected_sound (infer_sound whole right) inferredR expectedR inside.2
      first.ready (site.after first) formed_float
    have ofLeft := expected_decides whole ihLeft inferredL expectedL inside.1 ready site.left unhidden formed_float
    have ofRight := expected_decides whole ihRight inferredR expectedR inside.2 first.ready (site.after first)
      (unhidden.after site first) formed_float
    refine (ofLeft.append ofRight second.bindings fun f given _ => given).congr fun f _ _ => ?_
    rw [Expr.types, Ty.fills_cons]
    refine (and_iff_right (Ty.cells_mapCells_of_closed ?_)).symm
    rw [Expr.type, operationType]
    split <;> rfl
  | record span name fields ih => exact record_decides whole ih
  | block span lets result ih ihResult =>
    intro env vars cells s e' s' ended inside ready site unhidden
    obtain ⟨lets', s₁, inferred, result', inferredR, rfl⟩ := runs_infer_block.mp ended
    obtain ⟨cells₁, first, site₁, -⟩ := lets_sound whole (fun b _ => infer_sound whole b.value) inferred
      inside.1 ready site
    obtain ⟨ofLets, unhidden₁, scope⟩ := lets_decide whole ih inferred inside.1 ready site unhidden
    obtain ⟨cells', second, -⟩ :=
      infer_sound whole result _ _ cells₁ s₁ result' s' inferredR inside.2 first.ready site₁
    have ofResult := ihResult _ _ cells₁ s₁ result' s' inferredR inside.2 first.ready site₁ unhidden₁
    refine (ofLets.append ofResult second.bindings scope).congr fun f _ _ => ?_
    rw [Expr.types, Ty.fills_cons]
    exact (and_iff_right_of_imp fun filled => (Ty.fills_append.mp filled).2 _ result'.type_mem_types).symm
  | annotated span value type ih =>
    intro env vars cells s e' s' ended inside ready site unhidden
    obtain ⟨t, s₁, written, e₁, s₂, inferred, expected⟩ := runs_infer_annotated.mp ended
    obtain ⟨same, formed⟩ := writtenType_formed cells written inside.2
    obtain rfl : s = s₁ := same.symm
    exact expected_decides whole ih inferred expected inside.1 ready site unhidden formed
  | case span scrutinee arms ihScrutinee ih => exact case_decides whole ihScrutinee ih
  | cond span test yes no ihTest ihYes ihNo =>
    intro env vars cells s e' s' ended inside ready site unhidden
    obtain ⟨t₁, s₁, inferredT, t, s₂, expectedT, y, s₃, inferredY, n₁, s₄, inferredN, n, expectedN, rfl⟩ :=
      runs_infer_cond.mp ended
    obtain ⟨cells₁, first, -⟩ := expected_sound (infer_sound whole test) inferredT expectedT inside.1 ready
      site.left formed_bool
    have site₁ := site.after first
    have unhidden₁ := unhidden.after site first
    obtain ⟨cells₂, second, foundY⟩ :=
      infer_sound whole yes env vars cells₁ s₂ y s₃ inferredY inside.2.1 first.ready site₁.left
    obtain ⟨cells', third, -⟩ := expected_sound (infer_sound whole no) inferredN expectedN inside.2.2
      second.ready (site₁.after second) foundY.type_formed
    have ofTest := expected_decides whole ihTest inferredT expectedT inside.1 ready site.left unhidden formed_bool
    have ofYes := ihYes env vars cells₁ s₂ y s₃ inferredY inside.2.1 first.ready site₁.left unhidden₁
    have ofNo := expected_decides whole ihNo inferredN expectedN inside.2.2 second.ready (site₁.after second)
      (unhidden₁.after site₁ second) foundY.type_formed
    have all := ofTest.append (ofYes.append ofNo third.bindings fun f given _ => given)
      (second.bindings.trans third.bindings) fun f given _ => given
    refine all.congr fun f _ _ => ?_
    rw [Expr.types, Ty.fills_cons, ← List.append_assoc]
    refine (and_iff_right_of_imp fun filled => ?_).symm
    exact (Ty.fills_append.mp (Ty.fills_append.mp filled).1).2 _ y.type_mem_types
  | closure span params body ih => exact closure_decides whole ih

end Expressions

end WitnessLang.Typed
