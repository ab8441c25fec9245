import WitnessLang.Proofs.Sized.Measured

set_option autoImplicit false

namespace WitnessLang.Sized

open Explicit (tagsOf argumentEnv environment builderOf)

variable {c : Context} {arity : Arity} {generics : List Tag} {st : State} {allowed : Stop → Prop}
  {able : Ty → Prop}

/-- Type parameters are defined one after the other; `m` defines one of them. -/
theorem descriptions_meets (lays : Lays c generics allowed able) (can : able Ty.witness) {α : Type}
    (name : α → Ident) {m : α → Measure Variable} {items : List α}
    (defines : ∀ a ∈ items, ∀ st post, MeetsIn allowed (define (name a) Ty.witness) c st post →
      MeetsIn allowed (m a) c st post)
    (known : ∀ a ∈ items, (name a).tag ∈ generics) (sound : Idle c generics st) :
    MeetsIn allowed (items.mapM m) c st fun vs st' =>
      (∀ v ∈ vs, v.IsDescription c) ∧ variableTags vs = items.map (fun a => (name a).tag) ∧
        Idle c generics st' ∧ Grown st st' (items.map fun a => (name a).tag) ∧
        Holds st' (items.map fun a => (name a).tag) ∧
        ((items.map fun a => (name a).tag).Nodup →
          (∀ a ∈ items, st.vars.lookup (name a).tag = none) → vs.map (·.name) = items.map name) := by
  induction items generalizing st with
  | nil =>
    rw [List.mapM_nil, meetsIn_pure]
    exact ⟨by simp, rfl, sound, Grown.refl st, by simp [Holds], fun _ _ => rfl⟩
  | cons a rest ih =>
    rw [List.forall_mem_cons] at known defines
    rw [List.mapM_cons, meetsIn_bind]
    refine (defines.1 st _ (defineDescription_meets lays can sound known.1)).imp
      fun v st₁ post => ?_
    obtain ⟨tag, kind, sound₁, grown, found, named⟩ := post
    rw [meetsIn_bind]
    refine (ih defines.2 known.2 sound₁).imp
      fun vs st₂ post => ?_
    obtain ⟨kinds, tags, sound₂, grown₂, held, others⟩ := post
    rw [meetsIn_pure]
    refine ⟨List.forall_mem_cons.mpr ⟨kind, kinds⟩, ?_, sound₂, grown.trans grown₂,
      List.forall_mem_cons.mpr ⟨⟨v, grown₂.kept _ v found⟩, held⟩, fun once fresh => ?_⟩
    · rw [variableTags, List.map_cons, List.map_cons, tag, ← tags]
      rfl
    · obtain ⟨new, once⟩ := List.nodup_cons.mp once
      rw [List.forall_mem_cons] at fresh
      rw [List.map_cons, List.map_cons, named fresh.1, others once fun b member => ?_]
      refine grown.within _ (fresh.2 b member) fun same => new ?_
      exact List.mem_map.mpr ⟨b, member, List.mem_singleton.mp same⟩

def State.variable (st : State) (name : Ident) : Variable :=
  (st.vars.lookup name.tag).getD default

theorem State.variable_eq {name : Ident} {v : Variable} (found : st.vars.lookup name.tag = some v) :
    st.variable name = v := by
  rw [State.variable, found, Option.getD_some]

/-- The arguments of a measured function, as they were defined. -/
theorem arguments_meets {as : List Explicit.Argument}
    (held : ∀ a ∈ as, ∃ v, st.vars.lookup a.name.tag = some v) :
    MeetsIn allowed (as.mapM fun a => return Argument.mk (← lookup a.name) a.convention) c st
      fun as' st' => as' = as.map (fun a => ⟨st.variable a.name, a.convention⟩) ∧ st' = st := by
  induction as with
  | nil =>
    rw [List.mapM_nil, meetsIn_pure]
    exact ⟨rfl, rfl⟩
  | cons a rest ih =>
    rw [List.forall_mem_cons] at held
    obtain ⟨⟨v, found⟩, held⟩ := held
    rw [List.mapM_cons, meetsIn_bind, meetsIn_bind]
    refine (lookup_meets found).imp fun v' st' post => ?_
    obtain ⟨same, kept⟩ := post
    rw [meetsIn_pure, kept, meetsIn_bind]
    refine (ih held).imp fun as' st' post => ?_
    obtain ⟨all, kept⟩ := post
    rw [meetsIn_pure, same, List.map_cons, State.variable_eq found, all]
    exact ⟨rfl, kept⟩

/-- A function is measured if nothing that it binds has been defined. -/
theorem function_meets (wide : c.Extends arity) (lays : Lays c generics allowed able) {f : Explicit.Function}
    (can : able Ty.witness ∧ ∀ t ∈ f.arguments.map (·.type) ++ f.body.types, able t) {result : Explicit.Argument}
    {params : List Explicit.Argument} {gs : List Ident}
    (inside : f.Scoped arity c.structs result params gs) (sound : Idle c generics st)
    (known : f.parameters ⊆ generics) (once : f.variables.Nodup)
    (fresh : ∀ t ∈ f.variables, st.vars.lookup t = none) (apart : f.variables.Disjoint generics) :
    MeetsIn allowed (function f) c st fun f' st' =>
      (f'.name = f.name ∧ ∃ r ps gs, f'.Scoped c r ps gs) ∧ Idle c generics st' ∧
        Grown st st' (f.parameters ++ f.variables) := by
  rw [inside.parameters_eq wide.plain] at known ⊢
  rw [inside.variables_eq wide.plain] at once fresh apart ⊢
  obtain ⟨values, descriptions⟩ := inside.split wide.plain
  have split : f.arguments.partition (fun a => isWitnessType a.type) =
      (gs.map fun g => ⟨g, Ty.witness, .borrowed⟩, result :: params) := by
    rw [List.partition_eq_filter_filter, descriptions]
    exact congrArg _ values
  have formed : ∀ a ∈ result :: params, a.type.Formed arity (tagsOf gs) [] := inside.formed
  rw [function, split]
  dsimp only
  rw [meetsIn_bind, List.mapM_append, meetsIn_bind]
  have named : (gs.map fun g => Explicit.Argument.mk g Ty.witness .borrowed).map
      (fun a => a.name.tag) = tagsOf gs := by
    rw [List.map_map]
    rfl
  have known' : ∀ a ∈ gs.map fun g => Explicit.Argument.mk g Ty.witness .borrowed,
      a.name.tag ∈ generics := by
    intro a member
    obtain ⟨g, generic, rfl⟩ := List.mem_map.mp member
    exact known (List.mem_map_of_mem generic)
  refine (descriptions_meets lays can.1 (fun a : Explicit.Argument => a.name)
    (fun a member st post meets => atSpan_meets lays ?_) known' sound).imp
      fun gs' st₁ post => ?_
  · obtain ⟨g, -, rfl⟩ := List.mem_map.mp member
    exact meets
  obtain ⟨kinds, tagsG, sound₁, grown₁, held, _⟩ := post
  rw [named] at tagsG grown₁ held
  have place : Place generics (tagsOf gs) [] ((result :: params).map (·.name.tag) ++ f.body.binders)
      c st₁ := by
    refine ⟨sound₁, known, held, by simp [Bound], once, fun t member => ?_, apart⟩
    exact grown₁.within t (fresh t member) fun generic => apart member (known generic)
  rw [meetsIn_bind]
  have canV : ∀ a ∈ result :: params, able a.type := fun a member => by
    refine can.2 _ (List.mem_append_left _ (List.mem_map_of_mem ?_))
    rw [inside.arguments]
    exact List.mem_append_left _ member
  refine (params_meets wide lays (fun _ _ _ meets => atSpan_meets lays meets) canV formed (fun _ member => member)
    place).imp fun vs st₂ post => ?_
  obtain ⟨layouts, tagsV, bound, place₂, grown₂⟩ := post
  rw [meetsIn_pure, meetsIn_bind]
  refine (arguments_meets fun a member => ?_).imp fun as st₃ post => ?_
  · rw [inside.arguments] at member
    rcases List.mem_append.mp member with value | description
    · obtain ⟨v, found, -⟩ := bound _ (List.mem_map_of_mem value)
      exact ⟨v, found⟩
    · obtain ⟨g, generic, rfl⟩ := List.mem_map.mp description
      exact place₂.held _ (List.mem_map_of_mem generic)
  obtain ⟨same, kept⟩ := post
  rw [kept, meetsIn_bind]
  have placeB : Place generics (tagsOf gs) (argumentEnv params) f.body.binders c st₂ :=
    { place₂ with bound := fun e member => bound e (List.mem_cons_of_mem _ member) }
  refine (expr_meets wide lays f.body _ _ st₂ (fun t member => can.2 t (List.mem_append_right _ member)) inside.body
    placeB).imp fun body st₄ last => ?_
  rw [meetsIn_pure]
  refine ⟨⟨rfl, st₂.variable result.name, params.map (st₂.variable ·.name), gs.map st₂.variable, ?_⟩,
    last.sound, ?_⟩
  · have tagsG : variableTags (gs.map st₂.variable) = tagsOf gs := by
      rw [variableTags, List.map_map]
      refine List.map_congr_left fun g member => ?_
      obtain ⟨v, found⟩ := place₂.held _ (List.mem_map_of_mem member)
      rw [Function.comp_apply, State.variable_eq found, place₂.sound.names _ v found]
    have tagOf : ∀ a ∈ result :: params, (st₂.variable a.name).name.tag = a.name.tag := by
      intro a member
      obtain ⟨v, found, -⟩ := bound _ (List.mem_map_of_mem member)
      rw [State.variable_eq found, place₂.sound.names _ v found]
    have tagsP : variableTags (params.map (st₂.variable ·.name)) = tagsIn (argumentEnv params) := by
      rw [variableTags, argumentEnv, tagsIn, List.map_map, List.map_map]
      exact List.map_congr_left fun a member => tagOf a (List.mem_cons_of_mem _ member)
    refine ⟨?_, ?_, fun v member => ?_, fun v member => ?_, ?_⟩
    · rw [same, inside.arguments, List.map_append, List.map_cons, List.map_map, List.map_map,
        List.map_map, inside.conventions.1]
      have conventions : params.map (fun a => Argument.mk (st₂.variable a.name) a.convention) =
          params.map ((⟨·, .borrowed⟩) ∘ (st₂.variable ·.name)) :=
        List.map_congr_left fun a member => by
          rw [Function.comp_apply, inside.conventions.2 a member]
      rw [conventions]
      rfl
    · have tags : as.map (·.var.name.tag) = (result :: params).map (·.name.tag) ++ tagsOf gs := by
        rw [same, inside.arguments, List.map_append, List.map_append, List.map_map, List.map_map,
          List.map_map, ← tagsG, variableTags, List.map_map]
        exact congrArg₂ _ (List.map_congr_left tagOf) rfl
      rw [tags, last.binders, List.append_assoc]
      refine (List.perm_append_comm.append_left _).nodup_iff.mpr ?_
      rw [← List.append_assoc, List.nodup_append']
      exact ⟨once, inside.once, fun t left right => apart left (known right)⟩
    · obtain ⟨g, generic, rfl⟩ := List.mem_map.mp member
      obtain ⟨v, found⟩ := place₂.held _ (List.mem_map_of_mem generic)
      rw [State.variable_eq found]
      exact place₂.sound.isDescription found (known (List.mem_map_of_mem generic))
    · rw [tagsG]
      obtain ⟨a, argument, rfl⟩ : ∃ a ∈ result :: params, st₂.variable a.name = v := by
        rcases List.mem_cons.mp member with rfl | later
        · exact ⟨result, List.mem_cons_self, rfl⟩
        · obtain ⟨a, argument, same⟩ := List.mem_map.mp later
          exact ⟨a, List.mem_cons_of_mem _ argument, same⟩
      obtain ⟨v, found, type⟩ := bound _ (List.mem_map_of_mem argument)
      have fits := place₂.sound.layouts _ v found
      rw [State.variable_eq found]
      exact fits.inside (type ▸ formed a argument) wide.plain
    · rw [tagsG, tagsP]
      exact last.inside
  · exact (grown₁.trans (grown₂.trans last.grown)).mono fun t member => by simpa using member

structure Struct.Measured (c : Context) (s : Explicit.Struct) (s' : Struct) : Prop where
  name : s'.name = s.name
  arguments : variableTags s'.arguments = tagsOf s.generics
  fields : s'.fields.map (fun f => (f.name, f.shape.type)) = s.fields.map fun f => (f.name, f.type)
  inside : s'.Scoped c

/-- The fields of a struct one after the other. -/
theorem structFields_meets (lays : Lays c generics allowed able) {span : Span} {own : List Tag}
    {fs : List Explicit.Field} (can : ∀ f ∈ fs, able f.type)
    (formed : ∀ f ∈ fs, f.type.Formed c.arity own [])
    (sound : Idle c generics st) (held : Holds st own) :
    MeetsIn allowed (fs.mapM fun f =>
      return Field.mk f.name (← atSpan span (shapeOf f.type))) c st fun fs' st' =>
      fs'.map (fun f => (f.name, f.shape.type)) = fs.map (fun f => (f.name, f.type)) ∧
        (∀ f ∈ fs', (∀ x ∈ f.shape.layout.names, x.tag ∈ own) ∧ f.shape.Exact c) ∧
        Idle c generics st' ∧ st'.vars = st.vars := by
  induction fs generalizing st with
  | nil =>
    rw [List.mapM_nil, meetsIn_pure]
    exact ⟨rfl, by simp, sound, rfl⟩
  | cons f rest ih =>
    rw [List.forall_mem_cons] at formed can
    rw [List.mapM_cons, meetsIn_bind, meetsIn_bind]
    refine (atSpan_meets lays (shapeOf_meets lays can.1 formed.1 sound held)).imp
      fun shape st₁ post => ?_
    obtain ⟨type, fits, sound₁, kept⟩ := post
    rw [meetsIn_pure, meetsIn_bind]
    refine (ih can.2 formed.2 sound₁ (held.of_vars kept)).imp
      fun fs' st₂ post => ?_
    obtain ⟨types, scope, sound₂, kept₂⟩ := post
    rw [meetsIn_pure]
    refine ⟨by rw [List.map_cons, List.map_cons, type, types], List.forall_mem_cons.mpr
      ⟨⟨fun x inside => ?_, fits.exact⟩, scope⟩, sound₂, kept₂.trans kept⟩
    obtain ⟨q, parameter, same⟩ := List.mem_map.mp (fits.names x inside)
    exact same ▸ formed.1.mem_parameters (type ▸ parameter)

/-- What measuring a struct comes to if its builder has as many fields. -/
theorem struct_eq {s : Explicit.Struct} {b : Explicit.Builder} (fits : b.fields.length = s.fields.length) :
    struct s (some b) = do
      let arguments ← b.arguments.mapM fun a => define a Ty.witness
      let fields ← s.fields.mapM fun f => return Field.mk f.name (← atSpan s.span (shapeOf f.type))
      return ⟨s.span, s.name, arguments, fields⟩ := by
  rw [struct]
  exact if_neg (not_not_intro fits)

theorem struct_unfit {s : Explicit.Struct} {b : Explicit.Builder} (unfit : b.fields.length ≠ s.fields.length) :
    ∃ message, struct s (some b) = throw (.inconsistent message) := by
  rw [struct]
  exact ⟨_, if_pos unfit⟩

theorem length_builderOf (s : Explicit.Struct) : (builderOf s).fields.length = s.fields.length := List.length_map _

/-- A struct is measured in terms of its type parameters, which keep their names if they are new. -/
theorem struct_meets (wide : c.Extends arity) (lays : Lays c generics allowed able)
    {s : Explicit.Struct} (member : s ∈ c.structs)
    (can : able Ty.witness ∧ ∀ f ∈ s.fields, able f.type) (known : tagsOf s.generics ⊆ generics)
    (sound : Idle c generics st) :
    MeetsIn allowed (struct s (some (builderOf s))) c st fun s' st' =>
      s'.Measured c s ∧ Idle c generics st' ∧ Grown st st' (tagsOf s.generics) ∧
        ((tagsOf s.generics).Nodup → (∀ g ∈ s.generics, st.vars.lookup g.tag = none) →
          s'.arguments.map (·.name) = s.generics) := by
  rw [struct_eq (length_builderOf s), meetsIn_bind]
  refine (descriptions_meets lays can.1 id (fun a _ st post meets => meets)
    (fun a generic => known (List.mem_map_of_mem generic)) sound).imp
      fun vs st₁ post => ?_
  obtain ⟨kinds, tags, sound₁, grown, held, named⟩ := post
  rw [meetsIn_bind]
  refine (structFields_meets lays can.2 (wide.formed s member) sound₁ held).imp
    fun fs st₂ post => ?_
  obtain ⟨types, scope, sound₂, kept⟩ := post
  rw [meetsIn_pure]
  refine ⟨⟨rfl, tags, types, kinds, fun f field x inside => ?_, fun f field => (scope f field).2⟩,
    sound₂, ?_, fun once fresh => (named once fresh).trans (List.map_id _)⟩
  · rw [tags]
    exact (scope f field).1 x inside
  · exact (grown.trans (Grown.of_vars kept)).mono fun t inside => by simpa [tagsOf] using inside

/-- The ways in which measuring a program may fail that are no sign of a broken one. -/
def Failure.Declared : Failure → Prop
  | .inconsistent _ => False
  | _ => True

/-- What is made of measuring that stopped in a definition. -/
def Stop.failure (definition : String) : Stop → Failure
  | .fault cause span => .error ⟨cause, span, definition⟩
  | .inconsistent message => .inconsistent message
  | .endless => .endless

theorem Stop.Declared.failure {stop : Stop} (declared : stop.Declared) (definition : String) :
    (stop.failure definition).Declared := by
  cases stop with
  | inconsistent message => exact declared
  | fault cause span => trivial
  | endless => trivial

theorem inDefinition_gives {α : Type} {m : Measure α} {name : Ident} {post : α → State → Prop} {fails : Failure → Prop}
    (reports : ∀ stop, allowed stop → fails (stop.failure name.name)) (meets : MeetsIn allowed m c st post) :
    Gives fails (inDefinition c name m st) fun (a, st') => post a st' := by
  have same : (m.run c).run.run st = outcome (m c) st := rfl
  simp only [MeetsIn, Meets] at meets
  rw [inDefinition, same]
  split at meets
  · rename_i a st' ends
    rw [ends]
    exact meets
  · rename_i stop st' ends
    rw [ends]
    have failed := reports stop meets
    cases stop <;> exact failed

/-- Definitions one after the other; `left` is what holds before those still to come. -/
theorem eachDefinition_gives {α β : Type} {name : α → Ident} {m : α → Measure β} {fails : Failure → Prop}
    (reports : ∀ stop definition, allowed stop → fails (stop.failure definition))
    (left : List α → State → Prop) (post : α → β → Prop)
    (step : ∀ a rest st, left (a :: rest) st →
      MeetsIn allowed (m a) c st fun b st' => post a b ∧ left rest st')
    {as : List α} (start : left as st) :
    Gives fails (eachDefinition c name m st as) fun (bs, st') =>
      List.Forall₂ post as bs ∧ left [] st' := by
  induction as generalizing st with
  | nil => exact ⟨.nil, start⟩
  | cons a rest ih =>
    rw [eachDefinition]
    refine (inDefinition_gives (fun stop => reports stop _) (step a rest st start)).bind fun made post => ?_
    obtain ⟨b, st₁⟩ := made
    obtain ⟨own, behind⟩ := post
    refine (ih behind).bind fun made post => ?_
    obtain ⟨bs, st₂⟩ := made
    obtain ⟨others, last⟩ := post
    exact ⟨.cons own others, last⟩

/-- Definitions one after the other, each of which leaves states of some kind. -/
theorem eachDefinition_keeps {α β : Type} {kind : State → Prop} {good : α → β → Prop} {name : α → Ident}
    {m : α → Measure β} {as : List α} (each : ∀ a ∈ as, Preserves kind c (m a) (good a)) {s s' : State} (start : kind s)
    {bs : List β} (done : eachDefinition c name m s as = .ok (bs, s')) : List.Forall₂ good as bs ∧ kind s' := by
  induction as generalizing s bs with
  | nil =>
    obtain ⟨rfl, rfl⟩ := Prod.mk.inj (Except.ok.inj done)
    exact ⟨.nil, start⟩
  | cons a rest ih =>
    rw [List.forall_mem_cons] at each
    rw [eachDefinition, Except.bind_eq_ok] at done
    obtain ⟨⟨b, s₁⟩, first, done⟩ := done
    rw [Except.bind_eq_ok] at done
    obtain ⟨⟨others, s₂⟩, later, done⟩ := done
    obtain ⟨rfl, rfl⟩ := Prod.mk.inj (Except.ok.inj done)
    have ran : Ends (m a c) s (.ok b) s₁ := by
      rw [inDefinition] at first
      split at first
      · rename_i made left ends
        obtain ⟨rfl, rfl⟩ := Prod.mk.inj (Except.ok.inj first)
        exact ends
      all_goals cases first
    obtain ⟨kept, own⟩ := (meets_iff.mp (each.1 s start)).1 b s₁ ran
    obtain ⟨all, last⟩ := ih each.2 kept later
    exact ⟨.cons own all, last⟩

section Programs

variable {p : Explicit.Program} {declared environments : List Explicit.Struct}

/-- The structs of a program have layouts. -/
theorem extends_of_scoped (target : Target) (depth : Nat)
    (inside : p.Scoped arity declared environments) : (Context.mk target p.structs depth).Extends arity := by
  have structs : ∀ d ∈ p.structs,
      (Context.mk target p.structs depth).arity d.name.tag = some d.generics.length := by
    intro d member
    have proper := inside.proper d member
    have found := findLast?_of_nodup inside.tags member
    rw [Context.arity, if_neg, Context.struct?, found, Option.map_some]
    rintro (same | same | same) <;> rw [same] at proper <;> cases proper
  have plain : arity .witness = none := by
    refine Option.eq_none_iff_forall_not_mem.mpr fun n known => ?_
    rcases inside.names _ n known with ⟨basic, -⟩ | ⟨d, member, same⟩
    · rcases basic with basic | basic <;> cases basic
    · have proper := inside.proper d (inside.structs ▸ List.mem_append_left _ member)
      rw [same] at proper
      cases proper
  have more : ∀ tag n, arity tag = some n →
      (Context.mk target p.structs depth).arity tag = some n := by
    intro tag n known
    rcases inside.names tag n known with ⟨basic, rfl⟩ | ⟨d, member, rfl⟩
    · rw [Context.arity, if_pos]
      exact basic.imp id Or.inl
    · rw [structs d (inside.structs ▸ List.mem_append_left _ member), ← known,
        (inside.own d member).arity]
  refine ⟨more, plain, inside.basic.1, inside.basic.2, fun d member f field => ?_, structs,
    fun d member same => ?_⟩
  · rw [inside.structs] at member
    rcases List.mem_append.mp member with own | made
    · exact ((inside.own d own).formed f field).mono more (fun _ known => known) fun _ known => known
    · obtain ⟨⟨gs, cs, shape, enclosed, -⟩, -⟩ := inside.made d made
      rw [shape] at field ⊢
      rcases List.mem_append.mp field with description | capture
      · obtain ⟨g, -, rfl⟩ := List.mem_map.mp description
        exact Ty.formed_named.mpr ⟨by simp [Context.arity], by simp⟩
      · obtain ⟨a, captured, rfl⟩ := List.mem_map.mp capture
        exact (enclosed.formed a captured).mono more (fun _ known => known) fun _ known => known
  · have proper := inside.proper d member
    rw [same] at proper
    cases proper

theorem builder?_of_scoped (inside : p.Scoped arity declared environments) {s : Explicit.Struct}
    (member : s ∈ p.structs) : p.builder? s.name.tag = some (builderOf s) := by
  have once : (p.builders.map (·.name.tag)).Nodup := by
    rw [inside.builders, List.map_map]
    exact inside.tags
  refine findLast?_of_nodup once (x := builderOf s) ?_
  rw [inside.builders]
  exact List.mem_map_of_mem member

structure Program.Measured (c : Context) (p : Explicit.Program) (q : Program) : Prop where
  unit : q.unit = p.unit
  target : q.target = c.target
  structs : List.Forall₂ (fun s s' => Struct.Measured c s s') p.structs q.structs
  functions : List.Forall₂ (fun f f' => f'.name = f.name ∧ ∃ r ps gs, f'.Scoped c r ps gs)
    p.functions q.functions
  instances : ∀ i ∈ q.instances, Shape.Exact c ⟨i.type, i.layout⟩

theorem Program.Measured.inside {q : Program} (measured : Program.Measured c p q) : q.Scoped c where
  structs s member := by
    obtain ⟨d, -, made⟩ := exists_of_forall₂ measured.structs s member
    exact made.inside
  functions f member := by
    obtain ⟨g, -, made⟩ := exists_of_forall₂ measured.functions f member
    exact made.2
  instances := measured.instances

/-- A scoped program whose types have layouts is measured, or fails as the search for them does; what is measured is
scoped. -/
theorem measureWithin_meets {target : Target} {depth : Nat} {fails : Failure → Prop}
    (inside : p.Scoped arity declared environments)
    (lays : ∀ generics, Lays ⟨target, p.structs, depth⟩ generics allowed able) (can : ∀ t ∈ p.types, able t)
    (reports : ∀ stop definition, allowed stop → fails (stop.failure definition)) :
    Gives fails (measureWithin depth p target) (Program.Measured ⟨target, p.structs, depth⟩ p) := by
  have wide := extends_of_scoped target depth inside
  rw [Explicit.Program.types, List.cons_append, List.forall_mem_cons, List.forall_mem_append,
    List.forall_mem_flatMap, List.forall_mem_flatMap] at can
  rw [measureWithin]
  generalize contextIs : Context.mk target p.structs depth = c at wide lays
  have structs : c.structs = p.structs := by rw [← contextIs]
  generalize genericsIs : declared.flatMap (tagsOf ·.generics) ++
    p.functions.flatMap (·.parameters) = generics
  have apart := inside.apart
  rw [genericsIs] at apart
  have generic : ∀ s ∈ p.structs, tagsOf s.generics ⊆ generics := by
    intro s member t own
    rw [← genericsIs]
    rw [inside.structs] at member
    rcases List.mem_append.mp member with declared | made
    · exact List.mem_append_left _ (List.mem_flatMap.mpr ⟨s, declared, own⟩)
    · obtain ⟨⟨gs, cs, shape, -, within⟩, -⟩ := inside.made s made
      rw [shape] at own
      exact List.mem_append_right _ (within own)
  refine (eachDefinition_gives reports (fun rest st => (∀ s ∈ rest, s ∈ p.structs) ∧ Idle c generics st ∧
    ∀ t, t ∉ generics → st.vars.lookup t = none) (fun s s' => s'.Measured c s)
    ?_ ⟨fun _ member => member, idle_empty c generics, by simp⟩).bind ?_
  · intro s rest st held
    obtain ⟨known, sound, defined⟩ := held
    rw [List.forall_mem_cons] at known
    rw [builder?_of_scoped inside known.1]
    refine (struct_meets wide (lays generics) (structs ▸ known.1)
      ⟨can.1, fun f field => can.2.1 s known.1 _ (List.mem_map_of_mem field)⟩ (generic s known.1) sound).imp ?_
    intro s' st' made
    obtain ⟨own, sound', grown, -⟩ := made
    refine ⟨own, known.2, sound', fun t other => ?_⟩
    exact grown.within t (defined t other) fun mine => other (generic s known.1 mine)
  intro structsMade made
  obtain ⟨ss, st₁⟩ := structsMade
  obtain ⟨structsInside, -, sound₁, defined⟩ := made
  refine (eachDefinition_gives reports (fun rest st => (∀ f ∈ rest, f ∈ p.functions) ∧
    (rest.flatMap (·.variables)).Nodup ∧ Idle c generics st ∧
    ∀ t ∈ rest.flatMap (·.variables), st.vars.lookup t = none)
    (fun f f' => f'.name = f.name ∧ ∃ r ps gs, f'.Scoped c r ps gs)
    ?_ ⟨fun _ member => member, inside.once, sound₁, fun t member =>
      defined t fun mine => apart member mine⟩).bind ?_
  · intro f rest st held
    obtain ⟨known, once, sound, fresh⟩ := held
    rw [List.forall_mem_cons] at known
    simp only [List.flatMap_cons, List.nodup_append', List.mem_append] at once fresh
    obtain ⟨result, params, gs, own⟩ := inside.functions f known.1
    have within : f.parameters ⊆ generics := by
      intro t member
      rw [← genericsIs]
      exact List.mem_append_right _ (List.mem_flatMap.mpr ⟨f, known.1, member⟩)
    refine (function_meets wide (lays generics) ⟨can.1, can.2.2 f known.1⟩ (structs ▸ own) sound within once.1 (fun t member =>
      fresh t (Or.inl member)) fun t left right => apart (List.mem_flatMap.mpr ⟨f, known.1, left⟩)
        right).imp ?_
    intro f' st' made
    obtain ⟨own', sound', grown⟩ := made
    refine ⟨own', known.2, once.2.1, sound', fun t later => ?_⟩
    refine grown.within t (fresh t (Or.inr later)) fun mine => ?_
    rcases List.mem_append.mp mine with generic | mine
    · obtain ⟨f, member, bound⟩ := List.mem_flatMap.mp later
      exact apart (List.mem_flatMap.mpr ⟨f, known.2 f member, bound⟩) (within generic)
    · exact once.2.2 mine later
  intro functionsMade made
  obtain ⟨fs, st₂⟩ := functionsMade
  obtain ⟨functionsInside, -, -, sound₂, -⟩ := made
  exact ⟨rfl, by rw [← contextIs], structsInside, functionsInside, sound₂.instances⟩

/-- A scoped program is measured, or fails in a declared way; what is measured is scoped. -/
theorem measureWithin_gives (target : Target) (depth : Nat)
    (inside : p.Scoped arity declared environments) :
    Gives Failure.Declared (measureWithin depth p target)
      (Program.Measured ⟨target, p.structs, depth⟩ p) :=
  measureWithin_meets inside (fun generics => (extends_of_scoped target depth inside).lays generics)
    (fun _ _ => trivial) fun _ definition declared => declared.failure definition

/-- What comes out in the end came out within some bound. -/
theorem exists_measureWithin {target : Target} {q : Program} (done : measure p target = .ok q) :
    ∃ depth, measureWithin depth p target = .ok q := by
  rw [measure] at done
  split at done
  · rename_i ended _
    exact done ▸ ended.within
  · cases done

theorem tryWithin_of_ended {target : Target} {depth : Nat} {r : Except Failure Program}
    (done : measureWithin depth p target = r) (wide : r ≠ .error .endless) :
    tryWithin p target depth = some (.inr ⟨r, depth, done⟩) := by
  rw [tryWithin]
  split
  · rename_i narrow
    exact absurd (done.symm.trans narrow) wide
  · simp only [done]

/-- The usual bound is wide enough for most programs. -/
theorem measure_eq_of_usual {target : Target} {x : Except Failure Program}
    (done : measureWithin usualDepth p target = x) (wide : x ≠ .error .endless) : measure p target = x := by
  rw [measure, repeatM_eq_of_monadTail, repeatM.body, tryWithin_of_ended done wide]
  rfl

/-- What a scoped program is measured to. -/
theorem measured_of_scoped {target : Target} {q : Program}
    (inside : p.Scoped arity declared environments) (done : measure p target = .ok q) :
    ∃ depth, Program.Measured ⟨target, p.structs, depth⟩ p q := by
  obtain ⟨depth, within⟩ := exists_measureWithin done
  have gives := measureWithin_gives target depth inside
  rw [within] at gives
  exact ⟨depth, gives⟩

end Programs

end WitnessLang.Sized
