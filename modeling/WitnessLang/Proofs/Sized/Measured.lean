import WitnessLang.Proofs.Explicit.Program
import WitnessLang.Proofs.Sized.Layout

set_option autoImplicit false

namespace WitnessLang

namespace Explicit

mutual

/-- The types that are laid out for an expression. -/
def Expr.types (e : Expr) : List Ty :=
  e.type :: match e with
    | .var _ _ _ | .number _ _ _ | .bool _ _ => []
    | .callDirect _ _ _ args _ => typesAll args
    | .callClosure _ _ callee args => callee.types ++ typesAll args
    | .primitive _ _ left right => left.types ++ right.types
    | .block _ lets result => letTypes lets ++ result.types
    | .pack _ _ _ fields => fieldTypes fields
    | .unpack _ _ value _ => value.types
    | .cond _ test yes no => test.types ++ yes.types ++ no.types
    | .closure _ params generics _ env body =>
      params.map (·.type) ++ .named env (generics.map Ty.generic) :: body.types

def Expr.typesAll : List Expr → List Ty
  | [] => []
  | e :: rest => e.types ++ typesAll rest

def Expr.letTypes : List Let → List Ty
  | [] => []
  | ⟨_, type, value⟩ :: rest => value.types ++ type :: letTypes rest

def Expr.fieldTypes : List PackField → List Ty
  | [] => []
  | ⟨_, value⟩ :: rest => value.types ++ fieldTypes rest

end

/-- The types that are laid out for a program. -/
def Program.types (p : Program) : List Ty :=
  Ty.witness :: p.structs.flatMap (fun d => d.fields.map (·.type)) ++
    p.functions.flatMap fun f => f.arguments.map (·.type) ++ f.body.types

end Explicit

namespace Sized

open Explicit (tagsOf argumentEnv captureEnv letEnv environment)
open Typed (Env)

/-- The types of expressions among the types that have layouts: type descriptions are no
values of expressions. -/
structure Context.Extends (c : Context) (arity : Arity) : Prop where
  more : ∀ tag n, arity tag = some n → c.arity tag = some n
  plain : arity .witness = none
  numbers : arity .float = some 0
  truths : arity .bool = some 0
  formed : c.Formed
  structs : ∀ d ∈ c.structs, c.arity d.name.tag = some d.generics.length
  proper : ∀ d ∈ c.structs, d.name.tag ≠ .witness

structure Grown (st st' : State) (tags : List Tag) : Prop where
  kept : ∀ tag v, st.vars.lookup tag = some v → st'.vars.lookup tag = some v
  within : ∀ tag, st.vars.lookup tag = none → tag ∉ tags → st'.vars.lookup tag = none

/-- Variables with their types have been defined. -/
def Bound (st : State) (vars : Env) : Prop :=
  ∀ e ∈ vars, ∃ v, st.vars.lookup e.1 = some v ∧ v.shape.type = e.2

theorem Context.Extends.lays {c : Context} {arity : Arity} (wide : c.Extends arity)
    (generics : List Tag) : Lays c generics Stop.Declared fun _ => True :=
  lays_of_formed wide.formed generics

section Growth

variable {st st' st'' : State} {tags more : List Tag}

theorem Grown.refl (st : State) : Grown st st [] := ⟨fun _ _ found => found, fun _ none _ => none⟩

theorem Grown.of_vars (kept : st'.vars = st.vars) : Grown st st' [] :=
  ⟨fun _ _ found => kept ▸ found, fun _ none _ => kept ▸ none⟩

theorem Grown.trans (first : Grown st st' tags) (second : Grown st' st'' more) :
    Grown st st'' (tags ++ more) where
  kept tag v found := second.kept tag v (first.kept tag v found)
  within tag none outside := by
    rw [List.mem_append, not_or] at outside
    exact second.within tag (first.within tag none outside.1) outside.2

theorem Grown.mono (grown : Grown st st' tags) (within : tags ⊆ more) : Grown st st' more :=
  ⟨grown.kept, fun tag none outside => grown.within tag none fun member => outside (within member)⟩

theorem Holds.grow {own : List Tag} (held : Holds st own) (grown : Grown st st' tags) :
    Holds st' own := by
  intro tag member
  obtain ⟨v, found⟩ := held tag member
  exact ⟨v, grown.kept tag v found⟩

theorem Bound.grow {vars : Env} (bound : Bound st vars) (grown : Grown st st' tags) :
    Bound st' vars := by
  intro e member
  obtain ⟨v, found, type⟩ := bound e member
  exact ⟨v, grown.kept e.1 v found, type⟩

end Growth

theorem Layout.For.inside {c : Context} {s : Shape} {arity : Arity} {own : List Tag}
    (fits : s.layout.For c s.type) (formed : s.type.Formed arity own [])
    (plain : arity .witness = none) : s.Scoped c own := by
  have ordinary := Explicit.isWitnessType_of_formed plain formed
  refine ⟨⟨fits.value ordinary, fun x member => ?_⟩, fits.exact, ordinary⟩
  obtain ⟨q, parameter, same⟩ := List.mem_map.mp (fits.names x member)
  exact same ▸ formed.mem_parameters parameter

section Variables

variable {c : Context} {generics own : List Tag} {st : State} {allowed : Stop → Prop}
  {able : Ty → Prop}

/-- A variable that holds a description has the layout of one. -/
theorem Sound.isDescription (sound : Sound c generics st) {tag : Tag} {v : Variable}
    (found : st.vars.lookup tag = some v) (generic : tag ∈ generics) : v.IsDescription c := by
  have fits := sound.layouts tag v found
  have type := sound.descriptions tag v found generic
  rw [type] at fits
  rw [Variable.IsDescription, ← type, ← fits.description rfl]

theorem atSpan_meets {α : Type} {span : Span} {m : Measure α} {post : α → State → Prop}
    (lays : Lays c generics allowed able) (meets : MeetsIn allowed m c st post) :
    MeetsIn allowed (atSpan span m) c st post := by
  refine meetsIn_tryCatch meets fun stop allowed s' => ?_
  cases stop with
  | inconsistent message => exact allowed
  | fault cause span => exact lays.placed cause span _ allowed
  | endless => exact allowed

theorem shapeOf_meets (lays : Lays c generics allowed able) {t : Ty} (can : able t)
    (formed : t.Formed c.arity own []) (sound : Idle c generics st) (held : Holds st own) :
    MeetsIn allowed (shapeOf t) c st fun s st' =>
      s.type = t ∧ s.layout.For c s.type ∧ Idle c generics st' ∧ st'.vars = st.vars := by
  rw [shapeOf, meetsIn_bind]
  refine (lays.layout t own st can formed sound held).imp fun l st' post => ?_
  obtain ⟨fits, sound', kept⟩ := post
  rw [meetsIn_pure]
  exact ⟨rfl, fits, sound', kept⟩

/-- A new variable. -/
theorem define_meets (lays : Lays c generics allowed able) {name : Ident} {t : Ty} (can : able t)
    (formed : t.Formed c.arity own [])
    (sound : Idle c generics st) (held : Holds st own)
    (fresh : st.vars.lookup name.tag = none) (kind : name.tag ∈ generics → t = Ty.witness) :
    MeetsIn allowed (define name t) c st fun v st' =>
      v.name = name ∧ v.shape.type = t ∧ Idle c generics st' ∧ Grown st st' [name.tag] ∧
        st'.vars.lookup name.tag = some v := by
  rw [define, meetsIn_get_bind, fresh]
  dsimp only
  rw [meetsIn_bind]
  refine (shapeOf_meets lays can formed sound held).imp fun s st₁ post => ?_
  obtain ⟨type, fits, sound₁, kept⟩ := post
  rw [meetsIn_modify_bind, meetsIn_pure]
  have found : ∀ tag, ((name.tag, Variable.mk name s) :: st₁.vars).lookup tag =
      if tag = name.tag then some ⟨name, s⟩ else st.vars.lookup tag := by
    intro tag
    rw [List.lookup_cons, kept]
    by_cases same : tag = name.tag
    · simp [same]
    · have other : (tag == name.tag) = false := by simpa using same
      rw [other, if_neg same]
  refine ⟨rfl, type, ⟨⟨fun tag v known => ?_, fun tag v known => ?_, fun tag v known generic => ?_,
    sound₁.known, sound₁.instances⟩, sound₁.idle⟩, ⟨fun tag v known => ?_, fun tag none outside => ?_⟩, ?_⟩
  · rw [found] at known
    split at known
    · rename_i same
      rw [same, ← Option.some.inj known]
    · exact sound.names tag v known
  · rw [found] at known
    split at known
    · rw [← Option.some.inj known]
      exact fits
    · exact sound.layouts tag v known
  · rw [found] at known
    split at known
    · rename_i same
      rw [← Option.some.inj known]
      exact type.trans (kind (same ▸ generic))
    · exact sound.descriptions tag v known generic
  · rw [found]
    split
    · rename_i same
      rw [same, fresh] at known
      cases known
    · exact known
  · rw [found, if_neg (by simpa using outside)]
    exact none
  · rw [found, if_pos rfl]

/-- A type parameter, which may have been defined before. -/
theorem defineDescription_meets (lays : Lays c generics allowed able) (can : able Ty.witness)
    {name : Ident} (sound : Idle c generics st) (generic : name.tag ∈ generics) :
    MeetsIn allowed (define name Ty.witness) c st fun v st' =>
      v.name.tag = name.tag ∧ v.IsDescription c ∧ Idle c generics st' ∧ Grown st st' [name.tag] ∧
        st'.vars.lookup name.tag = some v ∧ (st.vars.lookup name.tag = none → v.name = name) := by
  have formed : Ty.witness.Formed c.arity [] [] := by
    rw [Ty.witness, Ty.formed_named]
    exact ⟨by simp [Context.arity], by simp⟩
  cases found : st.vars.lookup name.tag with
  | some v =>
    rw [define, meetsIn_get_bind, found, meetsIn_pure]
    exact ⟨sound.names _ v found, sound.isDescription found generic, sound,
      (Grown.refl st).mono (List.nil_subset _), found, fun new => by cases new⟩
  | none =>
    refine (define_meets lays can formed sound (fun tag member => by cases member) found fun _ => rfl).imp
      fun v st' post => ?_
    obtain ⟨name', type, sound', grown, found'⟩ := post
    exact ⟨name' ▸ rfl, sound'.isDescription found' generic, sound', grown, found', fun _ => name'⟩

/-- Variables that were defined are found one by one. -/
theorem lookups_meets {α : Type} (name : α → Ident) {items : List α}
    (held : ∀ a ∈ items, ∃ v, st.vars.lookup (name a).tag = some v) :
    MeetsIn allowed (items.mapM fun a => lookup (name a)) c st fun vs st' =>
      List.Forall₂ (fun a v => st.vars.lookup (name a).tag = some v) items vs ∧ st' = st := by
  induction items with
  | nil =>
    rw [List.mapM_nil, meetsIn_pure]
    exact ⟨.nil, rfl⟩
  | cons a rest ih =>
    rw [List.forall_mem_cons] at held
    obtain ⟨⟨v, found⟩, held⟩ := held
    rw [List.mapM_cons, meetsIn_bind]
    refine (lookup_meets found).imp fun v' st' post => ?_
    obtain ⟨same, kept⟩ := post
    rw [kept, meetsIn_bind]
    refine (ih held).imp fun vs st' post => ?_
    obtain ⟨all, kept⟩ := post
    rw [meetsIn_pure, same]
    exact ⟨.cons found all, kept⟩

end Variables

abbrev tagsIn (vars : Env) : List Tag := vars.map (·.1)

/-- Where a part of a tree is measured: all it mentions has been defined, and nothing that it
binds. -/
structure Place (generics own : List Tag) (vars : Env) (binders : List Tag) (c : Context)
    (st : State) : Prop where
  sound : Idle c generics st
  known : own ⊆ generics
  held : Holds st own
  bound : Bound st vars
  once : binders.Nodup
  fresh : ∀ t ∈ binders, st.vars.lookup t = none
  apart : binders.Disjoint generics

structure Measured (generics own : List Tag) (vars : Env) (c : Context) (st : State)
    (e : Explicit.Expr) (e' : Expr) (st' : State) : Prop where
  sound : Idle c generics st'
  grown : Grown st st' e.binders
  inside : e'.Scoped c own (tagsIn vars)
  type : e'.shape.type = e.type
  binders : e'.binders = e.binders

/-- An expression is measured wherever it is scoped, if its types have layouts. -/
def Measures (arity : Arity) (generics : List Tag) (c : Context) (allowed : Stop → Prop) (able : Ty → Prop)
    (e : Explicit.Expr) : Prop :=
  ∀ own vars st, (∀ t ∈ e.types, able t) → e.Scoped arity c.structs own vars → Place generics own vars e.binders c st →
    MeetsIn allowed (expr e) c st (Measured generics own vars c st e)

section Parts

variable {c : Context} {arity : Arity} {generics own : List Tag} {vars : Env} {st st' : State}
  {binders part more : List Tag} {allowed : Stop → Prop} {able : Ty → Prop}

theorem Place.sublist (place : Place generics own vars binders c st)
    (within : List.Sublist part binders) : Place generics own vars part c st :=
  { place with
    once := place.once.sublist within
    fresh := fun t member => place.fresh t (within.subset member)
    apart := fun _ left right => place.apart (within.subset left) right }

/-- Behind a part that was measured, the rest can be. -/
theorem Place.later (place : Place generics own vars (part ++ more) c st)
    (sound : Idle c generics st') (grown : Grown st st' part) :
    Place generics own vars more c st' where
  sound := sound
  known := place.known
  held := place.held.grow grown
  bound := place.bound.grow grown
  once := (List.nodup_append'.mp place.once).2.1
  fresh t member := grown.within t (place.fresh t (List.mem_append_right _ member))
    fun inside => (List.nodup_append'.mp place.once).2.2 inside member
  apart := fun _ left right => place.apart (List.mem_append_right _ left) right

/-- Finding out a layout changes no variable. -/
theorem Place.of_vars (place : Place generics own vars binders c st) (sound : Idle c generics st')
    (kept : st'.vars = st.vars) : Place generics own vars binders c st' where
  sound := sound
  known := place.known
  held := place.held.of_vars kept
  bound := place.bound.grow (Grown.of_vars kept)
  once := place.once
  fresh t member := kept ▸ place.fresh t member
  apart := place.apart

/-- Expressions one after the other. -/
theorem exprs_meets {es : List Explicit.Expr} (each : ∀ e ∈ es, Measures arity generics c allowed able e)
    (can : ∀ t ∈ Explicit.Expr.typesAll es, able t) (inside : ∀ e ∈ es, e.Scoped arity c.structs own vars)
    (place : Place generics own vars (Explicit.Expr.bindersAll es) c st) :
    MeetsIn allowed (exprs es) c st fun es' st' =>
      Expr.ScopedAll c own (tagsIn vars) es' ∧
        Expr.bindersAll es' = Explicit.Expr.bindersAll es ∧ Idle c generics st' ∧
        Grown st st' (Explicit.Expr.bindersAll es) := by
  induction es generalizing st with
  | nil =>
    rw [exprs, meetsIn_pure]
    exact ⟨trivial, rfl, place.sound, Grown.refl st⟩
  | cons e rest ih =>
    rw [List.forall_mem_cons] at each inside
    rw [Explicit.Expr.typesAll, List.forall_mem_append] at can
    rw [Explicit.Expr.bindersAll] at place
    rw [exprs, meetsIn_bind]
    refine (each.1 own vars st can.1 inside.1 (place.sublist (List.sublist_append_left _ _))).imp
      fun e' st₁ first => ?_
    rw [meetsIn_bind]
    refine (ih each.2 can.2 inside.2 (place.later first.sound first.grown)).imp
      fun rest' st₂ post => ?_
    obtain ⟨others, bound, sound, grown⟩ := post
    rw [meetsIn_pure]
    exact ⟨⟨first.inside, others⟩, congrArg₂ _ first.binders bound, sound, first.grown.trans grown⟩

/-- Field values one after the other. -/
theorem packFields_meets {fs : List Explicit.PackField}
    (each : ∀ f ∈ fs, Measures arity generics c allowed able f.value)
    (can : ∀ t ∈ Explicit.Expr.fieldTypes fs, able t) (inside : ∀ f ∈ fs, f.value.Scoped arity c.structs own vars)
    (place : Place generics own vars (Explicit.Expr.fieldBinders fs) c st) :
    MeetsIn allowed (packFields fs) c st fun fs' st' =>
      Expr.FieldsScoped c own (tagsIn vars) fs' ∧
        Expr.fieldBinders fs' = Explicit.Expr.fieldBinders fs ∧ Idle c generics st' ∧
        Grown st st' (Explicit.Expr.fieldBinders fs) := by
  induction fs generalizing st with
  | nil =>
    rw [packFields, meetsIn_pure]
    exact ⟨trivial, rfl, place.sound, Grown.refl st⟩
  | cons f rest ih =>
    obtain ⟨name, value⟩ := f
    rw [List.forall_mem_cons] at each inside
    rw [Explicit.Expr.fieldTypes, List.forall_mem_append] at can
    rw [Explicit.Expr.fieldBinders] at place
    rw [packFields, meetsIn_bind]
    refine (each.1 own vars st can.1 inside.1 (place.sublist (List.sublist_append_left _ _))).imp
      fun e' st₁ first => ?_
    rw [meetsIn_bind]
    refine (ih each.2 can.2 inside.2 (place.later first.sound first.grown)).imp
      fun rest' st₂ post => ?_
    obtain ⟨others, bound, sound, grown⟩ := post
    rw [meetsIn_pure]
    exact ⟨⟨first.inside, others⟩, congrArg₂ _ first.binders bound, sound, first.grown.trans grown⟩

/-- Behind the definition of a variable, the rest sees it. -/
theorem Place.define {name : Ident} {t : Ty} {v : Variable}
    (place : Place generics own vars (name.tag :: more) c st) (sound : Idle c generics st')
    (grown : Grown st st' [name.tag]) (found : st'.vars.lookup name.tag = some v)
    (type : v.shape.type = t) : Place generics own ((name.tag, t) :: vars) more c st' := by
  have later := Place.later (show Place generics own vars ([name.tag] ++ more) c st from place) sound grown
  exact { later with bound := List.forall_mem_cons.mpr ⟨⟨v, found, type⟩, later.bound⟩ }

/-- Bindings one after the other, each of which sees those before it. -/
theorem lets_meets (wide : c.Extends arity) (lays : Lays c generics allowed able) {bs : List Explicit.Let}
    (each : ∀ b ∈ bs, Measures arity generics c allowed able b.value)
    (can : ∀ t ∈ Explicit.Expr.letTypes bs, able t) (inside : Explicit.Expr.LetsScoped arity c.structs own vars bs)
    (place : Place generics own vars (Explicit.Expr.letBinders bs) c st) :
    MeetsIn allowed (lets bs) c st fun bs' st' =>
      Expr.LetsScoped c own (tagsIn vars) bs' ∧
        letTags bs' (tagsIn vars) = tagsIn (letEnv bs vars) ∧
        Expr.letBinders bs' = Explicit.Expr.letBinders bs ∧ Bound st' (letEnv bs vars) ∧
        Idle c generics st' ∧ Grown st st' (Explicit.Expr.letBinders bs) := by
  induction bs generalizing st vars with
  | nil =>
    rw [lets, meetsIn_pure]
    exact ⟨trivial, rfl, rfl, place.bound, place.sound, Grown.refl st⟩
  | cons b rest ih =>
    obtain ⟨name, type, value⟩ := b
    obtain ⟨formed, insideV, insideR⟩ := inside
    rw [List.forall_mem_cons] at each
    rw [Explicit.Expr.letTypes, List.forall_mem_append, List.forall_mem_cons] at can
    rw [Explicit.Expr.letBinders] at place
    rw [lets, meetsIn_bind]
    refine (each.1 own vars st can.1 insideV (place.sublist (List.sublist_append_left _ _))).imp
      fun e' st₁ first => ?_
    have behind := place.later first.sound first.grown
    rw [meetsIn_bind]
    refine (atSpan_meets lays (define_meets lays can.2.1
      (formed.mono wide.more (fun _ known => known) fun _ known => known) first.sound behind.held
      (behind.fresh name.tag (by simp)) fun generic => ?_)).imp
      fun v st₂ post => ?_
    · exact absurd generic (fun generic => behind.apart (by simp) generic)
    obtain ⟨name', type', sound, grown, found⟩ := post
    rw [meetsIn_bind]
    refine (ih each.2 can.2.2 insideR (behind.define sound grown found type')).imp
      fun rest' st₃ post => ?_
    obtain ⟨others, tags, binders, bound, sound', grown'⟩ := post
    rw [meetsIn_pure]
    refine ⟨⟨?_, first.inside, ?_⟩, ?_, ?_, bound, sound', ?_⟩
    · exact (sound.layouts _ v found).inside (type' ▸ formed) wide.plain
    · rw [name']
      exact others
    · rw [letTags, name']
      exact tags
    · rw [Expr.letBinders, Explicit.Expr.letBinders, first.binders, name', binders]
    · exact first.grown.trans (grown.trans grown')

end Parts

section Expressions

variable {c : Context} {arity : Arity} {generics own : List Tag} {vars : Env} {st : State} {allowed : Stop → Prop}
  {able : Ty → Prop}

/-- Before the parts of an expression, its own type is laid out. -/
theorem exprShape_meets (wide : c.Extends arity) (lays : Lays c generics allowed able) {e : Explicit.Expr}
    {binders : List Tag} (can : able e.type) (inside : e.Scoped arity c.structs own vars) (place : Place generics own vars binders c st) :
    MeetsIn allowed (atSpan e.span (shapeOf e.type)) c st fun s st' =>
      s.type = e.type ∧ s.Scoped c own ∧ Place generics own vars binders c st' ∧
        st'.vars = st.vars := by
  have formed := inside.type_formed wide.numbers wide.truths
  refine (atSpan_meets lays (shapeOf_meets lays can (formed.mono wide.more (fun _ known => known)
    fun _ known => known) place.sound place.held)).imp fun s st' post => ?_
  obtain ⟨type, fits, sound, kept⟩ := post
  exact ⟨type, fits.inside (type ▸ formed) wide.plain, place.of_vars sound kept, kept⟩

/-- Parameters are defined one after the other; `m` defines one of them. -/
theorem params_meets (wide : c.Extends arity) (lays : Lays c generics allowed able)
    {m : Explicit.Argument → Measure Variable}
    (defines : ∀ p st post, MeetsIn allowed (define p.name p.type) c st post → MeetsIn allowed (m p) c st post)
    {ps : List Explicit.Argument} (can : ∀ p ∈ ps, able p.type) {kept more : List Tag}
    (formed : ∀ p ∈ ps, p.type.Formed arity kept []) (within : kept ⊆ own)
    (place : Place generics own vars (ps.map (·.name.tag) ++ more) c st) :
    MeetsIn allowed (ps.mapM m) c st fun vs st' =>
      (∀ v ∈ vs, v.shape.Scoped c kept) ∧ variableTags vs = ps.map (·.name.tag) ∧
        Bound st' (argumentEnv ps) ∧ Place generics own vars more c st' ∧
        Grown st st' (ps.map (·.name.tag)) := by
  induction ps generalizing st with
  | nil =>
    rw [List.mapM_nil, meetsIn_pure]
    exact ⟨by simp, rfl, by simp [Bound, argumentEnv], place, Grown.refl st⟩
  | cons p rest ih =>
    rw [List.forall_mem_cons] at formed can
    rw [List.map_cons, List.cons_append] at place
    have held : Holds st kept := fun tag member => place.held tag (within member)
    rw [List.mapM_cons, meetsIn_bind]
    refine (defines p st _ (define_meets lays can.1 (formed.1.mono wide.more (fun _ known => known)
      fun _ known => known) place.sound held (place.fresh p.name.tag (by simp)) fun generic => ?_)).imp
      fun v st₁ post => ?_
    · exact absurd generic fun generic => place.apart (by simp) generic
    obtain ⟨name, type, sound, grown, found⟩ := post
    rw [meetsIn_bind]
    refine (ih can.2 formed.2 (Place.later (show Place generics own vars ([p.name.tag] ++ _) c st from place)
      sound grown)).imp fun vs st₂ post => ?_
    obtain ⟨layouts, tags, bound, place₂, grown₂⟩ := post
    rw [meetsIn_pure]
    have fits := sound.layouts _ v found
    refine ⟨List.forall_mem_cons.mpr ⟨fits.inside (type ▸ formed.1) wide.plain, layouts⟩, ?_,
      List.forall_mem_cons.mpr ⟨⟨v, grown₂.kept _ v found, type⟩, bound⟩, place₂,
      grown.trans grown₂⟩
    rw [variableTags, List.map_cons, List.map_cons, name, ← tags]
    rfl

/-- An expression is measured where its parts are, once its own type has been laid out. -/
theorem measures_of_parts (wide : c.Extends arity) (lays : Lays c generics allowed able) {e : Explicit.Expr}
    {rest : Shape → Measure Expr} (begins : expr e = atSpan e.span (shapeOf e.type) >>= rest) {types : List Ty}
    (all : e.types = e.type :: types)
    (parts : ∀ own vars st s, (∀ t ∈ types, able t) → e.Scoped arity c.structs own vars →
      Place generics own vars e.binders c st → s.type = e.type → s.Scoped c own →
      MeetsIn allowed (rest s) c st (Measured generics own vars c st e)) :
    Measures arity generics c allowed able e := by
  intro own vars st can inside place
  rw [all, List.forall_mem_cons] at can
  rw [begins, meetsIn_bind]
  refine (exprShape_meets wide lays can.1 inside place).imp fun s st₁ post => ?_
  obtain ⟨type, layout, place₁, kept⟩ := post
  exact (parts own vars st₁ s can.2 inside place₁ type layout).imp fun e' st₂ measured =>
    { measured with grown := (Grown.of_vars kept).trans measured.grown }

theorem callDirect_meets (wide : c.Extends arity) (lays : Lays c generics allowed able) {span : Span} {type : Ty}
    {function : Ident} {args : List Explicit.Expr} {ws : List WitnessExpr}
    (each : ∀ e ∈ args, Measures arity generics c allowed able e) :
    Measures arity generics c allowed able (.callDirect span type function args ws) := by
  refine measures_of_parts wide lays (by rw [expr]) (by rw [Explicit.Expr.types])
    fun own vars st s can inside place type' layout => ?_
  obtain ⟨-, insideA, names⟩ := inside
  dsimp only
  rw [meetsIn_bind]
  refine (exprs_meets each can (Explicit.scopedAll_iff.mp insideA) place).imp fun args' st₁ post => ?_
  obtain ⟨others, bound, sound, grown⟩ := post
  have held : Holds st₁ (tagsOf (WitnessExpr.namesAll ws)) := by
    intro tag member
    obtain ⟨x, inside, rfl⟩ := List.mem_map.mp member
    rw [WitnessExpr.namesAll_eq_flatMap] at inside
    obtain ⟨w, argument, read⟩ := List.mem_flatMap.mp inside
    exact place.held.grow grown _ (names w argument x read)
  rw [meetsIn_bind]
  refine (witnesses_meets sound.toSound ws held).imp fun ws' st₂ post => ?_
  obtain ⟨same, kept⟩ := post
  rw [meetsIn_pure, kept]
  refine ⟨sound, grown, ⟨layout, others, fun w argument x read => ?_⟩, type', bound⟩
  have tag : x.tag ∈ tagsOf (WitnessExpr.namesAll ws) := by
    rw [← same, WitnessExpr.namesAll_eq_flatMap]
    exact List.mem_map_of_mem (List.mem_flatMap.mpr ⟨w, argument, read⟩)
  obtain ⟨y, member, same⟩ := List.mem_map.mp tag
  rw [WitnessExpr.namesAll_eq_flatMap] at member
  obtain ⟨w', argument', read'⟩ := List.mem_flatMap.mp member
  exact same ▸ names w' argument' y read'

theorem cond_meets (wide : c.Extends arity) (lays : Lays c generics allowed able) {span : Span}
    {test yes no : Explicit.Expr} (tests : Measures arity generics c allowed able test)
    (accepts : Measures arity generics c allowed able yes) (refuses : Measures arity generics c allowed able no) :
    Measures arity generics c allowed able (.cond span test yes no) := by
  refine measures_of_parts wide lays (by rw [expr]) (by rw [Explicit.Expr.types])
    fun own vars st s can inside place type' layout => ?_
  rw [List.forall_mem_append, List.forall_mem_append] at can
  dsimp only
  rw [meetsIn_bind]
  refine (tests own vars st can.1.1 inside.1 (place.sublist (List.sublist_append_left _ _))).imp
    fun test' st₁ first => ?_
  have place₁ := place.later first.sound first.grown
  rw [meetsIn_bind]
  refine (accepts own vars st₁ can.1.2 inside.2.1 (place₁.sublist (List.sublist_append_left _ _))).imp
    fun yes' st₂ second => ?_
  rw [meetsIn_bind]
  refine (refuses own vars st₂ can.2 inside.2.2 (place₁.later second.sound second.grown)).imp
    fun no' st₃ third => ?_
  rw [meetsIn_pure]
  exact ⟨third.sound, first.grown.trans (second.grown.trans third.grown),
    ⟨layout, first.inside, second.inside, third.inside⟩, type',
    congrArg₂ _ first.binders (congrArg₂ _ second.binders third.binders)⟩

/-- The variables of the type parameters of a closure, which are described where the closure is made. -/
theorem ownGenerics_scoped {gs : List Ident} {gs' : List Variable} (sound : Sound c generics st) (known : own ⊆ generics)
    (within : tagsOf gs ⊆ own) (found : List.Forall₂ (fun g v => st.vars.lookup g.tag = some v) gs gs') :
    variableTags gs' = tagsOf gs ∧ ∀ v ∈ gs', v.name.tag ∈ own ∧ v.IsDescription c := by
  refine ⟨map_eq_of_forall₂ found fun g v here => sound.names _ v here, fun v member => ?_⟩
  obtain ⟨g, generic, here⟩ := exists_of_forall₂ found v member
  have inside := within (List.mem_map_of_mem generic)
  rw [sound.names _ v here]
  exact ⟨inside, sound.isDescription here (known inside)⟩

/-- The variables that a closure takes along. -/
theorem captures_scoped (plain : arity .witness = none) {cs : List Explicit.Capture} {cs' : List Variable}
    (sound : Sound c generics st) (bound : Bound st vars) (captured : captureEnv cs ⊆ vars)
    (formed : ∀ a ∈ cs, a.type.Formed arity own [])
    (found : List.Forall₂ (fun a v => st.vars.lookup a.name.tag = some v) cs cs') :
    variableTags cs' = tagsIn (captureEnv cs) ∧ ∀ v ∈ cs', v.name.tag ∈ tagsIn vars ∧ v.shape.Scoped c own := by
  refine ⟨?_, fun v member => ?_⟩
  · rw [captureEnv, tagsIn, List.map_map]
    exact map_eq_of_forall₂ found fun a v here => sound.names _ v here
  · obtain ⟨a, capture, here⟩ := exists_of_forall₂ found v member
    have seen := captured (List.mem_map_of_mem capture)
    obtain ⟨v', found', type⟩ := bound _ seen
    obtain rfl : v = v' := Option.some.inj (here.symm.trans found')
    rw [sound.names _ v here]
    exact ⟨List.mem_map_of_mem seen, (sound.layouts _ v here).inside (type ▸ formed a capture) plain⟩

theorem closure_meets (wide : c.Extends arity) (lays : Lays c generics allowed able) {span : Span}
    {params : List Explicit.Argument} {gs : List Ident} {cs : List Explicit.Capture} {env : Ident} {body : Explicit.Expr}
    (inner : Measures arity generics c allowed able body) :
    Measures arity generics c allowed able (.closure span params gs cs env body) := by
  refine measures_of_parts wide lays (by rw [expr]) (by rw [Explicit.Expr.types])
    fun own vars st s can inside place type' layout => ?_
  obtain ⟨within, captured, enclosed, ⟨span', added⟩, formed, insideB⟩ := inside
  rw [List.forall_mem_append, List.forall_mem_map, List.forall_mem_cons] at can
  dsimp only
  rw [meetsIn_bind]
  refine (lookups_meets id (fun g member => place.held g.tag
    (within (List.mem_map_of_mem member)))).imp fun gs' st₁ post => ?_
  obtain ⟨foundG, kept₁⟩ := post
  rw [kept₁, meetsIn_bind]
  have heldC : ∀ a ∈ cs, ∃ v, st.vars.lookup a.name.tag = some v := by
    intro a member
    obtain ⟨v, found, -⟩ := place.bound _ (captured (List.mem_map_of_mem member))
    exact ⟨v, found⟩
  refine (lookups_meets (fun a : Explicit.Capture => a.name) heldC).imp fun cs' st₂ post => ?_
  obtain ⟨foundC, kept₂⟩ := post
  rw [kept₂, meetsIn_bind]
  refine (params_meets wide lays (fun _ _ _ meets => meets) can.1 formed within place).imp
    fun ps' st₃ post => ?_
  obtain ⟨layouts, tags, boundP, place₃, grown⟩ := post
  obtain ⟨tagsG, describedG⟩ := ownGenerics_scoped place.sound.toSound place.known within foundG
  obtain ⟨tagsC, scopedC⟩ := captures_scoped wide.plain place.sound.toSound place.bound captured enclosed.formed foundC
  have formedE : (Ty.named env (gs.map Ty.generic)).Formed c.arity own [] := by
    rw [Ty.formed_named, List.length_map]
    refine ⟨wide.structs _ added, fun t member => ?_⟩
    obtain ⟨g, member, rfl⟩ := List.mem_map.mp member
    exact within (List.mem_map_of_mem ‹_›)
  have valueE : isWitnessType (.named env (gs.map Ty.generic)) = false := by
    simpa [isWitnessType, environment] using wide.proper _ added
  rw [meetsIn_read_bind]
  split
  · rename_i none
    -- The environment is among the structs.
    rw [Option.isNone_iff_eq_none, Context.struct?, List.find?_eq_none] at none
    exact absurd (by simp [environment]) (none _ (List.mem_reverse.mpr added))
  rw [meetsIn_bind]
  refine (shapeOf_meets lays can.2.1 formedE place₃.sound place₃.held).imp fun envShape st₄ post => ?_
  obtain ⟨typeE, fits, sound₄, kept₄⟩ := post
  have place₄ := place₃.of_vars sound₄ kept₄
  have placeB : Place generics (tagsOf gs) (argumentEnv params ++ captureEnv cs) body.binders c st₄ :=
    { place₄ with
      known := fun tag member => place.known (within member)
      held := fun tag member => place₄.held tag (within member)
      bound := List.forall_mem_append.mpr ⟨boundP.grow (Grown.of_vars kept₄),
        fun e member => place₄.bound e (captured member)⟩ }
  rw [meetsIn_bind]
  refine (inner _ _ st₄ can.2.2 insideB placeB).imp fun body' st₅ last => ?_
  rw [meetsIn_pure]
  refine ⟨last.sound, grown.trans ((Grown.of_vars kept₄).trans last.grown),
    ⟨layout, ⟨⟨fits.value (typeE ▸ valueE), fun x member => ?_⟩, fits.exact, typeE ▸ valueE⟩, describedG, ?_, ?_, ?_⟩,
    type', congrArg₂ _ tags last.binders⟩
  · obtain ⟨q, parameter, same⟩ := List.mem_map.mp (fits.names x member)
    exact same ▸ formedE.mem_parameters (typeE ▸ parameter)
  · rw [tagsG]
    exact scopedC
  · rw [tagsG]
    exact layouts
  · have tagsB : tagsIn (argumentEnv params ++ captureEnv cs) = variableTags ps' ++ variableTags cs' := by
      rw [tagsC, tags, tagsIn, tagsIn, List.map_append, argumentEnv, List.map_map]
      rfl
    rw [tagsG, ← tagsB]
    exact last.inside

/-- The induction follows the expression. -/
theorem expr_meets (wide : c.Extends arity) (lays : Lays c generics allowed able) (e : Explicit.Expr) :
    Measures arity generics c allowed able e := by
  induction e with
  | var span type name =>
    refine measures_of_parts wide lays (by rw [expr]) (by rw [Explicit.Expr.types])
      fun own vars st s can inside place type' layout => ?_
    obtain ⟨v, found, -⟩ := place.bound _ inside.2
    dsimp only
    rw [meetsIn_bind]
    refine (lookup_meets found).imp fun v' st₁ post => ?_
    obtain ⟨same, kept⟩ := post
    rw [meetsIn_pure, same, kept]
    refine ⟨place.sound, Grown.refl st, ⟨layout, ?_⟩, type', rfl⟩
    rw [place.sound.names _ v found]
    exact List.mem_map_of_mem inside.2
  | number span text bits =>
    refine measures_of_parts wide lays (by rw [expr]) (by rw [Explicit.Expr.types])
      fun own vars st s can inside place type' layout => ?_
    exact ⟨place.sound, Grown.refl st, layout, type', rfl⟩
  | bool span value =>
    refine measures_of_parts wide lays (by rw [expr]) (by rw [Explicit.Expr.types])
      fun own vars st s can inside place type' layout => ?_
    exact ⟨place.sound, Grown.refl st, layout, type', rfl⟩
  | callDirect span type function args ws ih => exact callDirect_meets wide lays ih
  | callClosure span type callee args ihCallee ih =>
    refine measures_of_parts wide lays (by rw [expr]) (by rw [Explicit.Expr.types])
      fun own vars st s can inside place type' layout => ?_
    obtain ⟨-, insideC, insideA⟩ := inside
    rw [List.forall_mem_append] at can
    dsimp only
    rw [meetsIn_bind]
    refine (ihCallee own vars st can.1 insideC (place.sublist (List.sublist_append_left _ _))).imp
      fun callee' st₁ first => ?_
    rw [meetsIn_bind]
    refine (exprs_meets ih can.2 (Explicit.scopedAll_iff.mp insideA)
      (place.later first.sound first.grown)).imp fun args' st₂ post => ?_
    obtain ⟨others, bound, sound, grown⟩ := post
    rw [meetsIn_pure]
    exact ⟨sound, first.grown.trans grown, ⟨layout, first.inside, others⟩, type', congrArg₂ _ first.binders bound⟩
  | primitive span op left right ihLeft ihRight =>
    refine measures_of_parts wide lays (by rw [expr]) (by rw [Explicit.Expr.types])
      fun own vars st s can inside place type' layout => ?_
    rw [List.forall_mem_append] at can
    dsimp only
    rw [meetsIn_bind]
    refine (ihLeft own vars st can.1 inside.1 (place.sublist (List.sublist_append_left _ _))).imp
      fun left' st₁ first => ?_
    rw [meetsIn_bind]
    refine (ihRight own vars st₁ can.2 inside.2 (place.later first.sound first.grown)).imp
      fun right' st₂ second => ?_
    rw [meetsIn_pure]
    exact ⟨second.sound, first.grown.trans second.grown, ⟨layout, first.inside, second.inside⟩, type',
      congrArg₂ _ first.binders second.binders⟩
  | block span bs result ih ihResult =>
    refine measures_of_parts wide lays (by rw [expr]) (by rw [Explicit.Expr.types])
      fun own vars st s can inside place type' layout => ?_
    rw [List.forall_mem_append] at can
    dsimp only
    rw [meetsIn_bind]
    refine (lets_meets wide lays ih can.1 inside.1 (place.sublist (List.sublist_append_left _ _))).imp
      fun bs' st₁ post => ?_
    obtain ⟨bindings, tags, binders, bound, sound, grown⟩ := post
    rw [meetsIn_bind]
    refine (ihResult own _ st₁ can.2 inside.2 { place.later sound grown with bound := bound }).imp
      fun result' st₂ last => ?_
    rw [meetsIn_pure]
    refine ⟨last.sound, grown.trans last.grown, ⟨layout, bindings, ?_⟩, type', congrArg₂ _ binders last.binders⟩
    rw [tags]
    exact last.inside
  | pack span name args fields ih =>
    refine measures_of_parts wide lays (by rw [expr]) (by rw [Explicit.Expr.types])
      fun own vars st s can inside place type' layout => ?_
    dsimp only
    rw [meetsIn_bind]
    refine (packFields_meets ih can (Explicit.fieldsScoped_iff.mp inside.2) place).imp fun fields' st₁ post => ?_
    obtain ⟨others, bound, sound, grown⟩ := post
    rw [meetsIn_pure]
    exact ⟨sound, grown, ⟨layout, others⟩, type', bound⟩
  | unpack span type value field ih =>
    refine measures_of_parts wide lays (by rw [expr]) (by rw [Explicit.Expr.types])
      fun own vars st s can inside place type' layout => ?_
    dsimp only
    rw [meetsIn_bind]
    refine (ih own vars st can inside.2 place).imp fun value' st₁ last => ?_
    rw [meetsIn_pure]
    exact ⟨last.sound, last.grown, ⟨layout, last.inside⟩, type', last.binders⟩
  | cond span test yes no ihTest ihYes ihNo => exact cond_meets wide lays ihTest ihYes ihNo
  | closure span params gs cs env body ih => exact closure_meets wide lays ih

end Expressions

end Sized

end WitnessLang
