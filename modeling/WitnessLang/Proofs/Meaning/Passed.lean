import WitnessLang.Proofs.Explicit.Program
import WitnessLang.Proofs.Meaning.Semantics

set_option autoImplicit false

namespace WitnessLang

section Passing

open Explicit (Supply)

variable {F : Type}

/-- What parameters and a body become: patterns are taken apart in front of the body, and no variable
is bound twice or is one of those around. -/
structure Opened (params : List Typed.Param) (body : Typed.Expr) (around tags : List Tag) (body' : Plain.Expr) :
    Prop where
  made : ∃ (s s' : Supply) (args : List Explicit.Argument) (lets : List Explicit.Let) (e : Explicit.Expr),
    ((Explicit.bindParams params).run s).1 = (args, lets) ∧ ((Explicit.expr body).run s').1 = e ∧
    tags = args.map (·.name.tag) ∧ body' = (Explicit.withLets lets e).plain ∧
    (tags ++ (Explicit.withLets lets e).binders).Nodup ∧ (tags ++ (Explicit.withLets lets e).binders).Disjoint around

/-- Values that are the same but for what their code has become. -/
inductive Passes : Value F Typed.Code → Value F Plain.Code → Prop
  | scalar {x : Scalar F} : Passes (.scalar x) (.scalar x)
  | record {names : List String} {vs ws} (each : List.Forall₂ Passes vs ws) : Passes (.record names vs) (.record names ws)
  | closure {c c' vs ws} (code : Opened c.params c.body c'.captures c'.params c'.body)
      (captures : c'.captures = c.captures.map (·.name.tag)) (each : List.Forall₂ Passes vs ws) :
      Passes (.closure c vs) (.closure c' ws)

/-- Whatever has a value has a corresponding one. -/
def Agrees (ρ : Locals F Typed.Code) (ρ' : Locals F Plain.Code) : Prop :=
  ∀ t v, ρ.lookup t = some v → ∃ v', ρ'.lookup t = some v' ∧ Passes v v'

/-- Variables that are yet to be bound, each of them once. -/
structure Fresh {C : Type} (tags : List Tag) (ρ : Locals F C) : Prop where
  once : tags.Nodup
  apart : tags.Disjoint (ρ.map (·.1))

section Agreement

variable {ρ ρ₁ : Locals F Typed.Code} {ρ' front : Locals F Plain.Code} {t : Tag} {v : Value F Typed.Code}
  {v' : Value F Plain.Code} {tags tags' : List Tag}

theorem Passes.field? {name : String} {part : Value F Typed.Code} (same : Passes v v')
    (found : v.field? name = some part) : ∃ part', v'.field? name = some part' ∧ Passes part part' := by
  cases same with
  | record each => exact exists_lookup_zip_of_forall₂ each found
  | _ => cases found

theorem agrees_zip {vs : List (Value F Typed.Code)} {ws : List (Value F Plain.Code)} (each : List.Forall₂ Passes vs ws) :
    Agrees (tags.zip vs) (tags.zip ws) := fun _ _ found => exists_lookup_zip_of_forall₂ each found

theorem lookup_front {C : Type} {ρ front : Locals F C} (apart : t ∉ front.map (·.1)) :
    (front ++ ρ).lookup t = ρ.lookup t := by
  have missing : front.lookup t = none := List.lookup_eq_none_iff.mpr fun e member => by
    rw [bne_iff_ne]
    rintro rfl
    exact apart (List.mem_map_of_mem member)
  rw [List.lookup_append, missing, Option.none_or]

theorem mem_tags_of_lookup {C : Type} {ρ : Locals F C} {v : Value F C} (found : ρ.lookup t = some v) :
    t ∈ ρ.map (·.1) := List.mem_map.mpr ⟨_, mem_of_lookup found, rfl⟩

theorem Agrees.named (agrees : Agrees ρ ρ') (found : ρ'.lookup t = some v') (same : Passes v v') :
    Agrees ((t, v) :: ρ) ρ' := by
  intro u w held
  rw [List.lookup_cons] at held
  split at held
  · rename_i equal
    obtain rfl := eq_of_beq equal
    obtain rfl := Option.some.inj held
    exact ⟨v', found, same⟩
  · exact agrees u w held

/-- New variables hide none that has a value. -/
theorem Agrees.behind (agrees : Agrees ρ ρ') (apart : (front.map (·.1)).Disjoint (ρ'.map (·.1))) :
    Agrees ρ (front ++ ρ') := by
  intro u w held
  obtain ⟨w', found, same⟩ := agrees u w held
  exact ⟨w', (lookup_front fun hidden => apart hidden (mem_tags_of_lookup found)).trans found, same⟩

theorem Agrees.hide (agrees : Agrees ρ ρ') (fresh : t ∉ ρ'.map (·.1)) : Agrees ρ ((t, v') :: ρ') := by
  have apart : ([(t, v')].map (·.1)).Disjoint (ρ'.map (·.1)) := List.singleton_disjoint.mpr fresh
  exact agrees.behind apart

theorem Fresh.mono {C : Type} {ρ : Locals F C} (fresh : Fresh tags ρ) (part : tags'.Sublist tags) : Fresh tags' ρ :=
  ⟨part.nodup fresh.once, fun _ own old => fresh.apart (part.subset own) old⟩

theorem Fresh.left {C : Type} {ρ : Locals F C} (fresh : Fresh (tags ++ tags') ρ) : Fresh tags ρ :=
  fresh.mono (List.sublist_append_left _ _)

theorem Fresh.right {C : Type} {ρ : Locals F C} (fresh : Fresh (tags ++ tags') ρ) : Fresh tags' ρ :=
  fresh.mono (List.sublist_append_right _ _)

/-- What is yet to be bound behind bindings. -/
theorem Fresh.behind {C : Type} {ρ front : Locals F C} (fresh : Fresh (tags ++ tags') ρ)
    (bound : front.map (·.1) ⊆ tags) : Fresh tags' (front ++ ρ) := by
  refine ⟨fresh.right.once, ?_⟩
  rw [List.map_append, List.disjoint_append_right]
  exact ⟨fun t own old => (List.nodup_append'.mp fresh.once).2.2 (bound old) own, fresh.right.apart⟩

theorem Fresh.behind_cons {C : Type} {ρ : Locals F C} (fresh : Fresh (t :: tags) ρ) (v : Value F C) :
    Fresh tags ((t, v) :: ρ) := by
  have split : Fresh ([(t, v)].map (·.1) ++ tags) ρ := fresh
  exact split.behind fun _ member => member

end Agreement

section Patterns

variable (P : List Plain.Function) (A : Arithmetic F)

/-- What bindings have to do where a typed program gives variables values: they give them the
corresponding ones. -/
def Supplies (lets : List Explicit.Let) (ρ₁ : Locals F Typed.Code) (ρ' : Locals F Plain.Code) : Prop :=
  ∃ ρ₁', Plain.EvalLets P A ρ' (Explicit.Expr.plainLets lets) ρ₁' ∧ Agrees ρ₁ ρ₁'

/-- Bindings that give the variables of some pattern their values, wherever the value is at hand that is
taken apart. -/
def TakesApart (bind : Value F Typed.Code → Locals F Typed.Code → Option (Locals F Typed.Code))
    (held : Locals F Plain.Code → Value F Plain.Code → Prop) (lets : List Explicit.Let) : Prop :=
  ∀ ρ ρ₁ ρ' v v', bind v ρ = some ρ₁ → Agrees ρ ρ' → held ρ' v' → Passes v v' → Fresh (lets.map (·.name.tag)) ρ' →
    Supplies P A lets ρ₁ ρ'

variable {P} {A}

theorem unpackFields_takesApart {fs : List Typed.FieldPattern}
    (each : ∀ f ∈ fs, ∀ value s, Leaves (Explicit.bindValue f.pattern value) s fun lets _ =>
      TakesApart P A f.pattern.bind (Plain.Eval P A · value.plain ·) lets)
    (span : Span) (type : Ty) (source : Ident) (s : Supply) :
    Leaves (Explicit.unpackFields span type source fs) s fun lets _ =>
      TakesApart P A (Typed.Pattern.bindFields fs) (fun ρ' v' => ρ'.lookup source.tag = some v') lets := by
  induction fs generalizing s with
  | nil =>
    rw [Explicit.unpackFields, leaves_pure]
    intro ρ ρ₁ ρ' v v' bound agrees held same fresh
    obtain rfl := Option.some.inj bound
    exact ⟨ρ', .nil, agrees⟩
  | cons f rest ih =>
    obtain ⟨name, p⟩ := f
    rw [List.forall_mem_cons] at each
    rw [Explicit.unpackFields, leaves_bind]
    refine (each.1 _ s).imp fun lets s₁ first => ?_
    rw [leaves_bind]
    refine (ih each.2 s₁).imp fun more s₂ others => ?_
    rw [leaves_pure]
    intro ρ ρ₁ ρ' v v' bound agrees held same fresh
    obtain ⟨part, found, bound⟩ := Option.bind_eq_some_iff.mp bound
    obtain ⟨ρₘ, own, bound⟩ := Option.bind_eq_some_iff.mp bound
    obtain ⟨part', found', alike⟩ := same.field? found
    rw [List.map_append] at fresh
    obtain ⟨ρₘ', given, agrees⟩ := first _ _ _ _ _ own agrees (.unpack (.var held) found') alike fresh.left
    obtain ⟨front, rfl, tags⟩ := given.exists_front
    rw [Explicit.plainLets_tags] at tags
    have inside : front.map (·.1) ⊆ lets.map (·.name.tag) := by
      rw [tags]
      exact List.reverse_subset.mpr fun _ member => member
    have kept : (front ++ ρ').lookup source.tag = some v' := (lookup_front fun hidden =>
      fresh.left.apart (inside hidden) (mem_tags_of_lookup held)).trans held
    obtain ⟨ρ₁', given', agrees⟩ := others _ _ _ _ _ bound agrees kept same (fresh.behind inside)
    exact ⟨ρ₁', by simpa using given.append given', agrees⟩

theorem bindValue_takesApart (p : Typed.Pattern) (value : Explicit.Expr) (s : Supply) :
    Leaves (Explicit.bindValue p value) s fun lets _ =>
      TakesApart P A p.bind (Plain.Eval P A · value.plain ·) lets := by
  induction p generalizing value s with
  | var span name type =>
    rw [Explicit.bindValue, leaves_pure]
    intro ρ ρ₁ ρ' v v' bound agrees value same fresh
    obtain rfl := Option.some.inj bound
    have new : name.tag ∉ ρ'.map (·.1) := by simpa using fresh.apart
    exact ⟨_, .cons value .nil, (agrees.hide new).named (List.lookup_cons_self ..) same⟩
  | record span name type fields ih =>
    rw [Explicit.bindValue, leaves_bind]
    have named : Leaves Explicit.temporary s fun _ _ => True := trivial
    refine named.imp fun t s₁ _ => ?_
    rw [leaves_bind]
    refine (unpackFields_takesApart ih span type t s₁).imp fun lets s₂ fields => ?_
    rw [leaves_pure]
    intro ρ ρ₁ ρ' v v' bound agrees value same fresh
    rw [List.map_cons] at fresh
    have new : t.tag ∉ ρ'.map (·.1) := (List.disjoint_cons_left.mp fresh.apart).1
    obtain ⟨ρ₁', given, agrees⟩ := fields _ _ _ _ _ bound (agrees.hide new) (List.lookup_cons_self ..) same
      (fresh.behind_cons v')
    exact ⟨ρ₁', .cons value given, agrees⟩

theorem bindParam_takesApart (p : Typed.Pattern) (s : Supply) :
    Leaves (Explicit.bindParam p) s fun (name, lets) _ =>
      TakesApart P A p.bind (fun ρ' v' => ρ'.lookup name.tag = some v') lets := by
  cases p with
  | var span name type =>
    rw [Explicit.bindParam, leaves_pure]
    intro ρ ρ₁ ρ' v v' bound agrees held same fresh
    obtain rfl := Option.some.inj bound
    exact ⟨ρ', .nil, agrees.named held same⟩
  | record span name type fields =>
    rw [Explicit.bindParam, leaves_bind]
    have named : Leaves Explicit.temporary s fun _ _ => True := trivial
    refine named.imp fun t s₁ _ => ?_
    rw [leaves_bind]
    exact unpackFields_takesApart (fun f _ => bindValue_takesApart f.pattern) span type t s₁

theorem bindParams_length (ps : List Typed.Param) (s : Supply) :
    Leaves (Explicit.bindParams ps) s fun (args, _) _ => args.length = ps.length := by
  induction ps generalizing s with
  | nil => rfl
  | cons p rest ih => exact congrArg (· + 1) (ih _)

/-- The patterns of parameters are taken apart wherever the parameters have values. -/
theorem bindParams_takesApart (ps : List Typed.Param) (s : Supply) :
    Leaves (Explicit.bindParams ps) s fun (args, lets) _ =>
      ∀ (ρ ρ₁ : Locals F Typed.Code) (ρ' : Locals F Plain.Code) vs vs', Typed.bindArguments ps vs ρ = some ρ₁ →
        Agrees ρ ρ' → List.Forall₂ (fun (a : Explicit.Argument) v' => ρ'.lookup a.name.tag = some v') args vs' →
        List.Forall₂ Passes vs vs' → Fresh (lets.map (·.name.tag)) ρ' → Supplies P A lets ρ₁ ρ' := by
  induction ps generalizing s with
  | nil =>
    rw [Explicit.bindParams, leaves_pure]
    intro ρ ρ₁ ρ' vs vs' bound agrees held same fresh
    cases vs with
    | nil =>
      obtain rfl := Option.some.inj bound
      exact ⟨ρ', .nil, agrees⟩
    | cons => cases bound
  | cons p rest ih =>
    rw [Explicit.bindParams, leaves_bind]
    refine (bindParam_takesApart (P := P) (A := A) p.pattern s).imp fun made s₁ first => ?_
    obtain ⟨name, lets⟩ := made
    rw [leaves_bind]
    refine (ih s₁).imp fun made s₂ others => ?_
    obtain ⟨args, more⟩ := made
    rw [leaves_pure]
    intro ρ ρ₁ ρ' vs vs' bound agrees held same fresh
    rw [List.map_append] at fresh
    cases same with
    | nil => cases held
    | cons alike each =>
      rw [List.forall₂_cons] at held
      obtain ⟨ρₘ, own, bound⟩ := Option.bind_eq_some_iff.mp bound
      obtain ⟨ρₘ', given, agrees⟩ := first _ _ _ _ _ own agrees held.1 alike fresh.left
      obtain ⟨front, rfl, tags⟩ := given.exists_front
      rw [Explicit.plainLets_tags] at tags
      have inside : front.map (·.1) ⊆ lets.map (·.name.tag) := by
        rw [tags]
        exact List.reverse_subset.mpr fun _ member => member
      have kept : List.Forall₂ (fun (a : Explicit.Argument) v' => (front ++ ρ').lookup a.name.tag = some v') args _ :=
        held.2.imp fun a v' found => (lookup_front fun hidden =>
          fresh.left.apart (inside hidden) (mem_tags_of_lookup found)).trans found
      obtain ⟨ρ₁', given', agrees⟩ := others _ _ _ _ _ bound agrees kept each (fresh.behind inside)
      exact ⟨ρ₁', by simpa using given.append given', agrees⟩

theorem bindArguments_length {ps : List Typed.Param} {vs : List (Value F Typed.Code)} {ρ ρ₁ : Locals F Typed.Code}
    (bound : Typed.bindArguments ps vs ρ = some ρ₁) : vs.length = ps.length := by
  induction ps generalizing vs ρ with
  | nil =>
    cases vs with
    | nil => rfl
    | cons => cases bound
  | cons p rest ih =>
    cases vs with
    | nil => cases bound
    | cons v vs =>
      obtain ⟨ρₘ, -, bound⟩ := Option.bind_eq_some_iff.mp bound
      rw [List.length_cons, List.length_cons, ih bound]

end Patterns

section Bodies

variable {P : List Plain.Function} {A : Arithmetic F}

theorem withLets_eval {lets : List Explicit.Let} {body : Explicit.Expr} {ρ ρ' : Locals F Plain.Code}
    {v : Value F Plain.Code} (bound : Plain.EvalLets P A ρ (Explicit.Expr.plainLets lets) ρ')
    (last : Plain.Eval P A ρ' body.plain v) : Plain.Eval P A ρ (Explicit.withLets lets body).plain v := by
  cases lets with
  | nil =>
    cases bound
    exact last
  | cons => exact .block bound last

theorem Opened.length {params : List Typed.Param} {body : Typed.Expr} {around tags : List Tag} {body' : Plain.Expr}
    (opened : Opened params body around tags body') : tags.length = params.length := by
  obtain ⟨s, s', args, lets, e, made, -, rfl, -⟩ := opened
  have length := bindParams_length params s
  rw [Leaves, made] at length
  rw [List.length_map, length]

/-- There are as many values as parameters. -/
theorem Opened.count {params : List Typed.Param} {body : Typed.Expr} {around tags : List Tag} {body' : Plain.Expr}
    (opened : Opened params body around tags body') {ρ ρ₁ : Locals F Typed.Code} {vs : List (Value F Typed.Code)}
    {vs' : List (Value F Plain.Code)} (bound : Typed.bindArguments params vs ρ = some ρ₁)
    (same : List.Forall₂ Passes vs vs') : vs'.length = tags.length := by
  rw [← same.length_eq, bindArguments_length bound, opened.length]

/-- A body that is evaluated behind its parameters. -/
theorem Opened.eval {params : List Typed.Param} {body : Typed.Expr} {around tags : List Tag} {body' : Plain.Expr}
    (opened : Opened params body around tags body') {ρ ρ₁ : Locals F Typed.Code} {ρ' : Locals F Plain.Code}
    {vs : List (Value F Typed.Code)} {vs' : List (Value F Plain.Code)} {v : Value F Typed.Code}
    (bound : Typed.bindArguments params vs ρ = some ρ₁) (agrees : Agrees ρ ρ') (old : ρ'.map (·.1) ⊆ around)
    (same : List.Forall₂ Passes vs vs')
    (inner : ∀ s ρ₁', Agrees ρ₁ ρ₁' → Fresh ((Explicit.expr body).run s).1.binders ρ₁' →
      ∃ v', Plain.Eval P A ρ₁' ((Explicit.expr body).run s).1.plain v' ∧ Passes v v') :
    ∃ v', Plain.Eval P A (tags.zip vs' ++ ρ') body' v' ∧ Passes v v' := by
  have count := opened.count bound same
  obtain ⟨s, s', args, lets, e, made, passed, rfl, rfl, once, apart⟩ := opened
  have takes := bindParams_takesApart (P := P) (A := A) params s
  rw [Leaves, made] at takes
  have keys : ((args.map (·.name.tag)).zip vs').map (·.1) = args.map (·.name.tag) :=
    List.map_fst_zip (Nat.le_of_eq count.symm)
  have front : (((args.map (·.name.tag)).zip vs').map (·.1)).Disjoint (ρ'.map (·.1)) := by
    rw [keys]
    exact fun t own seen => apart (List.mem_append_left _ own) (old seen)
  have fresh : Fresh (args.map (·.name.tag) ++ (Explicit.withLets lets e).binders) ρ' :=
    ⟨once, fun t own seen => apart own (old seen)⟩
  rw [Explicit.binders_withLets] at fresh
  have behind : Fresh (Explicit.Expr.letBinders lets ++ e.binders) ((args.map (·.name.tag)).zip vs' ++ ρ') :=
    fresh.behind (by rw [keys]; exact fun _ own => own)
  have held := forall₂_lookup_zip (List.nodup_append'.mp once).1 count ρ'
  rw [List.forall₂_map_left_iff] at held
  obtain ⟨ρ₁', given, agrees⟩ := takes _ _ _ _ _ bound (agrees.behind front) held same
    (behind.left.mono (Explicit.letTags_sublist lets))
  obtain ⟨added, rfl, addedTags⟩ := given.exists_front
  have inside : added.map (·.1) ⊆ Explicit.Expr.letBinders lets := by
    rw [addedTags, Explicit.plainLets_tags]
    exact List.reverse_subset.mpr (Explicit.letTags_sublist lets).subset
  rw [← passed] at behind
  obtain ⟨v', last, alike⟩ := inner s' _ agrees (behind.behind inside)
  rw [passed] at last
  exact ⟨v', withLets_eval given last, alike⟩

end Bodies

section Parts

theorem packFields_exprs (fs : List Typed.FieldInit) (s : Supply) :
    Leaves (Explicit.packFields fs) s fun made _ =>
      made.map (·.name) = fs.map (·.name) ∧
      made.map (·.value) = ((Explicit.exprs (fs.map (·.value))).run s).1 := by
  induction fs generalizing s with
  | nil => exact ⟨rfl, rfl⟩
  | cons f rest ih =>
    obtain ⟨name, value⟩ := f
    have others := ih ((Explicit.expr value).run s).2
    exact ⟨congrArg (name :: ·) others.1, congrArg (((Explicit.expr value).run s).1 :: ·) others.2⟩

theorem fieldBinders_eq_bindersAll (fs : List Explicit.PackField) :
    Explicit.Expr.fieldBinders fs = Explicit.Expr.bindersAll (fs.map (·.value)) := by
  rw [Explicit.fieldBinders_eq_flatMap, Explicit.bindersAll_eq_flatMap, List.flatMap_map]

theorem binders_sublist_bindValue (p : Typed.Pattern) (value : Explicit.Expr) (s : Supply) :
    Leaves (Explicit.bindValue p value) s fun lets _ => value.binders.Sublist (Explicit.Expr.letBinders lets) := by
  cases p with
  | var => exact List.sublist_append_left _ _
  | record => exact List.sublist_append_left _ _

end Parts

section Programs

variable {p : Typed.Program} {P : List Plain.Function} {A : Arithmetic F}

/-- Every function of a typed program is one of some plain functions. -/
def Compiled (p : Typed.Program) (P : List Plain.Function) : Prop :=
  ∀ f ∈ p.functions, ∃ f' ∈ P, f'.name = f.name ∧ Opened f.params f.body [] f'.params f'.body

theorem packed {span : Span} {name : Ident} {args : List Ty} {fields : List Typed.FieldInit} {s : Supply}
    {ρ' : Locals F Plain.Code} {vs : List (Value F Typed.Code)}
    (each : Fresh (Explicit.Expr.bindersAll ((Explicit.exprs (fields.map (·.value))).run s).1) ρ' → ∃ vs',
      Plain.EvalAll P A ρ' (Explicit.Expr.plainAll ((Explicit.exprs (fields.map (·.value))).run s).1) vs' ∧
        List.Forall₂ Passes vs vs')
    (fresh : Fresh ((Explicit.expr (.record span name args fields)).run s).1.binders ρ') :
    ∃ v', Plain.Eval P A ρ' ((Explicit.expr (.record span name args fields)).run s).1.plain v' ∧
      Passes (.record (fields.map (·.name)) vs) v' := by
  obtain ⟨names, values⟩ := packFields_exprs fields s
  have made : ((Explicit.expr (.record span name args fields)).run s).1 =
    .pack span name args ((Explicit.packFields fields).run s).1 := rfl
  rw [made, Explicit.Expr.binders, fieldBinders_eq_bindersAll, values] at fresh
  obtain ⟨vs', given, same⟩ := each fresh
  rw [made, Explicit.Expr.plain, Explicit.plainFields_eq, values, names]
  exact ⟨_, .pack given, .record same⟩

theorem enclosed {span : Span} {params : List Typed.Param} {captures : List Typed.Capture} {body : Typed.Expr}
    {s : Supply} {ρ : Locals F Typed.Code} {ρ' : Locals F Plain.Code} {captured : List (Value F Typed.Code)}
    (taken : List.Forall₂ (fun (c : Typed.Capture) v => ρ.lookup c.name.tag = some v) captures captured)
    (agrees : Agrees ρ ρ') (fresh : Fresh ((Explicit.expr (.closure span params captures body)).run s).1.binders ρ') :
    ∃ v', Plain.Eval P A ρ' ((Explicit.expr (.closure span params captures body)).run s).1.plain v' ∧
      Passes (.closure ⟨params, captures, body⟩ captured) v' := by
  obtain ⟨ws, held⟩ : ∃ ws, List.Forall₂ (fun (c : Typed.Capture) w => ρ'.lookup c.name.tag = some w) captures ws ∧
      List.Forall₂ Passes captured ws := by
    clear fresh
    induction taken with
    | nil => exact ⟨[], .nil, .nil⟩
    | cons found _ ih =>
      obtain ⟨w, found', same⟩ := agrees _ _ found
      obtain ⟨ws, held, each⟩ := ih
      exact ⟨w :: ws, .cons found' held, .cons same each⟩
  have seen : captures.map (·.name.tag) ⊆ ρ'.map (·.1) := by
    intro t member
    obtain ⟨c, own, rfl⟩ := List.mem_map.mp member
    obtain ⟨w, -, found⟩ := exists_of_forall₂ held.1.flip c own
    exact mem_tags_of_lookup found
  have names : ((captures.map fun c => Explicit.Capture.mk c.name c.type).map (·.name.tag)) =
      captures.map (·.name.tag) := by rw [List.map_map]; rfl
  refine ⟨_, .closure ?_, .closure ⟨s, _, _, _, _, rfl, rfl, rfl, rfl, fresh.once, ?_⟩ names held.2⟩
  · rw [names, List.forall₂_map_left_iff]
    exact held.1
  · rw [names]
    exact fun t own old => fresh.apart own (seen old)

theorem lets_cons (p : Typed.Pattern) (value : Typed.Expr) (rest : List Typed.Let) (s : Supply) :
    ((Explicit.lets (⟨p, value⟩ :: rest)).run s).1 =
      ((Explicit.bindValue p ((Explicit.expr value).run s).1).run ((Explicit.expr value).run s).2).1 ++
        ((Explicit.lets rest).run
          ((Explicit.bindValue p ((Explicit.expr value).run s).1).run ((Explicit.expr value).run s).2).2).1 := rfl

/-- What is yet to be bound behind bindings, when they have been evaluated. -/
theorem Fresh.later {lets : List Explicit.Let} {tags : List Tag} {ρ' ρ₁' : Locals F Plain.Code}
    (fresh : Fresh (Explicit.Expr.letBinders lets ++ tags) ρ')
    (given : Plain.EvalLets P A ρ' (Explicit.Expr.plainLets lets) ρ₁') : Fresh tags ρ₁' := by
  obtain ⟨front, rfl, added⟩ := given.exists_front
  refine fresh.behind ?_
  rw [added, Explicit.plainLets_tags]
  exact List.reverse_subset.mpr (Explicit.letTags_sublist lets).subset

mutual

/-- Making type arguments explicit keeps the meaning of an expression. -/
theorem eval_passes (all : Compiled p P) {ρ : Locals F Typed.Code} {e : Typed.Expr} {v : Value F Typed.Code} :
    Typed.Eval p A ρ e v → ∀ (s : Supply) (ρ' : Locals F Plain.Code), Agrees ρ ρ' →
      Fresh ((Explicit.expr e).run s).1.binders ρ' →
      ∃ v', Plain.Eval P A ρ' ((Explicit.expr e).run s).1.plain v' ∧ Passes v v'
  | .number, s, ρ', agrees, fresh => ⟨_, .number, .scalar⟩
  | .bool, s, ρ', agrees, fresh => ⟨_, .bool, .scalar⟩
  | .var found, s, ρ', agrees, fresh => by
    obtain ⟨v', found', same⟩ := agrees _ _ found
    exact ⟨v', .var found', same⟩
  | .callDirect known given bound body, s, ρ', agrees, fresh => by
    obtain ⟨vs', given, same⟩ := evalAll_passes all given s ρ' agrees fresh
    obtain ⟨f', member, name, opened⟩ := all _ known
    have closed : Agrees ([] : Locals F Typed.Code) ([] : Locals F Plain.Code) := fun _ _ found => by cases found
    obtain ⟨v', last, alike⟩ := opened.eval bound closed (List.nil_subset _) same (eval_passes all body)
    rw [List.append_nil] at last
    exact ⟨v', name ▸ .callDirect member given (opened.count bound same) last, alike⟩
  | .callClosure (c := c) function given bound body, s, ρ', agrees, fresh => by
    obtain ⟨w, callee, same⟩ := eval_passes all function s ρ' agrees fresh.left
    obtain ⟨vs', given, each⟩ := evalAll_passes all given _ ρ' agrees fresh.right
    cases same with
    | @closure _ c' captured ws opened captures held =>
      have old : (c'.captures.zip ws).map (·.1) ⊆ c'.captures := by
        intro t member
        obtain ⟨e, inside, rfl⟩ := List.mem_map.mp member
        exact (List.of_mem_zip inside).1
      rw [Typed.Code.locals, ← captures] at bound
      obtain ⟨v', last, alike⟩ := opened.eval bound (agrees_zip held) old each (eval_passes all body)
      exact ⟨v', .callClosure callee given (opened.count bound each) last, alike⟩
  | .operation first second, s, ρ', agrees, fresh => by
    obtain ⟨_, first, ⟨⟩⟩ := eval_passes all first s ρ' agrees fresh.left
    obtain ⟨_, second, ⟨⟩⟩ := eval_passes all second _ ρ' agrees fresh.right
    exact ⟨_, .primitive first second, .scalar⟩
  | .record given, s, ρ', agrees, fresh => packed (evalAll_passes all given s ρ' agrees) fresh
  | .block bound last, s, ρ', agrees, fresh => by
    obtain ⟨ρ₁', given, agrees⟩ := evalLets_passes all bound s ρ' agrees fresh.left
    obtain ⟨v', last, same⟩ := eval_passes all last _ ρ₁' agrees (fresh.later given)
    exact ⟨v', .block given last, same⟩
  | .cond (b := b) tested chosen, s, ρ', agrees, fresh => by
    obtain ⟨_, tested, ⟨⟩⟩ := eval_passes all tested s ρ' agrees fresh.left
    have chosen := eval_passes all chosen
    cases b with
    | true =>
      obtain ⟨v', last, same⟩ := chosen _ ρ' agrees fresh.right.left
      exact ⟨v', .cond tested last, same⟩
    | false =>
      obtain ⟨v', last, same⟩ := chosen _ ρ' agrees fresh.right.right
      exact ⟨v', .cond tested last, same⟩
  | .closure taken, s, ρ', agrees, fresh => enclosed taken agrees fresh

theorem evalAll_passes (all : Compiled p P) {ρ : Locals F Typed.Code} {es : List Typed.Expr}
    {vs : List (Value F Typed.Code)} : Typed.EvalAll p A ρ es vs → ∀ (s : Supply) (ρ' : Locals F Plain.Code),
      Agrees ρ ρ' → Fresh (Explicit.Expr.bindersAll ((Explicit.exprs es).run s).1) ρ' →
      ∃ vs', Plain.EvalAll P A ρ' (Explicit.Expr.plainAll ((Explicit.exprs es).run s).1) vs' ∧
        List.Forall₂ Passes vs vs'
  | .nil, s, ρ', agrees, fresh => ⟨[], .nil, .nil⟩
  | .cons first others, s, ρ', agrees, fresh => by
    obtain ⟨v', own, same⟩ := eval_passes all first s ρ' agrees fresh.left
    obtain ⟨vs', rest, each⟩ := evalAll_passes all others _ ρ' agrees fresh.right
    exact ⟨v' :: vs', .cons own rest, .cons same each⟩

theorem evalLets_passes (all : Compiled p P) {ρ ρ₁ : Locals F Typed.Code} {bs : List Typed.Let} :
    Typed.EvalLets p A ρ bs ρ₁ → ∀ (s : Supply) (ρ' : Locals F Plain.Code), Agrees ρ ρ' →
      Fresh (Explicit.Expr.letBinders ((Explicit.lets bs).run s).1) ρ' →
      Supplies P A ((Explicit.lets bs).run s).1 ρ₁ ρ'
  | .nil, s, ρ', agrees, fresh => ⟨ρ', .nil, agrees⟩
  | .cons first bound others, s, ρ', agrees, fresh => by
    rw [lets_cons, Explicit.letBinders_append] at fresh
    obtain ⟨v', value, same⟩ := eval_passes all first s ρ' agrees
      (fresh.left.mono (binders_sublist_bindValue _ _ _))
    obtain ⟨ρ₁', given, agrees⟩ := bindValue_takesApart _ _ _ _ _ _ _ _ bound agrees value same
      (fresh.left.mono (Explicit.letTags_sublist _))
    obtain ⟨ρ₂', given', agrees⟩ := evalLets_passes all others _ ρ₁' agrees (fresh.later given)
    refine ⟨ρ₂', ?_, agrees⟩
    rw [lets_cons, Explicit.plainLets_append]
    exact given.append given'

end

/-- Functions one after the other, each of which is scoped. -/
theorem functions_reach {g : Typed.Globals} {structs : Resolved.Declared} (whole : g.Formed structs)
    {fs : List Typed.Function} {s : Supply} (typed : ∀ f ∈ fs, f.WellTyped g) (once : (fs.flatMap (·.binders)).Nodup)
    (foreign : ∀ t ∈ fs.flatMap (·.binders), t.unit ≠ s.tags.unit) :
    Leaves (fs.mapM Explicit.function) s fun fs' _ => ∀ f ∈ fs, ∃ s₁, ((Explicit.function f).run s₁).1 ∈ fs' ∧
      Leaves (Explicit.function f) s₁ (Explicit.FunctionPassed g s₁ f) := by
  induction fs generalizing s with
  | nil => exact List.forall_mem_nil _
  | cons f rest ih =>
    rw [List.forall_mem_cons] at typed
    simp only [List.flatMap_cons, List.nodup_append', List.mem_append] at once foreign
    have first := Explicit.function_passed whole typed.1 once.1 fun t own => foreign t (Or.inl own)
    have others := ih (s := ((Explicit.function f).run s).2) typed.2 once.2.1 fun t own => by
      rw [first.passed.unit]
      exact foreign t (Or.inr own)
    rw [List.mapM_cons, leaves_bind]
    refine List.forall_mem_cons.mpr ⟨⟨s, List.mem_cons_self, first⟩, fun f' member => ?_⟩
    obtain ⟨s₁, inside, passed⟩ := others f' member
    exact ⟨s₁, List.mem_cons_of_mem _ inside, passed⟩

theorem opened_of_passed {g : Typed.Globals} {f : Typed.Function} {s : Supply}
    (passed : Leaves (Explicit.function f) s (Explicit.FunctionPassed g s f)) :
    ((Explicit.function f).run s).1.plain.name = f.name ∧
      Opened f.params f.body [] ((Explicit.function f).run s).1.plain.params ((Explicit.function f).run s).1.plain.body := by
  obtain ⟨result, params, inside⟩ := passed.inside _ fun _ member => member
  have once := passed.passed.once
  rw [inside.variables_eq rfl, List.map_cons, List.cons_append, List.nodup_cons] at once
  have arguments := (List.append_inj' inside.arguments (by rw [List.length_map])).1
  rw [List.cons.injEq] at arguments
  obtain ⟨-, rfl⟩ := arguments
  rw [Explicit.Function.plain, (inside.split rfl).1, List.drop_succ_cons, List.drop_zero]
  exact ⟨rfl, _, _, _, _, _, rfl, rfl, rfl, rfl, once.2, List.disjoint_nil_right _⟩

/-- Every function of a program that follows the typing rules is one of those that it is passed as. -/
theorem compiled_of_wellTyped {p : Typed.Program} (typed : p.WellTyped) (foreign : p.unit ≠ Tag.syntheticUnit) :
    Compiled p ((Explicit.pass p).functions.map (·.plain)) := by
  have once := typed.once
  have units := typed.unit
  rw [Typed.Program.binders, List.nodup_append', List.nodup_append'] at once
  simp only [Typed.Program.binders, List.mem_append] at units
  have work : Leaves (do
      p.structs.forM fun d => Explicit.addStruct (Explicit.structOf d)
      p.functions.mapM Explicit.function : Explicit.Pass (List Explicit.Function)) {} fun fs _ => ∀ f ∈ p.functions,
        ∃ s, ((Explicit.function f).run s).1 ∈ fs ∧
          Leaves (Explicit.function f) s (Explicit.FunctionPassed p.globals s f) := by
    rw [leaves_bind]
    refine Explicit.addStructs_leaves.imp fun _ s start => functions_reach typed.globals typed.functions once.2.1
      fun t member => ?_
    rw [start, units t (Or.inr member)]
    exact foreign
  intro f member
  obtain ⟨s, known, passed⟩ := work f member
  exact ⟨_, List.mem_map_of_mem known, opened_of_passed passed⟩

end Programs

end Passing

end WitnessLang
