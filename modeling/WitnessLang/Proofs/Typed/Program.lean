import WitnessLang.Proofs.Lists
import WitnessLang.Proofs.Resolved.Program
import WitnessLang.Proofs.Typed.Soundness
import WitnessLang.Proofs.Types.Key

set_option autoImplicit false

namespace WitnessLang.Resolved

/-- A function declares nothing twice, and no tag of a function. -/
theorem Program.Scoped.binders_apart {p : Program} (inside : p.Scoped) {f : Function}
    (member : f ∈ p.functions) :
    f.binders.Nodup ∧ f.binders.Disjoint (p.functions.map (·.name.tag)) := by
  have split := inside.once
  rw [Program.binders, List.nodup_append'] at split
  refine ⟨(List.nodup_flatMap.mp split.2.1).1 f member, fun t left right => ?_⟩
  exact split.2.2 (List.mem_append_left _ (List.mem_append_right _ right))
    (List.mem_flatMap.mpr ⟨f, member, left⟩)

end WitnessLang.Resolved

namespace WitnessLang.Typed

open Bindings
open Resolved (Declared)

/-- The tags that a function declares besides its own. -/
def Function.binders (f : Function) : List Tag :=
  f.generics.map (·.tag) ++
    (f.params.flatMap (fun p => p.pattern.names.map (·.tag)) ++ f.body.binders)

def Function.types (f : Function) : List Ty :=
  f.result :: (f.params.flatMap (fun p => p.type :: p.pattern.types) ++ f.body.types)

structure Function.WellTyped (g : Globals) (f : Function) : Prop where
  formed : ∀ t ∈ f.types, t.Formed g.arity (f.generics.map (·.tag)) []
  params : ∀ p ∈ f.params, p.pattern.Fits g p.type
  body : f.body.WellTyped g (paramScope f.params [])
  result : f.body.type.Alike f.result

def Function.signature (f : Function) : Signature :=
  ⟨f.name, f.generics, f.params.map (·.type), f.result⟩

/-- The definitions that the functions of a program may use. -/
def Program.globals (p : Program) : Globals := ⟨p.structs, p.functions.map (·.signature)⟩

/-- All tags that the definitions of a program declare. -/
def Program.binders (p : Program) : List Tag :=
  (p.structs.map (·.name.tag) ++ p.functions.map (·.name.tag))
    ++ (p.structs.flatMap fun s => s.generics.map (·.tag)) ++ p.functions.flatMap (·.binders)

structure Program.WellTyped (p : Program) : Prop where
  globals : p.globals.Formed (p.structs.map fun s => (s.name.tag, s.fields.map (·.name)))
  functions : ∀ f ∈ p.functions, f.WellTyped p.globals
  once : p.binders.Nodup
  unit : ∀ t ∈ p.binders, t.unit = p.unit

section Functions

variable {structs : Declared} {g : Globals} {generics vars : List Tag} {env : Env}
  {cells : List Cell} {s s' : Progress}

theorem params_sound (whole : g.Formed structs) {ps : List Resolved.Param} {ts : List Ty}
    {ps' : List Param} (ended : Runs (bindParams ps ts) g s (.ok ps') s')
    (length : ts.length = ps.length) (inside : ∀ p ∈ ps, p.pattern.Scoped structs)
    (formed : ∀ t ∈ ts, t.Formed g.arity generics cells) (ready : Ready g generics cells s)
    {behind : List Tag} (site : Site env vars (Resolved.paramTags ps ++ behind) s) :
    ∃ cells', Step g generics cells s (Resolved.paramTags ps) cells' s' ∧
      Site (paramScope ps' env) (Resolved.paramTags ps ++ vars) behind s' ∧
      ps'.map (·.type) = ts ∧
      Inferred g generics (Resolved.paramTags ps) (ps'.flatMap (·.pattern.types))
        (ps'.flatMap fun p => p.pattern.names.map (·.tag))
        (fun f => ∀ p ∈ ps'.map (Param.mapTypes (·.mapCells f)), p.pattern.Fits g p.type) cells'
        s'.bindings := by
  induction ps generalizing env vars cells s ps' ts with
  | nil =>
    obtain rfl := List.length_eq_zero_iff.mp length
    rw [bindParams.eq_2 _ _ (by simp)] at ended
    obtain ⟨same, rfl⟩ := runs_pure.mp ended
    obtain rfl := Except.ok.inj same
    exact ⟨cells, .refl ready, site, rfl, by simp, fun f _ => by simp, by simp, by simp⟩
  | cons p rest ih =>
    obtain ⟨t, ts, rfl⟩ := List.exists_cons_of_length_eq_add_one length
    rw [List.forall_mem_cons] at inside formed
    rw [bindParams, runs_bind_ok] at ended
    obtain ⟨p', s₁, matched, ended⟩ := ended
    rw [runs_bind_ok] at ended
    obtain ⟨others, s₂, later, ended⟩ := ended
    obtain ⟨same, rfl⟩ := runs_pure.mp ended
    obtain rfl := Except.ok.inj same
    rw [Resolved.paramTags, List.flatMap_cons, List.append_assoc] at site
    obtain ⟨cells₁, bound⟩ := pattern_sound whole p.pattern _ cells s p' s₁ matched inside.1 ready
      formed.1 site.left.once
    obtain ⟨cells', second, site', types, there⟩ := ih later (by simpa using length) inside.2
      (fun t member => (formed.2 t member).grow bound.step.cells) bound.step.ready
      (site.bind bound.step bound.scope)
    have apart : p.pattern.tags.Disjoint (Resolved.paramTags rest) := fun _ own member =>
      site.disjoint own (List.mem_append_left _ member)
    refine ⟨cells', bound.step.trans second, site'.congr ?_, by simp [types], ?_⟩
    · intro u
      simp only [Resolved.paramTags, List.flatMap_cons, List.mem_append]
      tauto
    · have all := (bound.found.later second.cells second.bindings).append there apart
      refine ⟨all.formed, fun f solves => ?_, all.within, all.once⟩
      obtain ⟨fits, rest⟩ := all.rules f solves
      exact List.forall_mem_cons.mpr ⟨fits, rest⟩

theorem closed_of_openCell {ts : List Ty} (nothing : openCell? ts = none) :
    ∀ t ∈ ts, t.cells = [] := by
  rw [openCell?, List.head?_eq_none_iff, List.flatMap_eq_nil_iff] at nothing
  exact nothing

structure Checked (g : Globals) (f : Resolved.Function) (sig : Signature) (f' : Function) : Prop where
  signature : f'.signature = ⟨f.name, f.generics, sig.params, sig.result⟩
  wellTyped : f'.WellTyped g
  within : f'.binders ⊆ f.binders
  once : f'.binders.Nodup

theorem checkFunction_sound (whole : g.Formed structs) {f : Resolved.Function} {sig : Signature}
    {functions : List Tag} {f' : Function} (inside : f.Scoped structs functions)
    (length : sig.params.length = f.params.length)
    (formedP : ∀ t ∈ sig.params, t.Formed g.arity (f.generics.map (·.tag)) [])
    (formedR : sig.result.Formed g.arity (f.generics.map (·.tag)) [])
    (once : f.binders.Nodup) (apart : f.binders.Disjoint functions)
    (ended : Runs (checkFunction f sig) g s (.ok f') s') : Checked g f sig f' := by
  rw [checkFunction, runs_modify_bind, runs_bind_ok] at ended
  obtain ⟨params, s₁, declared, ended⟩ := ended
  have ready : Ready g (f.generics.map (·.tag)) [] { minted := s.minted } :=
    ⟨by simp, by simp, ⟨⟨fun _ => 0, by simp [value?]⟩, by simp [value?]⟩, by simp⟩
  have site : Site [] functions (Resolved.paramTags f.params ++ f.body.binders)
      { minted := s.minted } := by
    refine ⟨fun t _ => rfl, fun t bound => ⟨rfl, fun known => ?_⟩,
      (List.nodup_append.mp once).2.1⟩
    exact apart (List.mem_append_right _ bound) known
  obtain ⟨cells₁, first, site₁, types, foundP⟩ := params_sound whole declared length
    (fun p member => (inside.params p member).2) formedP ready site
  rw [runs_bind_ok] at ended
  obtain ⟨body₁, s₂, inferred, ended⟩ := ended
  rw [runs_bind_ok] at ended
  obtain ⟨body, s₃, expected, ended⟩ := ended
  obtain ⟨cells', second, foundB⟩ := expected_sound (infer_sound whole f.body) inferred expected
    inside.body first.ready site₁ (formedR.grow (List.nil_subset _))
  rw [runs_get_bind] at ended
  have foundP := foundP.later second.cells second.bindings
  have all := foundP.append foundB site.disjoint
  -- settling is one of the solutions
  have solves := solves_settle second.ready.sane.acyclic
  have same : s₃.bindings.settle = (·.mapCells fun c => s₃.bindings.settle (.cell c)) :=
    funext (settle_eq_mapCells s₃.bindings)
  have settled : ∀ t, t.Formed g.arity (f.generics.map (·.tag)) cells' →
      (s₃.bindings.settle t).cells = [] →
      (s₃.bindings.settle t).Formed g.arity (f.generics.map (·.tag)) [] := by
    intro t formed closed
    exact (formed_settle second.ready.sane formed).restrict
      (fun p inside => (formed_settle second.ready.sane formed).mem_parameters inside)
      (by simp [closed])
  have kept : ∀ p ∈ params, s₃.bindings.settle p.type = p.type := by
    intro p member
    rw [settle_eq_mapCells, Ty.mapCells_of_closed]
    exact (formedP p.type (types ▸ List.mem_map_of_mem member)).closed
  have again : params.map (fun p => { p with pattern := p.pattern.mapTypes s₃.bindings.settle }) =
      params.map (Param.mapTypes s₃.bindings.settle) := by
    refine List.map_congr_left fun p member => ?_
    rw [Param.mapTypes, kept p member]
  dsimp only at ended
  rw [again] at ended
  split at ended
  · simp at ended
  · rename_i nothing
    have closed := closed_of_openCell nothing
    obtain ⟨done, rfl⟩ := runs_pure.mp ended
    obtain rfl := Except.ok.inj done
    have bound : Function.binders ⟨f.span, f.name, f.generics,
        params.map (Param.mapTypes s'.bindings.settle), sig.result,
        body.mapTypes s'.bindings.settle⟩ = f.generics.map (·.tag) ++
          (params.flatMap (fun p => p.pattern.names.map (·.tag)) ++ body.binders) := by
      simp [Function.binders, Param.mapTypes, List.flatMap_map, Expr.binders_mapTypes]
    refine ⟨?_, ⟨fun t member => ?_, ?_, ?_, ?_⟩, ?_, ?_⟩
    · have same : (params.map (Param.mapTypes s'.bindings.settle)).map (·.type) = sig.params := by
        rw [List.map_map, ← types]
        exact List.map_congr_left kept
      rw [Function.signature, same]
    · simp only [Function.types, List.mem_cons, List.mem_append, List.flatMap_map, List.mem_flatMap,
        Param.mapTypes, Pattern.types_mapTypes] at member
      rcases member with rfl | ⟨p, param, rfl | inside⟩ | inside
      · exact formedR
      · rw [kept p param]
        exact formedP _ (types ▸ List.mem_map_of_mem param)
      · obtain ⟨u, within, rfl⟩ := List.mem_map.mp inside
        refine settled u (foundP.formed u (List.mem_flatMap.mpr ⟨p, param, within⟩)) (closed _ ?_)
        refine List.mem_append_left _ (List.mem_flatMap.mpr ⟨_, List.mem_map_of_mem param, ?_⟩)
        rw [Param.mapTypes, Pattern.types_mapTypes]
        exact inside
      · have last := closed t (List.mem_append_right _ inside)
        rw [same, Expr.types_mapCells] at inside
        obtain ⟨u, within, rfl⟩ := List.mem_map.mp inside
        rw [← settle_eq_mapCells] at last ⊢
        exact settled u (foundB.formed u within) last
    · rw [same]
      exact foundP.rules _ solves
    · rw [same]
      have typed := (foundB.rules _ solves).1
      rwa [Env.fill, ← paramScope_mapTypes] at typed
    · rw [same]
      have alike := (foundB.rules _ solves).2
      rwa [Ty.mapCells_of_closed formedR.closed] at alike
    · rw [bound]
      exact List.append_subset.mpr ⟨List.subset_append_left _ _,
        fun t member => List.mem_append_right _ (all.within member)⟩
    · rw [bound]
      refine List.nodup_append'.mpr ⟨(List.nodup_append.mp once).1, all.once, fun t left right => ?_⟩
      exact List.disjoint_of_nodup_append once left (all.within right)

end Functions

section Programs

theorem inDefinition_eq_ok {α : Type} {name : Ident} {r : Except Fault α} {a : α} :
    inDefinition name r = .ok a ↔ r = .ok a := by
  cases r <;> simp [inDefinition]

theorem structOf_formed {arities : Arities} {s : Resolved.Struct} {s' : Struct}
    (done : structOf arities s = .ok s') (inside : s.Scoped) :
    s'.name = s.name ∧ s'.generics = s.generics ∧
      s'.fields.map (·.name) = s.fields.map (·.name.name) ∧
      ∀ f ∈ s'.fields, f.type.Formed (arityIn arities) (s.generics.map (·.tag)) [] := by
  rw [structOf, Except.bind_eq_ok] at done
  obtain ⟨types, inner, done⟩ := done
  rw [inDefinition_eq_ok] at inner
  obtain rfl := Except.ok.inj done
  have within : Resolved.TypeExpr.OverAll (s.generics.map (·.tag)) (s.fields.map (·.type)) := by
    have each := inside.fields
    generalize s.fields = fields at each
    induction fields with
    | nil => trivial
    | cons f rest ih =>
      rw [List.forall_mem_cons] at each
      exact ⟨each.1, ih each.2⟩
  obtain ⟨formed, length⟩ : (∀ t ∈ types, t.Formed (arityIn arities) (s.generics.map (·.tag)) []) ∧
      types.length = (s.fields.map (·.type)).length := typesOf_formed _ inner within
  rw [List.length_map] at length
  refine ⟨rfl, rfl, ?_, fun f member => ?_⟩
  · rw [List.map_map]
    have firsts := List.map_fst_zip (Nat.le_of_eq length.symm)
    have names := congrArg (List.map fun f : Resolved.Field => f.name.name) firsts
    rw [List.map_map] at names
    exact names
  · obtain ⟨⟨f, t⟩, pair, rfl⟩ := List.mem_map.mp member
    exact formed t (List.of_mem_zip pair).2

theorem signatureOf_formed {arities : Arities} {f : Resolved.Function} {sig : Signature}
    {structs : Declared} {functions : List Tag} (done : signatureOf arities f = .ok sig)
    (inside : f.Scoped structs functions) :
    sig.name = f.name ∧ sig.generics = f.generics ∧ sig.params.length = f.params.length ∧
      (∀ t ∈ sig.params, t.Formed (arityIn arities) (f.generics.map (·.tag)) []) ∧
      sig.result.Formed (arityIn arities) (f.generics.map (·.tag)) [] := by
  rw [signatureOf, Except.bind_eq_ok] at done
  obtain ⟨params, inner, done⟩ := done
  rw [inDefinition_eq_ok] at inner
  rw [Except.bind_eq_ok] at done
  obtain ⟨result, innerR, done⟩ := done
  rw [inDefinition_eq_ok] at innerR
  obtain rfl := Except.ok.inj done
  have within : Resolved.TypeExpr.OverAll (f.generics.map (·.tag)) (f.params.map (·.type)) := by
    have each := inside.params
    generalize f.params = params at each
    induction params with
    | nil => trivial
    | cons p rest ih =>
      rw [List.forall_mem_cons] at each
      exact ⟨each.1.1, ih each.2⟩
  obtain ⟨formed, length⟩ : (∀ t ∈ params, t.Formed (arityIn arities) (f.generics.map (·.tag)) []) ∧
      params.length = (f.params.map (·.type)).length := typesOf_formed _ inner within
  exact ⟨rfl, rfl, by simpa using length, formed, typeOf_formed _ innerR inside.result⟩

/-- A list of results is made item by item. -/
theorem mapM_eq_ok {ε α β : Type} {f : α → Except ε β} {as : List α} {bs : List β} :
    as.mapM f = .ok bs ↔ List.Forall₂ (fun a b => f a = .ok b) as bs := by
  induction as generalizing bs with
  | nil =>
    simp only [List.mapM_nil, List.forall₂_nil_left_iff]
    exact ⟨fun same => (Except.ok.inj same).symm, fun nil => nil ▸ rfl⟩
  | cons a rest ih =>
    rw [List.mapM_cons, Except.bind_eq_ok]
    simp only [Except.bind_eq_ok, ih]
    constructor
    · rintro ⟨b, first, bs', others, same⟩
      obtain rfl := Except.ok.inj same
      exact .cons first others
    · intro all
      cases all with
      | cons first others => exact ⟨_, first, _, others, rfl⟩

theorem checkFunctions_eq_ok {g : Globals} {minted : Nat}
    {fs : List (Resolved.Function × Signature)} {fs' : List Function}
    (done : checkFunctions g minted fs = .ok fs') :
    List.Forall₂ (fun f f' => ∃ s s', Runs (checkFunction f.1 f.2) g s (.ok f') s') fs fs' := by
  induction fs generalizing minted fs' with
  | nil =>
    obtain rfl := Except.ok.inj done
    exact .nil
  | cons f rest ih =>
    obtain ⟨f, sig⟩ := f
    rw [checkFunctions] at done
    generalize run : ((checkFunction f sig).run g).run.run { minted := minted } = outcome at done
    obtain ⟨result, p⟩ := outcome
    simp only [Except.bind_eq_ok] at done
    obtain ⟨f', own, others, later, same⟩ := done
    obtain rfl := Except.ok.inj same
    rw [inDefinition_eq_ok] at own
    subst own
    exact .cons ⟨_, _, run⟩ (ih later)

/-- What the functions of a program may use: its structs, and the signatures that are written. -/
def declarations (p : Resolved.Program) : Except Error Globals := do
  let structs ← p.structs.mapM (structOf (aritiesOf p.structs))
  let signatures ← p.functions.mapM (signatureOf (aritiesOf p.structs))
  return ⟨structs, signatures⟩

/-- The declarations of a program come before its functions are checked. -/
theorem check_eq (p : Resolved.Program) : check p = do
    let g ← declarations p
    let functions ← checkFunctions g 0 (p.functions.zip g.functions)
    return ⟨p.unit, g.structs, functions⟩ := by
  simp only [check, declarations, bind_assoc, pure_bind]

/-- The signature of a function is well formed. -/
structure Signed (g : Globals) (f : Resolved.Function) (sig : Signature) : Prop where
  name : sig.name = f.name
  generics : sig.generics = f.generics
  length : sig.params.length = f.params.length
  params : ∀ t ∈ sig.params, t.Formed g.arity (f.generics.map (·.tag)) []
  result : sig.result.Formed g.arity (f.generics.map (·.tag)) []

structure Declares (p : Resolved.Program) (g : Globals) : Prop where
  whole : g.Formed p.declared
  signed : List.Forall₂ (fun f sig => f.Scoped p.declared (p.functions.map (·.name.tag)) ∧ Signed g f sig)
    p.functions g.functions
  names : g.structs.map (·.name) = p.structs.map (·.name)
  generics : g.structs.map (·.generics) = p.structs.map (·.generics)
  declared : g.structs.map (fun s => (s.name.tag, s.fields.map (·.name))) = p.declared

theorem declarations_declare {p : Resolved.Program} {g : Globals} (inside : p.Scoped)
    (own : p.unit ≠ Tag.builtinUnit) (done : declarations p = .ok g) : Declares p g := by
  rw [declarations, Except.bind_eq_ok] at done
  obtain ⟨structs, madeS, done⟩ := done
  rw [Except.bind_eq_ok] at done
  obtain ⟨signatures, madeF, done⟩ := done
  obtain rfl := Except.ok.inj done
  rw [mapM_eq_ok] at madeS madeF
  have madeS := (List.forall₂_and_left _ _).mpr ⟨inside.structs, madeS⟩
  have names : structs.map (·.name) = p.structs.map (·.name) :=
    map_eq_of_forall₂ madeS fun s s' made => (structOf_formed made.2 made.1).1
  have generics : structs.map (·.generics) = p.structs.map (·.generics) :=
    map_eq_of_forall₂ madeS fun s s' made => (structOf_formed made.2 made.1).2.1
  have declared : structs.map (fun s => (s.name.tag, s.fields.map (·.name))) = p.declared := by
    refine map_eq_of_forall₂ madeS fun s s' made => ?_
    obtain ⟨name, -, fields, -⟩ := structOf_formed made.2 made.1
    rw [name, fields]
  have arities : arityIn (aritiesOf p.structs) = Globals.arity ⟨structs, signatures⟩ := by
    rw [← arityIn_structs]
    congr 1
    refine (map_eq_of_forall₂ madeS fun s s' made => ?_).symm
    obtain ⟨name, generics, -⟩ := structOf_formed made.2 made.1
    rw [name, generics]
  have madeF := (List.forall₂_and_left _ _).mpr ⟨inside.functions, madeF⟩
  have signed : List.Forall₂ (fun f sig => f.Scoped p.declared (p.functions.map (·.name.tag)) ∧
      Signed ⟨structs, signatures⟩ f sig) p.functions signatures := by
    refine madeF.imp fun f sig made => ⟨made.1, ?_⟩
    obtain ⟨name, generics, length, params, result⟩ := signatureOf_formed made.2 made.1
    rw [arities] at params result
    exact ⟨name, generics, length, params, result⟩
  have known : ∀ s ∈ structs, s.name.tag ∈ p.binders := by
    intro s member
    have tag : s.name ∈ p.structs.map (·.name) := names ▸ List.mem_map_of_mem member
    obtain ⟨d, member, same⟩ := List.mem_map.mp tag
    rw [← same]
    simp only [Resolved.Program.binders, List.mem_append, List.mem_map]
    exact Or.inl (Or.inl (Or.inl ⟨d, member, rfl⟩))
  have whole : Globals.Formed p.declared ⟨structs, signatures⟩ := by
    refine ⟨fun s member => ?_, fun s member f field => ?_, fun sig member => ?_,
      fun sig member => ?_, fun s member => ?_, fun d member s struct same => ?_⟩
    · have unit := inside.unit s.name.tag (known s member)
      simpa [Tag.isBuiltin, unit] using own
    · obtain ⟨d, -, made⟩ := exists_of_forall₂ madeS s member
      obtain ⟨-, generics, -, formed⟩ := structOf_formed made.2 made.1
      rw [← arities, generics]
      exact formed f field
    · obtain ⟨f, -, -, made⟩ := exists_of_forall₂ signed sig member
      exact made.generics ▸ made.params
    · obtain ⟨f, -, -, made⟩ := exists_of_forall₂ signed sig member
      exact made.generics ▸ made.result
    · obtain ⟨d, -, made⟩ := exists_of_forall₂ madeS s member
      rw [(structOf_formed made.2 made.1).2.2.1]
      exact made.1.names
    · -- struct tags are distinct, so the declaration is that of the struct
      rw [← declared] at member
      obtain ⟨s', struct', rfl⟩ := List.mem_map.mp member
      have once : (structs.map (·.name.tag)).Nodup := by
        have all := (List.nodup_append.mp (List.nodup_append.mp
          (List.nodup_append.mp inside.once).1).1).1
        have tags := congrArg (List.map (·.tag)) names
        simp only [List.map_map] at tags
        exact tags ▸ all
      rw [List.inj_on_of_nodup_map once struct struct' same]
  exact ⟨whole, signed, names, generics, declared⟩

/-- Checked programs follow the rules. -/
theorem check_sound {p : Resolved.Program} {p' : Program} (inside : p.Scoped)
    (own : p.unit ≠ Tag.builtinUnit) (done : check p = .ok p') :
    p'.WellTyped ∧ p'.unit = p.unit := by
  rw [check_eq, Except.bind_eq_ok] at done
  obtain ⟨⟨structs, signatures⟩, made, done⟩ := done
  rw [Except.bind_eq_ok] at done
  obtain ⟨functions, checked, done⟩ := done
  obtain rfl := Except.ok.inj done
  obtain ⟨whole, signed, names, generics, declared⟩ := declarations_declare inside own made
  dsimp only at checked signed names generics declared
  have paired := List.forall₂_iff_zip.mp signed
  have checkedAll : List.Forall₂
      (fun f f' => Checked ⟨structs, signatures⟩ f.1 f.2 f' ∧ f.2.name = f.1.name ∧
        f.2.generics = f.1.generics) (p.functions.zip signatures) functions := by
    refine ((List.forall₂_and_left _ _).mpr ⟨fun x member => member, checkFunctions_eq_ok checked⟩).imp ?_
    rintro ⟨f, sig⟩ f' ⟨pair, s, s', ended⟩
    obtain ⟨scope, name, generics, length, formedP, formedR⟩ := paired.2 pair
    obtain ⟨once, apart⟩ := inside.binders_apart (List.of_mem_zip pair).1
    exact ⟨checkFunction_sound whole scope length formedP formedR once apart ended, name, generics⟩
  have same : functions.map (·.signature) = signatures := by
    have seconds := List.map_snd_zip (Nat.le_of_eq paired.1.symm)
    rw [← seconds]
    refine map_eq_of_forall₂ checkedAll fun f f' made => ?_
    rw [made.1.signature, ← made.2.1, ← made.2.2]
  have functionNames : functions.map (·.name) = p.functions.map (·.name) := by
    have firsts := List.map_fst_zip (Nat.le_of_eq paired.1)
    rw [← firsts, List.map_map]
    refine map_eq_of_forall₂ checkedAll fun f f' made => ?_
    exact congrArg Signature.name made.1.signature
  have bound := inside.once
  have front : (structs.map (·.name.tag) ++ functions.map (·.name.tag)) ++
      (structs.flatMap fun s => s.generics.map (·.tag)) =
      (p.structs.map (·.name.tag) ++ p.functions.map (·.name.tag)) ++
        (p.structs.flatMap fun s => s.generics.map (·.tag)) := by
    have first := congrArg (List.map (·.tag)) names
    have second := congrArg (List.map (·.tag)) functionNames
    have third := congrArg (List.flatMap fun gs : List Ident => gs.map (·.tag)) generics
    simp only [List.map_map] at first second
    simp only [List.flatMap_map] at third
    exact congrArg₂ _ (congrArg₂ _ first second) third
  have fromZip : (p.functions.zip signatures).flatMap (·.1.binders) =
      p.functions.flatMap (·.binders) := by
    have firsts := List.map_fst_zip (Nat.le_of_eq paired.1)
    conv_rhs => rw [← firsts, List.flatMap_map]
  rw [Resolved.Program.binders, ← front, ← fromZip] at bound
  obtain ⟨once, within⟩ := nodup_append_flatMap bound
    (checkedAll.imp fun _ _ made => ⟨made.1.within, made.1.once⟩)
  have globals : Program.globals ⟨p.unit, structs, functions⟩ = ⟨structs, signatures⟩ := by
    rw [Program.globals, same]
  refine ⟨⟨?_, fun f member => ?_, once, fun t member => inside.unit t ?_⟩, rfl⟩
  · rw [globals, declared]
    exact whole
  · obtain ⟨a, -, made⟩ := exists_of_forall₂ checkedAll f member
    exact globals ▸ made.1.wellTyped
  · rw [Resolved.Program.binders, ← front, ← fromZip]
    rw [Program.binders] at member
    exact (List.mem_append.mp member).elim (fun old => List.mem_append_left _ old)
      fun new => List.mem_append_right _ (within new)

end Programs

def Program.types (p : Program) : List Ty :=
  p.structs.flatMap (fun s => s.fields.map (·.type)) ++ p.functions.flatMap (·.types)

/-- Programs that follow the rules have no cells. -/
theorem Program.WellTyped.closed {p : Program} (typed : p.WellTyped) :
    ∀ t ∈ p.types, t.cells = [] := by
  intro t member
  rcases List.mem_append.mp member with inside | inside
  · obtain ⟨s, struct, inside⟩ := List.mem_flatMap.mp inside
    obtain ⟨f, field, rfl⟩ := List.mem_map.mp inside
    exact (typed.globals.fields s struct f field).closed
  · obtain ⟨f, function, inside⟩ := List.mem_flatMap.mp inside
    exact ((typed.functions f function).formed t inside).closed

/-- Inference is sound: the tree of an accepted file has no cells, and follows the typing
rules. The rules compare types by tags, which for types without cells is to compare their
keys. -/
theorem accepted_sound {file : Surface.File} {names : List String} {unit : Nat}
    {p : Resolved.Program} {table : SymbolTable} {p' : Program} (own : unit ≠ Tag.builtinUnit)
    (resolved : Resolved.resolve file (names.foldl SymbolTable.intern .start) unit = (.ok p, table))
    (accepted : check p = .ok p') :
    (∀ t ∈ p'.types, t.cells = []) ∧ p'.WellTyped ∧
      ∀ t u : Ty, t.cells = [] → u.cells = [] → (t.Alike u ↔ t.key = u.key) := by
  obtain ⟨inside, rfl⟩ := Resolved.resolve_scoped own resolved
  obtain ⟨typed, -⟩ := check_sound inside own accepted
  exact ⟨typed.closed, typed, fun t u closedT closedU =>
    ⟨Ty.Alike.key, Ty.alike_of_key closedT closedU⟩⟩

/-- A file that swaps the halves of a pair, and applies a closure to one of them. -/
def swapFile : Surface.File :=
  let pair (a b : String) : Surface.TypeExpr := .apply {} "Pair" [.named {} a, .named {} b]
  let halves : Surface.Pattern :=
    .record {} "Pair" [⟨{}, "first", .var {} "x"⟩, ⟨{}, "second", .var {} "y"⟩]
  let made (x y : Surface.Expr) : Surface.Expr :=
    .record {} "Pair" {} [⟨{}, "second", y⟩, ⟨{}, "first", x⟩]
  ⟨{}, [
    .struct ⟨{}, "Pair", {}, [⟨{}, "a"⟩, ⟨{}, "b"⟩],
      [⟨{}, "first", .named {} "a"⟩, ⟨{}, "second", .named {} "b"⟩]⟩,
    .func ⟨{}, "swap", {}, [⟨{}, "a"⟩, ⟨{}, "b"⟩], [⟨{}, halves, pair "a" "b"⟩], pair "b" "a",
      made (.var {} "y") (.var {} "x")⟩,
    .func ⟨{}, "shift", {}, [], [⟨{}, .var {} "n", .named {} "F64"⟩], .named {} "F64",
      .block {}
        [⟨{}, .var {} "f", .closure {} [⟨{}, .var {} "z", .named {} "F64"⟩]
          (.operation {} .add (.var {} "z") (.var {} "n"))⟩,
        ⟨{}, halves, .call {} (.var {} "swap") [made (.bool {} true) (.number {} "1" 0)]⟩]
        (.cond {} (.var {} "y") (.call {} (.var {} "f") [.var {} "x"]) (.var {} "n"))⟩]⟩

/-- The checked tree of a file, if it is accepted. -/
def accepted? (file : Surface.File) (unit : Nat) : Option Program :=
  match Resolved.resolve file .start unit with
  | (.ok p, _) => (check p).toOption
  | (.error _, _) => none

theorem swapFile_sound : ∃ p', accepted? swapFile 1 = some p' ∧ (∀ t ∈ p'.types, t.cells = []) ∧
    p'.WellTyped := by
  have taken : (accepted? swapFile 1).isSome = true := by decide +kernel
  obtain ⟨p', same⟩ := Option.isSome_iff_exists.mp taken
  refine ⟨p', same, ?_⟩
  rw [accepted?] at same
  split at same
  · rename_i p table resolved
    have accepted : check p = .ok p' := by
      cases run : check p with
      | ok q => rw [run] at same; rw [Option.some.inj same]
      | error e => rw [run] at same; cases same
    obtain ⟨closed, typed, -⟩ := @accepted_sound _ [] _ _ _ _ (by decide) resolved accepted
    exact ⟨closed, typed⟩
  · cases same

end WitnessLang.Typed
