import WitnessLang.Proofs.Explicit.Expressions
import WitnessLang.Sized.Measure

set_option autoImplicit false

namespace WitnessLang.Explicit

open Typed (Globals)
open Resolved (Declared)

/-- The tags of the type parameters of a function. -/
def Function.parameters (f : Function) : List Tag :=
  (f.arguments.filter (Sized.isWitnessType ·.type)).map (·.name.tag)

/-- The tags of the variables of a function that hold values. -/
def Function.variables (f : Function) : List Tag :=
  (f.arguments.filter (!Sized.isWitnessType ·.type)).map (·.name.tag) ++ f.body.binders

/-- A declared struct is made of its own type parameters. -/
structure Struct.Scoped (arity : Arity) (d : Struct) : Prop where
  once : (tagsOf d.generics).Nodup
  formed : ∀ f ∈ d.fields, f.type.Formed arity (tagsOf d.generics) []
  arity : arity d.name.tag = some d.generics.length

/-- A program that hangs together, where some structs are declared. -/
structure Program.Scoped (arity : Arity) (declared environments : List Struct) (p : Program) :
    Prop where
  structs : p.structs = declared ++ environments
  builders : p.builders = p.structs.map builderOf
  tags : (p.structs.map (·.name.tag)).Nodup
  proper : ∀ d ∈ p.structs, d.name.tag.isBuiltin = false
  basic : arity .float = some 0 ∧ arity .bool = some 0
  names : ∀ tag n, arity tag = some n →
    (tag = .float ∨ tag = .bool) ∧ n = 0 ∨ ∃ d ∈ declared, d.name.tag = tag
  own : ∀ d ∈ declared, d.Scoped arity
  made : ∀ d ∈ environments,
    d.IsEnvironment arity (p.functions.flatMap (·.parameters)) ∧ arity d.name.tag = none
  functions : ∀ f ∈ p.functions, ∃ result params generics,
    f.Scoped arity p.structs result params generics
  once : (p.functions.flatMap (·.variables)).Nodup
  apart : (p.functions.flatMap (·.variables)).Disjoint
    (declared.flatMap (tagsOf ·.generics) ++ p.functions.flatMap (·.parameters))

section Arguments

variable {arity : Arity}

theorem isWitnessType_of_formed (plain : arity .witness = none) {generics : List Tag} {t : Ty}
    (formed : t.Formed arity generics []) : Sized.isWitnessType t = false := by
  cases t with
  | named name args =>
    rw [Sized.isWitnessType, beq_eq_false_iff_ne]
    intro same
    have known := (Ty.formed_named.mp formed).1
    rw [same, plain] at known
    cases known
  | _ => rfl

variable {structs : List Struct} {result : Argument} {params : List Argument}
  {generics : List Ident} {f : Function}

/-- The type parameters of a function are told from the other arguments by their type. -/
theorem Function.Scoped.split (plain : arity .witness = none)
    (inside : f.Scoped arity structs result params generics) :
    f.arguments.filter (!Sized.isWitnessType ·.type) = result :: params ∧
      f.arguments.filter (Sized.isWitnessType ·.type) =
        generics.map (⟨·, Ty.witness, .borrowed⟩) := by
  have values : ∀ a ∈ result :: params, Sized.isWitnessType a.type = false := fun a member =>
    isWitnessType_of_formed plain (inside.formed a member)
  have descriptions : ∀ a ∈ generics.map fun g : Ident => Argument.mk g Ty.witness .borrowed,
      Sized.isWitnessType a.type = true := by
    intro a member
    obtain ⟨g, -, rfl⟩ := List.mem_map.mp member
    rfl
  rw [inside.arguments, List.filter_append, List.filter_append]
  constructor
  · rw [List.filter_eq_self.mpr fun a member => by simp [values a member],
      List.filter_eq_nil_iff.mpr fun a member => by simp [descriptions a member], List.append_nil]
  · rw [List.filter_eq_nil_iff.mpr fun a member => by simp [values a member],
      List.filter_eq_self.mpr fun a member => descriptions a member, List.nil_append]

theorem Function.Scoped.parameters_eq (plain : arity .witness = none)
    (inside : f.Scoped arity structs result params generics) :
    f.parameters = tagsOf generics := by
  rw [Function.parameters, (inside.split plain).2, List.map_map]
  rfl

theorem Function.Scoped.variables_eq (plain : arity .witness = none)
    (inside : f.Scoped arity structs result params generics) :
    f.variables = (result :: params).map (·.name.tag) ++ f.body.binders := by
  rw [Function.variables, (inside.split plain).1]

end Arguments

section Functions

variable {g : Globals} {structs : Declared}

structure FunctionPassed (g : Globals) (s : Supply) (f : Typed.Function) (f' : Function)
    (s' : Supply) : Prop where
  inside : ∀ structs, s'.structs ⊆ structs → ∃ result params,
    f'.Scoped g.arity structs result params f.generics
  parameters : f'.parameters = tagsOf f.generics
  passed : Passed g.arity f'.parameters f.binders s s' f'.variables
  apart : f'.variables.Disjoint f'.parameters

theorem function_passed (whole : g.Formed structs) {f : Typed.Function} {s : Supply}
    (typed : f.WellTyped g) (once : f.binders.Nodup)
    (foreign : ∀ t ∈ f.binders, t.unit ≠ s.tags.unit) :
    Leaves (function f) s (FunctionPassed g s f) := by
  rw [Typed.Function.binders, List.nodup_append', List.nodup_append'] at once
  simp only [Typed.Function.binders, List.mem_append] at foreign
  have formed := typed.formed
  simp only [Typed.Function.types, List.mem_cons, List.mem_append, List.mem_flatMap] at formed
  rw [function, leaves_bind]
  refine (synthetic_passed g.arity (tagsOf f.generics) _).imp fun result s₁ named => ?_
  rw [leaves_bind]
  refine (bindParams_passed g.arity (tagsOf f.generics) (fun p member =>
    (typed.params p member).type) once.2.1.1 fun t own => ?_).imp
    fun made s₂ post => ?_
  · rw [named.unit]
    exact foreign t (Or.inr (Or.inl own))
  obtain ⟨params, unpacked⟩ := made
  obtain ⟨types, conventions, passed, taken⟩ := post
  have entry : Entry g (Typed.paramScope f.params []) (tagsOf f.generics) s₂ f.body := by
    refine ⟨typed.body, once.2.1.2.1, fun t own seen => ?_, fun t own => ?_, fun t inside =>
      typed.formed t ?_⟩
    · exact (Typed.mem_tags_paramScope.mp seen).elim (fun bound => once.2.1.2.2 bound own) (by
        simp [Typed.Env.tags])
    · rw [passed.unit, named.unit]
      exact foreign t (Or.inr (Or.inr own))
    · exact List.mem_cons_of_mem _ (List.mem_append_right _ inside)
  rw [leaves_bind]
  refine (expr_passed whole f.body _ _ s₂ entry).imp fun body s₃ last => ?_
  rw [leaves_pure]
  have inside : ∀ structs, s₃.structs ⊆ structs →
      Function.Scoped g.arity structs ⟨result, f.result, .out⟩ params f.generics
        ⟨f.span, f.name, ⟨result, f.result, .out⟩ :: params
          ++ f.generics.map fun g => ⟨g, Ty.witness, .borrowed⟩, withLets unpacked body⟩ := by
    intro structs more
    refine ⟨rfl, ⟨rfl, conventions⟩, List.forall_mem_cons.mpr ⟨formed _ (Or.inl rfl), fun a member => ?_⟩,
      once.1, ?_, ?_⟩
    · have kind : a.type ∈ f.params.map (·.type) := types ▸ List.mem_map_of_mem member
      obtain ⟨p, member, same⟩ := List.mem_map.mp kind
      exact same ▸ formed p.type (Or.inr (Or.inl ⟨p, member, Or.inl rfl⟩))
    · obtain ⟨boundP, addedP⟩ := taken structs (tagsOf f.generics) (argumentEnv params)
        (fun _ member => member) fun p member t inside =>
          formed t (Or.inr (Or.inl ⟨p, member, Or.inr inside⟩))
      refine scoped_withLets boundP (last.inside structs _ more fun e member => addedP ?_)
      exact Typed.paramScope_mono f.params (List.nil_subset _) member
    · rw [type_withLets, last.type]
      exact typed.result
  have parameters := (inside s₃.structs fun _ member => member).parameters_eq rfl
  have names := (inside s₃.structs fun _ member => member).variables_eq rfl
  have inner := passed.append last.passed once.2.1.2.2 fun t own => by
    rw [named.unit]
    exact foreign t (Or.inr (List.mem_append.mp own))
  have bound := named.append inner (List.disjoint_nil_left _) fun t own =>
    foreign t (Or.inr (List.mem_append.mp own))
  rw [List.append_assoc, ← binders_withLets, List.singleton_append, ← List.cons_append] at bound
  rw [List.map_cons] at names
  rw [← names] at bound
  refine ⟨fun structs more => ⟨_, _, inside structs more⟩, parameters, ?_, ?_⟩
  · rw [parameters]
    exact bound.widen (List.subset_append_right _ _)
  · intro t left right
    rw [parameters] at right
    rcases bound.origin t left with own | minted
    · exact once.2.2 right own
    · exact foreign t (Or.inl right) minted.unit

/-- Functions one after the other. -/
theorem functions_passed (whole : g.Formed structs) {fs : List Typed.Function} {s : Supply}
    (typed : ∀ f ∈ fs, f.WellTyped g) (once : (fs.flatMap (·.binders)).Nodup)
    (foreign : ∀ t ∈ fs.flatMap (·.binders), t.unit ≠ s.tags.unit) :
    Leaves (fs.mapM function) s fun fs' s' =>
      (∀ structs, s'.structs ⊆ structs → ∀ f ∈ fs', ∃ result params generics,
        f.Scoped g.arity structs result params generics) ∧
      Passed g.arity (fs'.flatMap (·.parameters)) (fs.flatMap (·.binders)) s s'
        (fs'.flatMap (·.variables)) ∧
      fs'.flatMap (·.parameters) ⊆ fs.flatMap (·.binders) ∧
      (fs'.flatMap (·.variables)).Disjoint (fs'.flatMap (·.parameters)) := by
  induction fs generalizing s with
  | nil =>
    rw [List.mapM_nil, leaves_pure]
    exact ⟨by simp, Passed.refl _ _ s, by simp, by simp⟩
  | cons f rest ih =>
    rw [List.forall_mem_cons] at typed
    simp only [List.flatMap_cons, List.nodup_append', List.mem_append] at once foreign
    rw [List.mapM_cons, leaves_bind]
    refine (function_passed whole typed.1 once.1 fun t own => foreign t (Or.inl own)).imp
      fun f' s₁ first => ?_
    rw [leaves_bind]
    refine (ih typed.2 once.2.1 fun t own => ?_).imp fun rest' s₂ post => ?_
    · rw [first.passed.unit]
      exact foreign t (Or.inr own)
    obtain ⟨inside, passed, own, apart⟩ := post
    rw [leaves_pure]
    have kept : f'.parameters ⊆ f.binders := by
      rw [first.parameters]
      exact List.subset_append_left _ _
    refine ⟨fun structs more => List.forall_mem_cons.mpr ⟨?_, inside structs more⟩, ?_, ?_, ?_⟩
    · obtain ⟨result, params, scope⟩ := first.inside structs fun d member =>
        more (passed.subset member)
      exact ⟨result, params, f.generics, scope⟩
    · exact (first.passed.more (List.subset_append_left _ _)).append
        (passed.more (List.subset_append_right _ _)) once.2.2 fun t own =>
          foreign t (List.mem_append.mp own)
    · exact List.append_subset.mpr ⟨fun t member => List.mem_append_left _ (kept member),
        fun t member => List.mem_append_right _ (own member)⟩
    · simp only [List.flatMap_cons, List.disjoint_append_left, List.disjoint_append_right]
      refine ⟨⟨first.apart, fun t left right => ?_⟩, fun t left right => ?_, apart⟩
      · rcases passed.origin t left with mine | minted
        · exact once.2.2 (kept right) mine
        · exact foreign t (Or.inl (kept right)) (minted.unit.trans first.passed.unit)
      · rcases first.passed.origin t left with mine | minted
        · exact once.2.2 mine (own right)
        · exact foreign t (Or.inr (own right)) minted.unit

end Functions

/-- A declared struct as it is kept in a program. -/
def structOf (d : Typed.Struct) : Struct :=
  ⟨d.span, d.name, d.generics, d.fields.map fun f => ⟨f.name, f.type⟩⟩

theorem addStructs_leaves {ds : List Typed.Struct} {s : Supply} :
    Leaves (ds.forM fun d => addStruct (structOf d)) s fun _ s' => s' =
      { s with
        structs := s.structs ++ ds.map structOf
        builders := s.builders ++ (ds.map structOf).map builderOf } := by
  induction ds generalizing s with
  | nil =>
    rw [List.forM, leaves_pure]
    simp
  | cons d rest ih =>
    rw [List.forM, addStruct, leaves_modify_bind]
    refine ih.imp fun _ s' same => ?_
    rw [same]
    simp

/-- A program that follows the typing rules is scoped once its type arguments are explicit. -/
theorem pass_scoped {p : Typed.Program} (typed : p.WellTyped)
    (foreign : p.unit ≠ Tag.syntheticUnit) :
    ∃ environments, (pass p).Scoped p.globals.arity (p.structs.map structOf) environments := by
  have split := typed.once
  have units := typed.unit
  rw [Typed.Program.binders, List.nodup_append', List.nodup_append', List.nodup_append'] at split
  simp only [Typed.Program.binders, List.mem_append] at units
  have work : Leaves (do
      p.structs.forM fun d => addStruct (structOf d)
      p.functions.mapM function : Pass (List Function)) {} fun fs s =>
        ∃ environments, (Program.mk p.unit s.structs s.builders fs).Scoped p.globals.arity
          (p.structs.map structOf) environments := by
    rw [leaves_bind]
    refine addStructs_leaves.imp fun _ s₁ start => ?_
    have unit : s₁.tags.unit = Tag.syntheticUnit := by rw [start]
    refine (functions_passed typed.globals typed.functions split.2.1 fun t member => ?_).imp
      fun fs s₂ post => ?_
    · rw [unit, units t (Or.inr member)]
      exact foreign
    obtain ⟨inside, passed, kept, apart⟩ := post
    obtain ⟨environments, structs, builders, once, made⟩ := passed.structs
    have before : s₁.structs = p.structs.map structOf := by simp [start]
    have built : s₁.builders = s₁.structs.map builderOf := by simp [start]
    have source : ∀ d ∈ p.structs, d.name.tag.unit = p.unit := fun d member =>
      units _ (Or.inl (Or.inl (Or.inl (List.mem_map_of_mem member))))
    refine ⟨environments, ⟨by rw [structs, before], ?_, ?_, ?_, ⟨rfl, rfl⟩, ?_, ?_, ?_, ?_, passed.once,
      ?_⟩⟩
    · rw [builders, structs, built, List.map_append]
    · rw [structs, before, List.map_append, List.map_map, List.nodup_append']
      refine ⟨split.1.1.1, once, fun t left right => ?_⟩
      obtain ⟨d, member, rfl⟩ := List.mem_map.mp left
      obtain ⟨e, member', same⟩ := List.mem_map.mp right
      have synthetic := (made e member').1.unit
      rw [same, unit] at synthetic
      exact foreign ((source d member).symm.trans synthetic)
    · intro d member
      rw [structs, before] at member
      rcases List.mem_append.mp member with declared | added
      · obtain ⟨d, struct, rfl⟩ := List.mem_map.mp declared
        exact typed.globals.proper d struct
      · have synthetic := (made d added).1.unit
        rw [unit] at synthetic
        simp [Tag.isBuiltin, synthetic, Tag.syntheticUnit, Tag.builtinUnit]
    · intro tag n known
      simp only [Globals.arity] at known
      split at known
      · split at known
        · rename_i basic
          exact Or.inl ⟨basic, (Option.some.inj known).symm⟩
        · cases known
      · obtain ⟨d, found, -⟩ := Option.map_eq_some_iff.mp known
        refine Or.inr ⟨structOf d, List.mem_map_of_mem (List.mem_of_find?_eq_some found), ?_⟩
        simpa [structOf] using List.find?_some found
    · intro d member
      obtain ⟨d, struct, rfl⟩ := List.mem_map.mp member
      refine ⟨(List.nodup_flatMap.mp split.1.2.1).1 d struct, fun f field => ?_, ?_⟩
      · obtain ⟨f, declared, rfl⟩ := List.mem_map.mp field
        exact typed.globals.fields d struct f declared
      · have found := find?_of_nodup split.1.1.1 struct
        simp [Globals.arity, Typed.Program.globals, structOf, typed.globals.proper d struct, found]
    · intro d member
      refine ⟨(made d member).2, Option.eq_none_iff_forall_not_mem.mpr fun n known => ?_⟩
      have synthetic := (made d member).1.unit
      rw [unit] at synthetic
      simp only [Globals.arity] at known
      split at known
      · split at known
        · rename_i basic
          rcases basic with basic | basic <;> rw [basic] at synthetic <;> cases synthetic
        · cases known
      · obtain ⟨e, found, -⟩ := Option.map_eq_some_iff.mp known
        have same : e.name.tag = d.name.tag := by simpa using List.find?_some found
        have unit := source e (List.mem_of_find?_eq_some found)
        exact foreign (unit.symm.trans (same ▸ synthetic))
    · exact inside s₂.structs fun _ member => member
    · rw [List.disjoint_append_right]
      refine ⟨fun t left right => ?_, apart⟩
      rw [List.flatMap_map] at right
      rcases passed.origin t left with mine | minted
      · exact split.2.2 (List.mem_append_right _ right) mine
      · exact foreign ((units t (Or.inl (Or.inr right))).symm.trans (minted.unit.trans unit))
  exact work

end WitnessLang.Explicit
