import WitnessLang.Proofs.Typed.Binding

set_option autoImplicit false

namespace WitnessLang.Typed

open Bindings
open Resolved (Declared)

section Given

variable {α : Type} (name : α → String) (tags : α → List Tag)

/-- The tags of those items whose names are listed. -/
def givenTags (items : List α) (names : List String) : List Tag :=
  (items.filter fun i => names.contains (name i)).flatMap tags

variable {name tags} {items : List α} {names names' : List String}

theorem mem_givenTags {t : Tag} :
    t ∈ givenTags name tags items names ↔ ∃ i ∈ items, name i ∈ names ∧ t ∈ tags i := by
  simp [givenTags, and_assoc]

theorem givenTags_mono (fewer : names ⊆ names') :
    givenTags name tags items names ⊆ givenTags name tags items names' := by
  intro t member
  obtain ⟨i, item, listed, inside⟩ := mem_givenTags.mp member
  exact mem_givenTags.mpr ⟨i, item, fewer listed, inside⟩

theorem givenTags_subset : givenTags name tags items names ⊆ items.flatMap tags := by
  intro t member
  obtain ⟨i, item, -, inside⟩ := mem_givenTags.mp member
  exact List.mem_flatMap.mpr ⟨i, item, inside⟩

/-- What one item binds is bound by no item of another name. -/
theorem disjoint_givenTags (once : (items.flatMap tags).Nodup) {i : α} (item : i ∈ items)
    (other : name i ∉ names) : (tags i).Disjoint (givenTags name tags items names) := by
  intro t own member
  obtain ⟨j, item', listed, inside⟩ := mem_givenTags.mp member
  have : Std.Symm (Function.onFun List.Disjoint tags) := ⟨fun _ _ apart _ left right => apart right left⟩
  refine (List.nodup_flatMap.mp once).2.forall item item' ?_ own inside
  rintro rfl
  exact other listed

end Given

theorem fieldBinders_lookup {fields : List Resolved.FieldPattern} {n : String}
    (given : n ∈ fields.map (·.name)) :
    ∃ x ∈ fields, x.name = n ∧ (fieldBinders fields).lookup n = some (bindPattern x.pattern) := by
  induction fields with
  | nil => simp at given
  | cons x rest ih =>
    obtain ⟨span, name, p⟩ := x
    rw [fieldBinders, List.lookup_cons]
    by_cases same : n = name
    · exact ⟨_, List.mem_cons_self, same.symm, by simp [same]⟩
    · have other : (n == name) = false := by simpa using same
      obtain ⟨y, member, named, found⟩ := ih (by simpa [same] using given)
      exact ⟨y, List.mem_cons_of_mem _ member, named, by rw [other]; exact found⟩

theorem fieldTags_eq_flatMap (fs : List Resolved.FieldPattern) :
    Resolved.Pattern.fieldTags fs = fs.flatMap (·.pattern.tags) := by
  induction fs with
  | nil => rfl
  | cons x rest ih =>
    cases x
    simp [Resolved.Pattern.fieldTags, ih]

theorem patternFieldsScoped_iff {structs : Declared} {fs : List Resolved.FieldPattern} :
    Resolved.Pattern.FieldsScoped structs fs ↔ ∀ x ∈ fs, x.pattern.Scoped structs := by
  induction fs with
  | nil => simp [Resolved.Pattern.FieldsScoped]
  | cons x rest ih =>
    cases x
    simp [Resolved.Pattern.FieldsScoped, ih]

section Patterns

variable {structs : Declared} {g : Globals} {generics : List Tag}

structure Bound (g : Globals) (generics tags : List Tag) (t : Ty) (cells : List Cell)
    (s : Progress) (p : Pattern) (cells' : List Cell) (s' : Progress) : Prop where
  step : Step g generics cells s tags cells' s'
  scope : s'.vars = p.scope s.vars
  found : Inferred g generics tags p.types (p.names.map (·.tag))
    (fun f => (p.mapTypes (·.mapCells f)).Fits g (t.mapCells f)) cells' s'.bindings

def PatternSound (structs : Declared) (g : Globals) (generics : List Tag) (p : Resolved.Pattern) :
    Prop :=
  ∀ t cells s p' s', Runs (bindPattern p t) g s (.ok p') s' → p.Scoped structs →
    Ready g generics cells s → t.Formed g.arity generics cells → p.tags.Nodup →
      ∃ cells', Bound g generics p.tags t cells s p' cells' s'

/-- Fields that are typed one after the other, in the order of the declaration. -/
theorem bindFields_step {fields : List Resolved.FieldPattern}
    (sound : ∀ x ∈ fields, PatternSound structs g generics x.pattern) {sub : Substitution}
    {declared : List Field} {cells : List Cell} {s s' : Progress} {ps : List FieldPattern}
    (ended : Runs (forFields (fieldBinders fields) (fun f bind => do
      return FieldPattern.mk f.name (← bind (f.type.substitute sub))) declared) g s (.ok ps) s')
    (given : ∀ f ∈ declared, f.name ∈ fields.map (·.name))
    (distinct : (declared.map (·.name)).Nodup)
    (inside : ∀ x ∈ fields, x.pattern.Scoped structs) (ready : Ready g generics cells s)
    (closed : ∀ f ∈ declared, f.type.cells = [])
    (formed : ∀ f ∈ declared, (f.type.substitute sub).Formed g.arity generics cells)
    (once : (fields.flatMap (·.pattern.tags)).Nodup) :
    ∃ cells', Step g generics cells s
        (givenTags (·.name) (·.pattern.tags) fields (declared.map (·.name))) cells' s' ∧
      s'.vars = Pattern.fieldScope ps s.vars ∧
      Inferred g generics (givenTags (·.name) (·.pattern.tags) fields (declared.map (·.name)))
        (Pattern.fieldTypes ps) ((Pattern.fieldNames ps).map (·.tag))
        (fun f => Pattern.FieldsFit g (sub.map fun e => (e.1, e.2.mapCells f))
          (Pattern.mapFieldTypes (·.mapCells f) ps) declared) cells' s'.bindings := by
  induction declared generalizing cells s ps with
  | nil =>
    rw [forFields] at ended
    obtain ⟨same, rfl⟩ := runs_pure.mp ended
    obtain rfl := Except.ok.inj same
    exact ⟨cells, (Step.refl ready).mono (by simp), rfl, by simp, fun f _ => rfl, by simp, by simp⟩
  | cons f rest ih =>
    rw [List.forall_mem_cons] at given formed closed
    rw [List.map_cons, List.nodup_cons] at distinct
    obtain ⟨x, item, named, found⟩ := fieldBinders_lookup given.1
    obtain ⟨b, s₁, others, first, later, rfl⟩ := (forFields_cons found).mp ended
    rw [runs_bind_ok] at first
    obtain ⟨p, s₂, first, done⟩ := first
    obtain ⟨same, rfl⟩ := runs_pure.mp done
    obtain rfl := Except.ok.inj same
    have onceX : x.pattern.tags.Nodup := (List.nodup_flatMap.mp once).1 x item
    obtain ⟨cells₁, bound⟩ :=
      sound x item _ _ _ _ _ first (inside x item) ready formed.1 onceX
    obtain ⟨cells', step, scope, rules⟩ := ih later given.2 distinct.2 bound.step.ready closed.2
      fun f member => (formed.2 f member).grow bound.step.cells
    have apart : x.pattern.tags.Disjoint
        (givenTags (·.name) (·.pattern.tags) fields (rest.map (·.name))) :=
      disjoint_givenTags once item (named ▸ distinct.1)
    have own : x.pattern.tags ⊆ givenTags (·.name) (·.pattern.tags) fields
        (f.name :: rest.map (·.name)) :=
      fun t bound => mem_givenTags.mpr ⟨x, item, named ▸ List.mem_cons_self, bound⟩
    have both := List.append_subset.mpr ⟨own, givenTags_mono (List.subset_cons_self _ _)⟩
    refine ⟨cells', (bound.step.trans step).mono both, ?_, ?_⟩
    · rw [scope, bound.scope, Pattern.fieldScope]
    · have all := (bound.found.later step.cells step.bindings).append rules apart
      refine ⟨?_, fun h solves => ?_, ?_, ?_⟩
      · simpa [Pattern.fieldTypes] using all.formed
      · obtain ⟨fits, rest⟩ := all.rules h solves
        rw [Ty.mapCells_substitute closed.1] at fits
        exact ⟨rfl, fits, rest⟩
      · have within := all.within
        simp only [Pattern.fieldNames, List.map_append]
        exact fun t member => both (within member)
      · simpa [Pattern.fieldNames] using all.once

/-- Patterns are typed as they should be. -/
theorem pattern_sound (whole : g.Formed structs) (p : Resolved.Pattern) :
    PatternSound structs g generics p := by
  induction p with
  | var span name =>
    intro t cells s p' s' ended inside ready formed once
    rw [bindPattern, runs_modify_bind] at ended
    obtain ⟨same, rfl⟩ := runs_pure.mp ended
    obtain rfl := Except.ok.inj same
    refine ⟨cells, ⟨⟨ready.apart, ready.minted, ready.sane,
      List.forall_mem_cons.mpr ⟨formed, ready.vars⟩⟩, fun _ member => member, .refl _, ?_⟩, rfl, ?_⟩
    · intro u outside
      have other : (u == name.tag) = false := by
        simpa [Resolved.Pattern.tags] using outside
      simp [List.lookup_cons, other]
    · refine ⟨by simpa [Pattern.types] using formed, fun f _ => ?_, ?_, ?_⟩
      · simp [Pattern.mapTypes, Pattern.Fits]
      · simp [Pattern.names, Resolved.Pattern.tags]
      · simp [Pattern.names]
  | record span name fields ih =>
    intro t cells s p' s' ended inside ready formed once
    rw [bindPattern, runs_read_bind] at ended
    split at ended
    · rename_i d found
      rw [runs_bind_ok] at ended
      obtain ⟨sub, s₁, minted, ended⟩ := ended
      obtain ⟨cells₁, first, unchanged, tags, formedSub⟩ := instantiate_step minted ready
      rw [runs_bind_ok] at ended
      obtain ⟨u, s₂, unified, ended⟩ := ended
      have length : (sub.map (·.2)).length = d.generics.length := by
        simpa using congrArg List.length tags
      have formedNamed : (Ty.named name (sub.map (·.2))).Formed g.arity generics cells₁ := by
        refine Ty.formed_named.mpr ⟨?_, ?_⟩
        · rw [g.arity_struct whole found, length]
        · intro t member
          obtain ⟨e, known, rfl⟩ := List.mem_map.mp member
          exact formedSub e known
      obtain ⟨second, unchanged', alike⟩ :=
        unify_step unified first.ready formedNamed (formed.grow first.cells)
      rw [runs_bind_ok] at ended
      obtain ⟨ps, s₃, inner, ended⟩ := ended
      obtain ⟨same, rfl⟩ := runs_pure.mp ended
      obtain rfl := Except.ok.inj same
      obtain ⟨member, named⟩ := g.mem_of_struct? found
      obtain ⟨⟨names, listed, -, complete⟩, inside⟩ := inside
      have declared : d.fields.map (·.name) = names := whole.declared _ listed d member named
      rw [Resolved.Pattern.tags, fieldTags_eq_flatMap] at once
      have fieldsFormed : ∀ f ∈ d.fields,
          (f.type.substitute sub).Formed g.arity generics cells₁ := by
        intro f field
        refine (whole.fields d member f field).substitute fun tag known => ?_
        obtain ⟨t, arg, value⟩ := lookup_instantiation length known
        rw [← eq_instantiation tags] at value
        obtain ⟨e, inSub, rfl⟩ := List.mem_map.mp arg
        exact ⟨e.2, value, formedSub e inSub⟩
      obtain ⟨cells', third, scope, rules⟩ := bindFields_step ih inner
        (fun f field => (complete f.name).mpr (declared ▸ List.mem_map_of_mem field))
        (whole.names d member) (patternFieldsScoped_iff.mp inside) second.ready
        (fun f field => (whole.fields d member f field).closed) fieldsFormed once
      have everything : givenTags (·.name) (·.pattern.tags) fields (d.fields.map (·.name)) ⊆
          (Resolved.Pattern.record span name fields).tags := by
        rw [Resolved.Pattern.tags, fieldTags_eq_flatMap]
        exact givenTags_subset
      refine ⟨cells', ((first.trans second).trans third).mono (by simpa using everything), ?_, ?_⟩
      · rw [scope, unchanged', unchanged, Pattern.scope]
      · refine ⟨?_, fun f solves => ?_, fun t bound => everything (rules.within bound), rules.once⟩
        · rw [Pattern.types]
          exact List.forall_mem_cons.mpr
            ⟨formed.grow fun c known => third.cells (first.cells known), rules.formed⟩
        · rw [Pattern.mapTypes, Pattern.Fits]
          refine ⟨rfl, d, found, (sub.map (·.2)).map (·.mapCells f), by simpa using length, ?_, ?_⟩
          · have same := alike f (solves.of_extends third.bindings)
            rwa [Ty.mapCells_named] at same
          · have fits := rules.rules f solves
            rwa [eq_instantiation tags, mapCells_instantiation] at fits
    · simp at ended

end Patterns

end WitnessLang.Typed
