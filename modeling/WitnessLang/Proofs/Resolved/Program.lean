import Mathlib.Data.List.Flatten
import WitnessLang.Proofs.Resolved.Lexical

set_option autoImplicit false

namespace WitnessLang.Resolved

variable {structs : Declared}

section Definitions

variable {r r' : Resolver}

/-- Work that adds no symbols leaves the same names in sight. -/
theorem Extended.sameFrames {binders : List Tag} (extended : Extended structs r r' [] binders) :
    r'.frames = r.frames := by
  obtain ⟨frame, outer, before, after⟩ := extended.frames
  rw [before, after, List.append_nil]

theorem generics_extended {gs : List Surface.Generic} {is : List Ident}
    (ended : Ends (generics gs) r (.ok is) r') (ready : Ready structs r) :
    ∃ symbols, Extended structs r r' symbols (is.map (·.tag)) ∧ symbols.map Symbol.ident = is ∧
      ∀ s ∈ symbols, s.kind = .generic := by
  rw [generics] at ended
  induction gs generalizing r is with
  | nil =>
    obtain ⟨rfl, rfl⟩ := ends_mapM_nil.mp ended
    exact ⟨[], .refl ready, rfl, by simp⟩
  | cons g rest ih =>
    obtain ⟨i, r₁, is, first, others, rfl⟩ := ends_mapM_cons.mp ended
    obtain ⟨extended, rfl⟩ := declare_extended ready first fun struct => by cases struct
    obtain ⟨symbols, extended', idents, kinds⟩ := ih others extended.ready
    refine ⟨_, extended.trans extended', by simp [idents], ?_⟩
    simpa [Resolver.newSymbol] using kinds

/-- What is in sight behind type parameters. -/
theorem inSight_of_generics {symbols : List Symbol} {binders : List Tag}
    (extended : Extended structs r r' symbols binders) (kinds : ∀ s ∈ symbols, s.kind = .generic) :
    genericTags r'.frames ⊆ symbols.map (·.tag) ++ genericTags r.frames ∧
      valueTags r'.frames ⊆ valueTags r.frames := by
  obtain ⟨frame, outer, before, after⟩ := extended.frames
  constructor
  · intro t member
    simp only [genericTags, after, before, List.flatten_cons, List.filter_append,
      List.map_append, List.mem_append, List.mem_map, List.mem_filter] at member ⊢
    grind
  · intro t member
    simp only [valueTags, after, before, List.flatten_cons, List.filter_append,
      List.map_append, List.mem_append, List.mem_map, List.mem_filter] at member ⊢
    rcases member with (old | ⟨s, ⟨new, value⟩, -⟩) | old
    · exact Or.inl old
    · rw [kinds s new] at value
      exact absurd value (by decide)
    · exact Or.inr old

/-- A tag that is used up for a field. -/
theorem extended_fresh (ready : Ready structs r) :
    Extended structs r { r with tags := r.tags.fresh.2 } [] [r.tags.fresh.1] := by
  obtain ⟨frame, outer, split⟩ := List.exists_cons_of_ne_nil ready.opened
  refine ⟨⟨ready.valid.withTags _, ready.opened, ready.unit,
    fun s member => ?_, ready.structs⟩, rfl, by simp [TagSource.fresh],
    ⟨frame, outer, split, ?_⟩, by simp, by simp [TagSource.fresh]⟩
  · rcases ready.tags s member with float | bool | ⟨unit, low⟩
    · exact Or.inl float
    · exact Or.inr (Or.inl bool)
    · exact Or.inr (Or.inr ⟨unit, Nat.lt_succ_of_lt low⟩)
  · rw [List.append_nil, ← split]
    rfl

theorem structFields_extended {fs : List Surface.Field} {fs' : List Field}
    (ended : Ends (structFields fs) r (.ok fs') r') (ready : Ready structs r) :
    Extended structs r r' [] (fs'.map (·.name.tag)) ∧
      (∀ generics, genericTags r.frames ⊆ generics → ∀ f ∈ fs', f.type.Over generics) ∧
      fs'.map (·.name.name) = fs.map (·.name) := by
  induction fs generalizing r fs' with
  | nil =>
    obtain ⟨same, rfl⟩ := ends_pure.mp ended
    obtain rfl := Except.ok.inj same
    exact ⟨.refl ready, by simp, rfl⟩
  | cons f rest ih =>
    rw [structFields, ends_bind_ok] at ended
    obtain ⟨t, r₁, inner, ended⟩ := ended
    obtain ⟨unchanged, within⟩ := typeExpr_over f.type inner ready
    obtain rfl : r = r₁ := unchanged.symm
    rw [ends_get_bind, ends_modify_bind, ends_bind_ok] at ended
    obtain ⟨rest', r₂, inner, ended⟩ := ended
    obtain ⟨same, rfl⟩ := ends_pure.mp ended
    obtain rfl := Except.ok.inj same
    have first := extended_fresh ready
    obtain ⟨extended, overRest, names⟩ := ih inner first.ready
    exact ⟨first.trans extended, fun generics known => List.forall_mem_cons.mpr
      ⟨within generics known, overRest generics known⟩, congrArg (f.name :: ·) names⟩

/-- Structs are scoped where no type parameter is in sight yet. -/
theorem struct_scoped {name : Ident} {s : Surface.Struct} {s' : Struct}
    (ended : Ends (struct name s) r (.ok s') r') (ready : Ready structs r)
    (outside : genericTags r.frames = []) (once : (s.fields.map (·.name)).Nodup) :
    Extended structs r r' [] (s'.generics.map (·.tag) ++ s'.fields.map (·.name.tag)) ∧
      s'.Scoped ∧ s'.name = name ∧ s'.fields.map (·.name.name) = s.fields.map (·.name) := by
  rw [struct] at ended
  obtain ⟨r₁, inside, rfl⟩ := inScope_eq_ok ended
  rw [ends_bind_ok] at inside
  obtain ⟨gs, r₂, inner, inside⟩ := inside
  obtain ⟨symbols, first, rfl, kinds⟩ := generics_extended inner ready.enter
  rw [ends_bind_ok] at inside
  obtain ⟨fs, r₃, inner, inside⟩ := inside
  obtain ⟨second, within, names⟩ := structFields_extended inner first.ready
  obtain ⟨same, rfl⟩ := ends_pure.mp inside
  obtain rfl := Except.ok.inj same
  refine ⟨(first.trans second).leave ready, ⟨names ▸ once, within _ ?_⟩, rfl, names⟩
  have sight := (inSight_of_generics first kinds).1
  simpa [outside, Symbol.ident, List.map_map, Function.comp_def] using sight

/-- Functions are scoped where nothing but definitions is in sight. -/
theorem function_scoped {name : Ident} {f : Surface.Function} {f' : Function}
    (ended : Ends (function name f) r (.ok f') r') (ready : Ready structs r)
    (outside : genericTags r.frames = []) :
    Extended structs r r' [] f'.binders ∧
      (∀ vars, valueTags r.frames ⊆ vars → f'.Scoped structs vars) ∧ f'.name = name := by
  rw [function] at ended
  obtain ⟨r₁, inside, rfl⟩ := inScope_eq_ok ended
  rw [ends_bind_ok] at inside
  obtain ⟨gs, r₂, inner, inside⟩ := inside
  obtain ⟨symbols, first, rfl, kinds⟩ := generics_extended inner ready.enter
  rw [ends_bind_ok] at inside
  obtain ⟨ps, r₃, inner, inside⟩ := inside
  obtain ⟨second, own⟩ := params_step _ inner first.ready
  rw [ends_bind_ok] at inside
  obtain ⟨result, r₄, inner, inside⟩ := inside
  obtain ⟨rfl, overResult⟩ := typeExpr_over _ inner second.ready
  rw [ends_bind_ok] at inside
  obtain ⟨body, r₅, inner, inside⟩ := inside
  obtain ⟨third, lexical⟩ := expr_lexical _ inner second.ready
  obtain ⟨same, rfl⟩ := ends_pure.mp inside
  obtain rfl := Except.ok.inj same
  obtain ⟨knownG, knownV⟩ := inSight_of_generics first kinds
  have knownG : genericTags r₂.frames ⊆ (symbols.map Symbol.ident).map (·.tag) := by
    simpa [outside, Symbol.ident, List.map_map, Function.comp_def] using knownG
  have knownV : valueTags r₂.frames ⊆ valueTags r.frames := by simpa using knownV
  obtain ⟨params, extended, tags, -⟩ := id second
  obtain ⟨none, extended', tags', -⟩ := third
  refine ⟨(first.trans (extended.trans extended')).leave ready, fun vars known => ?_, rfl⟩
  have within := second.genericTags_mono knownG
  exact ⟨own _ knownG, overResult _ within,
    lexical _ _ within (second.valueTags_mono fun _ member => known (knownV member))⟩

end Definitions

section Files

variable {r r' : Resolver}

/-- The kind under which the name of a definition is declared. -/
def itemKind : Surface.Item → SymbolKind
  | .struct _ => .struct
  | .func _ => .function

theorem nodup_of_repeatedField {before : List String} {fields : List Surface.Field}
    (nothing : repeatedField? before fields = none) :
    (fields.map (·.name)).Nodup ∧ ∀ f ∈ fields, f.name ∉ before := by
  induction fields generalizing before with
  | nil => exact ⟨List.nodup_nil, by simp⟩
  | cons f rest ih =>
    rw [repeatedField?] at nothing
    split at nothing
    · cases nothing
    · rename_i fresh
      obtain ⟨once, apart⟩ := ih nothing
      refine ⟨List.nodup_cons.mpr ⟨fun again => ?_, once⟩,
        List.forall_mem_cons.mpr ⟨by simpa using fresh, fun g member old => ?_⟩⟩
      · obtain ⟨g, member, same⟩ := List.mem_map.mp again
        exact apart g member (List.mem_append_right _ (List.mem_singleton.mpr same))
      · exact apart g member (List.mem_append_left _ old)

/-- What is known of a definition once its name is declared. -/
def ItemDeclared (structs : Declared) (name : Ident) : Surface.Item → Prop
  | .struct s => (name.tag, s.fields.map (·.name)) ∈ structs
  | .func _ => True

/-- The fields of a struct bear different names. -/
def ItemDistinct : Surface.Item → Prop
  | .struct s => (s.fields.map (·.name)).Nodup
  | .func _ => True

theorem declareItem_extended {item : Surface.Item} {i : Ident}
    (ended : Ends (declareItem item) r (.ok i) r') (ready : Ready structs r)
    (known : ItemDeclared structs i item) :
    ∃ s : Symbol, Extended structs r r' [s] [i.tag] ∧ s.ident = i ∧ s.kind = itemKind item ∧
      ItemDistinct item := by
  cases item with
  | struct s =>
    rw [declareItem] at ended
    split at ended
    · simp at ended
    · rename_i nothing
      obtain ⟨extended, rfl⟩ := declare_extended ready ended fun _ => known
      exact ⟨_, extended, rfl, rfl, (nodup_of_repeatedField nothing).1⟩
  | func f =>
    obtain ⟨extended, rfl⟩ := declare_extended ready ended fun struct => by cases struct
    exact ⟨_, extended, rfl, rfl, trivial⟩

/-- The definitions of a file are declared in order; the variables among them are functions. -/
theorem declareItems_extended {items : List Surface.Item} {names : List Ident}
    (ended : Ends (items.mapM declareItem) r (.ok names) r') (ready : Ready structs r)
    (known : ∀ n ∈ names.zip items, ItemDeclared structs n.1 n.2) :
    ∃ symbols : List Symbol, Extended structs r r' symbols (names.map (·.tag)) ∧
      names.length = items.length ∧ (∀ s ∈ symbols, s.kind ≠ .generic) ∧
      (∀ s ∈ symbols, KindMask.values.allows s.kind = true →
        s.tag ∈ (functionsOf (names.zip items)).map (·.1.tag)) ∧
      ∀ item ∈ items, ItemDistinct item := by
  induction items generalizing r names with
  | nil =>
    obtain ⟨rfl, rfl⟩ := ends_mapM_nil.mp ended
    exact ⟨[], .refl ready, rfl, by simp, by simp, by simp⟩
  | cons item rest ih =>
    obtain ⟨i, r₁, others, inner, later, rfl⟩ := ends_mapM_cons.mp ended
    rw [List.zip_cons_cons, List.forall_mem_cons] at known
    obtain ⟨s, first, rfl, kind, own⟩ := declareItem_extended inner ready known.1
    obtain ⟨symbols, extended, length, plain, functions, distinct⟩ :=
      ih later first.ready known.2
    refine ⟨s :: symbols, first.trans extended, by simp [length], ?_, ?_,
      List.forall_mem_cons.mpr ⟨own, distinct⟩⟩
    · refine List.forall_mem_cons.mpr ⟨?_, plain⟩
      cases item <;> simp [kind, itemKind] <;> decide
    · refine List.forall_mem_cons.mpr ⟨fun value => ?_, fun s member value => ?_⟩
      · cases item with
        | struct _ =>
          rw [kind, itemKind] at value
          exact absurd value (by decide)
        | func f => simp [functionsOf, Symbol.ident]
      · have old := functions s member value
        cases item with
        | struct _ => exact old
        | func _ => exact List.mem_cons_of_mem _ old

theorem structs_scoped {named : List (Ident × Surface.Struct)} {ss : List Struct}
    (ended : Ends (named.mapM fun (name, s) => struct name s) r (.ok ss) r')
    (ready : Ready structs r) (outside : genericTags r.frames = [])
    (once : ∀ n ∈ named, (n.2.fields.map (·.name)).Nodup) :
    Extended structs r r' []
        (ss.flatMap fun s => s.generics.map (·.tag) ++ s.fields.map (·.name.tag)) ∧
      (∀ s ∈ ss, s.Scoped) ∧
      (ss.map fun s => (s.name, s.fields.map (·.name.name))) =
        named.map fun n => (n.1, n.2.fields.map (·.name)) := by
  induction named generalizing r ss with
  | nil =>
    obtain ⟨rfl, rfl⟩ := ends_mapM_nil.mp ended
    exact ⟨.refl ready, by simp, rfl⟩
  | cons n rest ih =>
    obtain ⟨s, r₁, others, inner, later, rfl⟩ := ends_mapM_cons.mp ended
    rw [List.forall_mem_cons] at once
    obtain ⟨first, own, name, fields⟩ := struct_scoped inner ready outside once.1
    obtain ⟨extended, others, names⟩ :=
      ih later first.ready (by rw [first.sameFrames, outside]) once.2
    exact ⟨first.trans extended, List.forall_mem_cons.mpr ⟨own, others⟩,
      by simp [name, fields, names]⟩

theorem functions_scoped {named : List (Ident × Surface.Function)} {functions : List Function}
    (ended : Ends (named.mapM fun (name, f) => function name f) r (.ok functions) r')
    (ready : Ready structs r) (outside : genericTags r.frames = []) :
    Extended structs r r' [] (functions.flatMap (·.binders)) ∧
      (∀ f ∈ functions, ∀ vars, valueTags r.frames ⊆ vars → f.Scoped structs vars) ∧
      functions.map (·.name) = named.map (·.1) := by
  induction named generalizing r functions with
  | nil =>
    obtain ⟨rfl, rfl⟩ := ends_mapM_nil.mp ended
    exact ⟨.refl ready, by simp, rfl⟩
  | cons n rest ih =>
    obtain ⟨f, r₁, others, inner, later, rfl⟩ := ends_mapM_cons.mp ended
    obtain ⟨first, own, name⟩ := function_scoped inner ready outside
    obtain ⟨extended, others, names⟩ := ih later first.ready (by rw [first.sameFrames, outside])
    rw [first.sameFrames] at others
    exact ⟨first.trans extended, List.forall_mem_cons.mpr ⟨own, others⟩, by simp [name, names]⟩

/-- Structs and functions together are all definitions. -/
theorem structsOf_append_functionsOf (named : List (Ident × Surface.Item)) :
    ((structsOf named).map (·.1) ++ (functionsOf named).map (·.1)).Perm (named.map (·.1)) := by
  induction named with
  | nil => exact .nil
  | cons n rest ih =>
    obtain ⟨name, item⟩ := n
    cases item with
    | struct s => exact ih.cons name
    | func f => exact List.perm_middle.trans (ih.cons name)

theorem intern_symbols (names : List String) (t : SymbolTable) :
    (names.foldl SymbolTable.intern t).scopes = t.scopes ∧
      (names.foldl SymbolTable.intern t).symbols = t.symbols := by
  induction names generalizing t with
  | nil => exact ⟨rfl, rfl⟩
  | cons n rest ih => exact ih (t.intern n)

def builtins : List Symbol :=
  [{ name := "F64", kind := .type, scope := 1, builtin := true, tag := .float },
    { name := "Bool", kind := .type, scope := 1, builtin := true, tag := .bool }]

/-- A table that knows built-in names only, whatever texts it has come across. -/
theorem start_ready {names : List String} {unit : Nat} {span : Span}
    (own : unit ≠ Tag.builtinUnit) :
    Ready structs (.start (names.foldl SymbolTable.intern .start) unit span) ∧
      (Resolver.start (names.foldl SymbolTable.intern .start) unit span).frames = [[], builtins] := by
  generalize table : names.foldl SymbolTable.intern .start = t
  obtain ⟨scopes, symbols⟩ := intern_symbols names .start
  rw [table] at scopes symbols
  have numbers : ∀ scope, t.numbersIn scope = SymbolTable.start.numbersIn scope := by
    intro scope
    simp only [SymbolTable.numbersIn, SymbolTable.scope?, scopes]
  have valid : Resolver.Valid ⟨t, { unit := unit }, [SymbolTable.globalScope]⟩ :=
    Resolver.valid_start scopes symbols _
  have frames : (Resolver.start t unit span).frames = [[], builtins] := by
    rw [Resolver.start, Resolver.frames_enter]
    have same : t.symbolsIn 1 = SymbolTable.start.symbolsIn 1 := by
      simp only [SymbolTable.symbolsIn, numbers]
      congr 1
      funext id
      simp only [SymbolTable.symbol?, symbols]
    simp only [Resolver.frames, List.map_cons, List.map_nil, SymbolTable.globalScope, same]
    rfl
  refine ⟨⟨valid.enter _ _, by simp [frames], own, ?_, ?_⟩, frames⟩
  · rw [frames]
    simp [builtins]
  · rw [frames]
    simp only [builtins, List.flatten_cons, List.flatten_nil, List.nil_append, List.append_nil,
      List.mem_cons, List.not_mem_nil, or_false]
    rintro s (rfl | rfl) struct <;> cases struct

theorem Program.binders_sublist (p : Program) : p.binders.Sublist p.minted :=
  List.Sublist.append_right (List.Sublist.append_left
    (List.Sublist.flatMap_right _ fun _ _ => List.sublist_append_left _ _) _) _

/-- Resolved files are scoped programs, whose declarations have tags of their own. -/
theorem resolve_minted {file : Surface.File} {names : List String} {unit : Nat} {p : Program}
    {table : SymbolTable} (own : unit ≠ Tag.builtinUnit)
    (resolved : resolve file (names.foldl SymbolTable.intern .start) unit = (.ok p, table)) :
    p.Scoped ∧ p.unit = unit ∧ p.minted.Nodup ∧ ∀ t ∈ p.minted, t.unit = unit := by
  generalize begun : Resolver.start (names.foldl SymbolTable.intern .start) unit file.span = r
    at resolved
  have unit₀ : r.tags.unit = unit := by rw [← begun]; rfl
  have ended : ∃ r', Ends (program file.items) r (.ok p) r' := by
    rw [resolve, begun, Prod.mk.injEq] at resolved
    exact ⟨_, Prod.ext resolved.1 rfl⟩
  obtain ⟨r', ended⟩ := ended
  rw [program, ends_bind_ok] at ended
  obtain ⟨idents, r₁, inner, ended⟩ := ended
  let declared : Declared := (structsOf (idents.zip file.items)).map fun n =>
    (n.1.tag, n.2.fields.map (·.name))
  obtain ⟨ready, frames⟩ : Ready declared r ∧ r.frames = [[], builtins] := begun ▸ start_ready own
  have known : ∀ n ∈ idents.zip file.items, ItemDeclared declared n.1 n.2 := by
    rintro ⟨i, item⟩ member
    cases item with
    | struct s =>
      refine List.mem_map.mpr ⟨(i, s), ?_, rfl⟩
      exact List.mem_filterMap.mpr ⟨(i, .struct s), member, rfl⟩
    | func f => trivial
  obtain ⟨symbols, first, length, plain, functions, distinct⟩ :=
    declareItems_extended inner ready known
  have frames₁ : r₁.frames = [symbols, builtins] := by
    obtain ⟨frame, outer, before, after⟩ := first.frames
    rw [frames, List.cons.injEq] at before
    obtain ⟨rfl, rfl⟩ := before
    simpa using after
  have outside : genericTags r₁.frames = [] := by
    simp only [genericTags, frames₁, List.flatten_cons, List.flatten_nil, List.append_nil,
      List.map_eq_nil_iff, List.filter_eq_nil_iff, List.mem_append]
    rintro s (own | builtin)
    · simpa using plain s own
    · simp only [builtins, List.mem_cons, List.not_mem_nil, or_false] at builtin
      rcases builtin with rfl | rfl <;> decide
  have values : valueTags r₁.frames ⊆ (functionsOf (idents.zip file.items)).map (·.1.tag) := by
    intro t member
    simp only [valueTags, frames₁, List.flatten_cons, List.flatten_nil, List.append_nil,
      List.mem_map, List.mem_filter, List.mem_append] at member
    obtain ⟨s, ⟨own | builtin, value⟩, rfl⟩ := member
    · exact functions s own value
    · simp only [builtins, List.mem_cons, List.not_mem_nil, or_false] at builtin
      rcases builtin with rfl | rfl <;> exact absurd value (by decide)
  have once : ∀ n ∈ structsOf (idents.zip file.items), (n.2.fields.map (·.name)).Nodup := by
    intro n member
    obtain ⟨⟨i, item⟩, inside, same⟩ := List.mem_filterMap.mp member
    have own := distinct item (List.of_mem_zip inside).2
    cases item with
    | struct s =>
      obtain rfl := Option.some.inj same
      exact own
    | func f => cases same
  rw [ends_bind_ok] at ended
  obtain ⟨ss, r₂, inner, ended⟩ := ended
  obtain ⟨second, scopedStructs, structFields⟩ := structs_scoped inner first.ready outside once
  have structNames : ss.map (·.name) = (structsOf (idents.zip file.items)).map (·.1) := by
    simpa [Function.comp_def] using congrArg (List.map (·.1)) structFields
  have same : Program.declared ⟨unit, ss, []⟩ = declared := by
    simpa [Program.declared, declared, Function.comp_def] using
      congrArg (List.map fun n => (n.1.tag, n.2)) structFields
  rw [ends_bind_ok] at ended
  obtain ⟨fs, r₃, inner, ended⟩ := ended
  obtain ⟨third, scopedFunctions, functionNames⟩ :=
    functions_scoped inner second.ready (by rw [second.sameFrames, outside])
  rw [ends_get_bind] at ended
  obtain ⟨result, rfl⟩ := ends_pure.mp ended
  obtain rfl := Except.ok.inj result
  have whole := (first.trans second).trans third
  have unit₃ : r'.tags.unit = unit := whole.unit.trans unit₀
  have tags : fs.map (·.name.tag) = (functionsOf (idents.zip file.items)).map (·.1.tag) := by
    simpa [Function.comp_def] using congrArg (List.map (·.tag)) functionNames
  -- all tags were minted in order
  have names : (ss.map (·.name.tag) ++ fs.map (·.name.tag)).Perm (idents.map (·.tag)) := by
    have both := (structsOf_append_functionsOf (idents.zip file.items)).map (·.tag)
    rw [List.map_fst_zip (Nat.le_of_eq length), List.map_append, ← structNames, ← functionNames,
      List.map_map, List.map_map] at both
    exact both
  let q : Program := ⟨r'.tags.unit, ss, fs⟩
  have perm : q.minted.Perm ((idents.map (·.tag) ++ ss.flatMap fun s => s.generics.map (·.tag) ++
      s.fields.map (·.name.tag)) ++ fs.flatMap (·.binders)) := (names.append_right _).append_right _
  have once : q.minted.Nodup := perm.nodup_iff.mpr (whole.sorted.imp fun {t u} lower =>
    ne_of_apply_ne Tag.key (Nat.ne_of_lt lower))
  have units : ∀ t ∈ q.minted, t.unit = unit := fun t member =>
    (whole.range t (perm.mem_iff.mp member)).1.trans unit₀
  refine ⟨⟨scopedStructs, fun f member => ?_, once.sublist q.binders_sublist, fun t member => ?_⟩, unit₃, once, units⟩
  · have scope := scopedFunctions f member (fs.map (·.name.tag)) (by
      rw [second.sameFrames, tags]
      exact values)
    exact same ▸ scope
  · exact (units t (q.binders_sublist.subset member)).trans unit₃.symm

/-- Resolved files are scoped programs. -/
theorem resolve_scoped {file : Surface.File} {names : List String} {unit : Nat} {p : Program}
    {table : SymbolTable} (own : unit ≠ Tag.builtinUnit)
    (resolved : resolve file (names.foldl SymbolTable.intern .start) unit = (.ok p, table)) :
    p.Scoped ∧ p.unit = unit := by
  obtain ⟨inside, same, -⟩ := resolve_minted own resolved
  exact ⟨inside, same⟩

end Files

end WitnessLang.Resolved
