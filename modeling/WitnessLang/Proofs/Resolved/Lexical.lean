import WitnessLang.Proofs.Resolved.Scoped
import WitnessLang.Proofs.Run
import WitnessLang.Proofs.Scope.Frames
import WitnessLang.Resolved.Resolve

set_option autoImplicit false

namespace WitnessLang.Resolved

/-- The tags of the variables among the symbols of some frames. -/
def valueTags (frames : List (List Symbol)) : List Tag :=
  (frames.flatten.filter fun s => KindMask.values.allows s.kind).map (·.tag)

/-- The tags of the type parameters among the symbols of some frames. -/
def genericTags (frames : List (List Symbol)) : List Tag :=
  (frames.flatten.filter fun s => s.kind == .generic).map (·.tag)

/-- A resolver in the middle of a file: every symbol in sight is built in or was declared
under a tag of the file. -/
structure Ready (structs : Declared) (r : Resolver) : Prop where
  valid : r.Valid
  opened : r.frames ≠ []
  unit : r.tags.unit ≠ Tag.builtinUnit
  tags : ∀ s ∈ r.frames.flatten, s.tag = .float ∨ s.tag = .bool ∨
    s.tag.unit = r.tags.unit ∧ s.tag.key < r.tags.next
  structs : ∀ s ∈ r.frames.flatten, s.kind = .struct → (s.tag, s.fields) ∈ structs

/-- Work on a part of a tree: `symbols` are added to the innermost scope, and `binders` are
all tags that were minted, in order. -/
structure Extended (structs : Declared) (r r' : Resolver) (symbols : List Symbol) (binders : List Tag) : Prop where
  ready : Ready structs r'
  unit : r'.tags.unit = r.tags.unit
  later : r.tags.next ≤ r'.tags.next
  frames : ∃ frame outer, r.frames = frame :: outer ∧ r'.frames = (frame ++ symbols) :: outer
  sorted : binders.Pairwise (·.key < ·.key)
  range : ∀ t ∈ binders, t.unit = r.tags.unit ∧ r.tags.next ≤ t.key ∧ t.key < r'.tags.next

/-- Work that adds nothing but the variables `declared`. -/
def Step (structs : Declared) (r r' : Resolver) (declared binders : List Tag) : Prop :=
  ∃ symbols, Extended structs r r' symbols binders ∧ symbols.map (·.tag) = declared ∧
    ∀ s ∈ symbols, KindMask.values.allows s.kind = true

variable {structs : Declared}

section Step

variable {r r' r'' : Resolver} {declared binders more moreBinders : List Tag}
  {symbols moreSymbols : List Symbol}

theorem Extended.refl (ready : Ready structs r) : Extended structs r r [] [] := by
  obtain ⟨frame, outer, frames⟩ := List.exists_cons_of_ne_nil ready.opened
  exact ⟨ready, rfl, Nat.le_refl _, ⟨frame, outer, frames, by simpa using frames⟩, .nil, by simp⟩

theorem Extended.trans (first : Extended structs r r' symbols binders)
    (second : Extended structs r' r'' moreSymbols moreBinders) :
    Extended structs r r'' (symbols ++ moreSymbols) (binders ++ moreBinders) := by
  refine ⟨second.ready, second.unit.trans first.unit, Nat.le_trans first.later second.later, ?_, ?_,
    ?_⟩
  · obtain ⟨frame, outer, before, after⟩ := first.frames
    obtain ⟨frame', outer', before', after'⟩ := second.frames
    rw [after, List.cons.injEq] at before'
    obtain ⟨rfl, rfl⟩ := before'
    exact ⟨frame, outer, before, by simpa using after'⟩
  · rw [List.pairwise_append]
    refine ⟨first.sorted, second.sorted, fun t before u behind => ?_⟩
    have := first.range t before
    have := second.range u behind
    omega
  · intro t member
    have later := first.later
    have later' := second.later
    rcases List.mem_append.mp member with before | behind
    · obtain ⟨unit, low, high⟩ := first.range t before
      exact ⟨unit, low, by omega⟩
    · obtain ⟨unit, low, high⟩ := second.range t behind
      exact ⟨unit.trans first.unit, by omega, high⟩

theorem Step.ready (step : Step structs r r' declared binders) : Ready structs r' := by
  obtain ⟨symbols, extended, -, -⟩ := step
  exact extended.ready

theorem Step.refl (ready : Ready structs r) : Step structs r r [] [] := ⟨[], .refl ready, rfl, by simp⟩

theorem Step.trans (first : Step structs r r' declared binders) (second : Step structs r' r'' more moreBinders) :
    Step structs r r'' (declared ++ more) (binders ++ moreBinders) := by
  obtain ⟨symbols, extended, tags, kinds⟩ := first
  obtain ⟨symbols', extended', tags', kinds'⟩ := second
  refine ⟨symbols ++ symbols', extended.trans extended', by simp [tags, tags'], fun s member => ?_⟩
  exact (List.mem_append.mp member).elim (kinds s) (kinds' s)

/-- What is in sight behind some work: the type parameters from before, and of variables those
from before and those that were declared. -/
theorem Step.inSight (step : Step structs r r' declared binders) :
    genericTags r'.frames ⊆ genericTags r.frames ∧
      valueTags r'.frames ⊆ declared ++ valueTags r.frames := by
  obtain ⟨symbols, extended, rfl, kinds⟩ := step
  obtain ⟨frame, outer, before, after⟩ := extended.frames
  constructor
  · intro t member
    simp only [genericTags, after, before, List.flatten_cons, List.filter_append,
      List.map_append, List.mem_append, List.mem_map, List.mem_filter] at member ⊢
    rcases member with (old | ⟨s, ⟨new, generic⟩, -⟩) | old
    · exact Or.inl old
    · have kind := kinds s new
      rw [eq_of_beq generic] at kind
      exact absurd kind (by decide)
    · exact Or.inr old
  · intro t member
    simp only [valueTags, after, before, List.flatten_cons, List.filter_append,
      List.map_append, List.mem_append, List.mem_map, List.mem_filter] at member ⊢
    grind

theorem Step.genericTags_mono (step : Step structs r r' declared binders) {generics : List Tag}
    (known : genericTags r.frames ⊆ generics) : genericTags r'.frames ⊆ generics :=
  fun _ member => known (step.inSight.1 member)

theorem Step.valueTags_mono (step : Step structs r r' declared binders) {vars : List Tag}
    (known : valueTags r.frames ⊆ vars) : valueTags r'.frames ⊆ declared ++ vars := by
  intro t member
  rcases List.mem_append.mp (step.inSight.2 member) with new | old
  · exact List.mem_append_left _ new
  · exact List.mem_append_right _ (known old)

end Step

section Scopes

variable {r r' : Resolver} {kind : ScopeKind} {span : Span}

theorem Ready.enter (ready : Ready structs r) : Ready structs (r.enter kind span) := by
  have same : (r.enter kind span).frames.flatten = r.frames.flatten := by
    rw [Resolver.frames_enter, List.flatten_cons, List.nil_append]
  exact ⟨ready.valid.enter kind span, by simp [Resolver.frames_enter], ready.unit,
    same ▸ ready.tags, same ▸ ready.structs⟩

@[simp] theorem genericTags_enter :
    genericTags (r.enter kind span).frames = genericTags r.frames := by
  simp [Resolver.frames_enter, genericTags]

@[simp] theorem valueTags_enter : valueTags (r.enter kind span).frames = valueTags r.frames := by
  simp [Resolver.frames_enter, valueTags]

/-- A scope of its own leaves nothing behind but tags that are used up. -/
theorem Extended.leave (ready : Ready structs r) {symbols : List Symbol} {binders : List Tag}
    (inside : Extended structs (r.enter kind span) r' symbols binders) :
    Extended structs r r'.leave [] binders := by
  obtain ⟨frame, outer, before, after⟩ := inside.frames
  rw [Resolver.frames_enter, List.cons.injEq] at before
  obtain ⟨rfl, rfl⟩ := before
  have frames : r'.leave.frames = r.frames := by simp [after]
  obtain ⟨frame, outer, split⟩ := List.exists_cons_of_ne_nil ready.opened
  refine ⟨⟨inside.ready.valid.leave, frames ▸ ready.opened, inside.ready.unit, ?_,
    frames ▸ ready.structs⟩, inside.unit, inside.later,
    ⟨frame, outer, split, by simp [frames, split]⟩, inside.sorted, inside.range⟩
  intro s member
  rw [frames] at member
  refine inside.ready.tags s ?_
  rw [after, List.flatten_cons]
  exact List.mem_append_right _ member

theorem Step.leave (ready : Ready structs r) {declared binders : List Tag}
    (inside : Step structs (r.enter kind span) r' declared binders) : Step structs r r'.leave [] binders := by
  obtain ⟨symbols, extended, -, -⟩ := inside
  exact ⟨[], extended.leave ready, rfl, by simp⟩

theorem inScope_eq_ok {α : Type} {body : Resolve α} {a : α}
    (ended : Ends (inScope kind span body) r (.ok a) r') :
    ∃ r₁, Ends body (r.enter kind span) (.ok a) r₁ ∧ r' = r₁.leave := by
  rw [inScope, ends_modify_bind, ends_bind_ok] at ended
  obtain ⟨result, r₁, inside, ended⟩ := ended
  rw [ends_modify_bind] at ended
  rw [ends_tryCatch] at inside
  cases result with
  | error e => simp at ended
  | ok b =>
    simp only [ends_pure, Except.ok.injEq] at ended
    obtain ⟨rfl, rfl⟩ := ended
    rcases inside with ⟨c, inside, same⟩ | ⟨e, s, -, caught⟩
    · rw [ends_map] at inside
      rcases inside with ⟨b, inside, rfl'⟩ | ⟨e, -, impossible⟩
      · have : c = .ok b := by simpa using rfl'
        subst this
        obtain rfl : a = b := by simpa using same
        exact ⟨r₁, inside, rfl⟩
      · simp at impossible
    · simp at caught

end Scopes

section Names

variable {r r' : Resolver}

/-- Only structs are found where structs are looked for. -/
theorem kind_of_structs {kind : SymbolKind} (allowed : KindMask.structs.allows kind = true) :
    kind = .struct := by
  obtain ⟨n⟩ := kind
  by_cases small : n < 32
  · have every : ∀ k : Fin 32, KindMask.structs.allows ⟨k⟩ = true → (⟨k⟩ : SymbolKind) = .struct := by
      decide
    exact every ⟨n, small⟩ allowed
  · rw [KindMask.allows, SymbolKind.mask, if_neg small] at allowed
    exact absurd allowed (by decide)

theorem symbolAt_eq_ok {id : Nat} {s : Symbol} (ended : Ends (symbolAt id) r (.ok s) r') :
    s = (r.table.symbol? id).getD default ∧ r' = r := by
  rw [symbolAt, ends_get_bind, ends_pure] at ended
  exact ⟨Except.ok.inj ended.1, ended.2⟩

/-- A declaration adds one symbol with a fresh tag to the innermost scope. -/
theorem declare_eq_ok (ready : Ready structs r) {name : String} {span : Span} {kind : SymbolKind}
    {fields : List String} {i : Ident}
    (ended : Ends (declare name span kind fields) r (.ok i) r')
    (known : kind = .struct → (i.tag, fields) ∈ structs) :
    i = (r.newSymbol name span kind fields).ident ∧ Ready structs r' ∧
      r'.tags = { r.tags with next := r.tags.next + 1 } ∧
      ∃ frame outer, r.frames = frame :: outer ∧
        r'.frames = (frame ++ [r.newSymbol name span kind fields]) :: outer := by
  rw [declare, ends_get_bind] at ended
  generalize declared : r.declare name span kind fields = outcome at ended
  obtain ⟨r₁, result⟩ := outcome
  simp only [ends_set_bind] at ended
  cases result with
  | nowhere => simp at ended
  | conflict id =>
    rw [ends_bind_ok] at ended
    obtain ⟨s, r₂, -, ended⟩ := ended
    simp at ended
  | new id =>
    rw [ends_bind_ok] at ended
    obtain ⟨s, r₂, found, ended⟩ := ended
    obtain ⟨rfl, rfl⟩ := symbolAt_eq_ok found
    obtain ⟨same, rfl⟩ := ends_pure.mp ended
    obtain ⟨valid, tags, symbol, frame, outer, before, after⟩ :=
      Resolver.frames_declare ready.valid declared
    rw [symbol] at same
    obtain rfl := Except.ok.inj same
    have sight : ∀ s ∈ r'.frames.flatten,
        s ∈ r.frames.flatten ∨ s = r.newSymbol name span kind fields := by
      intro s member
      rw [after] at member
      simp only [List.flatten_cons, List.append_assoc, List.mem_append, List.mem_singleton] at member
      simp only [before, List.flatten_cons, List.mem_append]
      grind
    refine ⟨rfl, ⟨valid, by simp [after], by simpa [tags] using ready.unit, fun s member => ?_,
      fun s member struct => ?_⟩, tags, frame, outer, before, after⟩
    · rcases sight s member with old | rfl
      · rcases ready.tags s old with float | bool | ⟨unit, low⟩
        · exact Or.inl float
        · exact Or.inr (Or.inl bool)
        · exact Or.inr (Or.inr ⟨by simp [tags, unit], by simp [tags]; omega⟩)
      · exact Or.inr (Or.inr
          ⟨by simp [tags, Resolver.newSymbol], by simp [tags, Resolver.newSymbol]⟩)
    · rcases sight s member with old | rfl
      · exact ready.structs s old struct
      · exact known struct

theorem declare_extended (ready : Ready structs r) {name : String} {span : Span} {kind : SymbolKind}
    {fields : List String} {i : Ident}
    (ended : Ends (declare name span kind fields) r (.ok i) r')
    (known : kind = .struct → (i.tag, fields) ∈ structs) :
    Extended structs r r' [r.newSymbol name span kind fields] [i.tag] ∧
      i = (r.newSymbol name span kind fields).ident := by
  obtain ⟨rfl, ready', tags, frame, outer, before, after⟩ := declare_eq_ok ready ended known
  refine ⟨⟨ready', by simp [tags], by simp [tags], ⟨frame, outer, before, after⟩, by simp, ?_⟩, rfl⟩
  simp [tags, Symbol.ident, Resolver.newSymbol]

theorem declare_step (ready : Ready structs r) {name : String} {span : Span} {kind : SymbolKind}
    {fields : List String} {i : Ident} (value : KindMask.values.allows kind = true)
    (ended : Ends (declare name span kind fields) r (.ok i) r') : Step structs r r' [i.tag] [i.tag] := by
  have variable_ : kind ≠ .struct := by
    rintro rfl
    exact absurd value (by decide)
  obtain ⟨extended, rfl⟩ := declare_extended ready ended fun struct => absurd struct variable_
  exact ⟨_, extended, rfl, by simpa [Resolver.newSymbol] using value⟩

/-- A name that is found stands for a symbol in sight. -/
theorem lookup_eq_ok (valid : r.Valid) {mask : KindMask} {name : String} {span : Span} {cause : Cause} {s : Symbol}
    (ended : Ends (lookup mask name span cause) r (.ok s) r') :
    r' = r ∧ s ∈ r.frames.flatten ∧ s.name = name ∧ mask.allows s.kind = true := by
  rw [lookup, ends_get_bind] at ended
  cases found : r.lookup? mask name with
  | none => simp [found] at ended
  | some id =>
    simp only [found] at ended
    obtain ⟨rfl, rfl⟩ := symbolAt_eq_ok ended
    obtain ⟨s, symbol, inSight, named, allowed⟩ := valid.mem_frames_of_lookup found
    rw [symbol]
    exact ⟨rfl, inSight, named, allowed⟩

theorem checkGiven_eq_ok {declared before : List String} {given : List (String × Span)}
    {u : Unit} (ended : Ends (checkGiven declared before given) r (.ok u) r') :
    r' = r ∧ (given.map (·.1)).Nodup ∧
      ∀ n ∈ given.map (·.1), n ∈ declared ∧ n ∉ before := by
  induction given generalizing before with
  | nil => exact ⟨(ends_pure.mp ended).2, List.nodup_nil, by simp⟩
  | cons g rest ih =>
    obtain ⟨name, span⟩ := g
    rw [checkGiven] at ended
    split at ended
    · simp at ended
    · rename_i known
      split at ended
      · simp at ended
      · rename_i fresh
        obtain ⟨unchanged, once, others⟩ := ih ended
        have own : name ∈ declared ∧ name ∉ before := ⟨by simpa using known, by simpa using fresh⟩
        refine ⟨unchanged, List.nodup_cons.mpr ⟨fun again => ?_, once⟩,
          List.forall_mem_cons.mpr ⟨own, fun n member => ?_⟩⟩
        · exact (others name again).2 (List.mem_append_right _ (List.mem_singleton.mpr rfl))
        · exact ⟨(others n member).1, fun old => (others n member).2 (List.mem_append_left _ old)⟩

/-- Where exactly the fields of a struct in sight are asked for, they are given. -/
theorem checkFields_eq_ok {s : Symbol} {given : List (String × Span)}
    {missing : List String → Cause} {whole : Span} {u : Unit} (ready : Ready structs r)
    (inSight : s ∈ r.frames.flatten) (allowed : KindMask.structs.allows s.kind = true)
    (ended : Ends (checkFields s.fields given missing whole) r (.ok u) r') :
    r' = r ∧ Complete structs s.ident (given.map (·.1)) := by
  rw [checkFields, ends_bind_ok] at ended
  obtain ⟨u', r₁, checked, ended⟩ := ended
  obtain ⟨rfl, once, known⟩ := checkGiven_eq_ok checked
  split at ended
  · simp at ended
  · rename_i nothing
    rw [List.find?_eq_none] at nothing
    refine ⟨(ends_pure.mp ended).2, s.fields, ready.structs s inSight (kind_of_structs allowed), once,
      fun n => ⟨fun member => (known n member).1, fun member => ?_⟩⟩
    simpa using nothing n member

end Names

section Types

/-- The type that a name in sight stands for. -/
theorem over_of_symbol {r : Resolver} (ready : Ready structs r) {s : Symbol}
    (inSight : s ∈ r.frames.flatten) {generics : List Tag}
    (known : genericTags r.frames ⊆ generics) (span : Span) {args : List TypeExpr}
    (within : TypeExpr.OverAll generics args) :
    (if s.kind == .generic then TypeExpr.generic span s.ident args
      else .named span s.ident args).Over generics := by
  split
  · rename_i generic
    rw [TypeExpr.Over]
    exact known (List.mem_map.mpr ⟨s, List.mem_filter.mpr ⟨inSight, generic⟩, rfl⟩)
  · rw [TypeExpr.Over]
    refine ⟨fun builtin => ?_, within⟩
    rcases ready.tags s inSight with float | bool | ⟨unit, -⟩
    · exact Or.inl float
    · exact Or.inr bool
    · refine absurd (unit.symm.trans ?_) ready.unit
      simpa [Tag.isBuiltin, Symbol.ident] using builtin

mutual

theorem typeExpr_over {r r' : Resolver} {t' : TypeExpr} : (t : Surface.TypeExpr) →
    Ends (typeExpr t) r (.ok t') r' → Ready structs r →
      r' = r ∧ ∀ generics, genericTags r.frames ⊆ generics → t'.Over generics
  | .named span name, ended, ready => by
    rw [typeExpr, ends_bind_ok] at ended
    obtain ⟨s, r₁, found, ended⟩ := ended
    obtain ⟨rfl, inSight, -, -⟩ := lookup_eq_ok ready.valid found
    obtain ⟨same, rfl⟩ := ends_pure.mp ended
    obtain rfl := Except.ok.inj same
    refine ⟨rfl, fun generics known => over_of_symbol ready inSight known span ?_⟩
    trivial
  | .apply span name args, ended, ready => by
    rw [typeExpr, ends_bind_ok] at ended
    obtain ⟨s, r₁, found, ended⟩ := ended
    obtain ⟨rfl, inSight, -, -⟩ := lookup_eq_ok ready.valid found
    rw [ends_bind_ok] at ended
    obtain ⟨args', r₂, inner, ended⟩ := ended
    obtain ⟨rfl, within⟩ := typeExprs_over args inner ready
    obtain ⟨same, rfl⟩ := ends_pure.mp ended
    obtain rfl := Except.ok.inj same
    exact ⟨rfl, fun generics known =>
      over_of_symbol ready inSight known span (within generics known)⟩
  | .func span args result, ended, ready => by
    rw [typeExpr, ends_bind_ok] at ended
    obtain ⟨args', r₁, inner, ended⟩ := ended
    obtain ⟨rfl, within⟩ := typeExprs_over args inner ready
    rw [ends_bind_ok] at ended
    obtain ⟨result', r₂, inner, ended⟩ := ended
    obtain ⟨rfl, overResult⟩ := typeExpr_over result inner ready
    obtain ⟨same, rfl⟩ := ends_pure.mp ended
    obtain rfl := Except.ok.inj same
    exact ⟨rfl, fun generics known => ⟨within generics known, overResult generics known⟩⟩

theorem typeExprs_over {r r' : Resolver} {ts' : List TypeExpr} : (ts : List Surface.TypeExpr) →
    Ends (typeExprs ts) r (.ok ts') r' → Ready structs r →
      r' = r ∧ ∀ generics, genericTags r.frames ⊆ generics → TypeExpr.OverAll generics ts'
  | [], ended, _ => by
    obtain ⟨same, rfl⟩ := ends_pure.mp ended
    obtain rfl := Except.ok.inj same
    exact ⟨rfl, fun _ _ => trivial⟩
  | t :: rest, ended, ready => by
    rw [typeExprs, ends_bind_ok] at ended
    obtain ⟨t', r₁, inner, ended⟩ := ended
    obtain ⟨rfl, within⟩ := typeExpr_over t inner ready
    rw [ends_bind_ok] at ended
    obtain ⟨rest', r₂, inner, ended⟩ := ended
    obtain ⟨rfl, overRest⟩ := typeExprs_over rest inner ready
    obtain ⟨same, rfl⟩ := ends_pure.mp ended
    obtain rfl := Except.ok.inj same
    exact ⟨rfl, fun generics known => ⟨within generics known, overRest generics known⟩⟩

end

end Types

section Patterns

variable {kind : SymbolKind}

mutual

theorem pattern_step {r r' : Resolver} {p' : Pattern}
    (value : KindMask.values.allows kind = true) :
    (p : Surface.Pattern) → Ends (pattern kind p) r (.ok p') r' → Ready structs r →
      Step structs r r' p'.tags p'.tags ∧ p'.Scoped structs
  | .var span name, ended, ready => by
    rw [pattern, ends_bind_ok] at ended
    obtain ⟨i, r₁, declared, ended⟩ := ended
    have step := declare_step ready value declared
    obtain ⟨same, rfl⟩ := ends_pure.mp ended
    obtain rfl := Except.ok.inj same
    exact ⟨step, trivial⟩
  | .record span name fields, ended, ready => by
    rw [pattern, ends_bind_ok] at ended
    obtain ⟨s, r₁, found, ended⟩ := ended
    obtain ⟨rfl, inSight, -, allowed⟩ := lookup_eq_ok ready.valid found
    rw [ends_bind_ok] at ended
    obtain ⟨u, r₂, checked, ended⟩ := ended
    obtain ⟨rfl, complete⟩ := checkFields_eq_ok ready inSight allowed checked
    rw [ends_bind_ok] at ended
    obtain ⟨fields', r₃, inner, ended⟩ := ended
    obtain ⟨step, each, names⟩ := fieldPatterns_step value fields inner ready
    obtain ⟨same, rfl⟩ := ends_pure.mp ended
    obtain rfl := Except.ok.inj same
    rw [List.map_map, Function.comp_def, ← names] at complete
    exact ⟨step, complete, each⟩

theorem fieldPatterns_step {r r' : Resolver} {fs' : List FieldPattern}
    (value : KindMask.values.allows kind = true) :
    (fs : List Surface.FieldPattern) → Ends (fieldPatterns kind fs) r (.ok fs') r' →
      Ready structs r → Step structs r r' (Pattern.fieldTags fs') (Pattern.fieldTags fs') ∧
        Pattern.FieldsScoped structs fs' ∧ fs'.map (·.name) = fs.map (·.name)
  | [], ended, ready => by
    obtain ⟨same, rfl⟩ := ends_pure.mp ended
    obtain rfl := Except.ok.inj same
    exact ⟨.refl ready, trivial, rfl⟩
  | ⟨span, name, p⟩ :: rest, ended, ready => by
    rw [fieldPatterns, ends_bind_ok] at ended
    obtain ⟨p', r₁, inner, ended⟩ := ended
    obtain ⟨first, own⟩ := pattern_step value p inner ready
    rw [ends_bind_ok] at ended
    obtain ⟨rest', r₂, inner, ended⟩ := ended
    obtain ⟨second, others, names⟩ := fieldPatterns_step value rest inner first.ready
    obtain ⟨same, rfl⟩ := ends_pure.mp ended
    obtain rfl := Except.ok.inj same
    exact ⟨first.trans second, ⟨own, others⟩, congrArg (name :: ·) names⟩

end

theorem params_step (ps : List Surface.Param) {r r' : Resolver} {ps' : List Param}
    (ended : Ends (params ps) r (.ok ps') r') (ready : Ready structs r) :
    Step structs r r' (paramTags ps') (paramTags ps') ∧
      ∀ generics, genericTags r.frames ⊆ generics →
        ∀ p ∈ ps', p.type.Over generics ∧ p.pattern.Scoped structs := by
  induction ps generalizing r r' ps' with
  | nil =>
    obtain ⟨same, rfl⟩ := ends_pure.mp ended
    obtain rfl := Except.ok.inj same
    exact ⟨.refl ready, by simp⟩
  | cons p rest ih =>
    rw [params, ends_bind_ok] at ended
    obtain ⟨t, r₁, inner, ended⟩ := ended
    obtain ⟨rfl, within⟩ := typeExpr_over p.type inner ready
    rw [ends_bind_ok] at ended
    obtain ⟨q, r₂, inner, ended⟩ := ended
    obtain ⟨first, own⟩ := pattern_step (by decide) p.pattern inner ready
    rw [ends_bind_ok] at ended
    obtain ⟨rest', r₃, inner, ended⟩ := ended
    obtain ⟨second, overRest⟩ := ih inner first.ready
    obtain ⟨same, rfl⟩ := ends_pure.mp ended
    obtain rfl := Except.ok.inj same
    refine ⟨first.trans second, fun generics known => List.forall_mem_cons.mpr
      ⟨⟨within generics known, own⟩, overRest generics (first.genericTags_mono known)⟩⟩

end Patterns

def Lexical (structs : Declared) (r r' : Resolver) (e : Expr) : Prop :=
  Step structs r r' [] e.binders ∧ ∀ generics vars, genericTags r.frames ⊆ generics →
    valueTags r.frames ⊆ vars → e.Scoped structs generics vars

/-- Work that declares nothing leaves everything in sight. -/
theorem Step.sameSight {r r' : Resolver} {binders : List Tag} (step : Step structs r r' [] binders)
    {generics vars : List Tag} (knownG : genericTags r.frames ⊆ generics)
    (knownV : valueTags r.frames ⊆ vars) :
    genericTags r'.frames ⊆ generics ∧ valueTags r'.frames ⊆ vars :=
  ⟨step.genericTags_mono knownG, step.valueTags_mono knownV⟩

mutual

theorem expr_lexical {r r' : Resolver} {e' : Expr} : (e : Surface.Expr) →
    Ends (expr e) r (.ok e') r' → Ready structs r → Lexical structs r r' e'
  | .number span text bits, ended, ready => by
    obtain ⟨same, rfl⟩ := ends_pure.mp ended
    obtain rfl := Except.ok.inj same
    exact ⟨.refl ready, fun _ _ _ _ => trivial⟩
  | .bool span value, ended, ready => by
    obtain ⟨same, rfl⟩ := ends_pure.mp ended
    obtain rfl := Except.ok.inj same
    exact ⟨.refl ready, fun _ _ _ _ => trivial⟩
  | .var span name, ended, ready => by
    rw [expr, ends_bind_ok] at ended
    obtain ⟨s, r₁, found, ended⟩ := ended
    obtain ⟨rfl, inSight, -, allowed⟩ := lookup_eq_ok ready.valid found
    obtain ⟨same, rfl⟩ := ends_pure.mp ended
    obtain rfl := Except.ok.inj same
    refine ⟨.refl ready, fun generics vars _ known => known ?_⟩
    exact List.mem_map.mpr ⟨s, List.mem_filter.mpr ⟨inSight, allowed⟩, rfl⟩
  | .call span callee args, ended, ready => by
    rw [expr, ends_bind_ok] at ended
    obtain ⟨callee', r₁, inner, ended⟩ := ended
    obtain ⟨first, one⟩ := expr_lexical callee inner ready
    rw [ends_bind_ok] at ended
    obtain ⟨args', r₂, inner, ended⟩ := ended
    obtain ⟨second, others⟩ := exprs_lexical args inner first.ready
    obtain ⟨same, rfl⟩ := ends_pure.mp ended
    obtain rfl := Except.ok.inj same
    refine ⟨first.trans second, fun generics vars knownG knownV => ⟨one _ _ knownG knownV, ?_⟩⟩
    obtain ⟨knownG, knownV⟩ := first.sameSight knownG knownV
    exact others _ _ knownG knownV
  | .operation span op left right, ended, ready => by
    rw [expr, ends_bind_ok] at ended
    obtain ⟨left', r₁, inner, ended⟩ := ended
    obtain ⟨first, one⟩ := expr_lexical left inner ready
    rw [ends_bind_ok] at ended
    obtain ⟨right', r₂, inner, ended⟩ := ended
    obtain ⟨second, two⟩ := expr_lexical right inner first.ready
    obtain ⟨same, rfl⟩ := ends_pure.mp ended
    obtain rfl := Except.ok.inj same
    refine ⟨first.trans second, fun generics vars knownG knownV => ⟨one _ _ knownG knownV, ?_⟩⟩
    obtain ⟨knownG, knownV⟩ := first.sameSight knownG knownV
    exact two _ _ knownG knownV
  | .record span name nameSpan fields, ended, ready => by
    rw [expr, ends_bind_ok] at ended
    obtain ⟨s, r₁, found, ended⟩ := ended
    obtain ⟨rfl, inSight, -, allowed⟩ := lookup_eq_ok ready.valid found
    rw [ends_bind_ok] at ended
    obtain ⟨u, r₂, checked, ended⟩ := ended
    obtain ⟨rfl, complete⟩ := checkFields_eq_ok ready inSight allowed checked
    rw [ends_bind_ok] at ended
    obtain ⟨fields', r₃, inner, ended⟩ := ended
    obtain ⟨step, each, names⟩ := fieldInits_lexical fields inner ready
    obtain ⟨same, rfl⟩ := ends_pure.mp ended
    obtain rfl := Except.ok.inj same
    rw [List.map_map, Function.comp_def, ← names] at complete
    exact ⟨step, fun generics vars knownG knownV => ⟨complete, each _ _ knownG knownV⟩⟩
  | .block span bs result, ended, ready => by
    rw [expr] at ended
    obtain ⟨r₁, inside, rfl⟩ := inScope_eq_ok ended
    rw [ends_bind_ok] at inside
    obtain ⟨bs', r₂, inner, inside⟩ := inside
    obtain ⟨declared, first, each⟩ := lets_lexical bs inner ready.enter
    rw [ends_bind_ok] at inside
    obtain ⟨result', r₃, inner, inside⟩ := inside
    obtain ⟨second, last⟩ := expr_lexical result inner first.ready
    obtain ⟨same, rfl⟩ := ends_pure.mp inside
    obtain rfl := Except.ok.inj same
    refine ⟨(first.trans second).leave ready, fun generics vars knownG knownV => ?_⟩
    obtain ⟨bound, knownV⟩ := each generics vars (by simpa using knownG) (by simpa using knownV)
    exact ⟨bound, last _ _ (first.genericTags_mono (by simpa using knownG)) knownV⟩
  | .annotated span value type, ended, ready => by
    rw [expr, ends_bind_ok] at ended
    obtain ⟨value', r₁, inner, ended⟩ := ended
    obtain ⟨step, one⟩ := expr_lexical value inner ready
    rw [ends_bind_ok] at ended
    obtain ⟨type', r₂, inner, ended⟩ := ended
    obtain ⟨rfl, within⟩ := typeExpr_over type inner step.ready
    obtain ⟨same, rfl⟩ := ends_pure.mp ended
    obtain rfl := Except.ok.inj same
    exact ⟨step, fun generics vars knownG knownV =>
      ⟨one _ _ knownG knownV, within _ (step.genericTags_mono knownG)⟩⟩
  | .case span scrutinee as, ended, ready => by
    rw [expr, ends_bind_ok] at ended
    obtain ⟨scrutinee', r₁, inner, ended⟩ := ended
    obtain ⟨first, one⟩ := expr_lexical scrutinee inner ready
    rw [ends_bind_ok] at ended
    obtain ⟨as', r₂, inner, ended⟩ := ended
    obtain ⟨second, each⟩ := arms_lexical as inner first.ready
    obtain ⟨same, rfl⟩ := ends_pure.mp ended
    obtain rfl := Except.ok.inj same
    refine ⟨first.trans second, fun generics vars knownG knownV => ⟨one _ _ knownG knownV, ?_⟩⟩
    obtain ⟨knownG, knownV⟩ := first.sameSight knownG knownV
    exact each _ _ knownG knownV
  | .cond span test yes no, ended, ready => by
    rw [expr, ends_bind_ok] at ended
    obtain ⟨test', r₁, inner, ended⟩ := ended
    obtain ⟨first, one⟩ := expr_lexical test inner ready
    rw [ends_bind_ok] at ended
    obtain ⟨yes', r₂, inner, ended⟩ := ended
    obtain ⟨second, two⟩ := expr_lexical yes inner first.ready
    rw [ends_bind_ok] at ended
    obtain ⟨no', r₃, inner, ended⟩ := ended
    obtain ⟨third, three⟩ := expr_lexical no inner second.ready
    obtain ⟨same, rfl⟩ := ends_pure.mp ended
    obtain rfl := Except.ok.inj same
    refine ⟨first.trans (second.trans third), fun generics vars knownG knownV => ?_⟩
    obtain ⟨knownG₁, knownV₁⟩ := first.sameSight knownG knownV
    obtain ⟨knownG₂, knownV₂⟩ := second.sameSight knownG₁ knownV₁
    exact ⟨one _ _ knownG knownV, two _ _ knownG₁ knownV₁, three _ _ knownG₂ knownV₂⟩
  | .closure span ps body, ended, ready => by
    rw [expr] at ended
    obtain ⟨r₁, inside, rfl⟩ := inScope_eq_ok ended
    rw [ends_bind_ok] at inside
    obtain ⟨ps', r₂, inner, inside⟩ := inside
    obtain ⟨first, within⟩ := params_step ps inner ready.enter
    rw [ends_bind_ok] at inside
    obtain ⟨body', r₃, inner, inside⟩ := inside
    obtain ⟨second, last⟩ := expr_lexical body inner first.ready
    obtain ⟨same, rfl⟩ := ends_pure.mp inside
    obtain rfl := Except.ok.inj same
    refine ⟨(first.trans second).leave ready, fun generics vars knownG knownV => ?_⟩
    have knownG : genericTags (r.enter .closure span).frames ⊆ generics := by simpa using knownG
    have knownV : valueTags (r.enter .closure span).frames ⊆ vars := by simpa using knownV
    exact ⟨within generics knownG,
      last _ _ (first.genericTags_mono knownG) (first.valueTags_mono knownV)⟩

theorem exprs_lexical {r r' : Resolver} {es' : List Expr} : (es : List Surface.Expr) →
    Ends (exprs es) r (.ok es') r' → Ready structs r →
      Step structs r r' [] (Expr.bindersAll es') ∧ ∀ generics vars, genericTags r.frames ⊆ generics →
        valueTags r.frames ⊆ vars → Expr.ScopedAll structs generics vars es'
  | [], ended, ready => by
    obtain ⟨same, rfl⟩ := ends_pure.mp ended
    obtain rfl := Except.ok.inj same
    exact ⟨.refl ready, fun _ _ _ _ => trivial⟩
  | e :: rest, ended, ready => by
    rw [exprs, ends_bind_ok] at ended
    obtain ⟨e', r₁, inner, ended⟩ := ended
    obtain ⟨first, one⟩ := expr_lexical e inner ready
    rw [ends_bind_ok] at ended
    obtain ⟨rest', r₂, inner, ended⟩ := ended
    obtain ⟨second, others⟩ := exprs_lexical rest inner first.ready
    obtain ⟨same, rfl⟩ := ends_pure.mp ended
    obtain rfl := Except.ok.inj same
    refine ⟨first.trans second, fun generics vars knownG knownV => ⟨one _ _ knownG knownV, ?_⟩⟩
    obtain ⟨knownG, knownV⟩ := first.sameSight knownG knownV
    exact others _ _ knownG knownV

theorem fieldInits_lexical {r r' : Resolver} {fs' : List FieldInit} :
    (fs : List Surface.FieldInit) → Ends (fieldInits fs) r (.ok fs') r' → Ready structs r →
      Step structs r r' [] (Expr.fieldBinders fs') ∧
        (∀ generics vars, genericTags r.frames ⊆ generics → valueTags r.frames ⊆ vars →
          Expr.FieldsScoped structs generics vars fs') ∧
        fs'.map (·.name) = fs.map (·.name)
  | [], ended, ready => by
    obtain ⟨same, rfl⟩ := ends_pure.mp ended
    obtain rfl := Except.ok.inj same
    exact ⟨.refl ready, fun _ _ _ _ => trivial, rfl⟩
  | ⟨span, name, value⟩ :: rest, ended, ready => by
    rw [fieldInits, ends_bind_ok] at ended
    obtain ⟨value', r₁, inner, ended⟩ := ended
    obtain ⟨first, one⟩ := expr_lexical value inner ready
    rw [ends_bind_ok] at ended
    obtain ⟨rest', r₂, inner, ended⟩ := ended
    obtain ⟨second, others, names⟩ := fieldInits_lexical rest inner first.ready
    obtain ⟨same, rfl⟩ := ends_pure.mp ended
    obtain rfl := Except.ok.inj same
    refine ⟨first.trans second, fun generics vars knownG knownV => ⟨one _ _ knownG knownV, ?_⟩,
      congrArg (name :: ·) names⟩
    obtain ⟨knownG, knownV⟩ := first.sameSight knownG knownV
    exact others _ _ knownG knownV

theorem lets_lexical {r r' : Resolver} {bs' : List Let} : (bs : List Surface.Let) →
    Ends (lets bs) r (.ok bs') r' → Ready structs r →
      ∃ declared, Step structs r r' declared (Expr.letBinders bs') ∧
        ∀ generics vars, genericTags r.frames ⊆ generics → valueTags r.frames ⊆ vars →
          Expr.LetsScoped structs generics vars bs' ∧ valueTags r'.frames ⊆ bindLets vars bs'
  | [], ended, ready => by
    obtain ⟨same, rfl⟩ := ends_pure.mp ended
    obtain rfl := Except.ok.inj same
    exact ⟨[], .refl ready, fun _ _ _ knownV => ⟨trivial, knownV⟩⟩
  | ⟨span, p, value⟩ :: rest, ended, ready => by
    rw [lets, ends_bind_ok] at ended
    obtain ⟨value', r₁, inner, ended⟩ := ended
    obtain ⟨first, one⟩ := expr_lexical value inner ready
    rw [ends_bind_ok] at ended
    obtain ⟨p', r₂, inner, ended⟩ := ended
    obtain ⟨second, own⟩ := pattern_step (by decide) p inner first.ready
    rw [ends_bind_ok] at ended
    obtain ⟨rest', r₃, inner, ended⟩ := ended
    obtain ⟨declared, third, others⟩ := lets_lexical rest inner second.ready
    obtain ⟨same, rfl⟩ := ends_pure.mp ended
    obtain rfl := Except.ok.inj same
    refine ⟨_, first.trans (second.trans third), fun generics vars knownG knownV => ?_⟩
    obtain ⟨knownG₁, knownV₁⟩ := first.sameSight knownG knownV
    obtain ⟨bound, knownV₂⟩ := others generics (p'.tags ++ vars) (second.genericTags_mono knownG₁)
      (second.valueTags_mono knownV₁)
    exact ⟨⟨one _ _ knownG knownV, own, bound⟩, knownV₂⟩

theorem arms_lexical {r r' : Resolver} {as' : List Arm} : (as : List Surface.Arm) →
    Ends (arms as) r (.ok as') r' → Ready structs r →
      Step structs r r' [] (Expr.armBinders as') ∧ ∀ generics vars, genericTags r.frames ⊆ generics →
        valueTags r.frames ⊆ vars → Expr.ArmsScoped structs generics vars as'
  | [], ended, ready => by
    obtain ⟨same, rfl⟩ := ends_pure.mp ended
    obtain rfl := Except.ok.inj same
    exact ⟨.refl ready, fun _ _ _ _ => trivial⟩
  | ⟨span, p, body⟩ :: rest, ended, ready => by
    rw [arms, ends_bind_ok] at ended
    obtain ⟨a', r₁, inner, ended⟩ := ended
    obtain ⟨r₂, inside, rfl⟩ := inScope_eq_ok inner
    rw [ends_bind_ok] at inside
    obtain ⟨p', r₃, innerP, inside⟩ := inside
    obtain ⟨first, own⟩ := pattern_step (by decide) p innerP ready.enter
    rw [ends_bind_ok] at inside
    obtain ⟨body', r₄, innerB, inside⟩ := inside
    obtain ⟨second, one⟩ := expr_lexical body innerB first.ready
    obtain ⟨same, rfl⟩ := ends_pure.mp inside
    obtain rfl := Except.ok.inj same
    have whole := (first.trans second).leave ready
    rw [ends_bind_ok] at ended
    obtain ⟨rest', r₅, inner, ended⟩ := ended
    obtain ⟨third, others⟩ := arms_lexical rest inner whole.ready
    obtain ⟨same, rfl⟩ := ends_pure.mp ended
    obtain rfl := Except.ok.inj same
    refine ⟨whole.trans third, fun generics vars knownG knownV => ⟨own, ?_, ?_⟩⟩
    · have knownG : genericTags (r.enter .arm span).frames ⊆ generics := by simpa using knownG
      have knownV : valueTags (r.enter .arm span).frames ⊆ vars := by simpa using knownV
      exact one _ _ (first.genericTags_mono knownG) (first.valueTags_mono knownV)
    · obtain ⟨knownG, knownV⟩ := whole.sameSight knownG knownV
      exact others _ _ knownG knownV

end

end WitnessLang.Resolved
