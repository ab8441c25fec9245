import WitnessLang.Proofs.Resolved.Program
import WitnessLang.Proofs.Resolved.Reference

set_option autoImplicit false

/-! Resolving names agrees with lexical scoping. The frames of a resolver say which names are in sight,
and each piece of work makes of them what the reference makes of its environment: the same tree, the same
number of declarations, the same names in sight behind it, or the same failure. -/
namespace WitnessLang.Resolved

open Reference (Names Value TypeName Meaning Numbered)

section Runs

variable {α β γ δ : Type} {m : Resolve α} {f : α → Resolve γ} {x : Numbered β} {g : β → Numbered δ}
  {r : Resolver} {n : Nat}

/-- Work on a resolver, and numbered work, that end alike: with results as said, or with the same
failure. -/
def Agrees (m : Resolve α) (r : Resolver) (x : Numbered β) (n : Nat) (post : α → Resolver → β → Nat → Prop) : Prop :=
  match x n with
  | .ok (b, n') => ∃ a r', Ends m r (.ok a) r' ∧ post a r' b n'
  | .error e => ∃ r', Ends m r (.error e) r'

variable {post post' : α → Resolver → β → Nat → Prop}

theorem agrees_pure {a : α} {b : β} (known : post a r b n) : Agrees (pure a) r (pure b) n post :=
  ⟨a, r, ends_pure.mpr ⟨rfl, rfl⟩, known⟩

theorem agrees_throw {e : Error} : Agrees (throw e) r (throw e : Numbered β) n post :=
  ⟨r, ends_throw.mpr ⟨rfl, rfl⟩⟩

theorem numbered_bind (x : Numbered β) (g : β → Numbered δ) (n : Nat) :
    (x >>= g) n = match x n with
      | .ok (b, n') => g b n'
      | .error e => .error e := by
  simp only [bind, StateT.bind]
  cases x n <;> rfl

theorem Agrees.bind {mid : γ → Resolver → δ → Nat → Prop} (first : Agrees m r x n post)
    (next : ∀ a r' b n', post a r' b n' → Agrees (f a) r' (g b) n' mid) : Agrees (m >>= f) r (x >>= g) n mid := by
  rw [Agrees] at first
  rw [Agrees, numbered_bind]
  split at first
  · obtain ⟨a, r', ended, known⟩ := first
    have later := next _ _ _ _ known
    rw [Agrees] at later
    split at later <;> rename_i ran <;> rw [ran]
    · obtain ⟨c, r'', ended', known'⟩ := later
      exact ⟨c, r'', ends_bind.mpr (Or.inl ⟨a, r', ended, ended'⟩), known'⟩
    · obtain ⟨r'', failed⟩ := later
      exact ⟨r'', ends_bind.mpr (Or.inl ⟨a, r', ended, failed⟩)⟩
  · obtain ⟨r', failed⟩ := first
    exact ⟨r', ends_bind.mpr (Or.inr ⟨_, failed, rfl⟩)⟩

theorem Agrees.imp (agrees : Agrees m r x n post) (weaker : ∀ a r' b n', post a r' b n' → post' a r' b n') :
    Agrees m r x n post' := by
  simp only [Agrees] at agrees ⊢
  split at agrees
  · obtain ⟨a, r', ended, known⟩ := agrees
    exact ⟨a, r', ended, weaker _ _ _ _ known⟩
  · exact agrees

end Runs

section Sight

def valueOf? (s : Symbol) : Option Value :=
  if KindMask.values.allows s.kind then some ⟨s.ident, s.span⟩ else none

def typeOf? (s : Symbol) : Option TypeName :=
  if s.kind = .generic then some ⟨s.ident, s.span, .parameter⟩
  else if s.kind = .struct then some ⟨s.ident, s.span, .struct s.fields⟩
  else if s.kind = .type then some ⟨s.ident, s.span, .basic⟩
  else none

/-- The names of some symbols, the latest of which comes first. -/
def namesOf (latest : List Symbol) : Names := ⟨latest.filterMap valueOf?, latest.filterMap typeOf?⟩

/-- The names of some scopes together, the innermost first. -/
def sight (scopes : List Names) : Names := scopes.foldr Names.within {}

/-- A resolver whose open scopes declare the given names. -/
structure Sees (unit : Nat) (r : Resolver) (n : Nat) (own : Names) (outer : List Names) : Prop where
  valid : r.Valid
  tags : r.tags = ⟨unit, n⟩
  frames : r.frames.map (fun frame => namesOf frame.reverse) = own :: outer

theorem within_namesOf (inner outer : List Symbol) :
    (namesOf inner).within (namesOf outer) = namesOf (inner ++ outer) := by
  simp [namesOf, Names.within]

theorem sight_namesOf (frames : List (List Symbol)) :
    sight (frames.map fun frame => namesOf frame.reverse) = namesOf (frames.flatMap List.reverse) := by
  induction frames with
  | nil => rfl
  | cons frame rest ih =>
    rw [List.map_cons, sight, List.foldr_cons]
    change (namesOf frame.reverse).within (sight _) = _
    rw [ih, within_namesOf]
    rfl

variable {unit n : Nat} {r : Resolver} {own : Names} {outer : List Names}

theorem Sees.inSight (sees : Sees unit r n own outer) : namesOf r.inSight = sight (own :: outer) := by
  rw [← sees.frames, sight_namesOf]
  rfl

/-- The frame of the innermost scope. -/
theorem Sees.innermost (sees : Sees unit r n own outer) : ∃ frame rest, r.frames = frame :: rest ∧
    namesOf frame.reverse = own ∧ rest.map (fun frame => namesOf frame.reverse) = outer := by
  have frames := sees.frames
  cases split : r.frames with
  | nil =>
    rw [split] at frames
    cases frames
  | cons frame rest =>
    rw [split, List.map_cons, List.cons.injEq] at frames
    exact ⟨frame, rest, rfl, frames.1, frames.2⟩

/-- The kinds of types. -/
theorem allows_types {kind : SymbolKind} :
    KindMask.types.allows kind = true ↔ kind = .type ∨ kind = .generic ∨ kind = .struct := by
  obtain ⟨k⟩ := kind
  by_cases small : k < 32
  · have every : ∀ k : Fin 32, KindMask.types.allows ⟨k⟩ = true ↔
        (⟨k⟩ : SymbolKind) = .type ∨ (⟨k⟩ : SymbolKind) = .generic ∨ (⟨k⟩ : SymbolKind) = .struct := by
      decide
    exact every ⟨k, small⟩
  · rw [KindMask.allows, SymbolKind.mask, if_neg small]
    refine iff_of_false (by decide) ?_
    simp only [SymbolKind.type, SymbolKind.generic, SymbolKind.struct, SymbolKind.mk.injEq]
    omega

theorem find?_values (latest : List Symbol) (name : String) :
    (namesOf latest).value? name =
      (latest.find? fun s => s.name == name && KindMask.values.allows s.kind).bind valueOf? := by
  rw [Names.value?, namesOf, List.find?_filterMap]
  congr 2
  funext s
  by_cases value : KindMask.values.allows s.kind = true <;> simp [valueOf?, value, Symbol.ident]

theorem find?_types (latest : List Symbol) (name : String) :
    (namesOf latest).type? name =
      (latest.find? fun s => s.name == name && KindMask.types.allows s.kind).bind typeOf? := by
  rw [Names.type?, namesOf, List.find?_filterMap]
  congr 2
  funext s
  by_cases type : KindMask.types.allows s.kind = true
  · rw [type, Bool.and_true]
    rcases allows_types.mp type with kind | kind | kind <;> simp [typeOf?, kind, Symbol.ident] <;> rfl
  · rw [Bool.not_eq_true] at type
    rw [type, Bool.and_false]
    have other : ¬ (s.kind = .type ∨ s.kind = .generic ∨ s.kind = .struct) := fun type' => by
      rw [allows_types.mpr type'] at type
      cases type
    rw [not_or, not_or] at other
    simp [typeOf?, other]

theorem allows_structs {kind : SymbolKind} : KindMask.structs.allows kind = true ↔ kind = .struct :=
  ⟨kind_of_structs, fun same => same ▸ by decide⟩

theorem findSome?_structs (latest : List Symbol) (name : String) :
    (namesOf latest).struct? name =
      (latest.find? fun s => s.name == name && KindMask.structs.allows s.kind).map fun s => (s.ident, s.fields) := by
  rw [Names.struct?, namesOf]
  induction latest with
  | nil => rfl
  | cons s rest ih =>
    dsimp only at ih ⊢
    rw [List.filterMap_cons, List.find?_cons]
    by_cases struct : s.kind = .struct
    · have type : typeOf? s = some ⟨s.ident, s.span, .struct s.fields⟩ := by
        rw [typeOf?, if_neg (by rw [struct]; decide), if_pos struct]
      rw [type, List.findSome?_cons, allows_structs.mpr struct, Bool.and_true]
      by_cases same : s.name = name
      · simp [same, Symbol.ident]
      · rw [beq_eq_false_iff_ne.mpr same, ← ih]
        simp [same, Symbol.ident]
    · have other : KindMask.structs.allows s.kind = false := by
        rw [← Bool.not_eq_true, allows_structs]
        exact struct
      rw [other, Bool.and_false]
      rw [← ih]
      rcases kind : typeOf? s with _ | t
      · rfl
      · rw [List.findSome?_cons]
        rw [typeOf?, if_neg struct] at kind
        split at kind
        · obtain rfl := Option.some.inj kind
          rfl
        · split at kind
          · obtain rfl := Option.some.inj kind
            rfl
          · cases kind

end Sight

section Lookups

variable {unit n : Nat} {r : Resolver} {own : Names} {outer : List Names} {name : String} {span : Span} {cause : Cause}

/-- A name is looked up among the symbols in sight. -/
theorem lookup_agrees {β : Type} (valid : r.Valid) {mask : KindMask} {found : Option β} (see : Symbol → Option β) (proper : mask.bits ≠ 0)
    (same : found = (r.inSight.find? fun s => s.name == name && mask.allows s.kind).bind see)
    (seen : ∀ s, mask.allows s.kind = true → (see s).isSome) :
    Agrees (lookup mask name span cause) r (Reference.demand found cause name span) n fun s r' b n' =>
      see s = some b ∧ mask.allows s.kind = true ∧ r' = r ∧ n' = n := by
  have look := valid.bind_lookup? proper name
  cases search : r.inSight.find? fun s => s.name == name && mask.allows s.kind with
  | none =>
    rw [search] at same look
    obtain rfl : found = none := same
    refine ⟨r, ?_⟩
    rw [lookup, ends_get_bind]
    cases id : r.lookup? mask name with
    | none => simp
    | some k =>
      obtain ⟨s, symbol, -⟩ := valid.mem_frames_of_lookup id
      rw [id, Option.bind_some, symbol] at look
      cases look
  | some s =>
    have fits := List.find?_some search
    rw [Bool.and_eq_true] at fits
    obtain ⟨b, known⟩ := Option.isSome_iff_exists.mp (seen s fits.2)
    rw [search, Option.bind_some, known] at same
    obtain rfl := same
    refine ⟨s, r, ?_, known, fits.2, rfl, rfl⟩
    rw [search] at look
    rw [lookup, ends_get_bind]
    obtain ⟨k, id, symbol⟩ := Option.bind_eq_some_iff.mp look
    rw [id]
    change Ends (symbolAt k) r (.ok s) r
    rw [symbolAt, ends_get_bind, symbol]
    exact ends_pure.mpr ⟨rfl, rfl⟩

/-- A declaration fails where its name is taken in the innermost scope, and adds its symbol otherwise. -/
theorem declare_ends (valid : r.Valid) {frame : List Symbol} {rest : List (List Symbol)} (frames : r.frames = frame :: rest)
    (name : String) (span : Span) (kind : SymbolKind) (fields : List String) :
    match if kind = .binding then none else frame.find? fun s => s.name == name && (KindMask.spaceOf kind).allows s.kind with
    | some s => Ends (declare name span kind fields) r (.error ⟨.duplicateDefinition s.span, name, span⟩) r
    | none => ∃ r', Ends (declare name span kind fields) r (.ok (r.newSymbol name span kind fields).ident) r' ∧
        r'.Valid ∧ r'.tags = { r.tags with next := r.tags.next + 1 } ∧
        r'.frames = (frame ++ [r.newSymbol name span kind fields]) :: rest := by
  obtain ⟨top, others, stack⟩ : ∃ top others, r.stack = top :: others := by
    cases stack : r.stack with
    | nil => simp [Resolver.frames, stack] at frames
    | cons top others => exact ⟨top, others, rfl⟩
  have current : r.current = top := by rw [Resolver.current, stack, List.headD_cons]
  have own : r.table.symbolsIn top = frame := by
    rw [Resolver.frames, stack, List.map_cons, List.cons.injEq] at frames
    exact frames.1
  obtain ⟨low, high⟩ := valid.opened top (by simp [stack])
  obtain ⟨scope, there⟩ := SymbolTable.exists_scope? (current ▸ low) (current ▸ high)
  have search : (if kind = .binding then none else
      frame.find? fun s => s.name == name && (KindMask.spaceOf kind).allows s.kind) =
      (if kind == .binding then none else r.table.earliestIn? (.spaceOf kind) name scope).bind r.table.symbol? := by
    rw [← own, ← current, ← valid.bind_earliestIn? _ _ there]
    by_cases binding : kind = .binding <;> simp [binding]
  rw [search]
  cases taken : if kind == .binding then none else r.table.earliestIn? (.spaceOf kind) name scope with
  | none =>
    obtain ⟨r', id, declared⟩ : ∃ r' id, r.declare name span kind fields = (r', .new id) := by
      simp only [Resolver.declare, there, taken]
      exact ⟨_, _, rfl⟩
    obtain ⟨valid', tags, symbol, frame', rest', before, after⟩ := Resolver.frames_declare valid declared
    rw [frames, List.cons.injEq] at before
    obtain ⟨rfl, rfl⟩ := before
    refine ⟨r', ?_, valid', tags, after⟩
    rw [declare, ends_get_bind, declared]
    simp only [ends_set_bind]
    refine ends_bind_ok.mpr ⟨_, r', ?_, ends_pure.mpr ⟨rfl, rfl⟩⟩
    rw [symbolAt, ends_get_bind, symbol]
    exact ends_pure.mpr ⟨rfl, rfl⟩
  | some id =>
    obtain ⟨s, symbol⟩ : ∃ s, r.table.symbol? id = some s := by
      split at taken
      · cases taken
      · have kind : r.table.hasKind (.spaceOf kind) id = true := List.find?_some taken
        exact ((Option.any_eq_true _ _).mp kind).imp fun s known => known.1
    rw [Option.bind_some, symbol]
    have declared : r.declare name span kind fields = (r, .conflict id) := by
      simp only [Resolver.declare, there, taken]
    change Ends (declare name span kind fields) r _ r
    rw [declare, ends_get_bind, declared]
    simp only [ends_set_bind]
    refine ends_bind.mpr (Or.inl ⟨s, r, ?_, ends_throw.mpr ⟨rfl, rfl⟩⟩)
    rw [symbolAt, ends_get_bind, symbol]
    exact ends_pure.mpr ⟨rfl, rfl⟩

theorem allows_values {kind : SymbolKind} :
    KindMask.values.allows kind = true ↔ kind = .function ∨ kind = .binding ∨ kind = .param := by
  obtain ⟨k⟩ := kind
  by_cases small : k < 32
  · have every : ∀ k : Fin 32, KindMask.values.allows ⟨k⟩ = true ↔
        (⟨k⟩ : SymbolKind) = .function ∨ (⟨k⟩ : SymbolKind) = .binding ∨ (⟨k⟩ : SymbolKind) = .param := by
      decide
    exact every ⟨k, small⟩
  · rw [KindMask.allows, SymbolKind.mask, if_neg small]
    refine iff_of_false (by decide) ?_
    simp only [SymbolKind.function, SymbolKind.binding, SymbolKind.param, SymbolKind.mk.injEq]
    omega

/-- A declaration takes the next tag and adds a name to those of the innermost scope. -/
theorem Sees.declares (sees : Sees unit r n own outer) {r' : Resolver} {frame : List Symbol} {rest : List (List Symbol)}
    (frames : r.frames = frame :: rest) {s : Symbol} (valid : r'.Valid)
    (tags : r'.tags = { r.tags with next := r.tags.next + 1 }) (after : r'.frames = (frame ++ [s]) :: rest) :
    Sees unit r' (n + 1) ((namesOf [s]).within own) outer := by
  have before := sees.frames
  rw [frames, List.map_cons, List.cons.injEq] at before
  refine ⟨valid, by rw [tags, sees.tags], ?_⟩
  rw [after, List.map_cons, before.2, List.reverse_append, ← before.1, within_namesOf]
  rfl

/-- Names are declared alike: `taken` is where the name was declared before, and `added` are the names in
the innermost scope with the new one. -/
theorem declare_agrees (sees : Sees unit r n own outer) {kind : SymbolKind} {fields : List String} (taken : Option Span)
    (added : Ident → Names) (isGlobal : Bool)
    (before : ∀ frame : List Symbol, namesOf frame.reverse = own → taken = ((if kind = .binding then none else
      frame.find? fun s => s.name == name && (KindMask.spaceOf kind).allows s.kind).map (·.span)))
    (spelled : kind.isGlobal = isGlobal)
    (adds : ∀ s : Symbol, s.kind = kind → s.span = span → s.fields = fields → added s.ident = (namesOf [s]).within own) :
    Agrees (declare name span kind fields) r (do
      Reference.refuse taken name span
      let i : Ident := ⟨← Reference.fresh unit, name, isGlobal⟩
      return (i, added i)) n fun i r' b n' => b.1 = i ∧ Sees unit r' n' b.2 outer := by
  obtain ⟨frame, rest, frames, same, -⟩ := sees.innermost
  have ends := declare_ends sees.valid frames name span kind fields
  rw [before frame same]
  split at ends
  · rename_i s found
    rw [found]
    exact ⟨r, ends⟩
  · rename_i found
    rw [found]
    obtain ⟨r', ended, valid, tags, after⟩ := ends
    have tag : (⟨⟨unit, n⟩, name, isGlobal⟩ : Ident) = (r.newSymbol name span kind fields).ident := by
      rw [Symbol.ident, Resolver.newSymbol, sees.tags, spelled]
    refine ⟨_, r', ended, tag, ?_⟩
    change Sees unit r' (n + 1) (added ⟨⟨unit, n⟩, name, isGlobal⟩) outer
    rw [tag, adds _ rfl rfl rfl]
    exact sees.declares frames valid tags after

/-- Variables are declared alike. -/
theorem declareValue_agrees (sees : Sees unit r n own outer) {kind : SymbolKind}
    (value : KindMask.values.allows kind = true) :
    Agrees (declare name span kind) r (Reference.declareValue unit kind own name span) n fun i r' b n' =>
      b.1 = i ∧ Sees unit r' n' b.2 outer := by
  refine declare_agrees sees _ (fun i => { own with values := ⟨i, span⟩ :: own.values }) (kind = .function)
    (fun frame same => ?_) ?_ fun s same place _ => ?_
  · have earliest : own.values.reverse.find? (·.ident.name == name) =
        (frame.find? fun s => s.name == name && KindMask.values.allows s.kind).bind valueOf? := by
      rw [← find?_values, ← same]
      simp [namesOf, Names.value?]
    rw [KindMask.spaceOf, if_pos value]
    by_cases binding : kind = .binding
    · rw [if_pos binding, if_pos binding]
      rfl
    · rw [if_neg binding, if_neg binding, earliest]
      cases search : frame.find? fun s => s.name == name && KindMask.values.allows s.kind with
      | none => rfl
      | some s =>
        have fits := List.find?_some search
        rw [Bool.and_eq_true] at fits
        rw [Option.bind_some, valueOf?, if_pos fits.2]
        rfl
  · rcases allows_values.mp value with rfl | rfl | rfl <;> rfl
  · have seen : valueOf? s = some ⟨s.ident, s.span⟩ := by rw [valueOf?, same, if_pos value]
    have untyped : typeOf? s = none := by
      rw [typeOf?, same]
      rcases allows_values.mp value with rfl | rfl | rfl <;> rfl
    simp [namesOf, Names.within, seen, untyped, place]

/-- Types are declared alike. -/
theorem declareType_agrees (sees : Sees unit r n own outer) {kind : SymbolKind} {fields : List String} {meaning : Meaning}
    (type : kind = .generic ∧ meaning = .parameter ∨ kind = .struct ∧ meaning = .struct fields) :
    Agrees (declare name span kind fields) r (Reference.declareType unit meaning own name span) n fun i r' b n' =>
      b.1 = i ∧ Sees unit r' n' b.2 outer := by
  have typed : KindMask.types.allows kind = true := by
    rw [allows_types]
    rcases type with ⟨kind, -⟩ | ⟨kind, -⟩ <;> simp [kind]
  have plain : kind ≠ .binding := by
    rcases type with ⟨rfl, -⟩ | ⟨rfl, -⟩ <;> decide
  have space : KindMask.spaceOf kind = .types := by
    rcases type with ⟨rfl, -⟩ | ⟨rfl, -⟩ <;> rfl
  refine declare_agrees sees _ (fun i => { own with types := ⟨i, span, meaning⟩ :: own.types }) (meaning ≠ .parameter)
    (fun frame same => ?_) ?_ fun s same place listed => ?_
  · have earliest : own.types.reverse.find? (·.ident.name == name) =
        (frame.find? fun s => s.name == name && KindMask.types.allows s.kind).bind typeOf? := by
      rw [← find?_types, ← same]
      simp [namesOf, Names.type?]
    rw [space, if_neg plain, earliest]
    cases search : frame.find? fun s => s.name == name && KindMask.types.allows s.kind with
    | none => rfl
    | some s =>
      have fits := List.find?_some search
      rw [Bool.and_eq_true, allows_types] at fits
      rw [Option.bind_some, typeOf?]
      rcases fits.2 with kind | kind | kind <;> rw [kind] <;> rfl
  · rcases type with ⟨rfl, rfl⟩ | ⟨rfl, rfl⟩ <;> rfl
  · have seen : typeOf? s = some ⟨s.ident, s.span, meaning⟩ := by
      rw [typeOf?, same]
      rcases type with ⟨rfl, rfl⟩ | ⟨rfl, rfl⟩
      · rfl
      · rw [listed]
        rfl
    have plain : valueOf? s = none := by
      rw [valueOf?, same]
      rcases type with ⟨rfl, -⟩ | ⟨rfl, -⟩ <;> rfl
    simp [namesOf, Names.within, seen, plain, place]

end Lookups

section Alike

variable {α β γ δ : Type} {unit : Nat} {own : Names} {outer : List Names}

/-- Work on a resolver, and its reference, that make the same of the names in sight. -/
def Alike (unit : Nat) (own : Names) (outer : List Names) (m : Resolve α) (x : Numbered β)
    (same : α → β → Names → Prop) : Prop :=
  ∀ r n, Sees unit r n own outer → Agrees m r x n fun a r' b n' => ∃ own', same a b own' ∧ Sees unit r' n' own' outer

def Kept (own : Names) (a b : α) (own' : Names) : Prop := a = b ∧ own' = own

/-- Equal results, and new names in the innermost scope. -/
def Added (a : α) (b : α × Names) (own' : Names) : Prop := a = b.1 ∧ own' = b.2

theorem Alike.bind {m : Resolve α} {x : Numbered β} {f : α → Resolve γ} {g : β → Numbered δ}
    {same : α → β → Names → Prop} {same' : γ → δ → Names → Prop} (first : Alike unit own outer m x same)
    (next : ∀ a b own', same a b own' → Alike unit own' outer (f a) (g b) same') :
    Alike unit own outer (m >>= f) (x >>= g) same' := by
  intro r n sees
  refine (first r n sees).bind fun a r' b n' known => ?_
  obtain ⟨own', known, sees'⟩ := known
  exact next a b own' known r' n' sees'

theorem alike_pure {a : α} {b : β} {same : α → β → Names → Prop} (known : same a b own) :
    Alike unit own outer (pure a) (pure b) same := fun _ _ sees => agrees_pure ⟨own, known, sees⟩

theorem alike_throw {e : Error} {same : α → β → Names → Prop} :
    Alike unit own outer (throw e) (throw e : Numbered β) same := fun _ _ _ => agrees_throw

/-- A kept pair of steps. -/
theorem Alike.next {m : Resolve α} {x : Numbered α} {f : α → Resolve γ} {g : α → Numbered δ}
    {same : γ → δ → Names → Prop} (first : Alike unit own outer m x (Kept own))
    (next : ∀ a, Alike unit own outer (f a) (g a) same) : Alike unit own outer (m >>= f) (x >>= g) same := by
  refine first.bind fun a b own' known => ?_
  obtain ⟨rfl, rfl⟩ := known
  exact next a

/-- A step that adds names, and what is done with them in sight. -/
theorem Alike.then {m : Resolve α} {x : Numbered (α × Names)} {f : α → Resolve γ} {g : α × Names → Numbered δ}
    {same : γ → δ → Names → Prop} (first : Alike unit own outer m x Added)
    (next : ∀ a own', Alike unit own' outer (f a) (g (a, own')) same) : Alike unit own outer (m >>= f) (x >>= g) same := by
  refine first.bind fun a b own' known => ?_
  obtain ⟨rfl, rfl⟩ := known
  exact next b.1 b.2

end Alike

section Types

variable {unit : Nat} {own : Names} {outer : List Names}

/-- What is made of a symbol that is found to be a type. -/
theorem type_alike {β : Type} (name : String) (span : Span) {f : Symbol → Resolve β} {g : TypeName → Numbered β}
    (next : ∀ s t, (∀ args, (if s.kind == .generic then TypeExpr.generic span s.ident args
      else .named span s.ident args) = t.applied span args) → Alike unit own outer (f s) (g t) (Kept own)) :
    Alike unit own outer (lookup .types name span .undefinedType >>= f)
      (Reference.demand ((sight (own :: outer)).type? name) .undefinedType name span >>= g) (Kept own) := by
  intro r n sees
  refine (lookup_agrees sees.valid typeOf? (by decide) (sees.inSight ▸ find?_types _ name) fun s type => ?_).bind ?_
  · rcases allows_types.mp type with kind | kind | kind <;> rw [typeOf?, kind] <;> rfl
  · rintro s r' t n' ⟨seen, type, rfl, rfl⟩
    refine next s t (fun args => ?_) _ _ sees
    rw [typeOf?] at seen
    rcases allows_types.mp type with kind | kind | kind <;> rw [kind] at seen ⊢ <;>
      obtain rfl := Option.some.inj seen <;> rfl

mutual

theorem typeExpr_alike : ∀ t : Surface.TypeExpr,
    Alike unit own outer (typeExpr t) (Reference.typeExpr (sight (own :: outer)) t) (Kept own)
  | .named span name => by
    rw [typeExpr, Reference.typeExpr]
    exact type_alike name span fun s t applied => alike_pure ⟨applied [], rfl⟩
  | .apply span name args => by
    rw [typeExpr, Reference.typeExpr]
    refine type_alike name span fun s t applied => ?_
    exact (typeExprs_alike args).next fun as => alike_pure ⟨applied as, rfl⟩
  | .func span args result => by
    rw [typeExpr, Reference.typeExpr]
    exact (typeExprs_alike args).next fun as => (typeExpr_alike result).next fun t => alike_pure ⟨rfl, rfl⟩

theorem typeExprs_alike : ∀ ts : List Surface.TypeExpr,
    Alike unit own outer (typeExprs ts) (Reference.typeExprs (sight (own :: outer)) ts) (Kept own)
  | [] => by
    rw [typeExprs, Reference.typeExprs]
    exact alike_pure ⟨rfl, rfl⟩
  | t :: rest => by
    rw [typeExprs, Reference.typeExprs]
    exact (typeExpr_alike t).next fun t => (typeExprs_alike rest).next fun ts => alike_pure ⟨rfl, rfl⟩

end

end Types

section Fields

variable {unit : Nat} {own : Names} {outer : List Names}

/-- The given fields are checked one by one. The induction is on those that are left. -/
theorem checkGiven_eq (declared : List String) (old rest : List (String × Span)) :
    checkGiven declared (old.map (·.1)) rest =
      match (rest.zipIdx old.length).findSome? (Reference.wrong? declared (old ++ rest)) with
      | some e => throw e
      | none => pure () := by
  induction rest generalizing old with
  | nil => rfl
  | cons g rest ih =>
    obtain ⟨name, span⟩ := g
    have later := ih (old ++ [(name, span)])
    rw [List.append_assoc, List.singleton_append, List.length_append, List.length_singleton, List.map_append] at later
    rw [checkGiven, List.zipIdx_cons, List.findSome?_cons, Reference.wrong?, List.take_left' rfl]
    by_cases known : name ∈ declared
    · by_cases again : name ∈ old.map (·.1)
      · simp [known, again]
      · simp only [List.contains_eq_mem, known, again, decide_true, decide_false, Bool.not_true, Bool.false_eq_true,
          not_true_eq_false, ↓reduceIte]
        exact later
    · simp [known]

theorem exactFields_alike (declared : List String) (given : List (String × Span)) (missing : List String → Cause)
    (whole : Span) : Alike unit own outer (checkFields declared given missing whole)
      (Reference.exactFields declared given missing whole) (Kept own) := by
  have first := checkGiven_eq declared [] given
  rw [List.map_nil, List.length_nil, List.nil_append] at first
  rw [checkFields, Reference.exactFields, first, Reference.missingField?]
  cases given.zipIdx.findSome? (Reference.wrong? declared given) with
  | some e => exact alike_throw
  | none =>
    dsimp only
    have same : (fun d => !(given.map (·.1)).contains d) = fun d => decide (d ∉ given.map (·.1)) := by
      funext d
      simp
    rw [pure_bind, same]
    cases declared.find? fun d => decide (d ∉ given.map (·.1)) with
    | some name => exact alike_throw
    | none => exact alike_pure ⟨rfl, rfl⟩

/-- What is made of a symbol that is found to be a struct, whose fields are given. -/
theorem struct_alike {β γ : Type} (name : String) (span : Span) {f : Symbol → Resolve β}
    {g : Ident × List String → Numbered γ} {same : β → γ → Names → Prop}
    (next : ∀ s, Alike unit own outer (f s) (g (s.ident, s.fields)) same) :
    Alike unit own outer (lookup .structs name span .undefinedStruct >>= f)
      (Reference.demand ((sight (own :: outer)).struct? name) .undefinedStruct name span >>= g) same := by
  intro r n sees
  have found := findSome?_structs r.inSight name
  rw [sees.inSight, Option.map_eq_bind] at found
  refine (lookup_agrees sees.valid _ (by decide) found fun s _ => rfl).bind ?_
  rintro s r' t n' ⟨seen, -, rfl, rfl⟩
  obtain rfl := Option.some.inj seen
  exact next s _ _ sees

theorem declareValue_alike {kind : SymbolKind} (value : KindMask.values.allows kind = true) (name : String) (span : Span) :
    Alike unit own outer (declare name span kind) (Reference.declareValue unit kind own name span) Added := by
  intro r n sees
  refine (declareValue_agrees sees value).imp ?_
  rintro i r' b n' ⟨rfl, sees'⟩
  exact ⟨b.2, ⟨rfl, rfl⟩, sees'⟩

end Fields

section Expressions

variable {unit : Nat}

mutual

theorem pattern_alike {kind : SymbolKind} (value : KindMask.values.allows kind = true) {outer : List Names} :
    ∀ (p : Surface.Pattern) {own : Names},
      Alike unit own outer (pattern kind p) (Reference.pattern unit kind (sight outer) own p) Added
  | .var span name, own => by
    rw [pattern, Reference.pattern]
    exact (declareValue_alike value name span).then fun i own' => alike_pure ⟨rfl, rfl⟩
  | .record span name fields, own => by
    rw [pattern, Reference.pattern]
    refine struct_alike name span fun s => (exactFields_alike _ _ _ _).next fun _ => ?_
    exact (fieldPatterns_alike value fields).then fun fs own' => alike_pure ⟨rfl, rfl⟩

theorem fieldPatterns_alike {kind : SymbolKind} (value : KindMask.values.allows kind = true) {outer : List Names} :
    ∀ (fs : List Surface.FieldPattern) {own : Names},
      Alike unit own outer (fieldPatterns kind fs) (Reference.fieldPatterns unit kind (sight outer) own fs) Added
  | [], own => by
    rw [fieldPatterns, Reference.fieldPatterns]
    exact alike_pure ⟨rfl, rfl⟩
  | ⟨span, name, p⟩ :: rest, own => by
    rw [fieldPatterns, Reference.fieldPatterns]
    refine (pattern_alike value p).then fun p own' => ?_
    exact (fieldPatterns_alike value rest).then fun fs own'' => alike_pure ⟨rfl, rfl⟩

end

theorem params_alike {outer : List Names} : ∀ (ps : List Surface.Param) {own : Names},
    Alike unit own outer (params ps) (Reference.params unit (sight outer) own ps) Added
  | [], own => by
    rw [params, Reference.params]
    exact alike_pure ⟨rfl, rfl⟩
  | p :: rest, own => by
    rw [params, Reference.params]
    refine (typeExpr_alike p.type).next fun t => ?_
    refine (pattern_alike (by decide) p.pattern).then fun q own' => ?_
    exact (params_alike rest).then fun ps own'' => alike_pure ⟨rfl, rfl⟩

/-- The names of a scope are gone behind it. -/
theorem inScope_alike {α : Type} {own : Names} {outer : List Names} {kind : ScopeKind} {span : Span}
    {body : Resolve α} {x : Numbered α} (inside : Alike unit {} (own :: outer) body x fun a b _ => a = b) :
    Alike unit own outer (inScope kind span body) x (Kept own) := by
  intro r n sees
  have agrees := inside (r.enter kind span) n
    ⟨sees.valid.enter kind span, sees.tags, by rw [Resolver.frames_enter, List.map_cons, sees.frames]; rfl⟩
  have ends : ∀ {result : Except Error α} {r'}, Ends body (r.enter kind span) result r' →
      Ends (inScope kind span body) r result r'.leave := by
    intro result r' ended
    rw [inScope, ends_modify_bind]
    refine ends_bind.mpr (Or.inl ⟨result, r', ends_tryCatch.mpr ?_, ?_⟩)
    · cases result with
      | ok a => exact Or.inl ⟨.ok a, ends_map.mpr (Or.inl ⟨a, ended, rfl⟩), rfl⟩
      | error e => exact Or.inr ⟨e, r', ends_map.mpr (Or.inr ⟨e, ended, rfl⟩), ends_pure.mpr ⟨rfl, rfl⟩⟩
    · rw [ends_modify_bind]
      cases result with
      | ok a => exact ends_pure.mpr ⟨rfl, rfl⟩
      | error e => exact ends_throw.mpr ⟨rfl, rfl⟩
  rw [Agrees] at agrees ⊢
  split at agrees
  · obtain ⟨a, r', ended, added, same, sees'⟩ := agrees
    refine ⟨a, r'.leave, ends ended, own, ⟨same, rfl⟩, sees'.valid.leave, sees'.tags, ?_⟩
    have frames := sees'.frames
    rw [Resolver.frames_leave, List.map_tail, frames, List.tail_cons]
  · obtain ⟨r', failed⟩ := agrees
    exact ⟨r'.leave, ends failed⟩

mutual

/-- Expressions are resolved alike; the induction is on the tree. -/
theorem expr_alike : ∀ (e : Surface.Expr) {own : Names} {outer : List Names},
    Alike unit own outer (expr e) (Reference.expr unit (sight (own :: outer)) e) (Kept own)
  | .number span text bits, own, outer => by
    rw [expr, Reference.expr]
    exact alike_pure ⟨rfl, rfl⟩
  | .bool span value, own, outer => by
    rw [expr, Reference.expr]
    exact alike_pure ⟨rfl, rfl⟩
  | .var span name, own, outer => by
    rw [expr, Reference.expr]
    intro r n sees
    refine (lookup_agrees sees.valid valueOf? (by decide) (sees.inSight ▸ find?_values _ name) fun s value => ?_).bind ?_
    · rw [valueOf?, if_pos value]
      rfl
    · rintro s r' v n' ⟨seen, value, rfl, rfl⟩
      rw [valueOf?, if_pos value] at seen
      obtain rfl := Option.some.inj seen
      exact agrees_pure ⟨own, ⟨rfl, rfl⟩, sees⟩
  | .call span callee args, own, outer => by
    rw [expr, Reference.expr]
    exact (expr_alike callee).next fun callee => (exprs_alike args).next fun args => alike_pure ⟨rfl, rfl⟩
  | .operation span op left right, own, outer => by
    rw [expr, Reference.expr]
    exact (expr_alike left).next fun left => (expr_alike right).next fun right => alike_pure ⟨rfl, rfl⟩
  | .record span name nameSpan fields, own, outer => by
    rw [expr, Reference.expr]
    refine struct_alike name nameSpan fun s => (exactFields_alike _ _ _ _).next fun _ => ?_
    exact (fieldInits_alike fields).next fun fields => alike_pure ⟨rfl, rfl⟩
  | .block span bs result, own, outer => by
    rw [expr, Reference.expr]
    refine inScope_alike ?_
    refine (lets_alike bs).then fun bs own' => ?_
    exact (expr_alike result).next fun result => alike_pure rfl
  | .annotated span value type, own, outer => by
    rw [expr, Reference.expr]
    exact (expr_alike value).next fun value => (typeExpr_alike type).next fun type => alike_pure ⟨rfl, rfl⟩
  | .case span scrutinee as, own, outer => by
    rw [expr, Reference.expr]
    exact (expr_alike scrutinee).next fun scrutinee => (arms_alike as).next fun as => alike_pure ⟨rfl, rfl⟩
  | .cond span test yes no, own, outer => by
    rw [expr, Reference.expr]
    refine (expr_alike test).next fun test => (expr_alike yes).next fun yes => ?_
    exact (expr_alike no).next fun no => alike_pure ⟨rfl, rfl⟩
  | .closure span ps body, own, outer => by
    rw [expr, Reference.expr]
    refine inScope_alike ?_
    refine (params_alike ps).then fun ps own' => ?_
    exact (expr_alike body).next fun body => alike_pure rfl

theorem exprs_alike : ∀ (es : List Surface.Expr) {own : Names} {outer : List Names},
    Alike unit own outer (exprs es) (Reference.exprs unit (sight (own :: outer)) es) (Kept own)
  | [], own, outer => by
    rw [exprs, Reference.exprs]
    exact alike_pure ⟨rfl, rfl⟩
  | e :: rest, own, outer => by
    rw [exprs, Reference.exprs]
    exact (expr_alike e).next fun e => (exprs_alike rest).next fun es => alike_pure ⟨rfl, rfl⟩

theorem fieldInits_alike : ∀ (fs : List Surface.FieldInit) {own : Names} {outer : List Names},
    Alike unit own outer (fieldInits fs) (Reference.fieldInits unit (sight (own :: outer)) fs) (Kept own)
  | [], own, outer => by
    rw [fieldInits, Reference.fieldInits]
    exact alike_pure ⟨rfl, rfl⟩
  | ⟨span, name, value⟩ :: rest, own, outer => by
    rw [fieldInits, Reference.fieldInits]
    exact (expr_alike value).next fun value => (fieldInits_alike rest).next fun fs => alike_pure ⟨rfl, rfl⟩

/-- A binding is in sight behind it, but not in its own value. -/
theorem lets_alike : ∀ (bs : List Surface.Let) {own : Names} {outer : List Names},
    Alike unit own outer (lets bs) (Reference.lets unit (sight outer) own bs) Added
  | [], own, outer => by
    rw [lets, Reference.lets]
    exact alike_pure ⟨rfl, rfl⟩
  | ⟨span, p, value⟩ :: rest, own, outer => by
    rw [lets, Reference.lets]
    refine (expr_alike value).next fun value => (pattern_alike (by decide) p).then fun p own' => ?_
    exact (lets_alike rest).then fun bs own'' => alike_pure ⟨rfl, rfl⟩

theorem arms_alike : ∀ (as : List Surface.Arm) {own : Names} {outer : List Names},
    Alike unit own outer (arms as) (Reference.arms unit (sight (own :: outer)) as) (Kept own)
  | [], own, outer => by
    rw [arms, Reference.arms]
    exact alike_pure ⟨rfl, rfl⟩
  | ⟨span, p, body⟩ :: rest, own, outer => by
    rw [arms, Reference.arms, Reference.arm]
    refine (inScope_alike ?_).next fun a => (arms_alike rest).next fun as => alike_pure ⟨rfl, rfl⟩
    refine (pattern_alike (by decide) p).then fun p own' => ?_
    exact (expr_alike body).next fun body => alike_pure rfl

end

end Expressions

section Definitions

variable {unit : Nat} {own : Names} {outer : List Names}

theorem declareType_alike {kind : SymbolKind} {fields : List String} {meaning : Meaning}
    (type : kind = .generic ∧ meaning = .parameter ∨ kind = .struct ∧ meaning = .struct fields) (name : String)
    (span : Span) :
    Alike unit own outer (declare name span kind fields) (Reference.declareType unit meaning own name span) Added := by
  intro r n sees
  refine (declareType_agrees sees type).imp ?_
  rintro i r' b n' ⟨rfl, sees'⟩
  exact ⟨b.2, ⟨rfl, rfl⟩, sees'⟩

theorem generics_alike (gs : List Surface.Generic) :
    Alike unit own outer (generics gs) (Reference.generics unit own gs) Added := by
  rw [generics]
  induction gs generalizing own with
  | nil => exact alike_pure ⟨rfl, rfl⟩
  | cons g rest ih =>
    rw [List.mapM_cons, Reference.generics]
    refine (declareType_alike (Or.inl ⟨rfl, rfl⟩) g.name g.span).then fun i own' => ?_
    exact ih.then fun is own'' => alike_pure ⟨rfl, rfl⟩

/-- A tag that is used up without a name. -/
theorem fresh_alike {β γ : Type} (f : Tag → Resolve β) {g : Tag → Numbered γ} {same : β → γ → Names → Prop}
    (next : ∀ t, Alike unit own outer (f t) (g t) same) :
    Alike unit own outer (do
      let r ← get
      modify fun s => { s with tags := r.tags.fresh.2 }
      f r.tags.fresh.1) (Reference.fresh unit >>= g) same := by
  intro r n sees
  have later := next r.tags.fresh.1 { r with tags := r.tags.fresh.2 } (n + 1)
    ⟨sees.valid.withTags _, by rw [sees.tags]; rfl, sees.frames⟩
  have tag : r.tags.fresh.1 = ⟨unit, n⟩ := by rw [sees.tags]; rfl
  have step : (Reference.fresh unit >>= g) n = g r.tags.fresh.1 (n + 1) := by rw [tag]; rfl
  simp only [Agrees, ends_get_bind, ends_modify_bind]
  rw [step]
  exact later

/-- Fields take tags, but are not in sight. -/
theorem structFields_alike (fs : List Surface.Field) :
    Alike unit own outer (structFields fs) (Reference.structFields unit (sight (own :: outer)) fs) (Kept own) := by
  induction fs with
  | nil => exact alike_pure ⟨rfl, rfl⟩
  | cons f rest ih =>
    let put (t : TypeExpr) (tag : Tag) : Resolve (List Field) := do
      return ⟨f.span, ⟨tag, f.name, false⟩, t⟩ :: (← structFields rest)
    have step : structFields (f :: rest) = (do
        let t ← typeExpr f.type
        let r ← get
        modify fun s => { s with tags := r.tags.fresh.2 }
        put t r.tags.fresh.1) := rfl
    rw [step, Reference.structFields]
    refine (typeExpr_alike f.type).next fun t => fresh_alike (put t) fun tag => ?_
    exact ih.next fun fs => alike_pure ⟨rfl, rfl⟩

theorem struct_definition_alike (name : Ident) (s : Surface.Struct) :
    Alike unit own outer (struct name s) (Reference.struct unit (sight (own :: outer)) name s) (Kept own) := by
  rw [struct, Reference.struct]
  refine inScope_alike ((generics_alike s.generics).then fun gs own' => ?_)
  exact (structFields_alike s.fields).next fun fs => alike_pure rfl

theorem function_alike (name : Ident) (f : Surface.Function) :
    Alike unit own outer (function name f) (Reference.function unit (sight (own :: outer)) name f) (Kept own) := by
  rw [function, Reference.function]
  refine inScope_alike ((generics_alike f.generics).then fun gs own' => (params_alike f.params).then fun ps own'' => ?_)
  refine (typeExpr_alike f.result).next fun result => ?_
  exact (expr_alike f.body).next fun body => alike_pure rfl

theorem structs_alike (named : List (Ident × Surface.Item)) :
    Alike unit own outer ((structsOf named).mapM fun (name, s) => struct name s)
      (Reference.structs unit (sight (own :: outer)) named) (Kept own) := by
  induction named with
  | nil => exact alike_pure ⟨rfl, rfl⟩
  | cons n rest ih =>
    obtain ⟨name, f | s⟩ := n
    · exact ih
    · change Alike unit own outer (((name, s) :: structsOf rest).mapM fun (name, s) => struct name s) _ _
      rw [List.mapM_cons, Reference.structs]
      exact (struct_definition_alike name s).next fun s => ih.next fun ss => alike_pure ⟨rfl, rfl⟩

theorem functions_alike (named : List (Ident × Surface.Item)) :
    Alike unit own outer ((functionsOf named).mapM fun (name, f) => function name f)
      (Reference.functions unit (sight (own :: outer)) named) (Kept own) := by
  induction named with
  | nil => exact alike_pure ⟨rfl, rfl⟩
  | cons n rest ih =>
    obtain ⟨name, f | s⟩ := n
    · change Alike unit own outer (((name, f) :: functionsOf rest).mapM fun (name, f) => function name f) _ _
      rw [List.mapM_cons, Reference.functions]
      exact (function_alike name f).next fun f => ih.next fun fs => alike_pure ⟨rfl, rfl⟩
    · exact ih

/-- The fields of a struct are compared one by one. The induction is on those that are left. -/
theorem repeatedField?_eq (old rest : List Surface.Field) :
    repeatedField? (old.map (·.name)) rest =
      ((rest.zipIdx old.length).find? (Reference.repeats (old ++ rest))).map (·.1) := by
  induction rest generalizing old with
  | nil => rfl
  | cons f rest ih =>
    have later := ih (old ++ [f])
    rw [List.append_assoc, List.singleton_append, List.length_append, List.length_singleton, List.map_append] at later
    rw [repeatedField?, List.zipIdx_cons, List.find?_cons, Reference.repeats, List.take_left' rfl]
    by_cases again : f.name ∈ old.map (·.name)
    · simp [again]
    · simp only [List.contains_eq_mem, again, decide_false, Bool.false_eq_true, ↓reduceIte]
      exact later

theorem declareItem_alike : ∀ item : Surface.Item,
    Alike unit own outer (declareItem item) (Reference.declareItem unit own item) Added
  | .struct s => by
    have fields := repeatedField?_eq [] s.fields
    rw [List.map_nil, List.length_nil, List.nil_append] at fields
    rw [declareItem, Reference.declareItem, fields]
    cases s.fields.zipIdx.find? (Reference.repeats s.fields) with
    | some f => exact alike_throw
    | none => exact declareType_alike (Or.inr ⟨rfl, rfl⟩) _ _
  | .func f => declareValue_alike (by decide) _ _

theorem declareItems_alike (items : List Surface.Item) :
    Alike unit own outer (items.mapM declareItem) (Reference.declareItems unit own items) Added := by
  induction items generalizing own with
  | nil => exact alike_pure ⟨rfl, rfl⟩
  | cons item rest ih =>
    rw [List.mapM_cons, Reference.declareItems]
    exact (declareItem_alike item).then fun i own' => ih.then fun is own'' => alike_pure ⟨rfl, rfl⟩

/-- Definitions are resolved alike where only built-in types are known. -/
theorem program_alike (items : List Surface.Item) :
    Alike unit {} [.basic] (program items) (Reference.program unit items) fun a b _ => a = b := by
  rw [program, Reference.program]
  refine (declareItems_alike items).then fun is own => ?_
  refine (structs_alike (is.zip items)).next fun ss => (functions_alike (is.zip items)).next fun fs => ?_
  intro r n sees
  refine ⟨⟨unit, ss, fs⟩, r, ?_, own, rfl, sees⟩
  rw [ends_get_bind, sees.tags]
  exact ends_pure.mpr ⟨rfl, rfl⟩

end Definitions

/-- Files are resolved as the reference does. -/
theorem resolve_eq_reference {unit : Nat} (own : unit ≠ Tag.builtinUnit) (file : Surface.File) (names : List String) :
    (resolve file (names.foldl SymbolTable.intern .start) unit).1 = Reference.resolve unit file := by
  generalize begun : Resolver.start (names.foldl SymbolTable.intern .start) unit file.span = r
  obtain ⟨ready, frames⟩ : @Ready [] r ∧ r.frames = [[], builtins] := begun ▸ start_ready own
  have sees : Sees unit r 0 {} [.basic] := ⟨ready.valid, by rw [← begun]; rfl, by rw [frames]; rfl⟩
  have agrees := program_alike file.items r 0 sees
  have ran : ∀ {result r'}, Ends (program file.items) r result r' →
      (resolve file (names.foldl SymbolTable.intern .start) unit).1 = result := by
    intro result r' ended
    rw [resolve, begun]
    exact congrArg Prod.fst ended
  rw [Agrees] at agrees
  change _ = (·.1) <$> Reference.program unit file.items 0
  split at agrees <;> rename_i ended
  · obtain ⟨p, r', done, own', rfl, -⟩ := agrees
    rw [ran done, ended]
    rfl
  · obtain ⟨r', done⟩ := agrees
    rw [ran done, ended]
    rfl

/-- Name resolution is lexical scoping: a file is resolved to the tree, or refused for the reason, that the
environments of the reference lead to; and all declarations have tags of their own, none of them built in. -/
theorem resolve_lexical {unit : Nat} (own : unit ≠ Tag.builtinUnit) (file : Surface.File) (names : List String) :
    (resolve file (names.foldl SymbolTable.intern .start) unit).1 = Reference.resolve unit file ∧
      ∀ p, Reference.resolve unit file = .ok p → p.minted.Nodup ∧ ∀ t ∈ p.minted, t.isBuiltin = false := by
  have same := resolve_eq_reference own file names
  refine ⟨same, fun p done => ?_⟩
  rw [← same] at done
  obtain ⟨-, -, once, units⟩ := resolve_minted own (Prod.ext done rfl)
  exact ⟨once, fun t member => by rw [Tag.isBuiltin, units t member, beq_eq_false_iff_ne]; exact own⟩

/-- A function with a parameter that is bound anew twice, each time to what it was before. -/
def shadowFile : Surface.File :=
  ⟨{}, [.func ⟨{}, "f", {}, [], [⟨{}, .var {} "x", .named {} "F64"⟩], .named {} "F64",
    .block {} [⟨{}, .var {} "x", .var {} "x"⟩, ⟨{}, .var {} "x", .var {} "x"⟩] (.var {} "x")⟩]⟩

/-- What the file says, with the variables told apart. -/
def shadowProgram : Program :=
  let x (n : Nat) : Ident := ⟨⟨1, n⟩, "x", false⟩
  let number : TypeExpr := .named {} ⟨.float, "F64", true⟩ []
  ⟨1, [], [⟨{}, ⟨⟨1, 0⟩, "f", true⟩, [], [⟨{}, .var {} (x 1), number⟩], number,
    .block {} [⟨{}, .var {} (x 2), .var {} (x 1)⟩, ⟨{}, .var {} (x 3), .var {} (x 2)⟩] (.var {} (x 3))⟩]⟩

/-- The latest binding wins, and no value sees what it is bound to. -/
theorem shadowFile_resolved : (1 : Nat) ≠ Tag.builtinUnit ∧ (resolve shadowFile .start 1).1 = .ok shadowProgram ∧
    shadowProgram.minted = [⟨1, 0⟩, ⟨1, 1⟩, ⟨1, 2⟩, ⟨1, 3⟩] ∧ shadowProgram.minted.Nodup := by
  have own : (1 : Nat) ≠ Tag.builtinUnit := by decide
  have done : Reference.resolve 1 shadowFile = .ok shadowProgram := rfl
  obtain ⟨same, distinct⟩ := resolve_lexical own shadowFile []
  exact ⟨own, same.trans done, rfl, (distinct _ done).1⟩

end WitnessLang.Resolved
