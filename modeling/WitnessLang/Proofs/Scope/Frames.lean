import Mathlib.Data.List.Perm.Subperm
import WitnessLang.Scope.Table

set_option autoImplicit false

namespace WitnessLang

namespace NameIndex

variable {x : NameIndex} {name : String} {id : Nat}

theorem bucket_cons (e : String × List Nat) (x : NameIndex) (name : String) :
    bucket (e :: x) name = if name = e.1 then e.2 else bucket x name := by
  rw [bucket, List.lookup_cons]
  by_cases same : name = e.1
  · simp [same]
  · rw [if_neg same, beq_false_of_ne same]
    rfl

theorem add_cons (e : String × List Nat) (x : NameIndex) :
    add name id (e :: x) = if name = e.1 then (e.1, e.2 ++ [id]) :: x else e :: add name id x := by
  simp [add]

theorem bucket_add (other : String) :
    (x.add name id).bucket other = if other = name then x.bucket other ++ [id] else x.bucket other := by
  induction x with
  | nil => exact bucket_cons (name, [id]) [] other
  | cons e rest ih =>
    rw [add_cons]
    by_cases first : name = e.1
    · rw [if_pos first, bucket_cons, bucket_cons, first]
      split <;> rfl
    · rw [if_neg first, bucket_cons, bucket_cons, ih]
      split
      · rename_i same
        rw [if_neg (fun both => first (both.symm.trans same))]
      · rfl

theorem mem_add {e : String × List Nat} (member : e ∈ x.add name id) {n : Nat} (inside : n ∈ e.2) :
    n = id ∨ ∃ old ∈ x, n ∈ old.2 := by
  induction x with
  | nil =>
    obtain rfl := List.mem_singleton.mp member
    exact Or.inl (List.mem_singleton.mp inside)
  | cons first rest ih =>
    rw [add_cons] at member
    split at member
    · rcases List.mem_cons.mp member with rfl | later
      · exact (List.mem_append.mp inside).symm.imp List.mem_singleton.mp fun old =>
          ⟨first, List.mem_cons_self, old⟩
      · exact Or.inr ⟨e, List.mem_cons_of_mem _ later, inside⟩
    · rcases List.mem_cons.mp member with rfl | later
      · exact Or.inr ⟨e, List.mem_cons_self, inside⟩
      · exact (ih later).imp_right fun ⟨old, there, found⟩ => ⟨old, List.mem_cons_of_mem _ there, found⟩

end NameIndex

namespace SymbolTable

def numbersIn (t : SymbolTable) (scope : Nat) : List Nat := ((t.scope? scope).map (·.symbols)).getD []

/-- The symbols of a scope, in the order of their declaration. -/
def symbolsIn (t : SymbolTable) (scope : Nat) : List Symbol := (t.numbersIn scope).filterMap t.symbol?

/-- Whether there is a symbol of a number, with a name and a kind in the set. -/
def fits (t : SymbolTable) (mask : KindMask) (name : String) (id : Nat) : Bool :=
  (t.symbol? id).any fun s => s.name == name && mask.allows s.kind

/-- Every scope has the symbols of each name in a bucket of the name, in the order of their declaration. -/
def Indexed (t : SymbolTable) : Prop :=
  ∀ id s, t.scope? id = some s → ∀ name,
    s.index.bucket name = s.symbols.filter fun n => (t.symbol? n).any (·.name == name)

/-- Following the links from a scope to the one around it visits the listed scopes and ends. -/
inductive Chained (t : SymbolTable) : Nat → List Nat → Prop where
  | outermost : Chained t 0 []
  | inner {id : Nat} {s : Scope} {outer : List Nat} :
    t.scope? id = some s → Chained t s.parent outer → Chained t id (id :: outer)

section Numbers

variable {t : SymbolTable} {id : Nat}

theorem scope?_eq_some {s : Scope} (found : t.scope? id = some s) : 1 ≤ id ∧ id ≤ t.scopes.size := by
  rw [scope?] at found
  split at found
  · cases found
  · have := (Array.getElem?_eq_some_iff.mp found).1
    omega

theorem exists_scope? (low : 1 ≤ id) (high : id ≤ t.scopes.size) : ∃ s, t.scope? id = some s := by
  rw [scope?, if_neg (by omega)]
  exact ⟨_, Array.getElem?_eq_getElem (by omega)⟩

theorem chained_head {scopes : List Nat} (chained : t.Chained id scopes) : id = scopes.headD 0 := by
  cases chained <;> rfl

end Numbers

section Lookups

variable {t : SymbolTable} {mask : KindMask} {name : String} {id : Nat} {s : Scope}

theorem fits_eq (n : Nat) :
    t.fits mask name n = decide ((t.symbol? n).any (·.name == name) = true ∧ t.hasKind mask n = true) := by
  rw [fits, hasKind, Bool.decide_and, Bool.decide_eq_true, Bool.decide_eq_true]
  cases t.symbol? n <;> rfl

theorem exists_of_fits {n : Nat} (fits : t.fits mask name n = true) :
    ∃ s, t.symbol? n = some s ∧ s.name = name ∧ mask.allows s.kind = true := by
  obtain ⟨s, symbol, both⟩ := (Option.any_eq_true _ _).mp fits
  rw [Bool.and_eq_true, beq_iff_eq] at both
  exact ⟨s, symbol, both⟩

/-- Among the symbols of a scope the index finds the earliest that fits. -/
theorem earliestIn?_eq (indexed : t.Indexed) (found : t.scope? id = some s) :
    t.earliestIn? mask name s = s.symbols.find? (t.fits mask name) := by
  rw [earliestIn?, indexed id s found, List.find?_filter]
  exact congrArg (List.find? · s.symbols) (funext fun n => (fits_eq n).symm)

/-- Among the symbols of a scope the index finds the latest that fits. -/
theorem latestIn?_eq (indexed : t.Indexed) (found : t.scope? id = some s) :
    t.latestIn? mask name s = s.symbols.reverse.find? (t.fits mask name) := by
  rw [latestIn?, indexed id s found, ← List.filter_reverse, List.find?_filter]
  exact congrArg (List.find? · s.symbols.reverse) (funext fun n => (fits_eq n).symm)

/-- With room for every scope on it, the way outwards comes to the first of them in which the name is found. -/
theorem outwards?_eq (indexed : t.Indexed) {scopes : List Nat} (chained : t.Chained id scopes) {room : Nat}
    (enough : scopes.length ≤ room) : t.outwards? mask name room id =
      scopes.findSome? fun scope => (t.numbersIn scope).reverse.find? (t.fits mask name) := by
  induction chained generalizing room with
  | outermost => cases room <;> rfl
  | @inner id s outer found rest ih =>
    obtain ⟨room, rfl⟩ : ∃ less, room = less + 1 := ⟨room - 1, by rw [List.length_cons] at enough; omega⟩
    have own : t.numbersIn id = s.symbols := by rw [numbersIn, found]; rfl
    rw [outwards?, found, List.findSome?_cons, own, ← latestIn?_eq indexed found,
      ← ih (Nat.le_of_succ_le_succ enough)]
    dsimp only
    cases t.latestIn? mask name s <;> rfl

/-- Whatever is come to on the way outwards is a symbol with a kind in the set. -/
theorem exists_of_outwards? {room n : Nat} (found : t.outwards? mask name room id = some n) :
    ∃ s, t.symbol? n = some s ∧ mask.allows s.kind = true := by
  induction room generalizing id with
  | zero => cases found
  | succ room ih =>
    rw [outwards?] at found
    split at found
    · cases found
    · split at found
      · rename_i n' first
        obtain rfl := Option.some.inj found
        have kind : t.hasKind mask n' = true := List.find?_some first
        exact (Option.any_eq_true _ _).mp kind
      · exact ih found

/-- What is found by its number is the first symbol that fits. -/
theorem bind_find?_fits (numbers : List Nat) : (numbers.find? (t.fits mask name)).bind t.symbol? =
    (numbers.filterMap t.symbol?).find? fun s => s.name == name && mask.allows s.kind := by
  rw [List.find?_filterMap]
  rfl

end Lookups

section Growth

variable {t : SymbolTable} {id parent : Nat} {kind : ScopeKind} {span : Span}

/-- A scope with more children and more symbols, each with its name. -/
def grown (children : List Nat) (added : List (String × Nat)) (s : Scope) : Scope :=
  { s with
    children := s.children ++ children
    symbols := s.symbols ++ added.map (·.2)
    index := added.foldl (fun x e => x.add e.1 e.2) s.index }

theorem map_grown_nil (s : Option Scope) : s.map (grown [] []) = s := by
  cases s <;> simp [grown]

theorem numbersIn_addScope (t : SymbolTable) (kind : ScopeKind) (parent : Nat) (span : Span)
    (id : Nat) : (t.addScope kind parent span).1.numbersIn id = t.numbersIn id := by
  simp only [numbersIn, scope?, addScope]
  by_cases zero : id = 0
  · simp [zero]
  · simp only [zero, ↓reduceIte]
    have pushed : ((t.scopes.push { kind, parent, span })[id - 1]?.map (·.symbols)).getD [] =
        (t.scopes[id - 1]?.map (·.symbols)).getD [] := by
      rw [Array.getElem?_push]
      split
      · rename_i last
        simp [last]
      · rfl
    split
    · exact pushed
    · rw [Array.getElem?_modify, ← pushed]
      split
      · rw [Option.map_map]
        rfl
      · rfl

theorem symbolsIn_addScope (t : SymbolTable) (kind : ScopeKind) (parent : Nat) (span : Span)
    (id : Nat) : (t.addScope kind parent span).1.symbolsIn id = t.symbolsIn id := by
  rw [symbolsIn, numbersIn_addScope]
  rfl

theorem size_addScope (t : SymbolTable) (kind : ScopeKind) (parent : Nat) (span : Span) :
    (t.addScope kind parent span).1.scopes.size = t.scopes.size + 1 := by
  simp only [addScope]
  split <;> simp

theorem symbol?_addSymbol_old (t : SymbolTable) (s : Symbol) {id : Nat}
    (old : id ≤ t.symbols.size) : (t.addSymbol s).1.symbol? id = t.symbol? id := by
  simp only [symbol?, addSymbol]
  by_cases zero : id = 0
  · simp [zero]
  · have inside : id - 1 < t.symbols.size := by omega
    simp [zero, Array.getElem?_push_lt inside, Array.getElem?_eq_getElem inside]

theorem symbol?_addSymbol_new (t : SymbolTable) (s : Symbol) :
    (t.addSymbol s).1.symbol? (t.symbols.size + 1) = some s := by
  simp [symbol?, addSymbol]

theorem numbersIn_addSymbol (t : SymbolTable) (s : Symbol) (id : Nat) (there : 1 ≤ s.scope)
    (inside : s.scope ≤ t.scopes.size) :
    (t.addSymbol s).1.numbersIn id =
      if id = s.scope then t.numbersIn id ++ [t.symbols.size + 1] else t.numbersIn id := by
  simp only [numbersIn, scope?, addSymbol,
    Array.getElem?_modify]
  by_cases zero : id = 0
  · have other : ¬ 0 = s.scope := by omega
    simp [zero, other]
  · simp only [zero, ↓reduceIte]
    by_cases same : id = s.scope
    · have bound : s.scope - 1 < t.scopes.size := by omega
      simp [same, Array.getElem?_eq_getElem bound]
    · have other : ¬ s.scope - 1 = id - 1 := by omega
      simp [same, other]

theorem numbersIn_of_scope? {s : Scope} (found : t.scope? id = some s) : t.numbersIn id = s.symbols := by
  rw [numbersIn, found]
  rfl

theorem scope?_addScope (inside : parent ≤ t.scopes.size) : (t.addScope kind parent span).1.scope? id =
    if id = t.scopes.size + 1 then some { kind, parent, span }
    else (t.scope? id).map (grown (if id = parent then [t.scopes.size + 1] else []) []) := by
  by_cases zero : id = 0
  · simp [scope?, zero]
  have pushed : (t.scopes.push { kind, parent, span })[id - 1]? =
      if id = t.scopes.size + 1 then some { kind, parent, span } else t.scope? id := by
    rw [Array.getElem?_push, scope?, if_neg zero]
    have last : id - 1 = t.scopes.size ↔ id = t.scopes.size + 1 := by omega
    simp only [last]
  rw [scope?, if_neg zero, addScope]
  dsimp only
  by_cases top : parent = 0
  · rw [if_pos top, pushed, if_neg (by omega : ¬ id = parent), map_grown_nil]
  rw [if_neg top, Array.getElem?_modify, pushed]
  by_cases last : id = t.scopes.size + 1
  · rw [if_pos last, if_pos last, if_neg (by omega)]
  · rw [if_neg last, if_neg last]
    by_cases same : id = parent
    · rw [if_pos (by omega), if_pos same]
      congr 1
      funext s
      simp [grown]
    · rw [if_neg (by omega), if_neg same, map_grown_nil]

theorem scope?_addSymbol {s : Symbol} (there : 1 ≤ s.scope) : (t.addSymbol s).1.scope? id =
    (t.scope? id).map (grown [] (if id = s.scope then [(s.name, t.symbols.size + 1)] else [])) := by
  by_cases zero : id = 0
  · simp [scope?, zero]
  rw [scope?, scope?, if_neg zero, if_neg zero, addSymbol]
  dsimp only
  rw [Array.getElem?_modify]
  by_cases same : id = s.scope
  · rw [if_pos (by omega), if_pos same]
    congr 1
    funext c
    simp [grown]
  · rw [if_neg (by omega), if_neg same, map_grown_nil]

theorem scope?_addSymbol_old {s : Symbol} (there : 1 ≤ s.scope) {c : Scope} (found : t.scope? id = some c) :
    (t.addSymbol s).1.scope? id = some (grown [] (if id = s.scope then [(s.name, t.symbols.size + 1)] else []) c) := by
  rw [scope?_addSymbol there, found, Option.map_some]

/-- A scope is the one that was opened, or it was there before. -/
theorem scope?_of_addScope (inside : parent ≤ t.scopes.size) {s : Scope}
    (found : (t.addScope kind parent span).1.scope? id = some s) :
    id = t.scopes.size + 1 ∧ s = { kind, parent, span } ∨
      ∃ s₀, t.scope? id = some s₀ ∧ s = grown (if id = parent then [t.scopes.size + 1] else []) [] s₀ := by
  rw [scope?_addScope inside] at found
  split at found
  · exact Or.inl ⟨‹_›, (Option.some.inj found).symm⟩
  · obtain ⟨s₀, there, rfl⟩ := Option.map_eq_some_iff.mp found
    exact Or.inr ⟨s₀, there, rfl⟩

theorem scope?_addScope_old (inside : parent ≤ t.scopes.size) {s : Scope} (found : t.scope? id = some s) :
    (t.addScope kind parent span).1.scope? id =
      some (grown (if id = parent then [t.scopes.size + 1] else []) [] s) := by
  have bounds := scope?_eq_some found
  rw [scope?_addScope inside, if_neg (by omega), found, Option.map_some]

theorem Chained.grows {t' : SymbolTable} {scopes : List Nat} (chained : t.Chained id scopes)
    (kept : ∀ id s, t.scope? id = some s → ∃ children added, t'.scope? id = some (grown children added s)) :
    t'.Chained id scopes := by
  induction chained with
  | outermost => exact .outermost
  | inner found _ ih =>
    obtain ⟨children, added, there⟩ := kept _ _ found
    exact .inner there ih

theorem Indexed.addScope (indexed : t.Indexed) (inside : parent ≤ t.scopes.size) :
    (t.addScope kind parent span).1.Indexed := by
  intro id s found name
  rcases scope?_of_addScope inside found with ⟨-, rfl⟩ | ⟨s₀, there, rfl⟩
  · rfl
  · rw [grown, List.map_nil, List.append_nil]
    exact indexed id s₀ there name

/-- A new symbol goes to the end of the list of its scope and to the end of the bucket of its name. -/
theorem Indexed.addSymbol (indexed : t.Indexed) (listed : ∀ scope, ∀ n ∈ t.numbersIn scope, n ≤ t.symbols.size)
    {s : Symbol} (there : 1 ≤ s.scope) : (t.addSymbol s).1.Indexed := by
  intro id c found name
  rw [scope?_addSymbol there] at found
  obtain ⟨c₀, before, rfl⟩ := Option.map_eq_some_iff.mp found
  have old : (c₀.symbols.filter fun n => ((t.addSymbol s).1.symbol? n).any (·.name == name)) =
      c₀.index.bucket name := by
    rw [indexed id c₀ before name]
    refine List.filter_congr fun n member => ?_
    rw [symbol?_addSymbol_old t s (listed id n (by rwa [numbersIn_of_scope? before]))]
  by_cases own : id = s.scope
  · rw [if_pos own]
    simp only [grown, List.map_cons, List.map_nil, List.foldl_cons, List.foldl_nil, List.filter_append, old]
    rw [NameIndex.bucket_add]
    by_cases same : name = s.name
    · simp [same, symbol?_addSymbol_new]
    · simp [same, Ne.symm same, symbol?_addSymbol_new]
  · rw [if_neg own]
    simpa [grown] using old.symm

end Growth

end SymbolTable

namespace Resolver

open SymbolTable

/-- Scopes and symbols that are referred to exist and are found by their names. The open scopes lie inside each other,
and none is open twice. -/
structure Valid (r : Resolver) : Prop where
  once : r.stack.Nodup
  opened : ∀ id ∈ r.stack, 1 ≤ id ∧ id ≤ r.table.scopes.size
  listed : ∀ scope, ∀ id ∈ r.table.numbersIn scope, 1 ≤ id ∧ id ≤ r.table.symbols.size
  indexed : r.table.Indexed
  chained : r.table.Chained r.current r.stack

/-- The symbols of the open scopes, the innermost first. -/
def frames (r : Resolver) : List (List Symbol) := r.stack.map r.table.symbolsIn

section Operations

variable {r r' : Resolver}

theorem Valid.leave (valid : Valid r) : Valid r.leave where
  once := valid.once.sublist (List.tail_sublist _)
  opened id member := valid.opened id (List.mem_of_mem_tail member)
  listed := valid.listed
  indexed := valid.indexed
  chained := by
    have chained : r.table.Chained (r.stack.headD 0) r.stack := valid.chained
    show r.table.Chained (r.stack.tail.headD 0) r.stack.tail
    cases stack : r.stack with
    | nil => exact .outermost
    | cons scope outer =>
      rw [stack] at chained
      cases chained with
      | inner found rest => exact chained_head rest ▸ rest

theorem Valid.current_le (valid : Valid r) : r.current ≤ r.table.scopes.size := by
  rw [current]
  cases stack : r.stack with
  | nil => exact Nat.zero_le _
  | cons scope outer => exact (valid.opened scope (by rw [stack]; exact List.mem_cons_self)).2

theorem Valid.withTags (valid : Valid r) (tags : TagSource) : Valid { r with tags := tags } :=
  ⟨valid.once, valid.opened, valid.listed, valid.indexed, valid.chained⟩

/-- No scope is open twice, so there are at least as many scopes as are open. -/
theorem Valid.length_stack_le (valid : Valid r) : r.stack.length ≤ r.table.scopes.size := by
  have inside : r.stack ⊆ List.range' 1 r.table.scopes.size := fun id member => by
    have := valid.opened id member
    exact List.mem_range'_1.mpr ⟨this.1, by omega⟩
  simpa using (List.subperm_of_subset valid.once inside).length_le

@[simp] theorem frames_leave (r : Resolver) : r.leave.frames = r.frames.tail := by
  simp [frames, leave, List.map_tail]

theorem Valid.enter (valid : Valid r) (kind : ScopeKind) (span : Span) :
    Valid (r.enter kind span) where
  once := by
    refine List.nodup_cons.mpr ⟨fun member => ?_, valid.once⟩
    have below : r.table.scopes.size + 1 ≤ r.table.scopes.size := (valid.opened _ member).2
    omega
  opened id member := by
    rw [Resolver.enter, size_addScope]
    rcases List.mem_cons.mp member with rfl | old
    · simp
    · have := valid.opened id old
      omega
  listed scope id member := by
    rw [Resolver.enter, numbersIn_addScope] at member
    exact valid.listed scope id member
  indexed := valid.indexed.addScope valid.current_le
  chained := by
    refine .inner ((scope?_addScope valid.current_le).trans (if_pos rfl)) ?_
    exact valid.chained.grows fun id s found => ⟨_, _, scope?_addScope_old valid.current_le found⟩

theorem frames_enter (kind : ScopeKind) (span : Span) :
    (r.enter kind span).frames = [] :: r.frames := by
  have same : ∀ id, (r.table.addScope kind r.current span).1.symbolsIn id = r.table.symbolsIn id :=
    symbolsIn_addScope r.table kind r.current span
  have blank : r.table.symbolsIn (r.table.scopes.size + 1) = [] := by
    simp [SymbolTable.symbolsIn, SymbolTable.numbersIn, SymbolTable.scope?]
  have rest : r.stack.map (r.table.addScope kind r.current span).1.symbolsIn = r.frames :=
    List.map_congr_left fun id _ => same id
  rw [frames, Resolver.enter, List.map_cons, rest, same]
  exact congrArg (· :: r.frames) blank

def newSymbol (r : Resolver) (name : String) (span : Span) (kind : SymbolKind)
    (fields : List String) : Symbol :=
  { name, kind, scope := r.current, span, tag := ⟨r.tags.unit, r.tags.next⟩, fields }

theorem declare_new {name : String} {span : Span} {kind : SymbolKind} {fields : List String}
    {id : Nat} (declared : r.declare name span kind fields = (r', .new id)) :
    (r.table.scope? r.current).isSome ∧
      r' = { r with
        table := (r.table.addSymbol (r.newSymbol name span kind fields)).1
        tags := { r.tags with next := r.tags.next + 1 } } ∧
      id = r.table.symbols.size + 1 := by
  simp only [declare] at declared
  split at declared
  · simp at declared
  · rename_i scope found
    generalize (if kind == .binding then none
      else r.table.earliestIn? (.spaceOf kind) name scope) = taken at declared
    cases taken with
    | some other => simp at declared
    | none =>
      simp only [Prod.mk.injEq, Declared.new.injEq] at declared
      exact ⟨by simp [found], declared.1.symm, declared.2.symm⟩

/-- A declaration adds its symbol to the innermost frame. -/
theorem frames_declare (valid : Valid r) {name : String} {span : Span} {kind : SymbolKind}
    {fields : List String} {id : Nat}
    (declared : r.declare name span kind fields = (r', .new id)) :
    Valid r' ∧ r'.tags = { r.tags with next := r.tags.next + 1 } ∧
      r'.table.symbol? id = some (r.newSymbol name span kind fields) ∧
      ∃ frame outer, r.frames = frame :: outer ∧
        r'.frames = (frame ++ [r.newSymbol name span kind fields]) :: outer := by
  obtain ⟨found, rfl, rfl⟩ := declare_new declared
  have opened : ∃ top rest, r.stack = top :: rest := by
    cases stack : r.stack with
    | nil => simp [current, stack, SymbolTable.scope?] at found
    | cons top rest => exact ⟨top, rest, rfl⟩
  obtain ⟨top, rest, stack⟩ := opened
  have scope : (r.newSymbol name span kind fields).scope = top := by
    simp [newSymbol, current, stack]
  have bounds := valid.opened top (by simp [stack])
  have numbers := fun id => numbersIn_addSymbol r.table (r.newSymbol name span kind fields) id
    (scope ▸ bounds.1) (scope ▸ bounds.2)
  have old : ∀ scope, (r.table.numbersIn scope).filterMap
      (r.table.addSymbol (r.newSymbol name span kind fields)).1.symbol? =
        r.table.symbolsIn scope := by
    intro scope
    refine List.filterMap_congr fun id member => ?_
    exact symbol?_addSymbol_old _ _ (valid.listed scope id member).2
  have chained : (r.table.addSymbol (r.newSymbol name span kind fields)).1.Chained r.current r.stack :=
    valid.chained.grows fun id s found => ⟨_, _, scope?_addSymbol_old (scope ▸ bounds.1) found⟩
  refine ⟨⟨valid.once, ?_, ?_, ?_, chained⟩, rfl, symbol?_addSymbol_new _ _, r.table.symbolsIn top,
    rest.map r.table.symbolsIn, by simp [frames, stack], ?_⟩
  · intro id member
    simpa [SymbolTable.addSymbol] using valid.opened id member
  · intro scope id member
    simp only [SymbolTable.addSymbol, Array.size_push]
    rw [numbers] at member
    split at member
    · rcases List.mem_append.mp member with before | new
      · have := valid.listed scope id before
        omega
      · have := List.mem_singleton.mp new
        omega
    · have := valid.listed scope id member
      omega
  · exact valid.indexed.addSymbol (fun scope id member => (valid.listed scope id member).2) (scope ▸ bounds.1)
  · have apart := (List.nodup_cons.mp (stack ▸ valid.once)).1
    simp only [frames, stack, List.map_cons, List.cons.injEq]
    constructor
    · simp only [SymbolTable.symbolsIn, numbers, scope, ↓reduceIte, List.filterMap_append]
      rw [old]
      simp [symbol?_addSymbol_new, SymbolTable.symbolsIn]
    · refine List.map_congr_left fun id member => ?_
      have other : id ≠ top := fun same => apart (same ▸ member)
      rw [SymbolTable.symbolsIn, numbers, scope, if_neg other, old]

theorem exists_of_lookup? {mask : KindMask} {name : String} {id : Nat} (found : r.lookup? mask name = some id) :
    ∃ s, r.table.symbol? id = some s ∧ mask.allows s.kind = true := by
  rw [Resolver.lookup?] at found
  split at found
  · cases found
  · exact exists_of_outwards? found

/-- What is looked up stands in the innermost open scope in which it is found. -/
theorem Valid.lookup? (valid : Valid r) (mask : KindMask) (name : String) : r.lookup? mask name =
    if mask.bits = 0 then none
    else r.stack.findSome? fun scope => (r.table.numbersIn scope).reverse.find? (r.table.fits mask name) := by
  rw [Resolver.lookup?, outwards?_eq valid.indexed valid.chained valid.length_stack_le]

/-- A name that is found stands in an open scope. -/
theorem Valid.mem_frames_of_lookup (valid : Valid r) {mask : KindMask} {name : String} {id : Nat}
    (found : r.lookup? mask name = some id) :
    ∃ s, r.table.symbol? id = some s ∧ s ∈ r.frames.flatten ∧ s.name = name ∧
      mask.allows s.kind = true := by
  rw [valid.lookup?] at found
  split at found
  · cases found
  · obtain ⟨scope, opened, found⟩ := List.exists_of_findSome?_eq_some found
    have listed := List.mem_reverse.mp (List.mem_of_find?_eq_some found)
    obtain ⟨s, symbol, fits⟩ := exists_of_fits (List.find?_some found)
    refine ⟨s, symbol, List.mem_flatten.mpr ⟨r.table.symbolsIn scope, ?_, ?_⟩, fits⟩
    · exact List.mem_map_of_mem opened
    · exact List.mem_filterMap.mpr ⟨id, listed, symbol⟩

/-- What stands in the way of a declaration is the first symbol of the innermost scope with the name. -/
theorem Valid.bind_earliestIn? (valid : Valid r) (mask : KindMask) (name : String) {scope : Scope}
    (found : r.table.scope? r.current = some scope) : (r.table.earliestIn? mask name scope).bind r.table.symbol? =
      (r.table.symbolsIn r.current).find? fun s => s.name == name && mask.allows s.kind := by
  rw [earliestIn?_eq valid.indexed found, bind_find?_fits, symbolsIn, numbersIn_of_scope? found]

/-- The symbols in sight, the latest of the innermost scope first. -/
def inSight (r : Resolver) : List Symbol := r.frames.flatMap List.reverse

/-- What is looked up is the first symbol in sight that fits. -/
theorem Valid.bind_lookup? (valid : Valid r) {mask : KindMask} (proper : mask.bits ≠ 0) (name : String) :
    (r.lookup? mask name).bind r.table.symbol? =
      r.inSight.find? fun s => s.name == name && mask.allows s.kind := by
  rw [valid.lookup?, if_neg proper, inSight, frames]
  induction r.stack with
  | nil => rfl
  | cons top rest ih =>
    have first := @bind_find?_fits r.table mask name (r.table.numbersIn top).reverse
    rw [List.filterMap_reverse, ← symbolsIn] at first
    rw [List.map_cons, List.flatMap_cons, List.find?_append, ← ih, ← first, List.findSome?_cons]
    cases found : (r.table.numbersIn top).reverse.find? (r.table.fits mask name) with
    | none => rfl
    | some id =>
      obtain ⟨s, symbol, -⟩ := exists_of_fits (List.find?_some found)
      simp [symbol]

end Operations

theorem indexed_start : SymbolTable.start.Indexed := by
  intro id s found name
  have bounds : 1 ≤ id ∧ id ≤ 1 := scope?_eq_some found
  obtain rfl : id = 1 := by omega
  obtain rfl := Option.some.inj found
  show NameIndex.bucket [("F64", [1]), ("Bool", [2])] name =
    [1, 2].filter fun n => (SymbolTable.start.symbol? n).any (·.name == name)
  rw [NameIndex.bucket_cons, NameIndex.bucket_cons]
  by_cases float : name = "F64"
  · rw [float]
    rfl
  by_cases bool : name = "Bool"
  · rw [bool]
    rfl
  rw [if_neg float, if_neg bool]
  have unlike : ∀ n ∈ [1, 2], ¬ (SymbolTable.start.symbol? n).any (·.name == name) = true := by
    simp only [List.mem_cons, List.not_mem_nil, or_false, forall_eq_or_imp, forall_eq]
    exact ⟨fun same => float (beq_iff_eq.mp same).symm, fun same => bool (beq_iff_eq.mp same).symm⟩
  exact (List.filter_eq_nil_iff.mpr unlike).symm

/-- Only the scope of the built-in names is open, whatever texts the table has come across. -/
theorem valid_start {t : SymbolTable} (scopes : t.scopes = SymbolTable.start.scopes)
    (symbols : t.symbols = SymbolTable.start.symbols) (tags : TagSource) :
    Valid ⟨t, tags, [SymbolTable.globalScope]⟩ := by
  have found : ∀ id, t.scope? id = SymbolTable.start.scope? id := fun id => by rw [scope?, scopes]; rfl
  have known : ∀ id, t.symbol? id = SymbolTable.start.symbol? id := fun id => by rw [symbol?, symbols]; rfl
  have first : t.scope? globalScope = SymbolTable.start.scope? 1 := found 1
  refine ⟨by simp, fun id member => ?_, fun scope id member => ?_, fun id s there name => ?_,
    .inner first .outermost⟩
  · obtain rfl := List.mem_singleton.mp member
    rw [scopes]
    exact ⟨Nat.le_refl 1, Nat.le_refl 1⟩
  · rw [numbersIn, found] at member
    rw [symbols]
    rcases scope with _ | _ | n
    · exact absurd member List.not_mem_nil
    · have two : id ∈ [1, 2] := member
      simp only [List.mem_cons, List.not_mem_nil, or_false] at two
      show 1 ≤ id ∧ id ≤ 2
      omega
    · exact absurd member List.not_mem_nil
  · rw [indexed_start id s ((found id).symm.trans there)]
    simp only [known]

end Resolver

end WitnessLang
