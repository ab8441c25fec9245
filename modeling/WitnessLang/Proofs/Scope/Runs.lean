import Mathlib.Data.List.Nodup
import WitnessLang.Proofs.Scope.Frames
import WitnessLang.Scope.Validate

set_option autoImplicit false

/-! What a resolver does over any sequence of requests. Beside it runs a machine that only keeps, for each open scope,
the list of names declared in it. Both accept the same sequences and find the same symbols, and the table the resolver
fills hangs together: links between scopes go both ways, parents come before their children, every symbol is listed in
its scope, and no two symbols share a tag. Such a table has no faults. -/
namespace WitnessLang.SymbolTable

structure Linked (t : SymbolTable) : Prop where
  kinds : ∀ id s, t.scope? id = some s → s.kind ≠ .invalid
  parents : ∀ id s, t.scope? id = some s → s.parent < id ∧
    (s.parent ≠ 0 → ∃ p, t.scope? s.parent = some p ∧ id ∈ p.children)
  children : ∀ id s, t.scope? id = some s → ∀ child ∈ s.children,
    id < child ∧ ∃ c, t.scope? child = some c ∧ c.parent = id
  indexed : ∀ id s, t.scope? id = some s → ∀ e ∈ s.index, ∀ n ∈ e.2, n ∈ s.symbols
  listed : ∀ id s, t.symbol? id = some s → ∃ c, t.scope? s.scope = some c ∧ id ∈ c.symbols
  tags : (t.symbols.toList.map (·.tag)).Nodup

section Numbers

variable {t : SymbolTable} {id : Nat}

theorem symbol?_eq_some {s : Symbol} (found : t.symbol? id = some s) :
    1 ≤ id ∧ id ≤ t.symbols.size ∧ (t.symbols.toList.map (·.tag))[id - 1]? = some s.tag := by
  rw [symbol?] at found
  split at found
  · cases found
  · have inside := (Array.getElem?_eq_some_iff.mp found).1
    refine ⟨by omega, by omega, ?_⟩
    rw [List.getElem?_map, Array.getElem?_toList, found]
    rfl

end Numbers

section Faults

variable {t : SymbolTable} (linked : Linked t) {id : Nat}

include linked

theorem Linked.childFaults {s : Scope} (found : t.scope? id = some s) : t.childFaults id s = [] := by
  refine List.flatMap_eq_nil_iff.mpr fun child member => ?_
  obtain ⟨later, c, there, back⟩ := linked.children id s found child member
  have bounds := scope?_eq_some there
  have inside : ¬ (t.scopes.size < child || child = id) = true := by
    rw [Bool.or_eq_true, decide_eq_true_eq, decide_eq_true_eq]
    omega
  rw [if_neg inside, there]
  exact if_pos back

theorem Linked.indexFaults {s : Scope} (found : t.scope? id = some s) : t.indexFaults id s = [] := by
  refine List.flatMap_eq_nil_iff.mpr fun e member => ?_
  rw [List.map_eq_nil_iff, List.filter_eq_nil_iff]
  intro n inside missing
  simp [linked.indexed id s found e member n inside] at missing

theorem Linked.scopeFaults {s : Scope} (found : t.scope? id = some s) : t.scopeFaults id s = [] := by
  obtain ⟨earlier, linkedBack⟩ := linked.parents id s found
  have bounds := scope?_eq_some found
  have parent : ¬ (s.parent != 0 && (t.scopes.size < s.parent || s.parent = id)) = true := by
    simp only [Bool.and_eq_true, bne_iff_ne, Bool.or_eq_true, decide_eq_true_eq]
    omega
  rw [SymbolTable.scopeFaults, if_neg (linked.kinds id s found), if_neg parent, linked.childFaults found,
    linked.indexFaults found]
  by_cases none : s.parent = 0
  · simp [none, scope?]
  · obtain ⟨p, there, member⟩ := linkedBack none
    simp [there, member]

theorem Linked.symbolFaults {s : Symbol} (found : t.symbol? id = some s) : t.symbolFaults id s = [] := by
  obtain ⟨c, there, member⟩ := linked.listed id s found
  obtain ⟨low, high, own⟩ := symbol?_eq_some found
  have first : t.earlierWithTag? id s.tag = none := by
    rw [earlierWithTag?, List.find?_eq_none]
    intro n earlier
    rw [List.mem_reverse, List.mem_range'_1] at earlier
    cases other : t.symbol? n with
    | none => exact Bool.false_ne_true
    | some x =>
      obtain ⟨-, -, tag⟩ := symbol?_eq_some other
      intro same
      rw [beq_iff_eq] at same
      -- Two places of a list without repetitions hold different tags.
      have apart := (List.nodup_iff_getElem?_ne_getElem?.mp linked.tags) (n - 1) (id - 1) (by omega)
        (by simpa using (by omega : id - 1 < t.symbols.size))
      exact apart (by rw [tag, own, same])
  rw [SymbolTable.symbolFaults, first, there]
  simp [member]

theorem Linked.faults : t.faults = [] := by
  rw [SymbolTable.faults, List.append_eq_nil_iff, List.flatMap_eq_nil_iff, List.flatMap_eq_nil_iff]
  constructor
  · intro id _
    cases found : t.scope? id with
    | none => rfl
    | some s => exact linked.scopeFaults found
  · intro id _
    cases found : t.symbol? id with
    | none => rfl
    | some s => exact linked.symbolFaults found

end Faults

section Growth

variable {t : SymbolTable} {id parent : Nat} {kind : ScopeKind} {span : Span}

/-- Opening a scope inside another one, or inside none. -/
theorem Linked.addScope (linked : Linked t) (proper : kind ≠ .invalid) (inside : parent ≤ t.scopes.size) :
    Linked (t.addScope kind parent span).1 where
  kinds id s found := by
    rcases scope?_of_addScope inside found with ⟨-, rfl⟩ | ⟨s₀, there, rfl⟩
    · exact proper
    · exact linked.kinds id s₀ there
  parents id s found := by
    rcases scope?_of_addScope inside found with ⟨rfl, rfl⟩ | ⟨s₀, there, rfl⟩
    · refine ⟨Nat.lt_succ_of_le inside, fun some => ?_⟩
      obtain ⟨p, above⟩ := exists_scope? (Nat.one_le_iff_ne_zero.mpr some) inside
      exact ⟨_, scope?_addScope_old inside above, by simp [grown]⟩
    · obtain ⟨earlier, back⟩ := linked.parents id s₀ there
      refine ⟨earlier, fun some => ?_⟩
      obtain ⟨p, above, member⟩ := back some
      exact ⟨_, scope?_addScope_old inside above, List.mem_append_left _ member⟩
  children id s found child member := by
    rcases scope?_of_addScope inside found with ⟨-, rfl⟩ | ⟨s₀, there, rfl⟩
    · cases member
    rcases List.mem_append.mp member with old | new
    · obtain ⟨later, c, below, back⟩ := linked.children id s₀ there child old
      exact ⟨later, _, scope?_addScope_old inside below, back⟩
    · split at new
      · rename_i same
        obtain rfl := List.mem_singleton.mp new
        have bounds := scope?_eq_some there
        exact ⟨by omega, _, by rw [scope?_addScope inside, if_pos rfl], same.symm⟩
      · cases new
  indexed id s found e member n inBucket := by
    rcases scope?_of_addScope inside found with ⟨-, rfl⟩ | ⟨s₀, there, rfl⟩
    · cases member
    · exact List.mem_append_left _ (linked.indexed id s₀ there e member n inBucket)
  listed id s found := by
    obtain ⟨c, there, member⟩ := linked.listed id s found
    exact ⟨_, scope?_addScope_old inside there, List.mem_append_left _ member⟩
  tags := linked.tags

/-- Adding a symbol with a tag of its own to a scope. -/
theorem Linked.addSymbol (linked : Linked t) {s : Symbol} (low : 1 ≤ s.scope) (high : s.scope ≤ t.scopes.size)
    (fresh : ∀ x ∈ t.symbols.toList, x.tag ≠ s.tag) : Linked (t.addSymbol s).1 := by
  have before : ∀ {id c}, (t.addSymbol s).1.scope? id = some c → ∃ c₀, t.scope? id = some c₀ ∧
      c = grown [] (if id = s.scope then [(s.name, t.symbols.size + 1)] else []) c₀ := fun found => by
    rw [scope?_addSymbol low] at found
    obtain ⟨c₀, there, rfl⟩ := Option.map_eq_some_iff.mp found
    exact ⟨c₀, there, rfl⟩
  refine ⟨fun id c found => ?_, fun id c found => ?_, fun id c found child member => ?_,
    fun id c found e member n inBucket => ?_, fun id x found => ?_, ?_⟩
  · obtain ⟨c₀, there, rfl⟩ := before found
    exact linked.kinds id c₀ there
  · obtain ⟨c₀, there, rfl⟩ := before found
    obtain ⟨earlier, back⟩ := linked.parents id c₀ there
    refine ⟨earlier, fun some => ?_⟩
    obtain ⟨p, above, member⟩ := back some
    exact ⟨_, scope?_addSymbol_old low above, List.mem_append_left _ member⟩
  · obtain ⟨c₀, there, rfl⟩ := before found
    have own : child ∈ c₀.children := by simpa [grown] using member
    obtain ⟨later, x, below, back⟩ := linked.children id c₀ there child own
    exact ⟨later, _, scope?_addSymbol_old low below, back⟩
  · obtain ⟨c₀, there, rfl⟩ := before found
    by_cases own : id = s.scope
    · rw [if_pos own] at member ⊢
      rcases NameIndex.mem_add member inBucket with rfl | ⟨old, inIndex, inBucket⟩
      · exact List.mem_append_right _ (List.mem_singleton.mpr rfl)
      · exact List.mem_append_left _ (linked.indexed id c₀ there old inIndex n inBucket)
    · rw [if_neg own] at member
      exact List.mem_append_left _ (linked.indexed id c₀ there e member n inBucket)
  · by_cases old : id ≤ t.symbols.size
    · rw [symbol?_addSymbol_old t s old] at found
      obtain ⟨c, there, member⟩ := linked.listed id x found
      exact ⟨_, scope?_addSymbol_old low there, List.mem_append_left _ member⟩
    · have bound := (symbol?_eq_some found).2.1
      simp only [SymbolTable.addSymbol, Array.size_push] at bound
      obtain rfl : id = t.symbols.size + 1 := by omega
      rw [symbol?_addSymbol_new] at found
      obtain rfl := Option.some.inj found
      obtain ⟨c, there⟩ := exists_scope? low high
      exact ⟨_, scope?_addSymbol_old low there, by simp [grown]⟩
  · rw [SymbolTable.addSymbol, Array.toList_push, List.map_append, List.nodup_append']
    refine ⟨linked.tags, List.nodup_singleton _, fun tag old new => ?_⟩
    obtain ⟨x, member, rfl⟩ := List.mem_map.mp old
    exact fresh x member (List.mem_singleton.mp new)

end Growth

end WitnessLang.SymbolTable

namespace WitnessLang

open SymbolTable (Linked)

/-- A symbol as a list of declared names has it. -/
structure Binding where
  number : Nat
  name : String
  kind : SymbolKind
  deriving DecidableEq, Repr

/-- Whether a symbol has a name and a kind in a set. -/
def Binding.Fits (mask : KindMask) (name : String) (x : Binding) : Prop := x.name = name ∧ mask.allows x.kind = true

instance (mask : KindMask) (name : String) (x : Binding) : Decidable (x.Fits mask name) :=
  inferInstanceAs (Decidable (_ ∧ _))

/-- The names declared in the open scopes. The innermost scope comes first, and in a scope the latest symbol. -/
structure NameLists where
  scopes : List (List Binding)
  /-- How many symbols were declared so far. -/
  count : Nat
  deriving DecidableEq, Repr

inductive Request where
  | enter (kind : ScopeKind) (span : Span)
  /-- Closing the innermost scope. -/
  | leave
  | value (name : String) (span : Span) (kind : SymbolKind)
  | generic (name : String) (span : Span)
  | struct (name : String) (span : Span) (fields : List String)

/-- Scopes have a kind, and values are functions, parameters or bindings. -/
def Request.Proper : Request → Prop
  | .enter kind _ => kind ≠ .invalid
  | .value _ _ kind => KindMask.values.allows kind = true
  | .leave | .generic _ _ | .struct _ _ _ => True

instance : DecidablePred Request.Proper
  | .enter kind _ => inferInstanceAs (Decidable (kind ≠ .invalid))
  | .value _ _ kind => inferInstanceAs (Decidable (KindMask.values.allows kind = true))
  | .leave | .generic _ _ | .struct _ _ _ => .isTrue trivial

namespace NameLists

/-- The built-in types, and the scope of a file in which nothing is declared yet. -/
def start : NameLists := ⟨[[], [⟨2, "Bool", .type⟩, ⟨1, "F64", .type⟩]], 2⟩

/-- Declares a name in the innermost scope, unless it is taken there. A binding takes over any name. -/
def declare (b : NameLists) (name : String) (kind : SymbolKind) : NameLists :=
  match b.scopes with
  | [] => b
  | scope :: outer =>
    if kind ≠ .binding ∧ ∃ x ∈ scope, x.Fits (.spaceOf kind) name then b
    else ⟨(⟨b.count + 1, name, kind⟩ :: scope) :: outer, b.count + 1⟩

/-- Carries out a request. Closing a scope fails when none is open. -/
def perform (b : NameLists) : Request → Option NameLists
  | .enter _ _ => some { b with scopes := [] :: b.scopes }
  | .leave =>
    match b.scopes with
    | [] => none
    | _ :: outer => some { b with scopes := outer }
  | .value name _ kind => some (b.declare name kind)
  | .generic name _ => some (b.declare name .generic)
  | .struct name _ _ => some (b.declare name .struct)

def runs (b : NameLists) (requests : List Request) : Option NameLists := requests.foldlM perform b

/-- The first symbol that fits in the innermost scope that has one. -/
def lookup? (b : NameLists) (mask : KindMask) (name : String) : Option Nat :=
  b.scopes.findSome? fun scope => (scope.find? (·.Fits mask name)).map (·.number)

end NameLists

/-- The names declared in a scope, the latest first. -/
def SymbolTable.bindingsIn (t : SymbolTable) (scope : Nat) : List Binding :=
  (t.numbersIn scope).reverse.filterMap fun id => (t.symbol? id).map fun s => ⟨id, s.name, s.kind⟩

namespace Resolver

open SymbolTable

/-- Carries out a request. What became of a declaration comes with the resolver after it. -/
def perform (r : Resolver) : Request → Except ScopeFault (Resolver × Option Declared)
  | .enter kind span => .ok (r.enter kind span, none)
  | .leave => (r.leaveChecked r.current).map (·, none)
  | .value name span kind => (r.declareVariable name span kind).map (Prod.map id some)
  | .generic name span => .ok ((r.declare name span .generic).map id some)
  | .struct name span fields => .ok ((r.declare name span .struct fields).map id some)

def runs (r : Resolver) (requests : List Request) : Except ScopeFault Resolver :=
  requests.foldlM (fun r request => (r.perform request).map (·.1)) r

def bindings (r : Resolver) : NameLists := ⟨r.stack.map r.table.bindingsIn, r.table.symbols.size⟩

/-- The table hangs together, the open scopes lie inside each other, and tags to come are new. -/
structure Coherent (r : Resolver) : Prop where
  linked : Linked r.table
  valid : r.Valid
  foreign : r.tags.unit ≠ Tag.builtinUnit
  minted : ∀ s ∈ r.table.symbols.toList,
    s.tag.unit = Tag.builtinUnit ∨ s.tag.unit = r.tags.unit ∧ s.tag.key < r.tags.next

section Lookups

variable {t : SymbolTable} {r : Resolver} {mask : KindMask} {name : String}

theorem mem_bindingsIn {scope : Nat} {x : Binding} : x ∈ t.bindingsIn scope ↔
    x.number ∈ t.numbersIn scope ∧ ∃ s, t.symbol? x.number = some s ∧ s.name = x.name ∧ s.kind = x.kind := by
  rw [SymbolTable.bindingsIn, List.mem_filterMap]
  constructor
  · rintro ⟨id, member, found⟩
    obtain ⟨s, symbol, rfl⟩ := Option.map_eq_some_iff.mp found
    exact ⟨List.mem_reverse.mp member, s, symbol, rfl, rfl⟩
  · rintro ⟨member, s, symbol, sameName, sameKind⟩
    exact ⟨x.number, List.mem_reverse.mpr member, by rw [symbol, Option.map_some, sameName, sameKind]⟩

/-- A name is free in a scope when no symbol of it fits. -/
theorem earliestIn?_eq_none (indexed : t.Indexed) {id : Nat} {scope : Scope} (there : t.scope? id = some scope) :
    t.earliestIn? mask name scope = none ↔ ¬ ∃ x ∈ t.bindingsIn id, x.Fits mask name := by
  rw [earliestIn?_eq indexed there, ← numbersIn_of_scope? there, List.find?_eq_none]
  constructor
  · rintro free ⟨x, member, fits⟩
    obtain ⟨listed, s, symbol, sameName, sameKind⟩ := mem_bindingsIn.mp member
    have other := free x.number listed
    rw [SymbolTable.fits, symbol] at other
    simp [sameName, sameKind, fits.1, fits.2] at other
  · intro free id member fits
    obtain ⟨s, symbol, fits⟩ := exists_of_fits fits
    exact free ⟨⟨id, s.name, s.kind⟩, mem_bindingsIn.mpr ⟨member, s, symbol, rfl, rfl⟩, fits⟩

theorem find?_fits_eq (scope : Nat) : (t.numbersIn scope).reverse.find? (t.fits mask name) =
    ((t.bindingsIn scope).find? (·.Fits mask name)).map (·.number) := by
  rw [SymbolTable.bindingsIn]
  induction (t.numbersIn scope).reverse with
  | nil => rfl
  | cons id rest ih =>
    rw [List.filterMap_cons]
    cases symbol : t.symbol? id with
    | none =>
      rw [List.find?_cons_of_neg (by simp [SymbolTable.fits, symbol])]
      exact ih
    | some s =>
      dsimp only [Option.map_some]
      have same : t.fits mask name id = true ↔ Binding.Fits mask name ⟨id, s.name, s.kind⟩ := by
        rw [SymbolTable.fits, symbol, Option.any_some, Bool.and_eq_true, beq_iff_eq]
        rfl
      by_cases fits : Binding.Fits mask name ⟨id, s.name, s.kind⟩
      · rw [List.find?_cons_of_pos (same.mpr fits), List.find?_cons_of_pos (by exact decide_eq_true fits)]
        rfl
      · rw [List.find?_cons_of_neg (mt same.mp fits), List.find?_cons_of_neg (by exact mt of_decide_eq_true fits), ih]

/-- No kind is in the empty set. -/
theorem allows_empty (empty : mask.bits = 0) (kind : SymbolKind) : mask.allows kind = false := by
  have unlike : (mask == KindMask.any) = false := by
    rw [beq_eq_false_iff_ne]
    rintro rfl
    exact absurd empty (by decide)
  rw [KindMask.allows, unlike, empty, Nat.zero_and]
  rfl

theorem lookup?_eq (valid : r.Valid) : r.lookup? mask name = r.bindings.lookup? mask name := by
  rw [valid.lookup?, NameLists.lookup?, bindings, List.findSome?_map]
  by_cases empty : mask.bits = 0
  · rw [if_pos empty, Eq.comm, List.findSome?_eq_none_iff]
    intro scope _
    rw [Function.comp_apply, Option.map_eq_none_iff, List.find?_eq_none]
    intro x _ fits
    exact Bool.false_ne_true ((allows_empty empty x.kind).symm.trans (of_decide_eq_true fits).2)
  · rw [if_neg empty]
    congr 1
    funext scope
    exact find?_fits_eq scope

end Lookups

section Requests

variable {r s : Resolver} {name : String} {span : Span} {kind : SymbolKind} {fields : List String}

theorem bindingsIn_enter (kind : ScopeKind) (span : Span) :
    (r.enter kind span).table.bindingsIn = r.table.bindingsIn := by
  funext scope
  rw [SymbolTable.bindingsIn, Resolver.enter, numbersIn_addScope]
  rfl

theorem bindings_enter (kind : ScopeKind) (span : Span) :
    (r.enter kind span).bindings = { r.bindings with scopes := [] :: r.bindings.scopes } := by
  have blank : r.table.bindingsIn (r.table.scopes.size + 1) = [] := by
    simp [SymbolTable.bindingsIn, SymbolTable.numbersIn, SymbolTable.scope?]
  rw [bindings, bindingsIn_enter, Resolver.enter, List.map_cons]
  exact congrArg (fun first => (⟨first :: _, _⟩ : NameLists)) blank

/-- A declaration either changes nothing or adds a symbol. -/
theorem declare_cases (valid : r.Valid) (name : String) (span : Span) (kind : SymbolKind) (fields : List String) :
    (r.declare name span kind fields).1 = r ∧ (∀ id, (r.declare name span kind fields).2 ≠ .new id) ∧
        (r.table.scope? r.current = none ∨
          kind ≠ .binding ∧ ∃ x ∈ r.table.bindingsIn r.current, x.Fits (.spaceOf kind) name) ∨
      ∃ id, r.declare name span kind fields = ((r.declare name span kind fields).1, .new id) ∧
        ¬ (kind ≠ .binding ∧ ∃ x ∈ r.table.bindingsIn r.current, x.Fits (.spaceOf kind) name) := by
  rw [declare]
  cases there : r.table.scope? r.current with
  | none => exact Or.inl ⟨rfl, fun id => Declared.noConfusion, Or.inl rfl⟩
  | some scope =>
    have free := @earliestIn?_eq_none _ (.spaceOf kind) name valid.indexed _ _ there
    by_cases takes : kind = .binding
    · refine Or.inr ⟨r.table.symbols.size + 1, ?_, fun taken => taken.1 takes⟩
      simp [takes, SymbolTable.addSymbol]
    cases earliest : r.table.earliestIn? (.spaceOf kind) name scope with
    | some id =>
      refine Or.inl ?_
      have taken := Classical.not_not.mp (mt free.mpr (by rw [earliest]; exact Option.some_ne_none id))
      simpa [takes, earliest] using taken
    | none =>
      refine Or.inr ⟨r.table.symbols.size + 1, ?_, fun taken => free.mp earliest taken.2⟩
      simp [takes, earliest, SymbolTable.addSymbol]

/-- A scope shows the symbols it showed before, and the one a symbol is added to also that symbol. -/
theorem bindingsIn_addSymbol (valid : Valid r) {x : Symbol} (low : 1 ≤ x.scope) (high : x.scope ≤ r.table.scopes.size)
    (scope : Nat) : (r.table.addSymbol x).1.bindingsIn scope =
      (if scope = x.scope then [⟨r.table.symbols.size + 1, x.name, x.kind⟩] else []) ++ r.table.bindingsIn scope := by
  have old : (r.table.numbersIn scope).reverse.filterMap (fun number =>
      ((r.table.addSymbol x).1.symbol? number).map fun s => (⟨number, s.name, s.kind⟩ : Binding)) =
        r.table.bindingsIn scope := by
    refine List.filterMap_congr fun number member => ?_
    rw [symbol?_addSymbol_old _ _ (valid.listed scope number (List.mem_reverse.mp member)).2]
  rw [SymbolTable.bindingsIn, numbersIn_addSymbol _ _ _ low high]
  by_cases same : scope = x.scope
  · rw [if_pos same, if_pos same, List.reverse_append, List.filterMap_append, old]
    simp [symbol?_addSymbol_new]
  · rw [if_neg same, if_neg same, old, List.nil_append]

/-- A declaration that succeeds happens in an open scope. -/
theorem declare_opened (valid : Valid r) {id : Nat} (new : r.declare name span kind fields = (s, .new id)) :
    ∃ outer, r.stack = r.current :: outer ∧ 1 ≤ r.current ∧ r.current ≤ r.table.scopes.size := by
  obtain ⟨found, -, -⟩ := declare_new new
  cases stack : r.stack with
  | nil => simp [current, stack, SymbolTable.scope?] at found
  | cons scope outer =>
    have top : r.current = scope := by rw [current, stack, List.headD_cons]
    rw [top]
    exact ⟨outer, rfl, valid.opened scope (by rw [stack]; exact List.mem_cons_self)⟩

/-- A declaration leaves the scopes around the innermost one as they were. -/
theorem bindingsIn_declare (valid : Valid r) {scope : Nat} (other : scope ≠ r.current) :
    (r.declare name span kind fields).1.table.bindingsIn scope = r.table.bindingsIn scope := by
  rcases declare_cases valid name span kind fields with ⟨same, -, -⟩ | ⟨id, new, -⟩
  · rw [same]
  · obtain ⟨outer, -, low, high⟩ := declare_opened valid new
    obtain ⟨-, next, -⟩ := declare_new new
    rw [next]
    rw [bindingsIn_addSymbol valid low high]
    exact congrArg (· ++ _) (if_neg other)

theorem stack_declare (valid : r.Valid) : (r.declare name span kind fields).1.stack = r.stack := by
  rcases declare_cases valid name span kind fields with ⟨same, -, -⟩ | ⟨id, new, -⟩
  · rw [same]
  · obtain ⟨-, next, -⟩ := declare_new new
    rw [next]

theorem bindings_declare (valid : Valid r) :
    (r.declare name span kind fields).1.bindings = r.bindings.declare name kind := by
  rcases declare_cases valid name span kind fields with ⟨same, -, closed⟩ | ⟨id, new, free⟩
  · rw [same, NameLists.declare, bindings]
    cases stack : r.stack with
    | nil => rfl
    | cons scope outer =>
      have top : r.current = scope := by rw [current, stack, List.headD_cons]
      rw [top] at closed
      rcases closed with closed | taken
      · obtain ⟨low, high⟩ := valid.opened scope (by rw [stack]; exact List.mem_cons_self)
        obtain ⟨s, found⟩ := SymbolTable.exists_scope? low high
        rw [found] at closed
        cases closed
      · exact (if_pos taken).symm
  · obtain ⟨outer, stack, low, high⟩ := declare_opened valid new
    have shown : ∀ scope, (r.table.addSymbol (r.newSymbol name span kind fields)).1.bindingsIn scope =
        (if scope = r.current then [⟨r.table.symbols.size + 1, name, kind⟩] else []) ++ r.table.bindingsIn scope :=
      bindingsIn_addSymbol valid low high
    have apart : r.current ∉ outer := (List.nodup_cons.mp (stack ▸ valid.once)).1
    have rest : outer.map (r.table.addSymbol (r.newSymbol name span kind fields)).1.bindingsIn =
        outer.map r.table.bindingsIn := by
      refine List.map_congr_left fun id member => ?_
      rw [shown, if_neg (ne_of_mem_of_not_mem member apart), List.nil_append]
    obtain ⟨-, next, -⟩ := declare_new new
    rw [next, NameLists.declare, bindings, bindings, stack, List.map_cons, List.map_cons, rest, shown]
    dsimp only
    rw [if_neg free]
    simp [SymbolTable.addSymbol, newSymbol]

end Requests

section Steps

variable {r s : Resolver} {name : String} {span : Span} {kind : SymbolKind} {fields : List String}

theorem Coherent.enter (coherent : Coherent r) {kind : ScopeKind} (proper : kind ≠ .invalid) (span : Span) :
    Coherent (r.enter kind span) where
  linked := coherent.linked.addScope proper coherent.valid.current_le
  valid := coherent.valid.enter kind span
  foreign := coherent.foreign
  minted := coherent.minted

theorem Coherent.leave (coherent : Coherent r) : Coherent r.leave where
  linked := coherent.linked
  valid := coherent.valid.leave
  foreign := coherent.foreign
  minted := coherent.minted

theorem Coherent.declare (coherent : Coherent r) : Coherent (r.declare name span kind fields).1 := by
  rcases declare_cases coherent.valid name span kind fields with ⟨same, -, -⟩ | ⟨id, new, -⟩
  · rw [same]
    exact coherent
  obtain ⟨outer, -, low, high⟩ := declare_opened coherent.valid new
  obtain ⟨-, next, -⟩ := declare_new new
  have fresh : ∀ x ∈ r.table.symbols.toList, x.tag ≠ ⟨r.tags.unit, r.tags.next⟩ := by
    intro x member same
    rcases coherent.minted x member with builtin | ⟨-, earlier⟩
    · exact coherent.foreign (by rw [← builtin, same])
    · rw [same] at earlier
      exact Nat.lt_irrefl _ earlier
  have valid := (frames_declare coherent.valid new).1
  rw [next] at valid ⊢
  refine ⟨coherent.linked.addSymbol low high fresh, valid, coherent.foreign, fun x member => ?_⟩
  rw [SymbolTable.addSymbol, Array.toList_push, List.mem_append, List.mem_singleton] at member
  rcases member with old | rfl
  · refine (coherent.minted x old).imp_right (And.imp_right Nat.lt_succ_of_lt)
  · exact Or.inr ⟨rfl, Nat.lt_succ_self _⟩

theorem perform_leave : r.perform .leave = if r.stack = [] then .error .leaveEmpty else .ok (r.leave, none) := by
  rw [perform, leaveChecked, current, Resolver.leave]
  cases r.stack with
  | nil => rfl
  | cons scope outer => simp [Except.map]

/-- A proper request is carried out the same way on lists of names. Only closing a scope that is not there fails. -/
theorem Coherent.perform (coherent : Coherent r) {request : Request} (proper : request.Proper) :
    (∃ s declared, r.perform request = .ok (s, declared) ∧ Coherent s ∧
        r.bindings.perform request = some s.bindings) ∨
      r.perform request = .error .leaveEmpty ∧ r.bindings.perform request = none := by
  cases request with
  | enter kind span =>
    exact Or.inl ⟨_, _, rfl, coherent.enter proper span, by rw [bindings_enter]; rfl⟩
  | leave =>
    rw [perform_leave, NameLists.perform, bindings]
    cases stack : r.stack with
    | nil => exact Or.inr ⟨rfl, rfl⟩
    | cons scope outer =>
      refine Or.inl ⟨_, _, if_neg (List.cons_ne_nil scope outer), coherent.leave, ?_⟩
      rw [bindings, Resolver.leave, stack]
      rfl
  | value name span kind =>
    have allowed : r.declareVariable name span kind = .ok (r.declare name span kind) := if_pos proper
    refine Or.inl ⟨_, _, by rw [Resolver.perform, allowed]; rfl, coherent.declare, ?_⟩
    exact congrArg some (bindings_declare coherent.valid).symm
  | generic name span =>
    exact Or.inl ⟨_, _, rfl, coherent.declare, congrArg some (bindings_declare coherent.valid).symm⟩
  | struct name span fields =>
    exact Or.inl ⟨_, _, rfl, coherent.declare, congrArg some (bindings_declare coherent.valid).symm⟩

theorem runs_cons (request : Request) (requests : List Request) :
    r.runs (request :: requests) = (r.perform request).bind fun next => next.1.runs requests := by
  rw [runs, List.foldlM_cons]
  cases r.perform request <;> rfl

/-- Requests are carried out the same way on lists of names. -/
theorem Coherent.runs (coherent : Coherent r) {requests : List Request} (proper : ∀ q ∈ requests, q.Proper) :
    (∃ s, r.runs requests = .ok s ∧ Coherent s ∧ r.bindings.runs requests = some s.bindings) ∨
      r.runs requests = .error .leaveEmpty ∧ r.bindings.runs requests = none := by
  induction requests generalizing r with
  | nil => exact Or.inl ⟨r, rfl, coherent, rfl⟩
  | cons request rest ih =>
    rw [runs_cons, NameLists.runs, List.foldlM_cons]
    rcases coherent.perform (proper request List.mem_cons_self) with
      ⟨s, declared, done, next, alike⟩ | ⟨failed, alike⟩
    · rw [done, alike]
      exact ih next fun q member => proper q (List.mem_cons_of_mem _ member)
    · rw [failed, alike]
      exact Or.inr ⟨rfl, rfl⟩

end Steps

section Leaving

variable {r s u : Resolver} {id : Nat}

/-- A request opens a scope, closes one or leaves the open ones. It only changes what the innermost scope shows. -/
theorem perform_frame (valid : s.Valid) {request : Request} {declared : Option Declared}
    (done : s.perform request = .ok (u, declared)) : s.table.scopes.size ≤ u.table.scopes.size ∧
      (∀ scope, scope ≠ s.current → u.table.bindingsIn scope = s.table.bindingsIn scope) ∧
      (u.stack = s.stack ∨ u.stack = s.stack.tail ∨ u.stack = (s.table.scopes.size + 1) :: s.stack) := by
  have declares : ∀ name span kind fields, u = (s.declare name span kind fields).1 →
      s.table.scopes.size ≤ u.table.scopes.size ∧
        (∀ scope, scope ≠ s.current → u.table.bindingsIn scope = s.table.bindingsIn scope) ∧ u.stack = s.stack := by
    rintro name span kind fields rfl
    refine ⟨?_, fun scope other => bindingsIn_declare valid other, stack_declare valid⟩
    rcases declare_cases valid name span kind fields with ⟨same, -, -⟩ | ⟨id, new, -⟩
    · exact Nat.le_of_eq (congrArg (·.table.scopes.size) same.symm)
    · obtain ⟨-, next, -⟩ := declare_new new
      rw [next]
      simp [SymbolTable.addSymbol]
  cases request with
  | enter kind span =>
    obtain ⟨rfl, -⟩ := Prod.mk.inj (Except.ok.inj done)
    refine ⟨?_, fun scope _ => congrFun (bindingsIn_enter kind span) scope, Or.inr (Or.inr rfl)⟩
    rw [Resolver.enter, size_addScope]
    exact Nat.le_succ _
  | leave =>
    rw [perform_leave] at done
    split at done
    · cases done
    · obtain ⟨rfl, -⟩ := Prod.mk.inj (Except.ok.inj done)
      exact ⟨Nat.le_refl _, fun _ _ => rfl, Or.inr (Or.inl rfl)⟩
  | value name span kind =>
    rw [Resolver.perform, declareVariable] at done
    split at done
    · obtain ⟨same, -⟩ := Prod.mk.inj (Except.ok.inj done)
      obtain ⟨grows, shown, stack⟩ := declares name span kind [] same.symm
      exact ⟨grows, shown, Or.inl stack⟩
    · cases done
  | generic name span =>
    obtain ⟨same, -⟩ := Prod.mk.inj (Except.ok.inj done)
    obtain ⟨grows, shown, stack⟩ := declares name span .generic [] same.symm
    exact ⟨grows, shown, Or.inl stack⟩
  | struct name span fields =>
    obtain ⟨same, -⟩ := Prod.mk.inj (Except.ok.inj done)
    obtain ⟨grows, shown, stack⟩ := declares name span .struct fields same.symm
    exact ⟨grows, shown, Or.inl stack⟩

/-- As long as a scope is open, the scopes it was opened in lie around it and show what they showed then. -/
def Around (r : Resolver) (id : Nat) (s : Resolver) : Prop :=
  id ≤ s.table.scopes.size ∧ (id ∈ s.stack → ∃ upper, s.stack = upper ++ id :: r.stack ∧
    ∀ scope ∈ r.stack, s.table.bindingsIn scope = r.table.bindingsIn scope)

theorem around_enter (kind : ScopeKind) (span : Span) :
    Around r (r.enter kind span).current (r.enter kind span) := by
  refine ⟨?_, fun _ => ⟨[], rfl, fun scope _ => congrFun (bindingsIn_enter kind span) scope⟩⟩
  rw [Resolver.enter, size_addScope]
  exact Nat.le_refl _

theorem Around.perform (around : Around r id s) (valid : s.Valid) {request : Request} {declared : Option Declared}
    (done : s.perform request = .ok (u, declared)) : Around r id u := by
  obtain ⟨low, opened⟩ := around
  obtain ⟨grows, shown, moves⟩ := perform_frame valid done
  refine ⟨Nat.le_trans low grows, fun member => ?_⟩
  have before : id ∈ s.stack := by
    rcases moves with same | same | same
    · exact same ▸ member
    · exact List.mem_of_mem_tail (same ▸ member)
    · rw [same, List.mem_cons] at member
      exact member.resolve_left (by omega)
  obtain ⟨upper, stack, kept⟩ := opened before
  have once := valid.once
  rw [stack] at once
  have shows : ∀ scope ∈ r.stack, u.table.bindingsIn scope = r.table.bindingsIn scope := by
    intro scope inside
    refine (shown scope ?_).trans (kept scope inside)
    -- The innermost scope is the one that was opened or lies inside it.
    rw [current, stack]
    rintro rfl
    cases upper with
    | nil => exact (List.nodup_cons.mp once).1 inside
    | cons top rest => exact (List.nodup_cons.mp once).1 (List.mem_append_right _ (List.mem_cons_of_mem _ inside))
  rcases moves with same | same | same
  · exact ⟨upper, same.trans stack, shows⟩
  · rw [stack] at same
    cases upper with
    | nil =>
      rw [same] at member
      exact absurd member (List.nodup_cons.mp once).1
    | cons top rest => exact ⟨rest, same, shows⟩
  · exact ⟨_ :: upper, by rw [same, stack]; rfl, shows⟩

theorem Around.runs (around : Around r id s) (coherent : Coherent s) {requests : List Request}
    (proper : ∀ q ∈ requests, q.Proper) (done : s.runs requests = .ok u) : Around r id u := by
  induction requests generalizing s with
  | nil => exact Except.ok.inj done ▸ around
  | cons request rest ih =>
    rw [runs_cons] at done
    rcases coherent.perform (proper request List.mem_cons_self) with ⟨t, declared, first, next, -⟩ | ⟨failed, -⟩
    · rw [first] at done
      refine ih (around.perform coherent.valid first) next (fun q member => ?_) done
      exact proper q (List.mem_cons_of_mem _ member)
    · rw [failed] at done
      cases done

/-- Closing a scope brings back what was in sight when it was opened. -/
theorem Coherent.leaves (coherent : Coherent r) {kind : ScopeKind} (valid : kind ≠ .invalid) (span : Span)
    {requests : List Request} (proper : ∀ q ∈ requests, q.Proper) (done : (r.enter kind span).runs requests = .ok s)
    (innermost : s.current = (r.enter kind span).current) :
    s.perform .leave = .ok (s.leave, none) ∧ ∀ mask name, s.leave.lookup? mask name = r.lookup? mask name := by
  have entered := coherent.enter valid span
  have around := (around_enter kind span).runs entered proper done
  have after : Coherent s := by
    rcases entered.runs proper with ⟨t, same, after, -⟩ | ⟨failed, -⟩
    · exact Except.ok.inj (done.symm.trans same) ▸ after
    · cases done.symm.trans failed
  have once := after.valid.once
  cases stack : s.stack with
  | nil =>
    rw [current, stack] at innermost
    exact absurd innermost (Nat.succ_ne_zero _).symm
  | cons top outer =>
    have first : top = (r.enter kind span).current := by rw [← innermost, current, stack, List.headD_cons]
    obtain ⟨upper, same, shown⟩ := around.2 (by rw [stack, first]; exact List.mem_cons_self)
    rw [stack] at same once
    -- The scope is open once, so nothing lies inside it.
    obtain rfl : upper = [] := by
      cases upper with
      | nil => rfl
      | cons inner rest =>
        obtain ⟨rfl, tail⟩ := List.cons.inj same
        refine absurd ?_ (List.nodup_cons.mp once).1
        rw [tail, ← first]
        exact List.mem_append_right _ List.mem_cons_self
    obtain ⟨-, rfl⟩ := List.cons.inj same
    refine ⟨by rw [perform_leave, stack]; exact if_neg (List.cons_ne_nil _ _), fun mask name => ?_⟩
    have same : s.leave.bindings.scopes = r.bindings.scopes := by
      rw [bindings, Resolver.leave, stack]
      exact List.map_congr_left shown
    rw [lookup?_eq after.valid.leave, lookup?_eq coherent.valid, NameLists.lookup?, NameLists.lookup?, same]

end Leaving

section Start

variable {unit : Nat} {span : Span}

end Start

end Resolver

end WitnessLang
