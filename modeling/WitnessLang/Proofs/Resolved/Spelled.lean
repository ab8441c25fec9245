import WitnessLang.Proofs.Resolved.Program
import WitnessLang.Proofs.Surface.Parsed
import WitnessLang.Proofs.Types.Spelled

set_option autoImplicit false

namespace WitnessLang

/-- Every name of one program is one of another. -/
structure Spelling.Within (S T : Spelling) : Prop where
  bound : ∀ i, S.bound i → T.bound i
  type : ∀ i, S.type i → T.type i
  function : ∀ i, S.function i → T.function i

theorem Spelling.Within.refl (S : Spelling) : S.Within S := ⟨fun _ => id, fun _ => id, fun _ => id⟩

theorem Spelling.Within.trans {S T U : Spelling} (first : S.Within T) (second : T.Within U) : S.Within U :=
  ⟨fun i own => second.bound i (first.bound i own), fun i own => second.type i (first.type i own),
    fun i own => second.function i (first.function i own)⟩

/-- The names of the definitions of a module, told apart by their tags. -/
structure Spelling.Proper (S : Spelling) (unit : Nat) : Prop where
  bound : ∀ i, S.bound i → i.isGlobal = false ∧ i.tag.unit = unit ∧ i.name ≠ ""
  type : ∀ i, S.type i → i.isGlobal = true ∧ (i.tag.unit = unit ∨ Ty.named i [] = Ty.float ∨ Ty.named i [] = Ty.bool)
  function : ∀ i, S.function i → i.isGlobal = true ∧ i.tag.unit = unit
  basic : Ty.float.Spelled S ∧ Ty.bool.Spelled S
  apart : ∀ i j, S.bound i ∨ S.type i ∨ S.function i → S.bound j ∨ S.type j ∨ S.function j → i.tag = j.tag → i = j

namespace Resolved

section Spelled

variable (S : Spelling)

mutual

/-- A written type in which all names are those of the program. -/
def TypeExpr.Spelled : TypeExpr → Prop
  | .named _ name args => S.type name ∧ SpelledAll args
  | .generic _ name _ => S.bound name
  | .func _ args result => SpelledAll args ∧ result.Spelled

def TypeExpr.SpelledAll : List TypeExpr → Prop
  | [] => True
  | t :: rest => t.Spelled ∧ SpelledAll rest

end

mutual

/-- A pattern in which all names are those of the program. -/
def Pattern.Spelled : Pattern → Prop
  | .var _ name => S.bound name
  | .record _ name fields => S.type name ∧ FieldsSpelled fields

def Pattern.FieldsSpelled : List FieldPattern → Prop
  | [] => True
  | ⟨_, _, p⟩ :: rest => p.Spelled ∧ FieldsSpelled rest

end

/-- A parameter in which all names are those of the program. -/
def Param.Spelled (p : Param) : Prop := p.type.Spelled S ∧ p.pattern.Spelled S

mutual

/-- An expression in which all names are those of the program. -/
def Expr.Spelled : Expr → Prop
  | .number _ _ _ | .bool _ _ => True
  | .var _ name => S.bound name ∨ S.function name
  | .call _ callee args => callee.Spelled ∧ SpelledAll args
  | .operation _ _ left right => left.Spelled ∧ right.Spelled
  | .record _ _ fields => FieldsSpelled fields
  | .block _ lets result => LetsSpelled lets ∧ result.Spelled
  | .annotated _ value type => value.Spelled ∧ type.Spelled S
  | .case _ scrutinee arms => scrutinee.Spelled ∧ ArmsSpelled arms
  | .cond _ test yes no => test.Spelled ∧ yes.Spelled ∧ no.Spelled
  | .closure _ params body => (∀ p ∈ params, p.Spelled S) ∧ body.Spelled

def Expr.SpelledAll : List Expr → Prop
  | [] => True
  | e :: rest => e.Spelled ∧ SpelledAll rest

def Expr.FieldsSpelled : List FieldInit → Prop
  | [] => True
  | ⟨_, _, value⟩ :: rest => value.Spelled ∧ FieldsSpelled rest

def Expr.LetsSpelled : List Let → Prop
  | [] => True
  | ⟨_, p, value⟩ :: rest => value.Spelled ∧ p.Spelled S ∧ LetsSpelled rest

def Expr.ArmsSpelled : List Arm → Prop
  | [] => True
  | ⟨_, p, body⟩ :: rest => p.Spelled S ∧ body.Spelled ∧ ArmsSpelled rest

end

/-- A struct in which all names are those of the program. -/
structure Struct.Spelled (s : Struct) : Prop where
  name : S.type s.name
  generics : ∀ g ∈ s.generics, S.bound g
  fields : ∀ f ∈ s.fields, f.type.Spelled S

/-- A function in which all names are those of the program. -/
structure Function.Spelled (f : Function) : Prop where
  name : S.function f.name
  generics : ∀ g ∈ f.generics, S.bound g
  params : ∀ p ∈ f.params, p.Spelled S
  result : f.result.Spelled S
  body : f.body.Spelled S

/-- A program in which all names are its own. -/
structure Program.Spelled (p : Program) : Prop where
  structs : ∀ s ∈ p.structs, s.Spelled S
  functions : ∀ f ∈ p.functions, f.Spelled S

end Spelled

end Resolved

/-- Type parameters, parameters and bindings: what a definition declares inside. -/
def SymbolKind.isInner (k : SymbolKind) : Bool := k == .generic || k == .param || k == .binding

def SymbolTable.spelling (t : SymbolTable) : Spelling where
  bound i := ∃ s ∈ t.symbols.toList, s.kind.isInner = true ∧ s.ident = i
  type i := ∃ s ∈ t.symbols.toList, (s.kind = .type ∨ s.kind = .struct) ∧ s.ident = i
  function i := ∃ s ∈ t.symbols.toList, s.kind = .function ∧ s.ident = i

/-- From one resolver to the next, symbols with letters in their names were declared under new tags, in
order. -/
structure Resolver.Grows (r r' : Resolver) : Prop where
  unit : r'.tags.unit = r.tags.unit
  next : r.tags.next ≤ r'.tags.next
  symbols : ∃ new, r'.table.symbols.toList = r.table.symbols.toList ++ new ∧
    new.Pairwise (fun s t => s.tag.key < t.tag.key) ∧
    ∀ s ∈ new, s.tag.unit = r.tags.unit ∧ r.tags.next ≤ s.tag.key ∧ s.tag.key < r'.tags.next ∧ s.name ≠ ""

section Growth

variable {r r' r'' : Resolver}

theorem Resolver.Grows.refl (r : Resolver) : r.Grows r := ⟨rfl, Nat.le_refl _, [], by simp⟩

theorem Resolver.Grows.trans (first : r.Grows r') (second : r'.Grows r'') : r.Grows r'' := by
  obtain ⟨new, all, sorted, own⟩ := first.symbols
  obtain ⟨more, all', sorted', own'⟩ := second.symbols
  have later := first.next
  have later' := second.next
  refine ⟨second.unit.trans first.unit, Nat.le_trans later later', new ++ more, ?_, ?_, ?_⟩
  · rw [all', all, List.append_assoc]
  · rw [List.pairwise_append]
    refine ⟨sorted, sorted', fun s left t right => ?_⟩
    have := own s left
    have := own' t right
    omega
  · rw [List.forall_mem_append]
    refine ⟨fun s member => ?_, fun s member => ?_⟩
    · obtain ⟨unit, low, high, named⟩ := own s member
      exact ⟨unit, low, Nat.lt_of_lt_of_le high later', named⟩
    · obtain ⟨unit, low, high, named⟩ := own' s member
      exact ⟨unit.trans first.unit, Nat.le_trans later low, high, named⟩

theorem Resolver.Grows.within (grows : r.Grows r') : r.table.spelling.Within r'.table.spelling := by
  obtain ⟨new, all, -⟩ := grows.symbols
  have more : ∀ s ∈ r.table.symbols.toList, s ∈ r'.table.symbols.toList := fun s member => by
    rw [all]
    exact List.mem_append_left _ member
  refine ⟨?_, ?_, ?_⟩ <;> rintro i ⟨s, member, kind, same⟩ <;> exact ⟨s, more s member, kind, same⟩

theorem SymbolTable.mem_symbols {t : SymbolTable} {id : Nat} {s : Symbol} (found : t.symbol? id = some s) :
    s ∈ t.symbols.toList := by
  rw [symbol?] at found
  split at found
  · cases found
  · exact Array.mem_toList_iff.mpr (Array.mem_of_getElem? found)

end Growth

namespace Resolved

/-- Some work leaves what is spelled with the names of the table, now and from then on. -/
def Spells {α : Type} (m : Resolve α) (r : Resolver) (good : α → Spelling → Prop) : Prop :=
  Meets (fun _ => True) m r fun a r' => r.Grows r' ∧ ∀ T, r'.table.spelling.Within T → good a T

section Steps

variable {α β : Type} {m : Resolve α} {f : α → Resolve β} {r : Resolver} {good : α → Spelling → Prop}
  {good' : β → Spelling → Prop}

theorem spells_pure {a : α} : Spells (pure a) r good ↔ ∀ T, r.table.spelling.Within T → good a T := by
  rw [Spells, meets_pure]
  exact and_iff_right (.refl r)

theorem Spells.bind (first : Spells m r good)
    (next : ∀ a r', r.Grows r' → (∀ T, r'.table.spelling.Within T → good a T) → Spells (f a) r' good') :
    Spells (m >>= f) r good' := by
  refine Meets.bind first ?_
  rintro a r' ⟨grows, spelled⟩
  exact (next a r' grows spelled).imp fun _ _ own => ⟨grows.trans own.1, own.2⟩

theorem Spells.inScope {kind : ScopeKind} {span : Span} (inside : ∀ r, Spells m r good) :
    Spells (inScope kind span m) r good := by
  rw [Spells, meets_iff]
  refine ⟨fun a r' ended => ?_, fun _ _ _ => trivial⟩
  obtain ⟨r₁, done, rfl⟩ := inScope_eq_ok ended
  obtain ⟨grows, spelled⟩ := (meets_iff.mp (inside (r.enter kind span))).1 a r₁ done
  exact ⟨⟨grows.unit, grows.next, grows.symbols⟩, spelled⟩

theorem declare_spells {name : String} {span : Span} {kind : SymbolKind} {fields : List String}
    (named : name ≠ "") :
    Spells (declare name span kind fields) r fun i T =>
      (kind.isInner = true → T.bound i) ∧ (kind = .struct → T.type i) ∧ (kind = .function → T.function i) := by
  rw [Spells, declare, meets_get_bind]
  rcases declared : r.declare name span kind fields with ⟨r₁, result⟩
  dsimp only
  rw [show (set r₁ : Resolve PUnit) = modify fun _ => r₁ from rfl, meets_modify_bind]
  cases result with
  | nowhere => trivial
  | conflict id =>
    dsimp only
    rw [meets_iff]
    exact ⟨fun a r' ended => by simp [ends_bind] at ended, fun _ _ _ => trivial⟩
  | new id =>
    obtain ⟨-, rfl, rfl⟩ := Resolver.declare_new declared
    dsimp only
    rw [symbolAt, bind_assoc, meets_get_bind, meets_pure_bind, SymbolTable.symbol?_addSymbol_new, meets_pure]
    refine ⟨⟨rfl, Nat.le_succ _, [r.newSymbol name span kind fields], by simp [SymbolTable.addSymbol],
      List.pairwise_singleton _ _, ?_⟩, fun T within => ⟨fun inner => ?_, fun struct => ?_, fun function => ?_⟩⟩
    · rw [List.forall_mem_singleton]
      exact ⟨rfl, Nat.le_refl _, Nat.lt_succ_self _, named⟩
    · exact within.bound _ ⟨_, by simp [SymbolTable.addSymbol], inner, rfl⟩
    · exact within.type _ ⟨_, by simp [SymbolTable.addSymbol], Or.inr struct, rfl⟩
    · exact within.function _ ⟨_, by simp [SymbolTable.addSymbol], function, rfl⟩

theorem lookup_spells {mask : KindMask} {name : String} {span : Span} {cause : Cause} :
    Spells (lookup mask name span cause) r fun s T =>
      mask.allows s.kind = true ∧ (s.kind.isInner = true → T.bound s.ident) ∧
        (s.kind = .type ∨ s.kind = .struct → T.type s.ident) ∧ (s.kind = .function → T.function s.ident) := by
  rw [Spells, meets_iff]
  refine ⟨fun s r' ended => ?_, fun _ _ _ => trivial⟩
  obtain ⟨rfl, member, allowed⟩ : r' = r ∧ s ∈ r.table.symbols.toList ∧ mask.allows s.kind = true := by
    rw [lookup, ends_get_bind] at ended
    cases found : r.lookup? mask name with
    | none => simp [found] at ended
    | some id =>
      simp only [found] at ended
      obtain ⟨rfl, rfl⟩ := symbolAt_eq_ok ended
      obtain ⟨s, symbol, allowed⟩ := Resolver.exists_of_lookup? found
      rw [symbol]
      exact ⟨rfl, SymbolTable.mem_symbols symbol, allowed⟩
  exact ⟨.refl r', fun T within => ⟨allowed, fun kind => within.bound _ ⟨s, member, kind, rfl⟩,
    fun kind => within.type _ ⟨s, member, kind, rfl⟩, fun kind => within.function _ ⟨s, member, kind, rfl⟩⟩⟩

theorem checkFields_spells {declared : List String} {given : List (String × Span)}
    {missing : List String → Cause} {whole : Span} :
    Spells (checkFields declared given missing whole) r fun _ _ => True := by
  rw [Spells, meets_iff]
  refine ⟨fun u r' ended => ?_, fun _ _ _ => trivial⟩
  rw [checkFields, ends_bind_ok] at ended
  obtain ⟨_, r₁, checked, ended⟩ := ended
  obtain ⟨rfl, -⟩ := checkGiven_eq_ok checked
  split at ended
  · simp at ended
  · obtain ⟨-, rfl⟩ := ends_pure.mp ended
    exact ⟨.refl r', fun _ _ => trivial⟩

end Steps

/-- What a name of a type may stand for. -/
theorem kind_of_types {kind : SymbolKind} (allowed : KindMask.types.allows kind = true) :
    kind = .generic ∨ kind = .type ∨ kind = .struct := by
  obtain ⟨n⟩ := kind
  by_cases small : n < 32
  · have every : ∀ k : Fin 32, KindMask.types.allows ⟨k⟩ = true →
        (⟨k⟩ : SymbolKind) = .generic ∨ (⟨k⟩ : SymbolKind) = .type ∨ (⟨k⟩ : SymbolKind) = .struct := by
      decide
    exact every ⟨n, small⟩ allowed
  · rw [KindMask.allows, SymbolKind.mask, if_neg small] at allowed
    exact absurd allowed (by decide)

/-- What a variable may stand for. -/
theorem kind_of_values {kind : SymbolKind} (allowed : KindMask.values.allows kind = true) :
    kind.isInner = true ∨ kind = .function := by
  obtain ⟨n⟩ := kind
  by_cases small : n < 32
  · have every : ∀ k : Fin 32, KindMask.values.allows ⟨k⟩ = true →
        SymbolKind.isInner ⟨k⟩ = true ∨ (⟨k⟩ : SymbolKind) = .function := by
      decide
    exact every ⟨n, small⟩ allowed
  · rw [KindMask.allows, SymbolKind.mask, if_neg small] at allowed
    exact absurd allowed (by decide)

section Trees

mutual

theorem typeExpr_spells (r : Resolver) : (t : Surface.TypeExpr) →
    Spells (typeExpr t) r fun t' T => t'.Spelled T
  | .named span name => by
    rw [typeExpr]
    refine lookup_spells.bind fun s r' _ spelled => spells_pure.mpr fun T within => ?_
    obtain ⟨allowed, bound, type, -⟩ := spelled T within
    split
    · exact bound (by simp_all [SymbolKind.isInner])
    · refine ⟨type ?_, trivial⟩
      rcases kind_of_types allowed with generic | kind
      · simp_all
      · exact kind
  | .apply span name args => by
    rw [typeExpr]
    refine lookup_spells.bind fun s r' _ spelled => ?_
    refine (typeExprs_spells r' args).bind fun args' r'' grows all => spells_pure.mpr fun T within => ?_
    obtain ⟨allowed, bound, type, -⟩ := spelled T (grows.within.trans within)
    split
    · exact bound (by simp_all [SymbolKind.isInner])
    · refine ⟨type ?_, all T within⟩
      rcases kind_of_types allowed with generic | kind
      · simp_all
      · exact kind
  | .func span args result => by
    rw [typeExpr]
    refine (typeExprs_spells r args).bind fun args' r' _ all => ?_
    refine (typeExpr_spells r' result).bind fun result' r'' grows own => spells_pure.mpr fun T within => ?_
    exact ⟨all T (grows.within.trans within), own T within⟩

theorem typeExprs_spells (r : Resolver) : (ts : List Surface.TypeExpr) →
    Spells (typeExprs ts) r fun ts' T => TypeExpr.SpelledAll T ts'
  | [] => spells_pure.mpr fun _ _ => trivial
  | t :: rest => by
    rw [typeExprs]
    refine (typeExpr_spells r t).bind fun t' r' _ own => ?_
    refine (typeExprs_spells r' rest).bind fun rest' r'' grows others => spells_pure.mpr fun T within => ?_
    exact ⟨own T (grows.within.trans within), others T within⟩

end

mutual

theorem pattern_spells {kind : SymbolKind} (inner : kind.isInner = true) (r : Resolver) :
    (p : Surface.Pattern) → p.Named → Spells (pattern kind p) r fun p' T => p'.Spelled T
  | .var span name, named => by
    rw [pattern]
    refine (declare_spells named).bind fun i r' _ own => spells_pure.mpr fun T within => ?_
    exact (own T within).1 inner
  | .record span name fields, named => by
    rw [pattern]
    refine lookup_spells.bind fun s r₁ _ spelled => checkFields_spells.bind fun _ r₂ grows₂ _ => ?_
    refine (fieldPatterns_spells inner r₂ fields named).bind fun fields' r₃ grows₃ own =>
      spells_pure.mpr fun T within => ?_
    obtain ⟨allowed, -, type, -⟩ := spelled T ((grows₂.trans grows₃).within.trans within)
    exact ⟨type (Or.inr (kind_of_structs allowed)), own T within⟩

theorem fieldPatterns_spells {kind : SymbolKind} (inner : kind.isInner = true) (r : Resolver) :
    (fs : List Surface.FieldPattern) → Surface.Pattern.FieldsNamed fs →
      Spells (fieldPatterns kind fs) r fun fs' T => Pattern.FieldsSpelled T fs'
  | [], _ => spells_pure.mpr fun _ _ => trivial
  | ⟨span, name, p⟩ :: rest, named => by
    rw [fieldPatterns]
    refine (pattern_spells inner r p named.1).bind fun p' r' _ own => ?_
    refine (fieldPatterns_spells inner r' rest named.2).bind fun rest' r'' grows others =>
      spells_pure.mpr fun T within => ?_
    exact ⟨own T (grows.within.trans within), others T within⟩

end

theorem params_spells (r : Resolver) (ps : List Surface.Param) (named : ∀ p ∈ ps, p.pattern.Named) :
    Spells (params ps) r fun ps' T => ∀ p ∈ ps', p.Spelled T := by
  induction ps generalizing r with
  | nil => exact spells_pure.mpr fun _ _ => by simp
  | cons p rest ih =>
    rw [List.forall_mem_cons] at named
    rw [params]
    refine (typeExpr_spells r p.type).bind fun t r₁ _ type => ?_
    refine (pattern_spells rfl r₁ p.pattern named.1).bind fun q r₂ grows₂ pattern => ?_
    refine (ih r₂ named.2).bind fun rest' r₃ grows₃ others => spells_pure.mpr fun T within => ?_
    exact List.forall_mem_cons.mpr ⟨⟨type T ((grows₂.trans grows₃).within.trans within),
      pattern T (grows₃.within.trans within)⟩, others T within⟩

mutual

theorem expr_spells (r : Resolver) : (e : Surface.Expr) → e.Named →
    Spells (expr e) r fun e' T => e'.Spelled T
  | .number span text bits, _ => spells_pure.mpr fun _ _ => trivial
  | .bool span value, _ => spells_pure.mpr fun _ _ => trivial
  | .var span name, _ => by
    rw [expr]
    refine lookup_spells.bind fun s r' _ spelled => spells_pure.mpr fun T within => ?_
    obtain ⟨allowed, bound, -, function⟩ := spelled T within
    exact (kind_of_values allowed).imp bound function
  | .call span callee args, named => by
    rw [expr]
    refine (expr_spells r callee named.1).bind fun callee' r₁ _ own => ?_
    refine (exprs_spells r₁ args named.2).bind fun args' r₂ grows all => spells_pure.mpr fun T within => ?_
    exact ⟨own T (grows.within.trans within), all T within⟩
  | .operation span op left right, named => by
    rw [expr]
    refine (expr_spells r left named.1).bind fun left' r₁ _ own => ?_
    refine (expr_spells r₁ right named.2).bind fun right' r₂ grows other => spells_pure.mpr fun T within => ?_
    exact ⟨own T (grows.within.trans within), other T within⟩
  | .record span name nameSpan fields, named => by
    rw [expr]
    refine lookup_spells.bind fun s r₁ _ _ => checkFields_spells.bind fun _ r₂ _ _ => ?_
    refine (fieldInits_spells r₂ fields named).bind fun fields' r₃ _ own => spells_pure.mpr fun T within => ?_
    exact own T within
  | .block span bs result, named => by
    rw [expr]
    refine Spells.inScope fun r => (lets_spells r bs named.1).bind fun bs' r₁ _ own => ?_
    refine (expr_spells r₁ result named.2).bind fun result' r₂ grows last => spells_pure.mpr fun T within => ?_
    exact ⟨own T (grows.within.trans within), last T within⟩
  | .annotated span value type, named => by
    rw [expr]
    refine (expr_spells r value named).bind fun value' r₁ _ own => ?_
    refine (typeExpr_spells r₁ type).bind fun type' r₂ grows written => spells_pure.mpr fun T within => ?_
    exact ⟨own T (grows.within.trans within), written T within⟩
  | .case span scrutinee as, named => by
    rw [expr]
    refine (expr_spells r scrutinee named.1).bind fun scrutinee' r₁ _ own => ?_
    refine (arms_spells r₁ as named.2).bind fun as' r₂ grows all => spells_pure.mpr fun T within => ?_
    exact ⟨own T (grows.within.trans within), all T within⟩
  | .cond span test yes no, named => by
    rw [expr]
    refine (expr_spells r test named.1).bind fun test' r₁ _ first => ?_
    refine (expr_spells r₁ yes named.2.1).bind fun yes' r₂ grows₂ second => ?_
    refine (expr_spells r₂ no named.2.2).bind fun no' r₃ grows₃ third => spells_pure.mpr fun T within => ?_
    exact ⟨first T ((grows₂.trans grows₃).within.trans within), second T (grows₃.within.trans within),
      third T within⟩
  | .closure span ps body, named => by
    rw [expr]
    refine Spells.inScope fun r => (params_spells r ps named.1).bind fun ps' r₁ _ own => ?_
    refine (expr_spells r₁ body named.2).bind fun body' r₂ grows last => spells_pure.mpr fun T within => ?_
    exact ⟨own T (grows.within.trans within), last T within⟩

theorem exprs_spells (r : Resolver) : (es : List Surface.Expr) → Surface.Expr.NamedAll es →
    Spells (exprs es) r fun es' T => Expr.SpelledAll T es'
  | [], _ => spells_pure.mpr fun _ _ => trivial
  | e :: rest, named => by
    rw [exprs]
    refine (expr_spells r e named.1).bind fun e' r₁ _ own => ?_
    refine (exprs_spells r₁ rest named.2).bind fun rest' r₂ grows others => spells_pure.mpr fun T within => ?_
    exact ⟨own T (grows.within.trans within), others T within⟩

theorem fieldInits_spells (r : Resolver) : (fs : List Surface.FieldInit) → Surface.Expr.FieldsNamed fs →
    Spells (fieldInits fs) r fun fs' T => Expr.FieldsSpelled T fs'
  | [], _ => spells_pure.mpr fun _ _ => trivial
  | ⟨span, name, value⟩ :: rest, named => by
    rw [fieldInits]
    refine (expr_spells r value named.1).bind fun value' r₁ _ own => ?_
    refine (fieldInits_spells r₁ rest named.2).bind fun rest' r₂ grows others =>
      spells_pure.mpr fun T within => ?_
    exact ⟨own T (grows.within.trans within), others T within⟩

theorem lets_spells (r : Resolver) : (bs : List Surface.Let) → Surface.Expr.LetsNamed bs →
    Spells (lets bs) r fun bs' T => Expr.LetsSpelled T bs'
  | [], _ => spells_pure.mpr fun _ _ => trivial
  | ⟨span, p, value⟩ :: rest, named => by
    rw [lets]
    refine (expr_spells r value named.2.1).bind fun value' r₁ _ own => ?_
    refine (pattern_spells rfl r₁ p named.1).bind fun p' r₂ grows₂ pattern => ?_
    refine (lets_spells r₂ rest named.2.2).bind fun rest' r₃ grows₃ others => spells_pure.mpr fun T within => ?_
    exact ⟨own T ((grows₂.trans grows₃).within.trans within), pattern T (grows₃.within.trans within),
      others T within⟩

theorem arms_spells (r : Resolver) : (as : List Surface.Arm) → Surface.Expr.ArmsNamed as →
    Spells (arms as) r fun as' T => Expr.ArmsSpelled T as'
  | [], _ => spells_pure.mpr fun _ _ => trivial
  | ⟨span, p, body⟩ :: rest, named => by
    rw [arms]
    refine Spells.bind (show Spells _ r fun a T => a.pattern.Spelled T ∧ a.body.Spelled T from
      Spells.inScope fun r => (pattern_spells rfl r p named.1).bind fun p' r₁ _ pattern => ?_) fun a r₁ _ own => ?_
    · refine (expr_spells r₁ body named.2.1).bind fun body' r₂ grows last => spells_pure.mpr fun T within => ?_
      exact ⟨pattern T (grows.within.trans within), last T within⟩
    · refine (arms_spells r₁ rest named.2.2).bind fun rest' r₂ grows others => spells_pure.mpr fun T within => ?_
      obtain ⟨pattern, last⟩ := own T (grows.within.trans within)
      cases a
      exact ⟨pattern, last, others T within⟩

end

end Trees

section Definitions

theorem Spells.mapM {α β : Type} {f : α → Resolve β} {good : α → β → Spelling → Prop} {items : List α}
    (each : ∀ a ∈ items, ∀ r, Spells (f a) r (good a)) (r : Resolver) :
    Spells (items.mapM f) r fun bs T => List.Forall₂ (fun a b => good a b T) items bs := by
  induction items generalizing r with
  | nil =>
    rw [List.mapM_nil]
    exact spells_pure.mpr fun _ _ => .nil
  | cons a rest ih =>
    rw [List.forall_mem_cons] at each
    rw [List.mapM_cons]
    refine (each.1 r).bind fun b r₁ _ own => ?_
    refine (ih each.2 r₁).bind fun bs r₂ grows others => spells_pure.mpr fun T within => ?_
    exact .cons (own T (grows.within.trans within)) (others T within)

theorem generics_spells (r : Resolver) {gs : List Surface.Generic} (named : ∀ g ∈ gs, g.name ≠ "") :
    Spells (generics gs) r fun is T => ∀ i ∈ is, T.bound i := by
  have each := Spells.mapM (f := fun g : Surface.Generic => declare g.name g.span .generic)
    (fun g member _ => declare_spells (named g member)) r
  refine Meets.imp each ?_
  rintro is r' ⟨grows, all⟩
  refine ⟨grows, fun T within i member => ?_⟩
  obtain ⟨g, -, own⟩ := exists_of_forall₂ (all T within) i member
  exact own.1 rfl

/-- The name of a definition is one of a type or of a function. -/
def ItemSpelled (T : Spelling) (name : Ident) : Surface.Item → Prop
  | .struct _ => T.type name
  | .func _ => T.function name

theorem declareItem_spells (r : Resolver) {item : Surface.Item} (named : item.Named) :
    Spells (declareItem item) r fun i T => ItemSpelled T i item := by
  cases item with
  | struct s =>
    rw [declareItem]
    split
    · exact trivial
    · refine Meets.imp (declare_spells named.1) ?_
      rintro i r' ⟨grows, own⟩
      refine ⟨grows, fun T within => ?_⟩
      exact (own T within).2.1 rfl
  | func f =>
    rw [declareItem]
    refine Meets.imp (declare_spells named.1) ?_
    rintro i r' ⟨grows, own⟩
    refine ⟨grows, fun T within => ?_⟩
    exact (own T within).2.2 rfl

theorem structFields_spells (r : Resolver) (fs : List Surface.Field) :
    Spells (structFields fs) r fun fs' T => ∀ f ∈ fs', f.type.Spelled T := by
  induction fs generalizing r with
  | nil => exact spells_pure.mpr fun _ _ => by simp
  | cons f rest ih =>
    rw [structFields]
    refine (typeExpr_spells r f.type).bind fun t r₁ _ own => ?_
    rw [Spells, meets_get_bind]
    dsimp only
    rw [meets_modify_bind]
    generalize fresh : Resolver.mk r₁.table r₁.tags.fresh.2 r₁.stack = r₂
    have grows : r₁.Grows r₂ := by
      rw [← fresh]
      exact ⟨rfl, Nat.le_succ _, [], by simp⟩
    have rest : Spells (structFields rest >>= fun rest' =>
        pure (Field.mk f.span ⟨r₁.tags.fresh.1, f.name, false⟩ t :: rest')) r₂ fun fs' T => ∀ f ∈ fs', f.type.Spelled T :=
      (ih r₂).bind fun rest' r₃ grows₃ others => spells_pure.mpr fun T within =>
        List.forall_mem_cons.mpr ⟨own T ((grows.trans grows₃).within.trans within), others T within⟩
    refine Meets.imp rest ?_
    rintro _ _ ⟨later, all⟩
    exact ⟨grows.trans later, all⟩

theorem struct_spells (r : Resolver) (name : Ident) {s : Surface.Struct}
    (named : ∀ g ∈ s.generics, g.name ≠ "") :
    Spells (struct name s) r fun s' T => T.type name → s'.Spelled T := by
  rw [struct]
  refine Spells.inScope fun r => (generics_spells r named).bind fun gs r₁ _ own => ?_
  refine (structFields_spells r₁ s.fields).bind fun fs r₂ grows fields => spells_pure.mpr fun T within type => ?_
  exact ⟨type, own T (grows.within.trans within), fields T within⟩

theorem function_spells (r : Resolver) (name : Ident) {f : Surface.Function}
    (named : (∀ g ∈ f.generics, g.name ≠ "") ∧ (∀ p ∈ f.params, p.pattern.Named) ∧ f.body.Named) :
    Spells (function name f) r fun f' T => T.function name → f'.Spelled T := by
  rw [function]
  refine Spells.inScope fun r => (generics_spells r named.1).bind fun gs r₁ _ own => ?_
  refine (params_spells r₁ f.params named.2.1).bind fun ps r₂ grows₂ params => ?_
  refine (typeExpr_spells r₂ f.result).bind fun result r₃ grows₃ type => ?_
  refine (expr_spells r₃ f.body named.2.2).bind fun body r₄ grows₄ inside => spells_pure.mpr fun T within function => ?_
  exact ⟨function, own T ((grows₂.trans (grows₃.trans grows₄)).within.trans within),
    params T ((grows₃.trans grows₄).within.trans within), type T (grows₄.within.trans within), inside T within⟩

theorem mem_structsOf {named : List (Ident × Surface.Item)} {n : Ident × Surface.Struct} :
    n ∈ structsOf named ↔ (n.1, .struct n.2) ∈ named := by
  rw [structsOf, List.mem_filterMap]
  constructor
  · rintro ⟨⟨i, item⟩, inside, same⟩
    cases item with
    | func f => cases same
    | struct s => exact Option.some.inj same ▸ inside
  · exact fun inside => ⟨_, inside, rfl⟩

theorem mem_functionsOf {named : List (Ident × Surface.Item)} {n : Ident × Surface.Function} :
    n ∈ functionsOf named ↔ (n.1, .func n.2) ∈ named := by
  rw [functionsOf, List.mem_filterMap]
  constructor
  · rintro ⟨⟨i, item⟩, inside, same⟩
    cases item with
    | struct s => cases same
    | func f => exact Option.some.inj same ▸ inside
  · exact fun inside => ⟨_, inside, rfl⟩

theorem program_spells (r : Resolver) {items : List Surface.Item} (named : ∀ item ∈ items, item.Named) :
    Spells (program items) r fun p T => p.Spelled T := by
  rw [program]
  refine (Spells.mapM (fun item member r => declareItem_spells r (named item member)) r).bind
    fun names r₁ _ declared => ?_
  have known : ∀ T, r₁.table.spelling.Within T → ∀ n ∈ names.zip items, ItemSpelled T n.1 n.2 := by
    intro T within n member
    have pair := (List.forall₂_iff_zip.mp (declared T within).flip).2 (by simpa using member)
    exact pair
  refine (Spells.mapM (f := fun n : Ident × Surface.Struct => struct n.1 n.2) (fun n member r =>
    struct_spells r n.1 (named _ (List.of_mem_zip (mem_structsOf.mp member)).2).2) r₁).bind
    fun structs r₂ grows₂ structsSpelled => ?_
  refine (Spells.mapM (f := fun n : Ident × Surface.Function => function n.1 n.2) (fun n member r =>
    function_spells r n.1 (named _ (List.of_mem_zip (mem_functionsOf.mp member)).2).2) r₂).bind
    fun functions r₃ grows₃ functionsSpelled => ?_
  rw [Spells, meets_get_bind]
  refine spells_pure.mpr fun T within => ⟨fun s member => ?_, fun f member => ?_⟩
  · obtain ⟨n, inside, own⟩ := exists_of_forall₂ (structsSpelled T (grows₃.within.trans within)) s member
    exact own (known T ((grows₂.trans grows₃).within.trans within) _ (mem_structsOf.mp inside))
  · obtain ⟨n, inside, own⟩ := exists_of_forall₂ (functionsSpelled T within) f member
    exact own (known T ((grows₂.trans grows₃).within.trans within) _ (mem_functionsOf.mp inside))

end Definitions

/-- A table that only knows built-in names, and what was declared since. -/
theorem proper_of_grows {names : List String} {unit : Nat} {span : Span} {r : Resolver}
    (own : unit ≠ Tag.builtinUnit)
    (grows : (Resolver.start (names.foldl SymbolTable.intern .start) unit span).Grows r) :
    r.table.spelling.Proper unit := by
  obtain ⟨new, all, sorted, each⟩ := grows.symbols
  have begun : (Resolver.start (names.foldl SymbolTable.intern .start) unit span).table.symbols.toList = builtins := by
    change (names.foldl SymbolTable.intern .start).symbols.toList = builtins
    rw [(intern_symbols names .start).2]
    rfl
  rw [begun] at all
  have units : ∀ s ∈ new, s.tag.unit = unit ∧ s.name ≠ "" := fun s member =>
    ⟨(each s member).1, (each s member).2.2.2⟩
  have old : ∀ s ∈ builtins, s.tag.unit = Tag.builtinUnit ∧ s.kind = .type ∧
      (Ty.named s.ident [] = Ty.float ∨ Ty.named s.ident [] = Ty.bool) := by
    intro s member
    simp only [builtins, List.mem_cons, List.not_mem_nil, or_false] at member
    rcases member with rfl | rfl
    · exact ⟨rfl, rfl, Or.inl rfl⟩
    · exact ⟨rfl, rfl, Or.inr rfl⟩
  have once : (r.table.symbols.toList.map (·.tag)).Nodup := by
    rw [all, List.map_append, List.nodup_append']
    refine ⟨by decide, List.pairwise_map.mpr (sorted.imp fun lower same => ?_), fun t left right => ?_⟩
    · rw [same] at lower
      exact Nat.lt_irrefl _ lower
    · obtain ⟨s, member, rfl⟩ := List.mem_map.mp left
      obtain ⟨s', member', same⟩ := List.mem_map.mp right
      exact own ((units s' member').1.symm.trans ((congrArg Tag.unit same).trans (old s member).1))
  have known : ∀ s ∈ r.table.symbols.toList, s ∈ builtins ∨ s ∈ new := fun s member =>
    List.mem_append.mp (all ▸ member)
  have symbol : ∀ i, r.table.spelling.bound i ∨ r.table.spelling.type i ∨ r.table.spelling.function i →
      ∃ s ∈ r.table.symbols.toList, s.ident = i := by
    rintro i (⟨s, member, -, same⟩ | ⟨s, member, -, same⟩ | ⟨s, member, -, same⟩) <;> exact ⟨s, member, same⟩
  refine ⟨?_, ?_, ?_, ?_, fun i j first second same => ?_⟩
  · rintro i ⟨s, member, kind, rfl⟩
    have plain : s.kind.isGlobal = false := by
      rw [SymbolKind.isInner, Bool.or_eq_true, Bool.or_eq_true, beq_iff_eq, beq_iff_eq, beq_iff_eq] at kind
      rcases kind with (kind | kind) | kind <;> rw [kind] <;> rfl
    rcases known s member with built | new
    · rw [(old s built).2.1] at kind
      cases kind
    · exact ⟨plain, units s new⟩
  · rintro i ⟨s, member, kind, rfl⟩
    refine ⟨by rcases kind with kind | kind <;> simp [Symbol.ident, kind, SymbolKind.isGlobal], ?_⟩
    rcases known s member with built | new
    · exact Or.inr (old s built).2.2
    · exact Or.inl (units s new).1
  · rintro i ⟨s, member, kind, rfl⟩
    refine ⟨by simp [Symbol.ident, kind, SymbolKind.isGlobal], ?_⟩
    rcases known s member with built | new
    · have type := (old s built).2.1
      rw [kind] at type
      cases type
    · exact (units s new).1
  · rw [Ty.float, Ty.bool, Ty.spelled_named, Ty.spelled_named]
    refine ⟨⟨⟨builtins[0], ?_, Or.inl rfl, rfl⟩, by simp⟩, ⟨builtins[1], ?_, Or.inl rfl, rfl⟩, by simp⟩ <;>
      exact all ▸ List.mem_append_left _ (List.getElem_mem _)
  · obtain ⟨s, member, rfl⟩ := symbol i first
    obtain ⟨t, member', rfl⟩ := symbol j second
    rw [List.inj_on_of_nodup_map once member member' same]

/-- Resolving spells names as they are declared. -/
theorem resolve_spelled {file : Surface.File} {names : List String} {unit : Nat} {p : Program}
    {table : SymbolTable} (own : unit ≠ Tag.builtinUnit) (named : file.Named)
    (resolved : resolve file (names.foldl SymbolTable.intern .start) unit = (.ok p, table)) :
    (∀ T, table.spelling.Within T → p.Spelled T) ∧ table.spelling.Proper unit := by
  rw [resolve, Prod.mk.injEq] at resolved
  obtain ⟨done, left⟩ := resolved
  have spells := program_spells (.start (names.foldl SymbolTable.intern .start) unit file.span) named
  obtain ⟨grows, spelled⟩ := (meets_iff.mp spells).1 p _ (Prod.ext done rfl)
  rw [← left]
  exact ⟨spelled, proper_of_grows own grows⟩

end Resolved

end WitnessLang
