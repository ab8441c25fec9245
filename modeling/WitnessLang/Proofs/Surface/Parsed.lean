import WitnessLang.Proofs.Token.Named
import WitnessLang.Surface.Parser
import WitnessLang.Surface.Tree

set_option autoImplicit false

namespace WitnessLang.Surface

mutual

def Pattern.Named : Pattern → Prop
  | .var _ name => name ≠ ""
  | .record _ _ fields => FieldsNamed fields

def Pattern.FieldsNamed : List FieldPattern → Prop
  | [] => True
  | ⟨_, _, p⟩ :: rest => p.Named ∧ FieldsNamed rest

end

mutual

/-- What is bound in an expression has names. -/
def Expr.Named : Expr → Prop
  | .number _ _ _ | .bool _ _ | .var _ _ => True
  | .call _ callee args => callee.Named ∧ NamedAll args
  | .operation _ _ left right => left.Named ∧ right.Named
  | .record _ _ _ fields => FieldsNamed fields
  | .block _ lets result => LetsNamed lets ∧ result.Named
  | .annotated _ value _ => value.Named
  | .case _ scrutinee arms => scrutinee.Named ∧ ArmsNamed arms
  | .cond _ test yes no => test.Named ∧ yes.Named ∧ no.Named
  | .closure _ params body => (∀ p ∈ params, p.pattern.Named) ∧ body.Named

def Expr.NamedAll : List Expr → Prop
  | [] => True
  | e :: rest => e.Named ∧ NamedAll rest

def Expr.FieldsNamed : List FieldInit → Prop
  | [] => True
  | ⟨_, _, value⟩ :: rest => value.Named ∧ FieldsNamed rest

def Expr.LetsNamed : List Let → Prop
  | [] => True
  | ⟨_, p, value⟩ :: rest => p.Named ∧ value.Named ∧ LetsNamed rest

def Expr.ArmsNamed : List Arm → Prop
  | [] => True
  | ⟨_, p, body⟩ :: rest => p.Named ∧ body.Named ∧ ArmsNamed rest

end

/-- A definition has a name, and so has what it declares. -/
def Item.Named : Item → Prop
  | .struct s => s.name ≠ "" ∧ ∀ g ∈ s.generics, g.name ≠ ""
  | .func f => f.name ≠ "" ∧ (∀ g ∈ f.generics, g.name ≠ "") ∧ (∀ p ∈ f.params, p.pattern.Named) ∧ f.body.Named

def File.Named (file : File) : Prop := ∀ item ∈ file.items, item.Named

/-- A place at which all names still to come have letters. -/
def Cursor.Named (c : Cursor) : Prop := c.head.Named ∧ ∀ t ∈ c.tail, t.Named

theorem Cursor.Named.advance {c : Cursor} (named : c.Named) : c.advance.Named := by
  unfold Cursor.advance
  split
  · exact named
  · exact named
  · rename_i t ts same _
    have rest := named.2
    rw [same, List.forall_mem_cons] at rest
    exact rest

namespace Parser

/-- Where a production matches at a place of names with letters, it gives what is said of it. -/
def Reads {α : Type} (p : Parser α) (good : α → Prop) : Prop :=
  ∀ c, c.Named → ∀ a rest, p c = .ok a rest → good a ∧ rest.Named

section Steps

variable {α β : Type} {p : Parser α} {f : α → Parser β} {good : α → Prop} {good' : β → Prop}

theorem reads_pure {a : α} (holds : good a) : Reads (pure a) good := by
  intro c named b rest same
  obtain ⟨rfl, rfl⟩ := Outcome.ok.inj same
  exact ⟨holds, named⟩

theorem bind_apply (c : Cursor) : (p >>= f) c =
    match p c with
    | .ok a rest => f a rest
    | .mismatch e t => .mismatch e t
    | .failure e => .failure e := rfl

theorem Reads.bind (first : Reads p good) (next : ∀ a, good a → Reads (f a) good') : Reads (p >>= f) good' := by
  intro c named b rest same
  rw [bind_apply] at same
  split at same
  · rename_i a rest' read
    obtain ⟨holds, named'⟩ := first c named a rest' read
    exact next a holds rest' named' b rest same
  · cases same
  · cases same

/-- A production may depend on the place where it starts. -/
theorem reads_from {p : Cursor → Parser α} (reads : ∀ c, Reads (p c) good) : Reads (fun c => p c c) good :=
  fun c named => reads c c named

theorem reads_mismatch {e : Expectation} : Reads (mismatch e) good := by
  intro c _ a rest same
  cases same

theorem peek_reads : Reads peek fun _ => True := by
  intro c named a rest same
  obtain ⟨-, rfl⟩ := Outcome.ok.inj same
  exact ⟨trivial, named⟩

theorem peekKind_reads : Reads peekKind fun _ => True := by
  intro c named a rest same
  obtain ⟨-, rfl⟩ := Outcome.ok.inj same
  exact ⟨trivial, named⟩

theorem lastSpan_reads : Reads lastSpan fun _ => True := by
  intro c named a rest same
  obtain ⟨-, rfl⟩ := Outcome.ok.inj same
  exact ⟨trivial, named⟩

theorem next_reads : Reads next fun _ => True := by
  intro c named a rest same
  obtain ⟨-, rfl⟩ := Outcome.ok.inj same
  exact ⟨trivial, named.advance⟩

theorem expect_reads (k : TokenKind) : Reads (expect k) fun t => t.kind = k ∧ t.Named := by
  intro c named a rest same
  rw [expect] at same
  split at same
  · rename_i kind
    obtain ⟨rfl, rfl⟩ := Outcome.ok.inj same
    exact ⟨⟨kind, named.1⟩, named.advance⟩
  · cases same

theorem Reads.within {context : String} (reads : Reads p good) : Reads (within context p) good := by
  intro c named a rest same
  rw [Parser.within] at same
  split at same
  · rename_i a' rest' read
    obtain ⟨rfl, rfl⟩ := Outcome.ok.inj same
    exact reads c named _ _ read
  · cases same
  · cases same

theorem ident_reads : Reads ident fun n => n.1 ≠ "" :=
  (expect_reads .identifier).bind fun _ ⟨kind, named⟩ => reads_pure (named kind)

theorem listRest_reads {close : TokenKind} {context : String} (element : Reads p good) (room : Nat) {read : List α}
    (before : ∀ a ∈ read, good a) :
    Reads (listRest close context p room read) fun r => ∀ a ∈ r.1, good a := by
  induction room generalizing read with
  | zero => exact reads_mismatch
  | succ room ih =>
    intro c named r rest same
    rw [listRest] at same
    beta_reduce at same
    split at same
    · obtain ⟨rfl, rfl⟩ := Outcome.ok.inj same
      exact ⟨fun a member => before a (List.mem_reverse.mp member), named.advance⟩
    split at same
    · rename_i a rest' found
      obtain ⟨holds, named'⟩ := element.within c named a rest' found
      have all := List.forall_mem_cons.mpr ⟨holds, before⟩
      split at same
      · exact ih all rest'.advance named'.advance r rest same
      split at same
      · obtain ⟨rfl, rfl⟩ := Outcome.ok.inj same
        exact ⟨fun a member => all a (List.mem_reverse.mp member), named'.advance⟩
      · cases same
    · cases same
    · cases same

theorem list_reads {opening close : TokenKind} {context : String} (element : Reads p good) :
    Reads (list opening close context p) fun r => ∀ a ∈ r.1, good a := by
  refine (expect_reads opening).bind fun start _ => ?_
  refine Reads.bind (reads_from fun c => listRest_reads element c.size (List.forall_mem_nil _)) fun r all => ?_
  exact reads_pure all

end Steps

section Types

theorem typeStep_reads {self : Parser TypeExpr} (inside : Reads self fun _ => True) :
    Reads (typeStep self) fun _ => True := by
  refine peekKind_reads.bind fun k _ => ?_
  split
  · refine ident_reads.bind fun n _ => peekKind_reads.bind fun k _ => ?_
    dsimp only
    split
    · exact reads_pure trivial
    · exact (list_reads inside).bind fun _ _ => reads_pure trivial
  · refine (list_reads inside).bind fun _ _ => (expect_reads _).within.bind fun _ _ => ?_
    exact inside.within.bind fun _ _ => lastSpan_reads.bind fun _ _ => reads_pure trivial
  · exact reads_mismatch

theorem type_reads : Reads type fun _ => True := by
  have at_ : ∀ depth, Reads (typeAt depth) fun _ => True := by
    intro depth
    induction depth with
    | zero => exact reads_mismatch
    | succ depth ih => exact typeStep_reads ih
  exact reads_from (p := fun c => typeAt c.size) fun c => at_ c.size

end Types

section Patterns

theorem fieldsNamed_iff {fs : List FieldPattern} : Pattern.FieldsNamed fs ↔ ∀ f ∈ fs, f.pattern.Named := by
  induction fs with
  | nil => simp [Pattern.FieldsNamed]
  | cons f rest ih =>
    cases f
    simp [Pattern.FieldsNamed, ih]

theorem fieldPattern_reads {self : Parser Pattern} (inside : Reads self Pattern.Named) :
    Reads (fieldPattern self) (·.pattern.Named) := by
  refine ident_reads.bind fun n named => peekKind_reads.bind fun k _ => ?_
  split
  · exact reads_pure named
  · refine next_reads.bind fun _ _ => inside.within.bind fun p own => ?_
    exact lastSpan_reads.bind fun _ _ => reads_pure own

theorem patternStep_reads {self : Parser Pattern} (inside : Reads self Pattern.Named) :
    Reads (patternStep self) Pattern.Named := by
  refine peekKind_reads.bind fun k _ => ?_
  split
  · exact reads_mismatch
  · refine ident_reads.bind fun n named => peekKind_reads.bind fun k _ => ?_
    dsimp only
    split
    · exact reads_pure named
    · exact (list_reads (fieldPattern_reads inside)).bind fun r all => reads_pure (fieldsNamed_iff.mpr all)

theorem pattern_reads : Reads pattern Pattern.Named := by
  have at_ : ∀ depth, Reads (patternAt depth) Pattern.Named := by
    intro depth
    induction depth with
    | zero => exact reads_mismatch
    | succ depth ih => exact patternStep_reads ih
  exact reads_from (p := fun c => patternAt c.size) fun c => at_ c.size

theorem param_reads : Reads param (·.pattern.Named) := by
  refine pattern_reads.bind fun p own => (expect_reads _).within.bind fun _ _ => ?_
  exact type_reads.within.bind fun _ _ => lastSpan_reads.bind fun _ _ => reads_pure own

end Patterns

section Lists

theorem namedAll_iff {es : List Expr} : Expr.NamedAll es ↔ ∀ e ∈ es, e.Named := by
  induction es with
  | nil => simp [Expr.NamedAll]
  | cons e rest ih => simp [Expr.NamedAll, ih]

theorem fieldInitsNamed_iff {fs : List FieldInit} : Expr.FieldsNamed fs ↔ ∀ f ∈ fs, f.value.Named := by
  induction fs with
  | nil => simp [Expr.FieldsNamed]
  | cons f rest ih =>
    cases f
    simp [Expr.FieldsNamed, ih]

theorem letsNamed_iff {bs : List Let} : Expr.LetsNamed bs ↔ ∀ b ∈ bs, b.pattern.Named ∧ b.value.Named := by
  induction bs with
  | nil => simp [Expr.LetsNamed]
  | cons b rest ih =>
    cases b
    simp [Expr.LetsNamed, ih, and_assoc]

theorem armsNamed_iff {as : List Arm} : Expr.ArmsNamed as ↔ ∀ a ∈ as, a.pattern.Named ∧ a.body.Named := by
  induction as with
  | nil => simp [Expr.ArmsNamed]
  | cons a rest ih =>
    cases a
    simp [Expr.ArmsNamed, ih, and_assoc]

end Lists

section Expressions

variable {self : Parser Expr}

theorem conditional_reads (inside : Reads self Expr.Named) : Reads (conditional self) Expr.Named := by
  refine next_reads.bind fun _ _ => inside.bind fun test first => (expect_reads _).bind fun _ _ => ?_
  refine inside.bind fun yes second => (expect_reads _).bind fun _ _ => inside.bind fun no third => ?_
  exact lastSpan_reads.bind fun _ _ => reads_pure ⟨first, second, third⟩

theorem arm_reads (inside : Reads self Expr.Named) : Reads (arm self) fun a => a.pattern.Named ∧ a.body.Named := by
  refine pattern_reads.bind fun p own => (expect_reads _).bind fun _ _ => inside.bind fun body named => ?_
  exact lastSpan_reads.bind fun _ _ => reads_pure ⟨own, named⟩

theorem arms_reads (inside : Reads self Expr.Named) (room : Nat) {read : List Arm}
    (before : ∀ a ∈ read, a.pattern.Named ∧ a.body.Named) :
    Reads (arms self room read) fun as => ∀ a ∈ as, a.pattern.Named ∧ a.body.Named := by
  induction room generalizing read with
  | zero => exact reads_mismatch
  | succ room ih =>
    rw [arms]
    refine peekKind_reads.bind fun k _ => ?_
    split
    · exact reads_pure fun a member => before a (List.mem_reverse.mp member)
    · refine (arm_reads inside).within.bind fun a own => peekKind_reads.bind fun k _ => ?_
      have all : ∀ b ∈ a :: read, b.pattern.Named ∧ b.body.Named := List.forall_mem_cons.mpr ⟨own, before⟩
      split
      · exact next_reads.bind fun _ _ => ih all
      · exact reads_pure fun a member => all a (List.mem_reverse.mp member)

theorem caseOf_reads (inside : Reads self Expr.Named) : Reads (caseOf self) Expr.Named := by
  refine next_reads.bind fun _ _ => inside.bind fun scrutinee own => (expect_reads _).bind fun _ _ => ?_
  refine (expect_reads _).bind fun _ _ => ?_
  refine Reads.bind (reads_from fun c => arms_reads inside c.size (List.forall_mem_nil _)) fun as all => ?_
  split
  · exact reads_mismatch
  · refine (expect_reads _).bind fun _ _ => lastSpan_reads.bind fun _ _ => ?_
    exact reads_pure ⟨own, armsNamed_iff.mpr all⟩

theorem closure_reads (inside : Reads self Expr.Named) : Reads (closure self) Expr.Named := by
  refine peek_reads.bind fun _ _ => (list_reads param_reads).bind fun ps all => inside.bind fun body own => ?_
  exact lastSpan_reads.bind fun _ _ => reads_pure ⟨all, own⟩

theorem fieldInit_reads (inside : Reads self Expr.Named) : Reads (fieldInit self) (·.value.Named) := by
  refine ident_reads.bind fun n _ => (expect_reads _).bind fun _ _ => inside.within.bind fun value own => ?_
  exact reads_pure own

theorem record_reads (inside : Reads self Expr.Named) : Reads (record self) Expr.Named := by
  refine ident_reads.bind fun n _ => (list_reads (fieldInit_reads inside)).bind fun fs all => ?_
  exact reads_pure (fieldInitsNamed_iff.mpr all)

theorem letBinding_reads (inside : Reads self Expr.Named) :
    Reads (letBinding self) fun b => b.pattern.Named ∧ b.value.Named := by
  refine next_reads.bind fun _ _ => pattern_reads.bind fun p first => (expect_reads _).bind fun _ _ => ?_
  refine inside.bind fun value second => (expect_reads _).bind fun _ _ => lastSpan_reads.bind fun _ _ => ?_
  exact reads_pure ⟨first, second⟩

theorem lets_reads (inside : Reads self Expr.Named) (room : Nat) {read : List Let}
    (before : ∀ b ∈ read, b.pattern.Named ∧ b.value.Named) :
    Reads (lets self room read) fun bs => ∀ b ∈ bs, b.pattern.Named ∧ b.value.Named := by
  induction room generalizing read with
  | zero => exact reads_mismatch
  | succ room ih =>
    rw [lets]
    refine peekKind_reads.bind fun k _ => ?_
    split
    · exact (letBinding_reads inside).within.bind fun b own => ih (List.forall_mem_cons.mpr ⟨own, before⟩)
    · exact reads_pure fun b member => before b (List.mem_reverse.mp member)

theorem block_reads (inside : Reads self Expr.Named) : Reads (block self) Expr.Named := by
  refine next_reads.bind fun _ _ => ?_
  refine Reads.bind (reads_from fun c => lets_reads inside c.size (List.forall_mem_nil _)) fun bs all => ?_
  refine inside.bind fun result own => (expect_reads _).bind fun _ _ => lastSpan_reads.bind fun _ _ => ?_
  exact reads_pure ⟨letsNamed_iff.mpr all, own⟩

theorem group_reads (inside : Reads self Expr.Named) : Reads (group self) Expr.Named := by
  refine next_reads.bind fun _ _ => inside.bind fun e own => peekKind_reads.bind fun k _ => ?_
  split
  · refine next_reads.bind fun _ _ => type_reads.within.bind fun _ _ => (expect_reads _).bind fun _ _ => ?_
    exact lastSpan_reads.bind fun _ _ => reads_pure own
  · exact (expect_reads _).bind fun _ _ => reads_pure own

theorem number_reads : Reads number Expr.Named := by
  intro c named e rest same
  rw [number] at same
  split at same
  · obtain ⟨rfl, rfl⟩ := Outcome.ok.inj same
    exact ⟨trivial, named.advance⟩
  · cases same

theorem atom_reads (inside : Reads self Expr.Named) : Reads (atom self) Expr.Named := by
  intro c named e rest same
  unfold atom at same
  split at same
  · exact number_reads c named e rest same
  · obtain ⟨rfl, rfl⟩ := Outcome.ok.inj same
    exact ⟨trivial, named.advance⟩
  · obtain ⟨rfl, rfl⟩ := Outcome.ok.inj same
    exact ⟨trivial, named.advance⟩
  · split at same
    · exact (record_reads inside).within c named e rest same
    · obtain ⟨rfl, rfl⟩ := Outcome.ok.inj same
      exact ⟨trivial, named.advance⟩
  · exact (block_reads inside).within c named e rest same
  · exact (group_reads inside).within c named e rest same
  · cases same

theorem callsAfter_reads (inside : Reads self Expr.Named) (room : Nat) {callee : Expr} (own : callee.Named) :
    Reads (callsAfter self room callee) Expr.Named := by
  induction room generalizing callee with
  | zero => exact reads_mismatch
  | succ room ih =>
    rw [callsAfter]
    refine peekKind_reads.bind fun k _ => ?_
    split
    · exact (list_reads inside).bind fun as all => ih ⟨own, namedAll_iff.mpr all⟩
    · exact reads_pure own

theorem application_reads (inside : Reads self Expr.Named) : Reads (application self) Expr.Named :=
  (atom_reads inside).bind fun _ own => reads_from fun c => callsAfter_reads inside c.size own

theorem chainAfter_reads {operator? : TokenKind → Option Operator} {operand : Parser Expr}
    (inside : Reads operand Expr.Named) (room : Nat) {left : Expr} (own : left.Named) :
    Reads (chainAfter operator? operand room left) Expr.Named := by
  induction room generalizing left with
  | zero => exact reads_mismatch
  | succ room ih =>
    rw [chainAfter]
    refine peekKind_reads.bind fun k _ => ?_
    split
    · exact next_reads.bind fun _ _ => inside.within.bind fun right own' => ih ⟨own, own'⟩
    · exact reads_pure own

theorem chain_reads {operator? : TokenKind → Option Operator} {operand : Parser Expr}
    (inside : Reads operand Expr.Named) : Reads (chain operator? operand) Expr.Named :=
  inside.bind fun _ own => reads_from fun c => chainAfter_reads inside c.size own

theorem sum_reads (inside : Reads self Expr.Named) : Reads (sum self) Expr.Named :=
  chain_reads (chain_reads (application_reads inside))

theorem comparison_reads (inside : Reads self Expr.Named) : Reads (comparison self) Expr.Named := by
  refine (sum_reads inside).bind fun left own => peekKind_reads.bind fun k _ => ?_
  split
  · exact next_reads.bind fun _ _ => (sum_reads inside).within.bind fun right own' => reads_pure ⟨own, own'⟩
  · exact reads_pure own

theorem exprStep_reads (inside : Reads self Expr.Named) : Reads (exprStep self) Expr.Named := by
  intro c named e rest same
  unfold exprStep at same
  split at same
  · exact (conditional_reads inside).within c named e rest same
  · exact (caseOf_reads inside).within c named e rest same
  · exact (closure_reads inside).within c named e rest same
  · exact comparison_reads inside c named e rest same

theorem expr_reads : Reads expr Expr.Named := by
  have at_ : ∀ depth, Reads (exprAt depth) Expr.Named := by
    intro depth
    induction depth with
    | zero => exact reads_mismatch
    | succ depth ih => exact exprStep_reads ih
  exact reads_from (p := fun c => exprAt c.size) fun c => at_ c.size

end Expressions

section Definitions

theorem generics_reads : Reads generics fun gs => ∀ g ∈ gs, g.name ≠ "" := by
  refine peekKind_reads.bind fun k _ => ?_
  split
  · have each : Reads generic (·.name ≠ "") := ident_reads.bind fun n named => reads_pure named
    exact (list_reads each).bind fun r all => reads_pure all
  · exact reads_pure (List.forall_mem_nil _)

theorem field_reads : Reads field fun _ => True := by
  refine ident_reads.bind fun n _ => (expect_reads _).within.bind fun _ _ => ?_
  exact type_reads.within.bind fun _ _ => reads_pure trivial

theorem function_reads : Reads function Item.Named := by
  refine next_reads.bind fun _ _ => ident_reads.bind fun n named => generics_reads.bind fun gs allG => ?_
  refine (list_reads param_reads).bind fun ps allP => (expect_reads _).bind fun _ _ => ?_
  refine type_reads.within.bind fun _ _ => (expect_reads _).bind fun _ _ => ?_
  refine expr_reads.within.bind fun body own => lastSpan_reads.bind fun _ _ => ?_
  exact reads_pure ⟨named, allG, allP, own⟩

theorem struct_reads : Reads struct Item.Named := by
  refine next_reads.bind fun _ _ => ident_reads.bind fun n named => generics_reads.bind fun gs allG => ?_
  exact (list_reads field_reads).bind fun fs _ => lastSpan_reads.bind fun _ _ => reads_pure ⟨named, allG⟩

theorem definition_reads : Reads definition Item.Named := by
  intro c named item rest same
  unfold definition at same
  split at same
  · exact function_reads.within c named item rest same
  · exact struct_reads.within c named item rest same
  · cases same

theorem definitions_named (room : Nat) {c : Cursor} (named : c.Named) :
    ∀ item ∈ (definitions room c).1, item.Named := by
  induction room generalizing c with
  | zero => exact List.forall_mem_nil _
  | succ room ih =>
    rw [definitions]
    split
    · exact List.forall_mem_nil _
    split
    · rename_i item rest read
      obtain ⟨own, later⟩ := definition_reads c named item rest read
      exact List.forall_mem_cons.mpr ⟨own, ih later⟩
    · exact List.forall_mem_nil _
    · exact List.forall_mem_nil _

end Definitions

end Parser

/-- Whatever a source file declares has a name. -/
theorem read_named (f : SourceFile) : (read f).file.Named := by
  have tokens := f.tokens_named
  refine Parser.definitions_named (Cursor.ofTokens f.tokens).size (c := Cursor.ofTokens f.tokens) ?_
  cases same : f.tokens with
  | nil => exact ⟨fun kind => (TokenKind.noConfusion kind : False).elim, List.forall_mem_nil _⟩
  | cons t ts =>
    rw [same, List.forall_mem_cons] at tokens
    exact tokens

end WitnessLang.Surface
