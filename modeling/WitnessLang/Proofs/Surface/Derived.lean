import WitnessLang.Proofs.Surface.Places

set_option autoImplicit false

namespace WitnessLang.Surface

open Grammar

namespace Parser

section Types

variable {n : Nat} {self self' : Parser TypeExpr} {E : List Token → TypeExpr → Prop}

theorem typeStep_agree (inside : AgreeWithin n self self' E) :
    AgreeWithin (n + 1) (typeStep self) (typeStep self') (TypeForm E) := by
  intro c left
  refine agree_peekKind ?_
  cases kind : c.head.kind
  case identifier =>
    refine (agree_ident left.ended).bind fun ts name rest moves own => ?_
    obtain ⟨t, rfl, named, rfl⟩ := own
    have left' := moves.fewer left
    refine agree_peekKind (agree_if (fun _ => agree_pure (.named named)) fun _ => ?_)
    refine ((list_agree (by decide) inside).mono (Nat.le_succ n) rest left').bind fun us args rest' _ own => agree_pure ?_
    rw [own.2, List.append_nil]
    exact .apply named own.1
  case leftParen =>
    refine (list_agree (by decide) inside c left).bind fun us args rest moves own => ?_
    obtain ⟨o, vs, rfl⟩ := own.1.cons
    have left' := moves.fewer left
    refine (agree_expect left'.ended _ (by decide)).within.bind fun ts arrow rest' moves' own' => ?_
    obtain ⟨rfl, sign⟩ := own'
    have left'' := moves'.left left'
    refine (inside rest' left'').within.bind fun ws result rest'' moves'' own'' => agree_lastSpan (agree_pure ?_)
    rw [own.2, moves''.last, moves'.last]
    simpa using TypeForm.func own.1 sign own''
  all_goals exact agree_mismatch

theorem typeStep_passes (n : Nat) : Passes n (alone typeStep) (alone typeStep) fun _ => IsType :=
  fun _ _ _ _ inside _ c left => (typeStep_agree (inside ()) c left).imp fun _ _ => .build fun _ _ own => own

theorem typeAt_repeats : Repeats (alone typeStep) fun depth _ => typeAt depth := fun _ => rfl

theorem type_agree (n : Nat) : AgreeWithin n type type IsType := fun c left =>
  (typeStep_passes c.size).agree typeAt_repeats typeAt_repeats (Nat.le_refl _) (Nat.le_refl _) () c
    ⟨left.ended, Nat.le_refl _⟩

theorem type_solves {c : Cursor} (ended : c.Ended) : type c = typeStep type c :=
  (Passes.recursive typeStep_passes typeAt_repeats).solves () c ended

end Types

section Patterns

variable {n : Nat} {self self' : Parser Pattern} {E : List Token → Pattern → Prop}

theorem fieldPattern_agree (inside : AgreeWithin n self self' E) :
    AgreeWithin (n + 1) (fieldPattern self) (fieldPattern self') (FieldPatternForm E) := by
  intro c left
  refine (agree_ident left.ended).bind fun ts name rest moves own => ?_
  obtain ⟨t, rfl, named, rfl⟩ := own
  have left' := moves.fewer left
  refine agree_peekKind (agree_if (fun _ => agree_pure (.short named)) fun sign => ?_)
  have sign : rest.head.kind = .colon := by simpa using sign
  refine (agree_next left'.ended (by rw [sign]; decide)).bind fun us colon rest' moves' own' => ?_
  obtain ⟨rfl, rfl⟩ := own'
  have left'' := moves'.left left'
  refine (inside rest' left'').within.bind fun vs inner rest'' moves'' own'' => agree_lastSpan (agree_pure ?_)
  rw [moves''.last, moves'.last]
  simpa using FieldPatternForm.long named sign own''

theorem patternStep_agree (inside : AgreeWithin n self self' E) :
    AgreeWithin (n + 1) (patternStep self) (patternStep self') (PatternForm E) := by
  intro c left
  refine agree_peekKind (agree_if (fun _ => agree_mismatch) fun _ => ?_)
  refine (agree_ident left.ended).bind fun ts name rest moves own => ?_
  obtain ⟨t, rfl, named, rfl⟩ := own
  have left' := moves.fewer left
  refine agree_peekKind (agree_if (fun _ => agree_pure (.var named)) fun _ => ?_)
  refine (list_agree (by decide) (fieldPattern_agree inside) rest (left'.mono (by omega))).bind
    fun us fields rest' _ own => agree_pure ?_
  rw [own.2, List.append_nil]
  exact .record named own.1

theorem patternStep_passes (n : Nat) : Passes n (alone patternStep) (alone patternStep) fun _ => IsPattern :=
  fun _ _ _ _ inside _ c left => (patternStep_agree (inside ()) c left).imp fun _ _ => .build fun _ _ own => own

theorem patternAt_repeats : Repeats (alone patternStep) fun depth _ => patternAt depth := fun _ => rfl

theorem pattern_agree (n : Nat) : AgreeWithin n pattern pattern IsPattern := fun c left =>
  (patternStep_passes c.size).agree patternAt_repeats patternAt_repeats (Nat.le_refl _) (Nat.le_refl _) () c
    ⟨left.ended, Nat.le_refl _⟩

theorem pattern_solves {c : Cursor} (ended : c.Ended) : pattern c = patternStep pattern c :=
  (Passes.recursive patternStep_passes patternAt_repeats).solves () c ended

theorem param_agree (n : Nat) : AgreeWithin n param param IsParam := by
  intro c left
  refine (pattern_agree n c left).bind fun ts p rest moves pattern => ?_
  have left' := moves.left left
  refine (agree_expect left'.ended _ (by decide)).within.bind fun us colon rest' moves' own => ?_
  obtain ⟨rfl, sign⟩ := own
  have left'' := moves'.left left'
  refine (type_agree n rest' left'').within.bind fun vs t rest'' moves'' type => agree_lastSpan (agree_pure ?_)
  rw [moves''.last, moves'.last]
  simpa using IsParam.mk pattern sign type

end Patterns

section Expressions

variable {n : Nat} {self self' : Parser Expr} {E : List Token → Expr → Prop}

theorem conditional_agree (inside : AgreeWithin n self self' E) {c : Cursor} (left : c.Left (n + 1))
    (word : c.head.kind = .kwIf) : Agree c (conditional self) (conditional self') (ExprForm E) := by
  refine (agree_next left.ended (by rw [word]; decide)).bind fun ts start c₁ moves₁ own => ?_
  obtain ⟨rfl, rfl⟩ := own
  have left₁ := moves₁.fewer left
  refine (inside c₁ left₁).bind fun ts test c₂ moves₂ first => ?_
  have left₂ := moves₂.left left₁
  refine (agree_expect left₂.ended _ (by decide)).bind fun _ t c₃ moves₃ own => ?_
  obtain ⟨rfl, word₁⟩ := own
  have left₃ := moves₃.left left₂
  refine (inside c₃ left₃).bind fun us yes c₄ moves₄ second => ?_
  have left₄ := moves₄.left left₃
  refine (agree_expect left₄.ended _ (by decide)).bind fun _ e c₅ moves₅ own => ?_
  obtain ⟨rfl, word₂⟩ := own
  have left₅ := moves₅.left left₄
  refine (inside c₅ left₅).bind fun vs no c₆ moves₆ third => agree_lastSpan (agree_pure ?_)
  rw [moves₆.last, moves₅.last]
  simpa using ExprForm.cond word first word₁ second word₂ third

theorem arm_agree (inside : AgreeWithin n self self' E) : AgreeWithin n (arm self) (arm self') (ArmForm E) := by
  intro c left
  refine (pattern_agree n c left).bind fun ts p rest moves pattern => ?_
  have left' := moves.left left
  refine (agree_expect left'.ended _ (by decide)).bind fun us arrow rest' moves' own => ?_
  obtain ⟨rfl, sign⟩ := own
  have left'' := moves'.left left'
  refine (inside rest' left'').bind fun vs body rest'' moves'' own => agree_lastSpan (agree_pure ?_)
  rw [moves''.last, moves'.last]
  simpa using ArmForm.mk pattern sign own

/-- An alternative and what stands behind it. -/
def armsStep (self : Parser Expr) (go : List Arm → Parser (List Arm)) (read : List Arm) : Parser (List Arm) := do
  if (← peekKind) = .rightBrace then return read.reverse
  let a ← within "case arm" (arm self)
  if (← peekKind) = .semicolon then
    let _ ← next
    go (a :: read)
  else return (a :: read).reverse

theorem arms_repeats (self : Parser Expr) : Repeats (armsStep self) (arms self) := fun _ => rfl

theorem armsStep_passes (inside : AgreeWithin n self self' E) : Passes n (armsStep self) (armsStep self')
    fun read ts r => ∃ as, r = read.reverse ++ as ∧ (ts = [] ∧ as = [] ∨ Arms E ts as) := by
  intro m go go' fewer after read c left
  refine agree_peekKind (agree_if (fun _ => agree_pure ⟨[], by simp, .inl ⟨rfl, rfl⟩⟩) fun _ => ?_)
  refine (arm_agree inside c (left.mono fewer)).within.bind fun ts a rest moves own => ?_
  have left' := moves.left left
  refine agree_peekKind (agree_if (fun sep => ?_) fun _ => agree_pure ⟨[a], by simp, .inr ?_⟩)
  · refine (agree_next left'.ended (by rw [sep]; decide)).bind fun us semicolon rest' moves' own' => ?_
    obtain ⟨rfl, rfl⟩ := own'
    refine (after (a :: read) rest' (moves'.fewer left')).imp fun vs r more => ?_
    obtain ⟨as, rfl, ⟨rfl, rfl⟩ | others⟩ := more
    · exact ⟨[a], by simp, .inr (by simpa using .closed own sep)⟩
    · exact ⟨a :: as, by simp, .inr (by simpa using .more own sep others)⟩
  · simpa using .last own

theorem caseOf_agree (inside : AgreeWithin n self self' E) {c : Cursor} (left : c.Left (n + 1))
    (word : c.head.kind = .kwCase) : Agree c (caseOf self) (caseOf self') (ExprForm E) := by
  refine (agree_next left.ended (by rw [word]; decide)).bind fun ts start c₁ moves₁ own => ?_
  obtain ⟨rfl, rfl⟩ := own
  have left₁ := moves₁.fewer left
  refine (inside c₁ left₁).bind fun ts scrutinee c₂ moves₂ first => ?_
  have left₂ := moves₂.left left₁
  refine (agree_expect left₂.ended _ (by decide)).bind fun _ f c₃ moves₃ own => ?_
  obtain ⟨rfl, word'⟩ := own
  have left₃ := moves₃.left left₂
  refine (agree_expect left₃.ended _ (by decide)).bind fun _ o c₄ moves₄ own => ?_
  obtain ⟨rfl, opened⟩ := own
  have left₄ := moves₄.left left₃
  have arms := (armsStep_passes (inside.mono left₄.size)).agree (arms_repeats self) (arms_repeats self') (Nat.le_refl _)
    (Nat.le_refl _) []
  refine Agree.bind (arms c₄ ⟨left₄.ended, Nat.le_refl _⟩) fun us as c₅ moves₅ own => ?_
  have left₅ := moves₅.left left₄
  refine agree_if (fun _ => agree_mismatch) fun some => ?_
  refine (agree_expect left₅.ended _ (by decide)).bind fun _ close c₆ moves₆ own' => agree_lastSpan (agree_pure ?_)
  obtain ⟨rfl, closed⟩ := own'
  obtain ⟨as', rfl, ⟨rfl, rfl⟩ | alternatives⟩ := own
  · exact absurd rfl some
  · rw [moves₆.last]
    simpa using ExprForm.case word first word' opened alternatives closed

theorem closure_agree (inside : AgreeWithin n self self' E) {c : Cursor} (left : c.Left (n + 1)) :
    Agree c (closure self) (closure self') (ExprForm E) := by
  refine agree_peek ((list_agree (by decide) (param_agree n) c left).bind fun ts params c₁ moves₁ own => ?_)
  obtain ⟨bar, us, rfl⟩ := own.1.cons
  have left₁ := moves₁.fewer left
  refine (inside c₁ left₁).bind fun vs body c₂ moves₂ own' => agree_lastSpan (agree_pure ?_)
  have first : c.head = bar := (List.cons.inj moves₁.tokens).1
  rw [moves₂.last, moves₁.last, first]
  simpa using ExprForm.closure own.1 own'

theorem fieldInit_agree (inside : AgreeWithin n self self' E) :
    AgreeWithin (n + 1) (fieldInit self) (fieldInit self') (FieldInitForm E) := by
  intro c left
  refine (agree_ident left.ended).bind fun ts name c₁ moves₁ own => ?_
  obtain ⟨t, rfl, named, rfl⟩ := own
  have left₁ := moves₁.fewer left
  refine (agree_expect left₁.ended _ (by decide)).bind fun us colon c₂ moves₂ own => ?_
  obtain ⟨rfl, sign⟩ := own
  have left₂ := moves₂.left left₁
  refine (inside c₂ left₂).within.bind fun vs value c₃ moves₃ own => agree_pure ?_
  simpa using FieldInitForm.mk named sign own

theorem record_agree (inside : AgreeWithin n self self' E) :
    AgreeWithin (n + 1) (record self) (record self') (AtomForm E) := by
  intro c left
  refine (agree_ident left.ended).bind fun ts name c₁ moves₁ own => ?_
  obtain ⟨t, rfl, named, rfl⟩ := own
  have left₁ := moves₁.fewer left
  refine (list_agree (by decide) (fieldInit_agree inside) c₁ (left₁.mono (by omega))).bind
    fun us args c₂ _ own => agree_pure ?_
  rw [own.2, List.append_nil]
  exact .record named own.1

theorem letBinding_agree (inside : AgreeWithin n self self' E) {c : Cursor} (left : c.Left (n + 1))
    (word : c.head.kind = .kwLet) : Agree c (letBinding self) (letBinding self') (LetForm E) := by
  refine (agree_next left.ended (by rw [word]; decide)).bind fun ts start c₁ moves₁ own => ?_
  obtain ⟨rfl, rfl⟩ := own
  have left₁ := moves₁.fewer left
  refine (pattern_agree n c₁ left₁).bind fun ts p c₂ moves₂ pattern => ?_
  have left₂ := moves₂.left left₁
  refine (agree_expect left₂.ended _ (by decide)).bind fun _ assign c₃ moves₃ own => ?_
  obtain ⟨rfl, sign⟩ := own
  have left₃ := moves₃.left left₂
  refine (inside c₃ left₃).bind fun us value c₄ moves₄ own => ?_
  have left₄ := moves₄.left left₃
  refine (agree_expect left₄.ended _ (by decide)).bind fun _ semicolon c₅ moves₅ own' => agree_lastSpan (agree_pure ?_)
  obtain ⟨rfl, ended⟩ := own'
  rw [moves₅.last]
  simpa using LetForm.mk word pattern sign own ended

def letsStep (self : Parser Expr) (go : List Let → Parser (List Let)) (read : List Let) : Parser (List Let) := do
  if (← peekKind) = .kwLet then
    let l ← within "let binding" (letBinding self)
    go (l :: read)
  else return read.reverse

theorem lets_repeats (self : Parser Expr) : Repeats (letsStep self) (lets self) := fun _ => rfl

theorem letsStep_passes (inside : AgreeWithin n self self' E) :
    Passes n (letsStep self) (letsStep self') fun read ts r => ∃ ls, r = read.reverse ++ ls ∧ Lets E ts ls := by
  intro m go go' fewer after read c left
  refine agree_peekKind (agree_if (fun word => ?_) fun _ => agree_pure ⟨[], by simp, .nil⟩)
  refine (letBinding_agree (inside.mono (Nat.le_of_lt fewer)) left word).within.bind fun ts l rest moves own => ?_
  have left' : rest.Left m := by
    cases own
    exact moves.fewer left
  refine (after (l :: read) rest left').imp fun us r more => ?_
  obtain ⟨ls, rfl, others⟩ := more
  exact ⟨l :: ls, by simp, .cons own others⟩

theorem block_agree (inside : AgreeWithin n self self' E) {c : Cursor} (left : c.Left (n + 1))
    (opened : c.head.kind = .leftBrace) : Agree c (block self) (block self') (AtomForm E) := by
  refine (agree_next left.ended (by rw [opened]; decide)).bind fun ts start c₁ moves₁ own => ?_
  obtain ⟨rfl, rfl⟩ := own
  have left₁ := moves₁.fewer left
  have lets := (letsStep_passes (inside.mono left₁.size)).agree (lets_repeats self) (lets_repeats self') (Nat.le_refl _)
    (Nat.le_refl _) []
  refine Agree.bind (lets c₁ ⟨left₁.ended, Nat.le_refl _⟩) fun ts ls c₂ moves₂ own => ?_
  obtain ⟨ls, rfl, bindings⟩ := own
  have left₂ := moves₂.left left₁
  refine (inside c₂ left₂).bind fun us result c₃ moves₃ own => ?_
  have left₃ := moves₃.left left₂
  refine (agree_expect left₃.ended _ (by decide)).bind fun _ close c₄ moves₄ own' => agree_lastSpan (agree_pure ?_)
  obtain ⟨rfl, closed⟩ := own'
  rw [moves₄.last]
  simpa using AtomForm.block opened bindings own closed

theorem group_agree (inside : AgreeWithin n self self' E) {c : Cursor} (left : c.Left (n + 1))
    (opened : c.head.kind = .leftParen) : Agree c (group self) (group self') (AtomForm E) := by
  refine (agree_next left.ended (by rw [opened]; decide)).bind fun ts start c₁ moves₁ own => ?_
  obtain ⟨rfl, rfl⟩ := own
  have left₁ := moves₁.fewer left
  refine (inside c₁ left₁).bind fun ts e c₂ moves₂ own => ?_
  have left₂ := moves₂.left left₁
  refine agree_peekKind (agree_if (fun sign => ?_) fun _ => ?_)
  · refine (agree_next left₂.ended (by rw [sign]; decide)).bind fun _ colon c₃ moves₃ own' => ?_
    obtain ⟨rfl, rfl⟩ := own'
    have left₃ := moves₃.left left₂
    refine (type_agree n c₃ left₃).within.bind fun us t c₄ moves₄ type => ?_
    have left₄ := moves₄.left left₃
    refine (agree_expect left₄.ended _ (by decide)).bind fun _ close c₅ moves₅ own' => agree_lastSpan (agree_pure ?_)
    obtain ⟨rfl, closed⟩ := own'
    rw [moves₅.last]
    simpa using AtomForm.annotated opened own sign type closed
  · refine (agree_expect left₂.ended _ (by decide)).bind fun _ close c₃ moves₃ own' => agree_pure ?_
    obtain ⟨rfl, closed⟩ := own'
    simpa using AtomForm.group opened own closed

theorem number_agree {c : Cursor} (ended : c.Ended) (kind : c.head.kind = .number) :
    Agree c number number (AtomForm E) := by
  have more : c.head.kind ≠ .endOfFile := by rw [kind]; decide
  cases value : Binary64.ofLiteral c.head.text with
  | none =>
    refine ⟨rfl, fun e rest ran => ?_⟩
    simp only [number, value, reduceCtorEq] at ran
  | some bits =>
    refine ⟨rfl, fun e rest ran => ?_⟩
    simp only [number, value, Outcome.ok.injEq] at ran
    obtain ⟨rfl, rfl⟩ := ran
    exact ⟨[c.head], ended.advance more, .number kind value⟩

theorem atom_agree (inside : AgreeWithin n self self' E) :
    AgreeWithin (n + 1) (atom self) (atom self') (AtomForm E) := by
  intro c left
  cases kind : c.head.kind
  case number => exact (number_agree left.ended kind).at (by rw [atom, kind]) (by rw [atom, kind])
  case kwTrue =>
    refine (agree_advance left.ended (by rw [kind]; decide) ?_).at (by rw [atom, kind]) (by rw [atom, kind])
    exact .true kind
  case kwFalse =>
    refine (agree_advance left.ended (by rw [kind]; decide) ?_).at (by rw [atom, kind]) (by rw [atom, kind])
    exact .false kind
  case identifier =>
    by_cases literal : atRecord c
    · have own := record_agree inside c left
      exact own.within.at (by rw [atom, kind]; exact if_pos literal) (by rw [atom, kind]; exact if_pos literal)
    · have own : AtomForm E [c.head] (.var c.head.span c.head.text) := .var kind
      have name := agree_advance (v := fun c => Expr.var c.head.span c.head.text) left.ended (by rw [kind]; decide) own
      exact name.at (by rw [atom, kind]; exact if_neg literal) (by rw [atom, kind]; exact if_neg literal)
  case leftBrace => exact (block_agree inside left kind).within.at (by rw [atom, kind]) (by rw [atom, kind])
  case leftParen => exact (group_agree inside left kind).within.at (by rw [atom, kind]) (by rw [atom, kind])
  all_goals exact agree_mismatch.at (by rw [atom, kind]; rfl) (by rw [atom, kind]; rfl)

/-- The arguments of a call and what stands behind them. -/
def callsStep (self : Parser Expr) (go : Expr → Parser Expr) (callee : Expr) : Parser Expr := do
  if (← peekKind) = .leftParen then
    let (args, span) ← list .leftParen .rightParen "call arguments" self
    go (.call (callee.span.cover span) callee args)
  else return callee

theorem callsAfter_repeats (self : Parser Expr) : Repeats (callsStep self) (callsAfter self) := fun _ => rfl

theorem callsStep_passes (inside : AgreeWithin n self self' E) : Passes n (callsStep self) (callsStep self')
    fun callee ts e => ∀ us, Application E us callee → Application E (us ++ ts) e := by
  intro m go go' fewer after callee c left
  refine agree_peekKind (agree_if (fun _ => ?_) fun _ => agree_pure fun us own => by rwa [List.append_nil])
  have inside' := inside.mono (Nat.le_of_lt fewer)
  refine (list_agree (by decide) inside' c left).bind fun ts args rest moves own => ?_
  obtain ⟨t, us, rfl⟩ := own.1.cons
  refine (after _ rest (moves.fewer left)).imp fun vs e more ws before => ?_
  rw [← List.append_assoc]
  apply more
  rw [own.2]
  exact .call before own.1

theorem application_agree (inside : AgreeWithin n self self' E) :
    AgreeWithin (n + 1) (application self) (application self') (Application E) := by
  intro c left
  refine (atom_agree inside c left).bind fun ts callee rest moves own => ?_
  have left' : rest.Left n := by
    cases own <;> exact moves.fewer left
  have calls := (callsStep_passes (inside.mono left'.size)).agree (callsAfter_repeats self) (callsAfter_repeats self')
    (Nat.le_refl _) (Nat.le_refl _) callee
  exact (calls rest ⟨left'.ended, Nat.le_refl _⟩).imp fun us e after => after ts (.atom own)

section Chains

variable {operator? : TokenKind → Option Operator} {Operand : List Token → Expr → Prop} {operand operand' : Parser Expr}

/-- An operator, its second operand and what stands behind it. -/
def chainStep (operator? : TokenKind → Option Operator) (operand : Parser Expr) (go : Expr → Parser Expr)
    (left : Expr) : Parser Expr := do
  match operator? (← peekKind) with
  | some op =>
    let _ ← next
    let right ← within "binary operation" operand
    go (binary op left right)
  | none => return left

theorem chainAfter_repeats (operator? : TokenKind → Option Operator) (operand : Parser Expr) :
    Repeats (chainStep operator? operand) (chainAfter operator? operand) := fun _ => rfl

theorem chainStep_passes (ends : operator? .endOfFile = none) (inside : AgreeWithin n operand operand' Operand) :
    Passes n (chainStep operator? operand) (chainStep operator? operand')
      fun first ts e => ∀ us, Chain operator? Operand us first → Chain operator? Operand (us ++ ts) e := by
  intro m go go' fewer after first c left
  refine agree_peekKind ?_
  cases sign : operator? c.head.kind with
  | none => exact agree_pure fun us own => by rwa [List.append_nil]
  | some op =>
    have more : c.head.kind ≠ .endOfFile := by
      intro kind
      rw [kind, ends] at sign
      cases sign
    refine (agree_next left.ended more).bind fun ts t rest moves own => ?_
    obtain ⟨rfl, rfl⟩ := own
    have left' := moves.fewer left
    refine (inside rest (left'.mono (Nat.le_of_lt fewer))).within.bind fun us right rest' moves' own => ?_
    refine (after (binary op first right) rest' (moves'.left left')).imp fun vs e calls ws before => ?_
    have := calls (ws ++ c.head :: us) (.more before sign own)
    simpa using this

theorem chain_agree (ends : operator? .endOfFile = none) (inside : AgreeWithin n operand operand' Operand) :
    AgreeWithin n (chain operator? operand) (chain operator? operand') (Chain operator? Operand) := by
  intro c left
  refine (inside c left).bind fun ts first rest moves own => ?_
  have left' := moves.left left
  have operands := (chainStep_passes ends (inside.mono left'.size)).agree (chainAfter_repeats operator? operand)
    (chainAfter_repeats operator? operand') (Nat.le_refl _) (Nat.le_refl _) first
  exact (operands rest ⟨left'.ended, Nat.le_refl _⟩).imp fun us e after => after ts (.single own)

end Chains

theorem product_agree (inside : AgreeWithin n self self' E) :
    AgreeWithin (n + 1) (product self) (product self') (Product E) :=
  chain_agree rfl (application_agree inside)

theorem sum_agree (inside : AgreeWithin n self self' E) : AgreeWithin (n + 1) (sum self) (sum self') (Sum E) :=
  chain_agree rfl (product_agree inside)

theorem comparison_agree (inside : AgreeWithin n self self' E) :
    AgreeWithin (n + 1) (comparison self) (comparison self') (Comparison E) := by
  intro c left
  refine (sum_agree inside c left).bind fun ts first rest moves own => ?_
  have left' := moves.left left
  refine agree_peekKind (agree_if (fun sign => ?_) fun _ => agree_pure (by simpa using .single own))
  refine (agree_next left'.ended (by rw [sign]; decide)).bind fun _ t rest' moves' own' => ?_
  obtain ⟨rfl, rfl⟩ := own'
  have left'' := moves'.left left'
  refine (sum_agree inside rest' left'').within.bind fun us second rest'' moves'' own' => agree_pure ?_
  simpa using Comparison.less own sign own'

theorem exprStep_agree (inside : AgreeWithin n self self' E) :
    AgreeWithin (n + 1) (exprStep self) (exprStep self') (ExprForm E) := by
  intro c left
  have other := (comparison_agree inside c left).imp fun ts e own => ExprForm.comparison own
  cases kind : c.head.kind
  case kwIf => exact (conditional_agree inside left kind).within.at (by rw [exprStep, kind]) (by rw [exprStep, kind])
  case kwCase => exact (caseOf_agree inside left kind).within.at (by rw [exprStep, kind]) (by rw [exprStep, kind])
  case pipe => exact (closure_agree inside left).within.at (by rw [exprStep, kind]) (by rw [exprStep, kind])
  all_goals exact other.at (by rw [exprStep, kind]) (by rw [exprStep, kind])

theorem exprStep_passes (n : Nat) : Passes n (alone exprStep) (alone exprStep) fun _ => IsExpr :=
  fun _ _ _ _ inside _ c left => (exprStep_agree (inside ()) c left).imp fun _ _ => .build fun _ _ own => own

theorem exprAt_repeats : Repeats (alone exprStep) fun depth _ => exprAt depth := fun _ => rfl

theorem expr_agree (n : Nat) : AgreeWithin n expr expr IsExpr := fun c left =>
  (exprStep_passes c.size).agree exprAt_repeats exprAt_repeats (Nat.le_refl _) (Nat.le_refl _) () c
    ⟨left.ended, Nat.le_refl _⟩

theorem expr_solves {c : Cursor} (ended : c.Ended) : expr c = exprStep expr c :=
  (Passes.recursive exprStep_passes exprAt_repeats).solves () c ended

end Expressions

section Definitions

variable {n : Nat}

theorem generic_agree (n : Nat) : AgreeWithin n generic generic IsGeneric := by
  intro c left
  refine (agree_ident left.ended).bind fun ts name rest _ own => agree_pure ?_
  obtain ⟨t, rfl, named, rfl⟩ := own
  simpa using IsGeneric.mk named

theorem generics_agree (n : Nat) : AgreeWithin n generics generics IsGenerics := by
  intro c left
  refine agree_peekKind (agree_if (fun _ => ?_) fun _ => agree_pure .none)
  refine (list_agree (by decide) (generic_agree n) c (left.mono (Nat.le_succ n))).bind fun ts gs rest _ own => ?_
  exact agree_pure (by simpa using IsGenerics.some own.1)

theorem field_agree (n : Nat) : AgreeWithin n field field IsStructField := by
  intro c left
  refine (agree_ident left.ended).bind fun ts name c₁ moves₁ own => ?_
  obtain ⟨t, rfl, named, rfl⟩ := own
  have left₁ := moves₁.left left
  refine (agree_expect left₁.ended _ (by decide)).within.bind fun us colon c₂ moves₂ own => ?_
  obtain ⟨rfl, sign⟩ := own
  have left₂ := moves₂.left left₁
  refine (type_agree n c₂ left₂).within.bind fun vs t c₃ _ own => agree_pure ?_
  simpa using IsStructField.mk named sign own

theorem function_agree {c : Cursor} (left : c.Left n) (word : c.head.kind = .kwFunc) :
    Agree c function function IsItem := by
  refine (agree_next left.ended (by rw [word]; decide)).bind fun _ start c₁ moves₁ own => ?_
  obtain ⟨rfl, rfl⟩ := own
  have left₁ := moves₁.left left
  refine (agree_ident left₁.ended).bind fun _ _ c₂ moves₂ own => ?_
  obtain ⟨name, rfl, named, rfl⟩ := own
  have left₂ := moves₂.left left₁
  refine (generics_agree n c₂ left₂).bind fun gs generics c₃ moves₃ generic => ?_
  have left₃ := moves₃.left left₂
  refine (list_agree (by decide) (param_agree n) c₃ (left₃.mono (Nat.le_succ n))).bind fun ps params c₄ moves₄ own => ?_
  have left₄ := moves₄.left left₃
  refine (agree_expect left₄.ended _ (by decide)).bind fun _ colon c₅ moves₅ sign => ?_
  obtain ⟨rfl, sign⟩ := sign
  have left₅ := moves₅.left left₄
  refine (type_agree n c₅ left₅).within.bind fun rs result c₆ moves₆ type => ?_
  have left₆ := moves₆.left left₅
  refine (agree_expect left₆.ended _ (by decide)).bind fun _ assign c₇ moves₇ sign' => ?_
  obtain ⟨rfl, sign'⟩ := sign'
  have left₇ := moves₇.left left₆
  refine (expr_agree n c₇ left₇).within.bind fun bs body c₈ moves₈ own' => agree_lastSpan (agree_pure ?_)
  rw [moves₈.last, moves₇.last]
  simpa using IsItem.func word named generic own.1 sign type sign' own'

theorem struct_agree {c : Cursor} (left : c.Left n) (word : c.head.kind = .kwStruct) :
    Agree c struct struct IsItem := by
  refine (agree_next left.ended (by rw [word]; decide)).bind fun _ start c₁ moves₁ own => ?_
  obtain ⟨rfl, rfl⟩ := own
  have left₁ := moves₁.left left
  refine (agree_ident left₁.ended).bind fun _ _ c₂ moves₂ own => ?_
  obtain ⟨name, rfl, named, rfl⟩ := own
  have left₂ := moves₂.left left₁
  refine (generics_agree n c₂ left₂).bind fun gs generics c₃ moves₃ generic => ?_
  have left₃ := moves₃.left left₂
  refine (list_agree (by decide) (field_agree n) c₃ (left₃.mono (Nat.le_succ n))).bind fun fs fields c₄ moves₄ own => ?_
  refine agree_lastSpan (agree_pure ?_)
  obtain ⟨t, us, rfl⟩ := own.1.cons
  have := IsItem.struct word named generic own.1
  rw [moves₄.last]
  simpa using this

theorem definition_agree (n : Nat) : AgreeWithin n definition definition IsItem := by
  intro c left
  cases kind : c.head.kind
  case kwFunc => exact (function_agree left kind).within.at (by rw [definition, kind]) (by rw [definition, kind])
  case kwStruct => exact (struct_agree left kind).within.at (by rw [definition, kind]) (by rw [definition, kind])
  all_goals exact agree_mismatch.at (by rw [definition, kind]; rfl) (by rw [definition, kind]; rfl)

/-- What is read before the end of the file, or before a failure, is a program. -/
theorem definitions_derived {room : Nat} {c : Cursor} (left : c.Left n) (enough : n ≤ room) :
    ∃ ts rest, c.Moves ts rest ∧ IsProgram ts (definitions room c).1 ∧
      ((definitions room c).2 = none → rest.head.kind = .endOfFile) := by
  induction n generalizing room c with
  | zero => exact absurd left Cursor.not_left_zero
  | succ n ih =>
    obtain ⟨room, rfl⟩ := Nat.exists_eq_succ_of_ne_zero (show room ≠ 0 by omega)
    rw [definitions]
    by_cases last : c.head.kind = .endOfFile
    · rw [if_pos last]
      exact ⟨[], c, .refl c, .nil, fun _ => last⟩
    rw [if_neg last]
    have agree := definition_agree (n + 1) c left
    cases ran : definition c with
    | ok item rest =>
      obtain ⟨ts, moves, own⟩ := agree.2 item rest ran
      have left' : rest.Left n := by
        cases own <;> exact moves.fewer left
      obtain ⟨us, stop, moves', others, none⟩ := ih left' (Nat.le_of_succ_le_succ enough)
      exact ⟨ts ++ us, stop, moves.trans moves', .cons own others, none⟩
    | mismatch e t => exact ⟨[], c, .refl c, .nil, fun fine => absurd fine (Option.some_ne_none _)⟩
    | failure e => exact ⟨[], c, .refl c, .nil, fun fine => absurd fine (Option.some_ne_none _)⟩

end Definitions

end Parser

end WitnessLang.Surface
