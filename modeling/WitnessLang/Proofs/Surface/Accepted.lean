import WitnessLang.Proofs.Surface.Derived

set_option autoImplicit false

/-! What derives from the grammar is read, and as the tree of its derivation. What a production has read is only
known where it stops, so that each production comes with what may follow it: no token that would have made it
go on. -/
namespace WitnessLang.Surface

open Grammar

namespace Parser

variable {α β : Type}

/-- The first of some tokens is one of `kinds`. -/
def StartsWith (kinds : List TokenKind) (ts : List Token) : Prop := ∃ t us, ts = t :: us ∧ t.kind ∈ kinds

/-- Over `ts` the production gives `a`, unless what comes next is one of the kinds with which it goes on. -/
def Accepts (p : Parser α) (on : List TokenKind) (ts : List Token) (a : α) : Prop :=
  ∀ c rest, c.Ended → c.Moves ts rest → rest.head.kind ∉ on → p c = .ok a rest

/-- The production gives whatever derives as `E`, which starts with one of `kinds`. -/
def Covers (p : Parser α) (kinds on : List TokenKind) (E : List Token → α → Prop) : Prop :=
  ∀ ts a, E ts a → StartsWith kinds ts ∧ Accepts p on ts a

section Steps

variable {c d rest : Cursor} {p : Parser α} {f : α → Parser β} {a : α} {b : β} {kinds on : List TokenKind}
  {ts us : List Token} {t : Token} {k : TokenKind}

theorem startsWith_cons (kind : t.kind ∈ kinds) : StartsWith kinds (t :: ts) := ⟨t, ts, rfl, kind⟩

theorem StartsWith.append (starts : StartsWith kinds ts) (us : List Token) : StartsWith kinds (ts ++ us) := by
  obtain ⟨t, vs, rfl, kind⟩ := starts
  exact ⟨t, vs ++ us, rfl, kind⟩

theorem StartsWith.mono {more : List TokenKind} (starts : StartsWith kinds ts) (sub : kinds ⊆ more) :
    StartsWith more ts := by
  obtain ⟨t, us, rfl, kind⟩ := starts
  exact startsWith_cons (sub kind)

/-- What comes next is known from what is read. -/
theorem StartsWith.head (starts : StartsWith kinds ts) (moves : c.Moves ts rest) : c.head.kind ∈ kinds := by
  obtain ⟨t, us, rfl, kind⟩ := starts
  rwa [moves.first.1]

theorem StartsWith.ne (starts : StartsWith kinds ts) (moves : c.Moves ts rest) (other : k ∉ kinds) :
    c.head.kind ≠ k := fun same => other (same ▸ starts.head moves)

/-- What comes next is not one of `on`. -/
theorem stops (moves : c.Moves (t :: ts) rest) (kind : t.kind = k) (other : k ∉ on) : c.head.kind ∉ on := by
  rwa [moves.first.1, kind]

theorem enclosed_head {E : List Token → α → Prop} {opening close : TokenKind} {as : List α}
    (enclosed : Enclosed opening close E ts as) (moves : c.Moves ts rest) : c.head.kind = opening := by
  obtain ⟨opened, -, -⟩ := enclosed
  rw [moves.first.1, opened]

theorem bind_ran (ran : p c = .ok a d) : (p >>= f) c = f a d := by
  rw [bind_apply, ran]

theorem ok_bind (first : p c = .ok a d) (next : f a d = .ok b rest) : (p >>= f) c = .ok b rest :=
  (bind_ran first).trans next

theorem ok_peekKind {f : TokenKind → Parser β} (next : f c.head.kind c = .ok b rest) :
    (peekKind >>= f) c = .ok b rest := next

theorem ok_lastSpan {f : Span → Parser β} (next : f c.last c = .ok b rest) : (lastSpan >>= f) c = .ok b rest := next

theorem ok_if {P : Prop} [Decidable P] {p q : Parser α} (holds : P) (yes : p c = .ok a rest) :
    (if P then p else q) c = .ok a rest := by rwa [if_pos holds]

theorem ok_else {P : Prop} [Decidable P] {p q : Parser α} (fails : ¬ P) (no : q c = .ok a rest) :
    (if P then p else q) c = .ok a rest := by rwa [if_neg fails]

theorem ok_within {context : String} (ok : p c = .ok a rest) : within context p c = .ok a rest := by
  rw [within, ok]

theorem ok_next (moves : c.Moves (t :: ts) rest) : next c = .ok t c.advance := by
  rw [next, moves.first.1]

theorem ok_expect (moves : c.Moves (t :: ts) rest) (kind : t.kind = k) : expect k c = .ok t c.advance := by
  rw [expect, moves.first.1, if_pos kind]

theorem ok_ident (moves : c.Moves (t :: ts) rest) (kind : t.kind = .identifier) :
    ident c = .ok (t.text, t.span) c.advance :=
  ok_bind (ok_expect moves kind) rfl

/-- A production that reads what is nested inside by itself covers what its own step covers. -/
theorem covers_solved {step : Parser α → Parser α} (solves : ∀ c : Cursor, c.Ended → p c = step p c)
    (covers : StartsWith kinds ts ∧ Accepts (step p) on ts a) : StartsWith kinds ts ∧ Accepts p on ts a := by
  refine ⟨covers.1, fun c rest ended moves stop => ?_⟩
  rw [solves c ended]
  exact covers.2 c rest ended moves stop

end Steps

section Lists

variable {p : Parser α} {E : List Token → α → Prop} {kinds on : List TokenKind}

/-- The rest of a list. The induction is on what is between its tokens. -/
theorem listRest_accepts {close : TokenKind} {context : String} (inside : Covers p kinds on E) (other : close ∉ kinds)
    (comma : TokenKind.comma ∉ on) (stop : close ∉ on) (apart : close ≠ .comma) {ts : List Token} {as : List α}
    (items : Items E ts as) {c rest : Cursor} {last : Token} (closed : last.kind = close) (ended : c.Ended)
    (moves : c.Moves (ts ++ [last]) rest) {room : Nat} (enough : c.size ≤ room) (read : List α) :
    listRest close context p room read c = .ok (read.reverse ++ as, last.span) rest := by
  induction items generalizing c room read with
  | nil =>
    obtain ⟨room, rfl⟩ := Nat.exists_eq_succ_of_ne_zero (show room ≠ 0 from Nat.ne_zero_of_lt enough)
    obtain ⟨same, -, later⟩ := moves.first
    rw [listRest_repeats]
    refine (if_pos (same ▸ closed)).trans ?_
    rw [same, later.nil, List.append_nil]
  | @last ts a own =>
    obtain ⟨room, rfl⟩ := Nat.exists_eq_succ_of_ne_zero (show room ≠ 0 from Nat.ne_zero_of_lt enough)
    obtain ⟨mid, first, second⟩ := moves.split
    obtain ⟨starts, accepts⟩ := inside ts a own
    obtain ⟨same, -, later⟩ := second.first
    have kind : mid.head.kind = close := same ▸ closed
    rw [listRest_repeats]
    refine (if_neg (starts.ne first other)).trans ?_
    refine ok_bind (ok_within (accepts c mid ended first (kind ▸ stop))) ?_
    refine (if_neg (kind ▸ apart)).trans ((if_pos kind).trans ?_)
    rw [same, later.nil, List.reverse_cons]
  | @more ts us comma' a as own sep others ih =>
    obtain ⟨room, rfl⟩ := Nat.exists_eq_succ_of_ne_zero (show room ≠ 0 from Nat.ne_zero_of_lt enough)
    rw [List.append_assoc, List.cons_append] at moves
    obtain ⟨mid, first, second⟩ := moves.split
    obtain ⟨starts, accepts⟩ := inside ts a own
    obtain ⟨same, step, later⟩ := second.first
    have kind : mid.head.kind = .comma := same ▸ sep
    rw [listRest_repeats]
    refine (if_neg (starts.ne first other)).trans ?_
    refine ok_bind (ok_within (accepts c mid ended first (kind ▸ comma))) ((if_pos kind).trans ?_)
    have smaller : mid.advance.size ≤ room := by
      have size := (first.trans step).size
      rw [List.length_append, List.length_singleton] at size
      omega
    rw [ih (step.ended (first.ended ended)) later smaller (a :: read)]
    simp

theorem list_accepts {opening close : TokenKind} {context : String} (inside : Covers p kinds on E)
    (apart : close ∉ kinds ∧ .comma ∉ on ∧ close ∉ on ∧ close ≠ .comma) {ts : List Token} {as : List α}
    (enclosed : Enclosed opening close E ts as) : Accepts (list opening close context p) [] ts (as, spanOf ts) := by
  intro c rest ended moves _
  obtain ⟨opened, items, closed⟩ := enclosed
  obtain ⟨other, comma, stop, apart⟩ := apart
  obtain ⟨-, step, later⟩ := moves.first
  refine ok_bind (ok_expect moves opened) ?_
  refine ok_bind (listRest_accepts inside other comma stop apart items closed (step.ended ended) later (Nat.le_refl _) []) ?_
  simp [pure, spanOf]

end Lists

section Types

variable {self : Parser TypeExpr} {E : List Token → TypeExpr → Prop}

theorem typeStep_covers (inside : Covers self [.identifier, .leftParen] [.leftBracket] E) :
    Covers (typeStep self) [.identifier, .leftParen] [.leftBracket] (TypeForm E) := by
  intro ts t form
  cases form with
  | @named t name =>
    refine ⟨startsWith_cons (by rw [name]; decide), fun c rest ended moves stop => ok_peekKind ?_⟩
    have kind : c.head.kind = .identifier := moves.first.1 ▸ name
    have last := moves.first.2.2.nil
    rw [kind]
    refine ok_bind (ok_ident moves name) (ok_peekKind (ok_if ?_ (congrArg (Outcome.ok _) last)))
    rw [last]
    simpa using stop
  | @apply t us args name list =>
    refine ⟨startsWith_cons (by rw [name]; decide), fun c rest ended moves stop => ok_peekKind ?_⟩
    obtain ⟨same, step, later⟩ := moves.first
    have kind : c.head.kind = .identifier := same ▸ name
    rw [kind]
    refine ok_bind (ok_ident moves name) (ok_peekKind (ok_else ?_ ?_))
    · rw [enclosed_head list later]
      decide
    · exact ok_bind (list_accepts inside (by decide) list _ _ (step.ended ended) later List.not_mem_nil) rfl
  | @func us vs arrow args result list sign own =>
    refine ⟨?_, fun c rest ended moves stop => ok_peekKind ?_⟩
    · obtain ⟨opened, -, -⟩ := list
      exact startsWith_cons (by rw [opened]; decide)
    obtain ⟨c₁, way₁, way₂⟩ := moves.split
    rw [enclosed_head list way₁]
    refine ok_bind (list_accepts inside (by decide) list _ _ ended way₁ List.not_mem_nil) ?_
    refine ok_bind (ok_within (ok_expect way₂ sign)) ?_
    obtain ⟨-, step, way₃⟩ := way₂.first
    have ended₃ := step.ended (way₁.ended ended)
    refine ok_bind (ok_within ((inside vs result own).2 _ _ ended₃ way₃ stop)) (ok_lastSpan ?_)
    have last : rest.last = endSpan arrow.span vs := by simp [moves.last]
    rw [last]
    rfl

theorem type_covers : Covers type [.identifier, .leftParen] [.leftBracket] IsType := by
  intro ts t own
  induction own with
  | build _ form ih => exact covers_solved (fun _ => type_solves) (typeStep_covers ih _ _ form)

end Types

section Patterns

variable {self : Parser Pattern} {E : List Token → Pattern → Prop}

theorem fieldPattern_covers (inside : Covers self [.identifier] [.leftBrace] E) :
    Covers (fieldPattern self) [.identifier] [.colon, .leftBrace] (FieldPatternForm E) := by
  intro ts f form
  cases form with
  | @short t name =>
    refine ⟨startsWith_cons (by rw [name]; decide), fun c rest ended moves stop => ?_⟩
    have last := moves.first.2.2.nil
    refine ok_bind (ok_ident moves name) (ok_peekKind (ok_if ?_ (congrArg (Outcome.ok _) last)))
    rw [last]
    simp only [List.mem_cons, not_or] at stop
    simpa using stop.1
  | @long t colon us p name sign own =>
    refine ⟨startsWith_cons (by rw [name]; decide), fun c rest ended moves stop => ?_⟩
    obtain ⟨-, step₁, way₁⟩ := moves.first
    obtain ⟨same, step₂, way₂⟩ := way₁.first
    refine ok_bind (ok_ident moves name) (ok_peekKind (ok_else (by rw [same, sign]; decide) ?_))
    have ended₂ := step₂.ended (step₁.ended ended)
    refine ok_bind (ok_next way₁) (ok_bind (ok_within ((inside us p own).2 _ _ ended₂ way₂ ?_)) (ok_lastSpan ?_))
    · exact fun brace => stop (List.mem_cons_of_mem _ brace)
    · have last : rest.last = endSpan colon.span us := by simp [moves.last]
      rw [last]
      rfl

theorem patternStep_covers (inside : Covers self [.identifier] [.leftBrace] E) :
    Covers (patternStep self) [.identifier] [.leftBrace] (PatternForm E) := by
  intro ts p form
  cases form with
  | @var t name =>
    refine ⟨startsWith_cons (by rw [name]; decide), fun c rest ended moves stop => ok_peekKind ?_⟩
    have last := moves.first.2.2.nil
    refine ok_else (by rw [moves.first.1, name]; decide) ?_
    refine ok_bind (ok_ident moves name) (ok_peekKind (ok_if ?_ (congrArg (Outcome.ok _) last)))
    rw [last]
    simpa using stop
  | @record t us fields name list =>
    refine ⟨startsWith_cons (by rw [name]; decide), fun c rest ended moves stop => ok_peekKind ?_⟩
    obtain ⟨same, step, later⟩ := moves.first
    refine ok_else (by rw [same, name]; decide) ?_
    refine ok_bind (ok_ident moves name) (ok_peekKind (ok_else ?_ ?_))
    · rw [enclosed_head list later]
      decide
    · have inside' := fieldPattern_covers inside
      exact ok_bind (list_accepts inside' (by decide) list _ _ (step.ended ended) later List.not_mem_nil) rfl

theorem pattern_covers : Covers pattern [.identifier] [.leftBrace] IsPattern := by
  intro ts p own
  induction own with
  | build _ form ih => exact covers_solved (fun _ => pattern_solves) (patternStep_covers ih _ _ form)

theorem param_covers : Covers param [.identifier] [.leftBracket] IsParam := by
  rintro _ _ ⟨first, sign, second⟩
  obtain ⟨starts, accepts⟩ := pattern_covers _ _ first
  refine ⟨starts.append _, fun c rest ended moves stop => ?_⟩
  obtain ⟨c₁, way₁, way₂⟩ := moves.split
  obtain ⟨-, step, way₃⟩ := way₂.first
  refine ok_bind (accepts _ _ ended way₁ (stops way₂ sign (by decide))) ?_
  refine ok_bind (ok_within (ok_expect way₂ sign)) ?_
  have ended₃ := step.ended (way₁.ended ended)
  refine ok_bind (ok_within ((type_covers _ _ second).2 _ _ ended₃ way₃ stop)) (ok_lastSpan ?_)
  rw [moves.last]
  simp [pure]

end Patterns

section Expressions

def atomStarts : List TokenKind := [.number, .kwTrue, .kwFalse, .identifier, .leftBrace, .leftParen]

def exprStarts : List TokenKind := .kwIf :: .kwCase :: .pipe :: atomStarts

def applicationOn : List TokenKind := [.leftParen, .leftBrace]

def productOn : List TokenKind := .star :: applicationOn

def sumOn : List TokenKind := .plus :: .minus :: productOn

def exprOn : List TokenKind := .less :: sumOn

variable {self : Parser Expr} {E : List Token → Expr → Prop}

theorem conditional_accepts (inside : Covers self exprStarts exprOn E) {i t e : Token} {ts us vs : List Token}
    {test yes no : Expr} (first : E ts test) (word₁ : t.kind = .kwThen) (second : E us yes)
    (word₂ : e.kind = .kwElse) (third : E vs no) :
    Accepts (conditional self) exprOn (i :: (ts ++ t :: (us ++ e :: vs)))
      (.cond (i.span.cover (endSpan e.span vs)) test yes no) := by
  intro c rest ended moves stop
  obtain ⟨-, step₁, way₁⟩ := moves.first
  obtain ⟨c₂, step₂, way₂⟩ := way₁.split
  obtain ⟨-, step₃, way₃⟩ := way₂.first
  obtain ⟨c₄, step₄, way₄⟩ := way₃.split
  obtain ⟨-, step₅, way₅⟩ := way₄.first
  have ended₁ := step₁.ended ended
  have ended₃ := step₃.ended (step₂.ended ended₁)
  have ended₅ := step₅.ended (step₄.ended ended₃)
  refine ok_bind (ok_next moves) ?_
  refine ok_bind ((inside ts test first).2 _ _ ended₁ step₂ (stops way₂ word₁ (by decide))) ?_
  refine ok_bind (ok_expect way₂ word₁) ?_
  refine ok_bind ((inside us yes second).2 _ _ ended₃ step₄ (stops way₄ word₂ (by decide))) ?_
  refine ok_bind (ok_expect way₄ word₂) ?_
  refine ok_bind ((inside vs no third).2 _ _ ended₅ way₅ stop) (ok_lastSpan ?_)
  rw [moves.last]
  simp [pure]

theorem arm_covers (inside : Covers self exprStarts exprOn E) : Covers (arm self) [.identifier] exprOn (ArmForm E) := by
  rintro _ _ ⟨pattern, sign, own⟩
  obtain ⟨starts, accepts⟩ := pattern_covers _ _ pattern
  refine ⟨starts.append _, fun c rest ended moves stop => ?_⟩
  obtain ⟨c₁, step₁, way₁⟩ := moves.split
  obtain ⟨-, step₂, way₂⟩ := way₁.first
  refine ok_bind (accepts _ _ ended step₁ (stops way₁ sign (by decide))) ?_
  refine ok_bind (ok_expect way₁ sign) ?_
  refine ok_bind ((inside _ _ own).2 _ _ (step₂.ended (step₁.ended ended)) way₂ stop) (ok_lastSpan ?_)
  rw [moves.last]
  simp [pure]

/-- An alternative and the semicolon behind it. -/
theorem arms_more (inside : Covers self exprStarts exprOn E) {ts us : List Token} {semicolon : Token} {a : Arm}
    (own : ArmForm E ts a) (sep : semicolon.kind = .semicolon) {c rest : Cursor} (ended : c.Ended)
    (moves : c.Moves (ts ++ semicolon :: us) rest) {room : Nat} (enough : c.size ≤ room + 1) (read : List Arm) :
    ∃ d, d.Ended ∧ d.Moves us rest ∧ d.size ≤ room ∧ arms self (room + 1) read c = arms self room (a :: read) d := by
  obtain ⟨mid, first, second⟩ := moves.split
  obtain ⟨same, step, later⟩ := second.first
  obtain ⟨starts, accepts⟩ := arm_covers inside ts a own
  refine ⟨mid.advance, step.ended (first.ended ended), later, ?_, ?_⟩
  · have size := (first.trans step).size
    rw [List.length_append, List.length_singleton] at size
    omega
  · have ran : within "case arm" (arm self) c = .ok a mid :=
      ok_within (accepts c mid ended first (stops second sep (by decide)))
    have kind : mid.head.kind = .semicolon := same ▸ sep
    rw [arms, bind_apply]
    refine (congrFun (if_neg (starts.ne first (by decide))) c).trans ?_
    rw [bind_apply, ran]
    exact congrFun (if_pos kind) mid

theorem arms_accepts (inside : Covers self exprStarts exprOn E) {ts : List Token} {as : List Arm}
    (alternatives : Arms E ts as) {c rest : Cursor} (ended : c.Ended) (moves : c.Moves ts rest)
    (closed : rest.head.kind = .rightBrace) {room : Nat} (enough : c.size ≤ room) (read : List Arm) :
    arms self room read c = .ok (read.reverse ++ as) rest := by
  induction alternatives generalizing c room read with
  | @last ts a own =>
    obtain ⟨room, rfl⟩ := Nat.exists_eq_succ_of_ne_zero (show room ≠ 0 from Nat.ne_zero_of_lt enough)
    obtain ⟨starts, accepts⟩ := arm_covers inside ts a own
    rw [arms]
    refine ok_peekKind (ok_else (starts.ne moves (by decide)) ?_)
    refine ok_bind (ok_within (accepts c rest ended moves (closed ▸ by decide))) (ok_peekKind (ok_else ?_ ?_))
    · rw [closed]
      decide
    · rw [List.reverse_cons]
      rfl
  | @closed ts semicolon a own sep =>
    obtain ⟨room, rfl⟩ := Nat.exists_eq_succ_of_ne_zero (show room ≠ 0 from Nat.ne_zero_of_lt enough)
    obtain ⟨d, -, later, size, same⟩ := arms_more inside own sep ended moves enough read
    obtain rfl := later.nil
    obtain ⟨room, rfl⟩ := Nat.exists_eq_succ_of_ne_zero (show room ≠ 0 from Nat.ne_zero_of_lt size)
    rw [same, arms]
    refine ok_peekKind (ok_if closed ?_)
    rw [List.reverse_cons]
    rfl
  | @more ts us semicolon a as own sep others ih =>
    obtain ⟨room, rfl⟩ := Nat.exists_eq_succ_of_ne_zero (show room ≠ 0 from Nat.ne_zero_of_lt enough)
    obtain ⟨d, ended', later, size, same⟩ := arms_more inside own sep ended moves enough read
    rw [same, ih ended' later size (a :: read)]
    simp

theorem caseOf_accepts (inside : Covers self exprStarts exprOn E) {k f o close : Token} {ts us : List Token}
    {scrutinee : Expr} {as : List Arm} (own : E ts scrutinee) (word : f.kind = .kwOf) (opened : o.kind = .leftBrace)
    (alternatives : Arms E us as) (closed : close.kind = .rightBrace) :
    Accepts (caseOf self) [] (k :: (ts ++ f :: o :: (us ++ [close])))
      (.case (k.span.cover close.span) scrutinee as) := by
  intro c rest ended moves _
  obtain ⟨-, step₁, way₁⟩ := moves.first
  obtain ⟨c₂, step₂, way₂⟩ := way₁.split
  obtain ⟨-, step₃, way₃⟩ := way₂.first
  obtain ⟨-, step₄, way₄⟩ := way₃.first
  obtain ⟨c₅, step₅, way₅⟩ := way₄.split
  obtain ⟨same, -, last⟩ := way₅.first
  have ended₁ := step₁.ended ended
  have ended₄ := step₄.ended (step₃.ended (step₂.ended ended₁))
  have read := arms_accepts inside alternatives ended₄ step₅ (same ▸ closed) (Nat.le_refl _) []
  refine ok_bind (ok_next moves) ?_
  refine ok_bind ((inside _ _ own).2 _ _ ended₁ step₂ (stops way₂ word (by decide))) ?_
  refine ok_bind (ok_expect way₂ word) (ok_bind (ok_expect way₃ opened) (ok_bind read (ok_else ?_ ?_)))
  · cases alternatives <;> exact Bool.false_ne_true
  · refine ok_bind (ok_expect way₅ closed) (ok_lastSpan ?_)
    rw [last.nil, moves.last]
    simp [pure]

theorem closure_accepts (inside : Covers self exprStarts exprOn E) {bar : Token} {us vs : List Token}
    {params : List Param} {body : Expr} (list : Enclosed .pipe .pipe IsParam (bar :: us) params) (own : E vs body) :
    Accepts (closure self) exprOn (bar :: (us ++ vs))
      (.closure (bar.span.cover (endSpan (endSpan bar.span us) vs)) params body) := by
  intro c rest ended moves stop
  obtain ⟨same, -, -⟩ := moves.first
  rw [← List.cons_append] at moves
  obtain ⟨c₁, step₁, way₁⟩ := moves.split
  refine ok_bind (show peek c = .ok bar c by rw [peek, same]) ?_
  refine ok_bind (list_accepts param_covers (by decide) list _ _ ended step₁ List.not_mem_nil) ?_
  refine ok_bind ((inside _ _ own).2 _ _ (step₁.ended ended) way₁ stop) (ok_lastSpan ?_)
  rw [moves.last]
  simp [pure]

theorem fieldInit_covers (inside : Covers self exprStarts exprOn E) :
    Covers (fieldInit self) [.identifier] exprOn (FieldInitForm E) := by
  rintro _ _ ⟨name, sign, own⟩
  refine ⟨startsWith_cons (by rw [name]; decide), fun c rest ended moves stop => ?_⟩
  obtain ⟨-, step₁, way₁⟩ := moves.first
  obtain ⟨-, step₂, way₂⟩ := way₁.first
  refine ok_bind (ok_ident moves name) (ok_bind (ok_expect way₁ sign) ?_)
  exact ok_bind (ok_within ((inside _ _ own).2 _ _ (step₂.ended (step₁.ended ended)) way₂ stop)) rfl

theorem record_accepts (inside : Covers self exprStarts exprOn E) {t : Token} {us : List Token} {fields : List FieldInit}
    (name : t.kind = .identifier) (list : Enclosed .leftBrace .rightBrace (FieldInitForm E) us fields) :
    Accepts (record self) [] (t :: us) (.record (t.span.cover (spanOf us)) t.text t.span fields) := by
  intro c rest ended moves _
  obtain ⟨-, step, way⟩ := moves.first
  refine ok_bind (ok_ident moves name) ?_
  exact ok_bind (list_accepts (fieldInit_covers inside) (by decide) list _ _ (step.ended ended) way List.not_mem_nil) rfl

theorem letBinding_accepts (inside : Covers self exprStarts exprOn E) {ts : List Token} {l : Let}
    (form : LetForm E ts l) : StartsWith [.kwLet] ts ∧ Accepts (letBinding self) [] ts l := by
  obtain ⟨word, pattern, sign, own, close⟩ := form
  refine ⟨startsWith_cons (by rw [word]; decide), fun c rest ended moves _ => ?_⟩
  obtain ⟨-, step₁, way₁⟩ := moves.first
  obtain ⟨c₂, step₂, way₂⟩ := way₁.split
  obtain ⟨-, step₃, way₃⟩ := way₂.first
  obtain ⟨c₄, step₄, way₄⟩ := way₃.split
  have ended₁ := step₁.ended ended
  have ended₃ := step₃.ended (step₂.ended ended₁)
  refine ok_bind (ok_next moves) ?_
  refine ok_bind ((pattern_covers _ _ pattern).2 _ _ ended₁ step₂ (stops way₂ sign (by decide))) ?_
  refine ok_bind (ok_expect way₂ sign) ?_
  refine ok_bind ((inside _ _ own).2 _ _ ended₃ step₄ (stops way₄ close (by decide))) ?_
  refine ok_bind (ok_expect way₄ close) (ok_lastSpan ?_)
  rw [way₄.first.2.2.nil, moves.last]
  simp [pure]

theorem lets_accepts (inside : Covers self exprStarts exprOn E) {ts : List Token} {ls : List Let} (bindings : Lets E ts ls)
    {c rest : Cursor} (ended : c.Ended) (moves : c.Moves ts rest) (other : rest.head.kind ≠ .kwLet) {room : Nat}
    (enough : c.size ≤ room) (read : List Let) : lets self room read c = .ok (read.reverse ++ ls) rest := by
  induction bindings generalizing c room read with
  | nil =>
    obtain ⟨room, rfl⟩ := Nat.exists_eq_succ_of_ne_zero (show room ≠ 0 from Nat.ne_zero_of_lt enough)
    obtain rfl := moves.nil
    rw [lets, List.append_nil]
    exact ok_peekKind (ok_else other rfl)
  | @cons ts us l ls own others ih =>
    obtain ⟨room, rfl⟩ := Nat.exists_eq_succ_of_ne_zero (show room ≠ 0 from Nat.ne_zero_of_lt enough)
    obtain ⟨mid, first, second⟩ := moves.split
    obtain ⟨starts, accepts⟩ := letBinding_accepts inside own
    have smaller : mid.size ≤ room := by
      obtain ⟨t, vs, rfl, -⟩ := starts
      have size := first.size
      rw [List.length_cons] at size
      omega
    rw [lets]
    refine ok_peekKind (ok_if (List.mem_singleton.mp (starts.head first)) ?_)
    refine ok_bind (ok_within (accepts c mid ended first List.not_mem_nil)) ?_
    rw [ih (first.ended ended) second smaller (l :: read)]
    simp

theorem block_accepts (inside : Covers self exprStarts exprOn E) {o close : Token} {ts us : List Token}
    {ls : List Let} {result : Expr} (bindings : Lets E ts ls) (own : E us result) (closed : close.kind = .rightBrace) :
    Accepts (block self) [] (o :: (ts ++ (us ++ [close]))) (.block (o.span.cover close.span) ls result) := by
  intro c rest ended moves _
  obtain ⟨-, step₁, way₁⟩ := moves.first
  obtain ⟨c₂, step₂, way₂⟩ := way₁.split
  obtain ⟨c₃, step₃, way₃⟩ := way₂.split
  obtain ⟨starts, accepts⟩ := inside us result own
  have ended₁ := step₁.ended ended
  have read := lets_accepts inside bindings ended₁ step₂ (starts.ne step₃ (by decide)) (Nat.le_refl _) []
  refine ok_bind (ok_next moves) (ok_bind read ?_)
  refine ok_bind (accepts _ _ (step₂.ended ended₁) step₃ (stops way₃ closed (by decide))) ?_
  refine ok_bind (ok_expect way₃ closed) (ok_lastSpan ?_)
  rw [way₃.first.2.2.nil, moves.last]
  simp [pure]

theorem group_accepts (inside : Covers self exprStarts exprOn E) {o close : Token} {ts : List Token} {e : Expr}
    (own : E ts e) (closed : close.kind = .rightParen) : Accepts (group self) [] (o :: (ts ++ [close])) e := by
  intro c rest ended moves _
  obtain ⟨-, step₁, way₁⟩ := moves.first
  obtain ⟨c₂, step₂, way₂⟩ := way₁.split
  refine ok_bind (ok_next moves) ?_
  refine ok_bind ((inside _ _ own).2 _ _ (step₁.ended ended) step₂ (stops way₂ closed (by decide))) ?_
  refine ok_peekKind (ok_else (by rw [way₂.first.1, closed]; decide) (ok_bind (ok_expect way₂ closed) ?_))
  exact congrArg (Outcome.ok e) way₂.first.2.2.nil

theorem annotated_accepts (inside : Covers self exprStarts exprOn E) {o colon close : Token} {ts us : List Token} {e : Expr}
    {t : TypeExpr} (own : E ts e) (sign : colon.kind = .colon) (type : IsType us t) (closed : close.kind = .rightParen) :
    Accepts (group self) [] (o :: (ts ++ colon :: (us ++ [close]))) (.annotated (o.span.cover close.span) e t) := by
  intro c rest ended moves _
  obtain ⟨-, step₁, way₁⟩ := moves.first
  obtain ⟨c₂, step₂, way₂⟩ := way₁.split
  obtain ⟨same, step₃, way₃⟩ := way₂.first
  obtain ⟨c₄, step₄, way₄⟩ := way₃.split
  have ended₁ := step₁.ended ended
  have ended₃ := step₃.ended (step₂.ended ended₁)
  refine ok_bind (ok_next moves) ?_
  refine ok_bind ((inside _ _ own).2 _ _ ended₁ step₂ (stops way₂ sign (by decide))) ?_
  refine ok_peekKind (ok_if (same ▸ sign) (ok_bind (ok_next way₂) ?_))
  refine ok_bind (ok_within ((type_covers _ _ type).2 _ _ ended₃ step₄ (stops way₄ closed (by decide)))) ?_
  refine ok_bind (ok_expect way₄ closed) (ok_lastSpan ?_)
  rw [way₄.first.2.2.nil, moves.last]
  simp [pure]

/-- A name and the fields of a struct literal are seen as such. -/
theorem atRecord_of_list {t : Token} {us : List Token} {fields : List FieldInit} {c rest : Cursor}
    (list : Enclosed .leftBrace .rightBrace (FieldInitForm E) us fields) (moves : c.Moves (t :: us) rest) :
    atRecord c = true := by
  have tail : c.tail = us ++ rest.tokens := (List.cons.inj moves.tokens).2
  obtain ⟨opened, items, closed⟩ := list
  cases items with
  | nil => simp [atRecord, Cursor.ahead, tail, opened, closed]
  | last own =>
    obtain ⟨name, sign, own⟩ := own
    simp [atRecord, Cursor.ahead, tail, opened, name, sign]
  | more own sep others =>
    obtain ⟨name, sign, own⟩ := own
    simp [atRecord, Cursor.ahead, tail, opened, name, sign]

/-- A name alone is not. -/
theorem not_atRecord {t : Token} {c rest : Cursor} (moves : c.Moves [t] rest) (other : rest.head.kind ≠ .leftBrace) :
    ¬ atRecord c = true := by
  have tail : c.tail = rest.tokens := (List.cons.inj moves.tokens).2
  simp [atRecord, Cursor.ahead, tail, Cursor.tokens, other]

theorem atom_covers (inside : Covers self exprStarts exprOn E) :
    Covers (atom self) atomStarts [.leftBrace] (AtomForm E) := by
  intro ts e form
  cases form with
  | @number t bits kind value =>
    refine ⟨startsWith_cons (by rw [kind]; decide), fun c rest ended moves _ => ?_⟩
    obtain ⟨rfl, -, last⟩ := moves.first
    rw [atom, kind]
    dsimp only
    rw [number, value, last.nil]
  | @true t kind =>
    refine ⟨startsWith_cons (by rw [kind]; decide), fun c rest ended moves _ => ?_⟩
    obtain ⟨rfl, -, last⟩ := moves.first
    rw [atom, kind, last.nil]
  | @false t kind =>
    refine ⟨startsWith_cons (by rw [kind]; decide), fun c rest ended moves _ => ?_⟩
    obtain ⟨rfl, -, last⟩ := moves.first
    rw [atom, kind, last.nil]
  | @var t name =>
    refine ⟨startsWith_cons (by rw [name]; decide), fun c rest ended moves stop => ?_⟩
    obtain ⟨rfl, -, last⟩ := moves.first
    rw [atom, name]
    refine (if_neg (not_atRecord moves (by simpa using stop))).trans ?_
    rw [last.nil]
  | @record t us fields name list =>
    refine ⟨startsWith_cons (by rw [name]; decide), fun c rest ended moves _ => ?_⟩
    have kind : c.head.kind = .identifier := moves.first.1 ▸ name
    rw [atom, kind]
    refine (if_pos (atRecord_of_list list moves)).trans ?_
    exact ok_within (record_accepts inside name list c rest ended moves List.not_mem_nil)
  | @block o close ts us ls result opened bindings own closed =>
    refine ⟨startsWith_cons (by rw [opened]; decide), fun c rest ended moves _ => ?_⟩
    have kind : c.head.kind = .leftBrace := moves.first.1 ▸ opened
    rw [atom, kind]
    exact ok_within (block_accepts inside bindings own closed c rest ended moves List.not_mem_nil)
  | @group o close ts e opened own closed =>
    refine ⟨startsWith_cons (by rw [opened]; decide), fun c rest ended moves _ => ?_⟩
    have kind : c.head.kind = .leftParen := moves.first.1 ▸ opened
    rw [atom, kind]
    exact ok_within (group_accepts inside own closed c rest ended moves List.not_mem_nil)
  | @annotated o colon close ts us e t opened own sign type closed =>
    refine ⟨startsWith_cons (by rw [opened]; decide), fun c rest ended moves _ => ?_⟩
    have kind : c.head.kind = .leftParen := moves.first.1 ▸ opened
    rw [atom, kind]
    exact ok_within (annotated_accepts inside own sign type closed c rest ended moves List.not_mem_nil)

/-- A callee has been read and its calls are to come. The induction follows the calls from the first one on, which is
how they are read. -/
theorem application_reaches (inside : Covers self exprStarts exprOn E) {ts : List Token} {e : Expr}
    (form : Application E ts e) {c mid : Cursor} (ended : c.Ended) (moves : c.Moves ts mid)
    (other : mid.head.kind ≠ .leftBrace) :
    ∃ room, mid.size ≤ room ∧ application self c = callsAfter self room e mid := by
  induction form generalizing mid with
  | atom own =>
    obtain ⟨-, accepts⟩ := atom_covers inside _ _ own
    exact ⟨mid.size, Nat.le_refl _, bind_ran (accepts c mid ended moves (by simpa using other))⟩
  | @call ts us callee args before list ih =>
    obtain ⟨d, first, second⟩ := moves.split
    have opens : d.head.kind = .leftParen := enclosed_head list second
    obtain ⟨room, enough, same⟩ := ih first (by rw [opens]; decide)
    obtain ⟨room, rfl⟩ := Nat.exists_eq_succ_of_ne_zero (show room ≠ 0 from Nat.ne_zero_of_lt enough)
    refine ⟨room, ?_, ?_⟩
    · obtain ⟨-, -, -⟩ := list
      have size := second.size
      rw [List.length_cons] at size
      omega
    · have read : Parser.list .leftParen .rightParen "call arguments" self d = .ok (args, spanOf us) mid :=
        list_accepts inside (by decide) list d mid (first.ended ended) second List.not_mem_nil
      rw [same, callsAfter]
      exact (congrFun (if_pos opens) d).trans (bind_ran read)

theorem application_starts {ts : List Token} {e : Expr} (inside : Covers self exprStarts exprOn E)
    (form : Application E ts e) : StartsWith atomStarts ts := by
  induction form with
  | atom own => exact (atom_covers inside _ _ own).1
  | call before list ih => exact ih.append _

theorem application_covers (inside : Covers self exprStarts exprOn E) :
    Covers (application self) atomStarts applicationOn (Application E) := by
  intro ts e form
  refine ⟨application_starts inside form, fun c rest ended moves stop => ?_⟩
  simp only [applicationOn, List.mem_cons, List.not_mem_nil, or_false, not_or] at stop
  obtain ⟨room, enough, same⟩ := application_reaches inside form ended moves stop.2
  obtain ⟨room, rfl⟩ := Nat.exists_eq_succ_of_ne_zero (show room ≠ 0 from Nat.ne_zero_of_lt enough)
  rw [same, callsAfter]
  exact ok_peekKind (ok_else stop.1 rfl)

section Chains

variable {operator? : TokenKind → Option Operator} {Operand : List Token → Expr → Prop} {operand : Parser Expr}
  {kinds on : List TokenKind}

theorem chain_starts (inside : Covers operand kinds on Operand) {ts : List Token} {e : Expr}
    (form : Chain operator? Operand ts e) : StartsWith kinds ts := by
  induction form with
  | single own => exact (inside _ _ own).1
  | more before operator own ih => exact ih.append _

/-- Some operands have been read and the rest is to come. -/
theorem chain_reaches (inside : Covers operand kinds on Operand)
    (apart : ∀ k op, operator? k = some op → k ∉ on) {ts : List Token} {e : Expr} (form : Chain operator? Operand ts e)
    {c mid : Cursor} (ended : c.Ended) (moves : c.Moves ts mid) (stop : mid.head.kind ∉ on) :
    ∃ room, mid.size ≤ room ∧ chain operator? operand c = chainAfter operator? operand room e mid := by
  induction form generalizing mid with
  | single own =>
    exact ⟨mid.size, Nat.le_refl _, bind_ran ((inside _ _ own).2 c mid ended moves stop)⟩
  | @more ts us sign op left right before operator own ih =>
    obtain ⟨d, first, second⟩ := moves.split
    obtain ⟨same, step, third⟩ := second.first
    obtain ⟨room, enough, run⟩ := ih first (apart _ _ (same ▸ operator))
    obtain ⟨room, rfl⟩ := Nat.exists_eq_succ_of_ne_zero (show room ≠ 0 from Nat.ne_zero_of_lt enough)
    refine ⟨room, ?_, ?_⟩
    · have size := second.size
      rw [List.length_cons] at size
      omega
    · have read : within "binary operation" operand d.advance = .ok right mid :=
        ok_within ((inside us right own).2 _ _ (step.ended (first.ended ended)) third stop)
      have sees : operator? d.head.kind = some op := same ▸ operator
      rw [run, chainAfter]
      refine (bind_ran rfl).trans ?_
      rw [sees]
      exact (bind_ran rfl).trans (bind_ran read)

theorem chain_covers (inside : Covers operand kinds on Operand)
    (apart : ∀ k op, operator? k = some op → k ∉ on) {on' : List TokenKind}
    (stops : ∀ k, k ∉ on' → k ∉ on ∧ operator? k = none) :
    Covers (chain operator? operand) kinds on' (Chain operator? Operand) := by
  intro ts e form
  refine ⟨chain_starts inside form, fun c rest ended moves stop => ?_⟩
  obtain ⟨other, last⟩ := stops _ stop
  obtain ⟨room, enough, same⟩ := chain_reaches inside apart form ended moves other
  obtain ⟨room, rfl⟩ := Nat.exists_eq_succ_of_ne_zero (show room ≠ 0 from Nat.ne_zero_of_lt enough)
  rw [same, chainAfter]
  refine ok_peekKind ?_
  rw [last]
  rfl

end Chains

theorem product_covers (inside : Covers self exprStarts exprOn E) :
    Covers (product self) atomStarts productOn (Product E) := by
  refine chain_covers (application_covers inside) (fun k op sign => ?_) fun k stop => ?_
  · cases k <;> cases sign
    decide
  · cases k <;> first | exact absurd (by decide) stop | decide

theorem sum_covers (inside : Covers self exprStarts exprOn E) : Covers (sum self) atomStarts sumOn (Sum E) := by
  refine chain_covers (product_covers inside) (fun k op sign => ?_) fun k stop => ?_
  · cases k <;> cases sign <;> decide
  · cases k <;> first | exact absurd (by decide) stop | decide

theorem comparison_covers (inside : Covers self exprStarts exprOn E) :
    Covers (comparison self) atomStarts exprOn (Comparison E) := by
  intro ts e form
  cases form with
  | single own =>
    obtain ⟨starts, accepts⟩ := sum_covers inside _ _ own
    refine ⟨starts, fun c rest ended moves stop => ?_⟩
    have other : rest.head.kind ∉ sumOn := fun member => stop (List.mem_cons_of_mem _ member)
    have last : rest.head.kind ≠ .less := fun less => stop (less ▸ List.mem_cons_self)
    exact ok_bind (accepts c rest ended moves other) (ok_peekKind (ok_else last rfl))
  | @less ts us sign left right first operator second =>
    obtain ⟨starts, accepts⟩ := sum_covers inside _ _ first
    refine ⟨starts.append _, fun c rest ended moves stop => ?_⟩
    have other : rest.head.kind ∉ sumOn := fun member => stop (List.mem_cons_of_mem _ member)
    obtain ⟨mid, way₁, way₂⟩ := moves.split
    obtain ⟨same, step, way₃⟩ := way₂.first
    refine ok_bind (accepts c mid ended way₁ (stops way₂ operator (by decide))) ?_
    refine ok_peekKind (ok_if (same ▸ operator) (ok_bind (ok_next way₂) ?_))
    have ended₃ := step.ended (way₁.ended ended)
    exact ok_bind (ok_within ((sum_covers inside _ _ second).2 _ _ ended₃ way₃ other)) rfl

theorem exprStep_other {c : Cursor} (kind : c.head.kind ∈ atomStarts) : exprStep self c = comparison self c := by
  rw [exprStep]
  split
  · rename_i word
    exact absurd (word ▸ kind) (by decide)
  · rename_i word
    exact absurd (word ▸ kind) (by decide)
  · rename_i word
    exact absurd (word ▸ kind) (by decide)
  · rfl

theorem exprStep_covers (inside : Covers self exprStarts exprOn E) :
    Covers (exprStep self) exprStarts exprOn (ExprForm E) := by
  intro ts e form
  cases form with
  | comparison own =>
    obtain ⟨starts, accepts⟩ := comparison_covers inside _ _ own
    refine ⟨starts.mono fun k member => ?_, fun c rest ended moves stop => ?_⟩
    · exact List.mem_cons_of_mem _ (List.mem_cons_of_mem _ (List.mem_cons_of_mem _ member))
    · rw [exprStep_other (starts.head moves)]
      exact accepts c rest ended moves stop
  | @cond i t e ts us vs test yes no word first word₁ second word₂ third =>
    refine ⟨startsWith_cons (by rw [word]; decide), fun c rest ended moves stop => ?_⟩
    have kind : c.head.kind = .kwIf := moves.first.1 ▸ word
    rw [exprStep, kind]
    exact ok_within (conditional_accepts inside first word₁ second word₂ third c rest ended moves stop)
  | @case k f o close ts us scrutinee as word own word' opened alternatives closed =>
    refine ⟨startsWith_cons (by rw [word]; decide), fun c rest ended moves _ => ?_⟩
    have kind : c.head.kind = .kwCase := moves.first.1 ▸ word
    rw [exprStep, kind]
    exact ok_within (caseOf_accepts inside own word' opened alternatives closed c rest ended moves List.not_mem_nil)
  | @closure bar us vs params body list own =>
    have opened : bar.kind = .pipe := by
      cases list
      assumption
    refine ⟨startsWith_cons (by rw [opened]; decide), fun c rest ended moves stop => ?_⟩
    have kind : c.head.kind = .pipe := moves.first.1 ▸ opened
    rw [exprStep, kind]
    exact ok_within (closure_accepts inside list own c rest ended moves stop)

theorem expr_covers : Covers expr exprStarts exprOn IsExpr := by
  intro ts e own
  induction own with
  | build _ form ih => exact covers_solved (fun _ => expr_solves) (exprStep_covers ih _ _ form)

end Expressions

section Definitions

theorem generic_covers : Covers generic [.identifier] [] IsGeneric := by
  rintro _ _ ⟨name⟩
  refine ⟨startsWith_cons (by rw [name]; decide), fun c rest ended moves _ => ok_bind (ok_ident moves name) ?_⟩
  exact congrArg (Outcome.ok _) moves.first.2.2.nil

theorem generics_accepts {ts : List Token} {gs : List Generic} (form : IsGenerics ts gs) :
    Accepts generics [.leftBracket] ts gs := by
  intro c rest ended moves stop
  cases form with
  | none =>
    obtain rfl := moves.nil
    exact ok_peekKind (ok_else (by simpa using stop) rfl)
  | some list =>
    refine ok_peekKind (ok_if (enclosed_head list moves) ?_)
    exact ok_bind (list_accepts generic_covers (by decide) list _ _ ended moves List.not_mem_nil) rfl

theorem field_covers : Covers field [.identifier] [.leftBracket] IsStructField := by
  rintro _ _ ⟨name, sign, own⟩
  refine ⟨startsWith_cons (by rw [name]; decide), fun c rest ended moves stop => ?_⟩
  obtain ⟨-, step₁, way₁⟩ := moves.first
  obtain ⟨-, step₂, way₂⟩ := way₁.first
  refine ok_bind (ok_ident moves name) (ok_bind (ok_within (ok_expect way₁ sign)) ?_)
  exact ok_bind (ok_within ((type_covers _ _ own).2 _ _ (step₂.ended (step₁.ended ended)) way₂ stop)) rfl

theorem definition_covers : Covers definition [.kwFunc, .kwStruct] exprOn IsItem := by
  intro ts item form
  cases form with
  | @func start name colon assign gs ps rs bs generics params result body word named generic list sign type sign' own =>
    refine ⟨startsWith_cons (by rw [word]; decide), fun c rest ended moves stop => ?_⟩
    obtain ⟨same, step₁, way₁⟩ := moves.first
    obtain ⟨-, step₂, way₂⟩ := way₁.first
    obtain ⟨c₃, step₃, way₃⟩ := way₂.split
    obtain ⟨c₄, step₄, way₄⟩ := way₃.split
    obtain ⟨-, step₅, way₅⟩ := way₄.first
    obtain ⟨c₆, step₆, way₆⟩ := way₅.split
    obtain ⟨-, step₇, way₇⟩ := way₆.first
    have ended₂ := step₂.ended (step₁.ended ended)
    have ended₃ := step₃.ended ended₂
    have ended₅ := step₅.ended (step₄.ended ended₃)
    have ended₇ := step₇.ended (step₆.ended ended₅)
    have kind : c.head.kind = .kwFunc := same ▸ word
    rw [definition, kind]
    refine ok_within (ok_bind (ok_next moves) (ok_bind (ok_ident way₁ named) ?_))
    refine ok_bind (generics_accepts generic _ _ ended₂ step₃ (by rw [enclosed_head list step₄]; decide)) ?_
    refine ok_bind (list_accepts param_covers (by decide) list _ _ ended₃ step₄ List.not_mem_nil) ?_
    refine ok_bind (ok_expect way₄ sign) ?_
    refine ok_bind (ok_within ((type_covers _ _ type).2 _ _ ended₅ step₆ (stops way₆ sign' (by decide)))) ?_
    refine ok_bind (ok_expect way₆ sign') ?_
    refine ok_bind (ok_within ((expr_covers _ _ own).2 _ _ ended₇ way₇ stop)) (ok_lastSpan ?_)
    rw [moves.last]
    simp [pure]
  | @struct start name gs fs generics fields word named generic list =>
    refine ⟨startsWith_cons (by rw [word]; decide), fun c rest ended moves _ => ?_⟩
    obtain ⟨same, step₁, way₁⟩ := moves.first
    obtain ⟨-, step₂, way₂⟩ := way₁.first
    obtain ⟨c₃, step₃, way₃⟩ := way₂.split
    have ended₂ := step₂.ended (step₁.ended ended)
    have ended₃ := step₃.ended ended₂
    have kind : c.head.kind = .kwStruct := same ▸ word
    have opens : c₃.head.kind = .leftBrace := enclosed_head list way₃
    have last : endSpan name.span fs = rest.last := by
      obtain ⟨t, us, rfl⟩ := list.cons
      simp [moves.last]
    rw [definition, kind]
    refine ok_within (ok_bind (ok_next moves) (ok_bind (ok_ident way₁ named) ?_))
    refine ok_bind (generics_accepts generic _ _ ended₂ step₃ (by rw [opens]; decide)) ?_
    refine ok_bind (list_accepts field_covers (by decide) list _ _ ended₃ way₃ List.not_mem_nil) (ok_lastSpan ?_)
    rw [last]
    rfl

/-- A program up to the end of the file is read as such. -/
theorem definitions_accepts {ts : List Token} {items : List Item} (program : IsProgram ts items) {c rest : Cursor}
    (ended : c.Ended) (moves : c.Moves ts rest) (last : rest.head.kind = .endOfFile) {room : Nat}
    (enough : c.size ≤ room) : definitions room c = (items, none) := by
  induction program generalizing c room with
  | nil =>
    obtain ⟨room, rfl⟩ := Nat.exists_eq_succ_of_ne_zero (show room ≠ 0 from Nat.ne_zero_of_lt enough)
    obtain rfl := moves.nil
    rw [definitions, if_pos last]
  | @cons ts us item items own others ih =>
    obtain ⟨room, rfl⟩ := Nat.exists_eq_succ_of_ne_zero (show room ≠ 0 from Nat.ne_zero_of_lt enough)
    obtain ⟨mid, first, second⟩ := moves.split
    obtain ⟨starts, accepts⟩ := definition_covers _ _ own
    -- What stands behind a definition is another one, or the end of the file.
    have stop : mid.head.kind ∉ exprOn := by
      cases others with
      | nil =>
        rw [second.nil, last]
        decide
      | @cons ts' us' item' items' own' others' =>
        have next := ((definition_covers _ _ own').1.append us').head second
        rcases List.mem_pair.mp next with kind | kind
        · rw [kind]
          decide
        · rw [kind]
          decide
    have smaller : mid.size ≤ room := by
      obtain ⟨t, vs, rfl, -⟩ := starts
      have size := first.size
      rw [List.length_cons] at size
      omega
    rw [definitions, if_neg (starts.ne first (by decide)), accepts c mid ended first stop]
    dsimp only
    rw [ih (first.ended ended) second smaller]

end Definitions

section Whole

variable {ts : List Token} {s : Span} {text : String} {items : List Item}

theorem ended_whole : (Cursor.ofTokens (ts ++ [⟨.endOfFile, s, text⟩])).Ended ∧
    ((Cursor.ofTokens (ts ++ [⟨.endOfFile, s, text⟩])).tokens.takeWhile fun t => t.kind != .endOfFile) =
      ts.takeWhile fun t => t.kind != .endOfFile := by
  have tokens : (Cursor.ofTokens (ts ++ [⟨.endOfFile, s, text⟩])).tokens = ts ++ [⟨.endOfFile, s, text⟩] := by
    cases ts <;> rfl
  refine ⟨⟨⟨.endOfFile, s, text⟩, by simp [tokens], rfl⟩, ?_⟩
  rw [tokens, List.takeWhile_append]
  split
  · rename_i all
    rw [(List.takeWhile_prefix _).eq_of_length all]
    simp
  · rfl

/-- Tokens that derive from the grammar are read as they derive. -/
theorem definitions_whole (program : IsProgram (ts.takeWhile fun t => t.kind != .endOfFile) items) :
    let c := Cursor.ofTokens (ts ++ [⟨.endOfFile, s, text⟩])
    definitions c.size c = (items, none) := by
  intro c
  obtain ⟨ended, before⟩ := @ended_whole ts s text
  obtain ⟨rest, moves, last⟩ := ended.stop
  rw [before] at moves
  exact definitions_accepts program ended moves last (Nat.le_refl _)

end Whole

end Parser

end WitnessLang.Surface
