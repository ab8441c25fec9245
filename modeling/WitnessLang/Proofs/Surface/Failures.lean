import WitnessLang.Proofs.Surface.Accepted
import WitnessLang.Proofs.Token.Beginnings

set_option autoImplicit false

namespace WitnessLang.Surface

open Grammar

namespace Parser

variable {α β : Type}

/-- Tokens that are shown or left are some of which something holds. -/
def About (good : Token → Prop) : Outcome α → Prop
  | .ok _ rest => ∀ t ∈ rest.tokens, good t
  | .mismatch _ t => good t
  | .failure e => good e.found

/-- A production shows and leaves only tokens that were there before. -/
def Shows (p : Parser α) : Prop := ∀ (good : Token → Prop) (c : Cursor), (∀ t ∈ c.tokens, good t) → About good (p c)

section Steps

variable {p q : Parser α} {f : α → Parser β}

theorem shows_pure (a : α) : Shows (pure a) := fun _ _ all => all

theorem Shows.bind (first : Shows p) (next : ∀ a, Shows (f a)) : Shows (p >>= f) := by
  intro good c all
  have own := first good c all
  rw [bind_apply]
  cases ran : p c with
  | ok a rest =>
    rw [ran] at own
    exact next a good rest own
  | mismatch e t =>
    rw [ran] at own
    exact own
  | failure e =>
    rw [ran] at own
    exact own

theorem shows_from {p : Cursor → Parser α} (shows : ∀ c, Shows (p c)) : Shows (fun c => p c c) :=
  fun good c => shows c good c

theorem shows_if {P : Prop} [Decidable P] (yes : Shows p) (no : Shows q) : Shows (if P then p else q) := by
  by_cases holds : P
  · rwa [if_pos holds]
  · rwa [if_neg holds]

theorem shows_ite {P : Cursor → Prop} [DecidablePred P] (yes : Shows p) (no : Shows q) :
    Shows (fun c => if P c then p c else q c) := by
  intro good c all
  by_cases holds : P c
  · simpa only [if_pos holds] using yes good c all
  · simpa only [if_neg holds] using no good c all

theorem shows_mismatch (e : Expectation) : Shows (mismatch e : Parser α) := fun _ _ all => all _ List.mem_cons_self

theorem advance_subset (c : Cursor) : c.advance.tokens ⊆ c.tokens := by
  obtain ⟨last, head, tail⟩ := c
  unfold Cursor.advance
  split
  · exact fun _ => id
  · exact fun _ => id
  · rename_i t ts same _
    obtain rfl : tail = t :: ts := same
    exact fun _ => List.mem_cons_of_mem head

/-- The next token is taken. -/
theorem shows_advance (v : Cursor → α) : Shows (fun c => .ok (v c) c.advance) :=
  fun _ c all t member => all t (advance_subset c member)

theorem peek_shows : Shows peek := fun _ _ all => all

theorem peekKind_shows : Shows peekKind := fun _ _ all => all

theorem lastSpan_shows : Shows lastSpan := fun _ _ all => all

theorem next_shows : Shows next := shows_advance Cursor.head

theorem expect_shows (k : TokenKind) : Shows (expect k) := shows_ite (shows_advance Cursor.head) (shows_mismatch _)

theorem Shows.within {context : String} (shows : Shows p) : Shows (within context p) := by
  intro good c all
  have own := shows good c all
  rw [Parser.within]
  cases ran : p c with
  | _ =>
    rw [ran] at own
    exact own

theorem ident_shows : Shows ident := (expect_shows _).bind fun _ => shows_pure _

theorem listRest_shows {close : TokenKind} {context : String} (element : Shows p) (room : Nat) (read : List α) :
    Shows (listRest close context p room read) := by
  induction room generalizing read with
  | zero => exact shows_mismatch _
  | succ room ih =>
    rw [listRest_repeats]
    refine shows_ite (shows_advance _) (element.within.bind fun a => ?_)
    refine shows_ite (fun good c all => ?_) (shows_ite (shows_advance _) (shows_mismatch _).within)
    exact ih _ good c.advance fun t member => all t (advance_subset c member)

theorem list_shows {opening close : TokenKind} {context : String} (element : Shows p) :
    Shows (list opening close context p) :=
  (expect_shows _).bind fun _ => (shows_from fun c => listRest_shows element c.size []).bind fun _ => shows_pure _

end Steps

theorem typeStep_shows {self : Parser TypeExpr} (inside : Shows self) : Shows (typeStep self) := by
  refine peekKind_shows.bind fun k => ?_
  split
  · refine ident_shows.bind fun n => peekKind_shows.bind fun k => shows_if (shows_pure _) ?_
    exact (list_shows inside).bind fun _ => shows_pure _
  · refine (list_shows inside).bind fun _ => (expect_shows _).within.bind fun _ => ?_
    exact inside.within.bind fun _ => lastSpan_shows.bind fun _ => shows_pure _
  · exact shows_mismatch _

/-- What is read by itself within a bound. -/
theorem shows_bounded {step : Parser α → Parser α} {readAt : Nat → Parser α} (none : Shows (readAt 0))
    (passes : ∀ p, Shows p → Shows (step p)) (repeats : ∀ depth, readAt (depth + 1) = step (readAt depth)) :
    Shows fun c => readAt c.size c := by
  have each : ∀ depth, Shows (readAt depth) := by
    intro depth
    induction depth with
    | zero => exact none
    | succ depth ih => exact repeats depth ▸ passes _ ih
  exact shows_from fun c => each c.size

theorem type_shows : Shows type := shows_bounded (shows_mismatch _) (fun _ => typeStep_shows) fun _ => rfl

theorem fieldPattern_shows {self : Parser Pattern} (inside : Shows self) : Shows (fieldPattern self) := by
  refine ident_shows.bind fun n => peekKind_shows.bind fun k => shows_if (shows_pure _) ?_
  exact next_shows.bind fun _ => inside.within.bind fun _ => lastSpan_shows.bind fun _ => shows_pure _

theorem patternStep_shows {self : Parser Pattern} (inside : Shows self) : Shows (patternStep self) := by
  refine peekKind_shows.bind fun k => shows_if (shows_mismatch _) ?_
  refine ident_shows.bind fun n => peekKind_shows.bind fun k => ?_
  exact shows_if (shows_pure _) ((list_shows (fieldPattern_shows inside)).bind fun _ => shows_pure _)

theorem pattern_shows : Shows pattern := shows_bounded (shows_mismatch _) (fun _ => patternStep_shows) fun _ => rfl

theorem param_shows : Shows param := by
  refine pattern_shows.bind fun p => (expect_shows _).within.bind fun _ => type_shows.within.bind fun _ => ?_
  exact lastSpan_shows.bind fun _ => shows_pure _

section Expressions

variable {self : Parser Expr}

theorem conditional_shows (inside : Shows self) : Shows (conditional self) := by
  refine next_shows.bind fun _ => inside.bind fun _ => (expect_shows _).bind fun _ => inside.bind fun _ => ?_
  exact (expect_shows _).bind fun _ => inside.bind fun _ => lastSpan_shows.bind fun _ => shows_pure _

theorem arms_shows (inside : Shows self) (room : Nat) (read : List Arm) : Shows (arms self room read) := by
  have arm : Shows (arm self) := pattern_shows.bind fun _ => (expect_shows _).bind fun _ => inside.bind fun _ =>
    lastSpan_shows.bind fun _ => shows_pure _
  induction room generalizing read with
  | zero => exact shows_mismatch _
  | succ room ih =>
    refine peekKind_shows.bind fun k => shows_if (shows_pure _) ?_
    refine arm.within.bind fun a => peekKind_shows.bind fun k => ?_
    exact shows_if (next_shows.bind fun _ => ih _) (shows_pure _)

theorem caseOf_shows (inside : Shows self) : Shows (caseOf self) := by
  refine next_shows.bind fun _ => inside.bind fun _ => (expect_shows _).bind fun _ => (expect_shows _).bind fun _ => ?_
  refine (shows_from fun c => arms_shows inside c.size []).bind fun _ => shows_if (shows_mismatch _) ?_
  exact (expect_shows _).bind fun _ => lastSpan_shows.bind fun _ => shows_pure _

theorem closure_shows (inside : Shows self) : Shows (closure self) :=
  peek_shows.bind fun _ => (list_shows param_shows).bind fun _ => inside.bind fun _ => lastSpan_shows.bind fun _ =>
    shows_pure _

theorem record_shows (inside : Shows self) : Shows (record self) := by
  have field : Shows (fieldInit self) := ident_shows.bind fun _ => (expect_shows _).bind fun _ =>
    inside.within.bind fun _ => shows_pure _
  exact ident_shows.bind fun _ => (list_shows field).bind fun _ => shows_pure _

theorem lets_shows (inside : Shows self) (room : Nat) (read : List Let) : Shows (lets self room read) := by
  have binding : Shows (letBinding self) := next_shows.bind fun _ => pattern_shows.bind fun _ =>
    (expect_shows _).bind fun _ => inside.bind fun _ => (expect_shows _).bind fun _ => lastSpan_shows.bind fun _ =>
      shows_pure _
  induction room generalizing read with
  | zero => exact shows_mismatch _
  | succ room ih => exact peekKind_shows.bind fun k => shows_if (binding.within.bind fun _ => ih _) (shows_pure _)

theorem block_shows (inside : Shows self) : Shows (block self) := by
  refine next_shows.bind fun _ => (shows_from fun c => lets_shows inside c.size []).bind fun _ => ?_
  exact inside.bind fun _ => (expect_shows _).bind fun _ => lastSpan_shows.bind fun _ => shows_pure _

theorem group_shows (inside : Shows self) : Shows (group self) := by
  refine next_shows.bind fun _ => inside.bind fun _ => peekKind_shows.bind fun k => shows_if ?_ ?_
  · refine next_shows.bind fun _ => type_shows.within.bind fun _ => (expect_shows _).bind fun _ => ?_
    exact lastSpan_shows.bind fun _ => shows_pure _
  · exact (expect_shows _).bind fun _ => shows_pure _

theorem number_shows : Shows number := by
  intro good c all
  unfold number
  split
  · exact fun t member => all t (advance_subset c member)
  · exact all _ List.mem_cons_self

theorem atom_shows (inside : Shows self) : Shows (atom self) := by
  intro good c all
  unfold atom
  split
  · exact number_shows good c all
  · exact fun t member => all t (advance_subset c member)
  · exact fun t member => all t (advance_subset c member)
  · split
    · exact (record_shows inside).within good c all
    · exact fun t member => all t (advance_subset c member)
  · exact (block_shows inside).within good c all
  · exact (group_shows inside).within good c all
  · exact all _ List.mem_cons_self

theorem callsAfter_shows (inside : Shows self) (room : Nat) (callee : Expr) : Shows (callsAfter self room callee) := by
  induction room generalizing callee with
  | zero => exact shows_mismatch _
  | succ room ih => exact peekKind_shows.bind fun k => shows_if ((list_shows inside).bind fun _ => ih _) (shows_pure _)

theorem chainAfter_shows {operator? : TokenKind → Option Operator} {operand : Parser Expr} (inside : Shows operand)
    (room : Nat) (left : Expr) : Shows (chainAfter operator? operand room left) := by
  induction room generalizing left with
  | zero => exact shows_mismatch _
  | succ room ih =>
    refine peekKind_shows.bind fun k => ?_
    split
    · exact next_shows.bind fun _ => inside.within.bind fun _ => ih _
    · exact shows_pure _

theorem chain_shows {operator? : TokenKind → Option Operator} {operand : Parser Expr} (inside : Shows operand) :
    Shows (chain operator? operand) :=
  inside.bind fun _ => shows_from fun c => chainAfter_shows inside c.size _

theorem sum_shows (inside : Shows self) : Shows (sum self) :=
  chain_shows (chain_shows ((atom_shows inside).bind fun _ => shows_from fun c => callsAfter_shows inside c.size _))

theorem exprStep_shows (inside : Shows self) : Shows (exprStep self) := by
  intro good c all
  unfold exprStep
  split
  · exact (conditional_shows inside).within good c all
  · exact (caseOf_shows inside).within good c all
  · exact (closure_shows inside).within good c all
  · have comparison : Shows (comparison self) := (sum_shows inside).bind fun _ => peekKind_shows.bind fun k =>
      shows_if (next_shows.bind fun _ => (sum_shows inside).within.bind fun _ => shows_pure _) (shows_pure _)
    exact comparison good c all

theorem expr_shows : Shows expr := shows_bounded (shows_mismatch _) (fun _ => exprStep_shows) fun _ => rfl

end Expressions

theorem generics_shows : Shows generics := by
  refine peekKind_shows.bind fun _ => shows_if ?_ (shows_pure _)
  exact (list_shows (ident_shows.bind fun _ => shows_pure _)).bind fun _ => shows_pure _

theorem function_shows : Shows function := by
  refine next_shows.bind fun _ => ident_shows.bind fun _ => generics_shows.bind fun _ => ?_
  refine (list_shows param_shows).bind fun _ => (expect_shows _).bind fun _ => type_shows.within.bind fun _ => ?_
  exact (expect_shows _).bind fun _ => expr_shows.within.bind fun _ => lastSpan_shows.bind fun _ => shows_pure _

theorem struct_shows : Shows struct := by
  have field : Shows field := ident_shows.bind fun _ => (expect_shows _).within.bind fun _ =>
    type_shows.within.bind fun _ => shows_pure _
  refine next_shows.bind fun _ => ident_shows.bind fun _ => generics_shows.bind fun _ => ?_
  exact (list_shows field).bind fun _ => lastSpan_shows.bind fun _ => shows_pure _

section Definitions

theorem within_ne_mismatch {context : String} {p : Parser α} {c : Cursor} {x : Expectation} {t : Token} :
    within context p c ≠ .mismatch x t := by
  intro wrong
  rw [within] at wrong
  split at wrong <;> cases wrong

/-- A definition fails here, and so does reading a program. -/
structure Fails (c : Cursor) (e : SyntaxError) : Prop where
  more : c.head.kind ≠ .endOfFile
  read : definition c = .failure e ∨ ∃ x t, definition c = .mismatch x t ∧ e = ⟨.expected x, t, ["program"]⟩

/-- How a failure in a definition is told: the first word says what it would be. -/
def Told (first : Token) (e : SyntaxError) : Prop :=
  (first.kind = .kwFunc ∧ ∃ inner, e.context = "function definition" :: inner) ∨
    (first.kind = .kwStruct ∧ ∃ inner, e.context = "struct definition" :: inner) ∨
    (first.kind ≠ .kwFunc ∧ first.kind ≠ .kwStruct ∧ e = ⟨.expected .definition, first, ["program"]⟩)

theorem within_failure {α : Type} {context : String} {p : Parser α} {c : Cursor} {e : SyntaxError}
    (failed : within context p c = .failure e) : ∃ inner, e.context = context :: inner := by
  rw [within] at failed
  split at failed
  · cases failed
  · cases failed
    exact ⟨_, rfl⟩
  · cases failed
    exact ⟨_, rfl⟩

theorem Fails.told {c : Cursor} {e : SyntaxError} (fails : Fails c e) : Told c.head e ∧ e.found ∈ c.tokens := by
  -- A production with a context does not end in a mismatch, and tells the context first.
  have begun : ∀ {context : String} {p : Parser Item}, Shows p → definition c = within context p c →
      (∃ inner, e.context = context :: inner) ∧ e.found ∈ c.tokens := by
    intro context p shows same
    have own : About (· ∈ c.tokens) (within context p c) := shows.within _ c fun _ => id
    rcases fails.read with failed | ⟨x, t, failed, -⟩
    · rw [same] at failed
      rw [failed] at own
      exact ⟨within_failure failed, own⟩
    · exact absurd (same ▸ failed) within_ne_mismatch
  by_cases func : c.head.kind = .kwFunc
  · obtain ⟨context, found⟩ := begun function_shows (by rw [definition, func])
    exact ⟨Or.inl ⟨func, context⟩, found⟩
  by_cases struct : c.head.kind = .kwStruct
  · obtain ⟨context, found⟩ := begun struct_shows (by rw [definition, struct])
    exact ⟨Or.inr (Or.inl ⟨struct, context⟩), found⟩
  have read := fails.read
  unfold definition at read
  split at read
  · exact absurd ‹_› func
  · exact absurd ‹_› struct
  · rcases read with wrong | ⟨x, t, same, rfl⟩
    · cases wrong
    · cases same
      exact ⟨Or.inr (Or.inr ⟨func, struct, rfl⟩), List.mem_cons_self⟩

/-- What is read before a failure is a program, and the definition behind it is the one that fails. -/
theorem definitions_fails {n room : Nat} {c : Cursor} {e : SyntaxError} (left : c.Left n) (enough : n ≤ room)
    (failed : (definitions room c).2 = some e) :
    ∃ ts rest, c.Moves ts rest ∧ IsProgram ts (definitions room c).1 ∧ Fails rest e := by
  induction n generalizing room c with
  | zero => exact absurd left Cursor.not_left_zero
  | succ n ih =>
    obtain ⟨room, rfl⟩ := Nat.exists_eq_succ_of_ne_zero (show room ≠ 0 by omega)
    rw [definitions] at failed ⊢
    by_cases last : c.head.kind = .endOfFile
    · rw [if_pos last] at failed
      cases failed
    rw [if_neg last] at failed ⊢
    have agree := definition_agree (n + 1) c left
    cases ran : definition c with
    | ok item rest =>
      rw [ran] at failed
      obtain ⟨ts, moves, own⟩ := agree.2 item rest ran
      have left' : rest.Left n := by
        cases own <;> exact moves.fewer left
      obtain ⟨us, stop, moves', others, fails⟩ := ih left' (Nat.le_of_succ_le_succ enough) failed
      exact ⟨ts ++ us, stop, moves.trans moves', .cons own others, fails⟩
    | mismatch x t =>
      rw [ran] at failed
      obtain rfl := Option.some.inj failed
      exact ⟨[], c, .refl c, .nil, last, Or.inr ⟨x, t, ran, rfl⟩⟩
    | failure e' =>
      rw [ran] at failed
      obtain rfl := Option.some.inj failed
      exact ⟨[], c, .refl c, .nil, last, Or.inl ran⟩

end Definitions

end Parser

theorem Cursor.tokens_ofTokens {ts : List Token} (some : ts ≠ []) : (Cursor.ofTokens ts).tokens = ts := by
  cases ts with
  | nil => exact absurd rfl some
  | cons t ts => rfl

theorem read_items (f : SourceFile) : (read f).file.items =
    (Parser.definitions (Cursor.ofTokens f.tokens).size (Cursor.ofTokens f.tokens)).1 := rfl

theorem read_error (f : SourceFile) : (read f).error =
    (Parser.definitions (Cursor.ofTokens f.tokens).size (Cursor.ofTokens f.tokens)).2 := rfl

/-- If reading a file fails, then in a definition; the failure shows a token of it or behind it, and its context
begins with what the first word of the definition says that it is, or with the program if that word says nothing. The
text before that definition is read without a failure, as the definitions that the whole file was read as. -/
theorem read_failure {f : SourceFile} {e : SyntaxError} (failed : (read f).error = some e) :
    ∃ before first after, f.tokens = before ++ first :: after ∧ (∃ last, Parser.Fails ⟨last, first, after⟩ e) ∧
      e.found ∈ first :: after ∧ Parser.Told first e ∧
      let own := read { f with content := f.content.take first.span.start }
      own.file.items = (read f).file.items ∧ own.error = none := by
  have tokens := f.tokens_words
  have all : (Cursor.ofTokens f.tokens).tokens = f.tokens := Cursor.tokens_ofTokens (by simp [tokens])
  have ended : (Cursor.ofTokens f.tokens).Ended := by
    rw [Cursor.Ended, all, tokens]
    exact ⟨_, List.mem_concat_self, rfl⟩
  obtain ⟨before, rest, moves, program, fails⟩ := Parser.definitions_fails ⟨ended, Nat.le_refl _⟩ (Nat.le_refl _) failed
  have split : f.tokens = before ++ rest.head :: rest.tail := by
    rw [← all, moves.tokens]
    rfl
  obtain ⟨told, found⟩ := fails.told
  refine ⟨before, rest.head, rest.tail, split, ⟨rest.last, fails⟩, found, told, ?_⟩
  have short := SourceFile.tokens_before split fails.more
  have inside : (before.takeWhile fun t => t.kind != .endOfFile) = before := by
    have each : ∀ t ∈ before, (t.kind != .endOfFile) = true := fun t member => by simpa using moves.inside t member
    simpa using @List.takeWhile_append_of_pos _ _ _ [] each
  have derives : IsProgram (before.takeWhile fun t => t.kind != .endOfFile) (read f).file.items := by
    rw [inside]
    exact program
  have same := @Parser.definitions_whole _ ⟨rest.head.span.start, rest.head.span.start, f.id⟩ "" _ derives
  rw [← short] at same
  refine ⟨?_, ?_⟩
  · rw [read_items, same]
  · rw [read_error, same]

/-- A text whose second definition holds half a struct literal. -/
def halfLiteral : SourceFile :=
  ⟨0, "a", Bytes.ofString "struct P { x: F64, y: F64 }\nfunc f(): P = P { x: 1, y }\nfunc g(): F64 = 2", .memory⟩

theorem halfLiteral_failure : ∃ e, (read halfLiteral).error = some e ∧
    e.context = ["function definition", "function body", "struct literal", "field initializers"] ∧
    ∃ before first after, halfLiteral.tokens = before ++ first :: after ∧ first.kind = .kwFunc ∧
      e.found ∈ first :: after ∧
      let own := read { halfLiteral with content := halfLiteral.content.take first.span.start }
      own.file.items = (read halfLiteral).file.items ∧ own.error = none := by
  have context : (read halfLiteral).error.map (·.context) =
      some ["function definition", "function body", "struct literal", "field initializers"] := by
    rw [halfLiteral, Utf8.ofString_ofList]
    decide +kernel
  obtain ⟨e, failed, context⟩ := Option.map_eq_some_iff.mp context
  obtain ⟨before, first, after, split, -, found, told, own⟩ := read_failure failed
  refine ⟨e, failed, context, before, first, after, split, ?_, found, own⟩
  rcases told with ⟨func, -⟩ | ⟨-, inner, struct⟩ | ⟨-, -, rfl⟩
  · exact func
  · simp [struct] at context
  · simp at context

end WitnessLang.Surface
