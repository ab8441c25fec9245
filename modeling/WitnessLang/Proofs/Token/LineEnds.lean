import Mathlib.Data.List.Forall2
import WitnessLang.Proofs.Source.Lines
import WitnessLang.Proofs.Token.Beginnings

set_option autoImplicit false

/-! Line ends of two bytes. A carriage return before a line feed stands at the end of a line, where it is blank or the
end of a comment. Without it the tokens and findings are the same, and stand at the same lines and columns. -/
namespace WitnessLang

def carriageReturn : UInt8 := 13

/-- No line end of two bytes is taken apart between two texts. -/
def Unbroken (front back : Bytes) : Prop := front.getLast? = some carriageReturn → back.head? ≠ some feed

section Shortening

variable {a b front back : Bytes} {x : UInt8}

theorem shortenLineEnds_break (b : Bytes) :
    shortenLineEnds (carriageReturn :: feed :: b) = feed :: shortenLineEnds b := by
  rw [shortenLineEnds, if_pos ⟨rfl, rfl⟩]
  rfl

theorem shortenLineEnds_cons (whole : Unbroken [x] b) : shortenLineEnds (x :: b) = x :: shortenLineEnds b := by
  cases b with
  | nil => rfl
  | cons y b =>
    rw [shortenLineEnds, if_neg]
    rintro ⟨rfl, rfl⟩
    exact whole rfl rfl

theorem shortenLineEnds_append (whole : Unbroken a b) :
    shortenLineEnds (a ++ b) = shortenLineEnds a ++ shortenLineEnds b := by
  induction size : a.length using Nat.strongRecOn generalizing a with
  | ind n ih =>
    subst size
    cases a with
    | nil => rfl
    | cons x a =>
      cases a with
      | nil => exact shortenLineEnds_cons whole
      | cons y a =>
        have later : Unbroken (y :: a) b := fun last => whole (by rwa [List.getLast?_cons_cons])
        by_cases broken : x = carriageReturn ∧ y = feed
        · obtain ⟨rfl, rfl⟩ := broken
          have rest : Unbroken a b := by
            intro last
            cases a with
            | nil => cases last
            | cons z a => exact later (by rwa [List.getLast?_cons_cons])
          rw [List.cons_append, List.cons_append, shortenLineEnds_break, shortenLineEnds_break, List.cons_append,
            ih _ (by simp only [List.length_cons]; omega) rest rfl]
        · have apart : ∀ c : Bytes, Unbroken [x] (y :: c) := by
            intro c last first
            exact broken ⟨Option.some.inj last, Option.some.inj first⟩
          rw [List.cons_append, List.cons_append, shortenLineEnds_cons (apart _), shortenLineEnds_cons (apart _),
            ← List.cons_append, ih _ (by simp) later rfl, List.cons_append]

/-- A text without carriage returns, or without line feeds, stays as it is. -/
theorem shortenLineEnds_eq_self (none : carriageReturn ∉ b ∨ feed ∉ b) : shortenLineEnds b = b := by
  induction b with
  | nil => rfl
  | cons x b ih =>
    have whole : Unbroken [x] b := by
      intro last first
      obtain rfl := Option.some.inj last
      rcases none with none | none
      · exact none List.mem_cons_self
      · exact none (List.mem_cons_of_mem _ (List.mem_of_head? first))
    rw [shortenLineEnds_cons whole, ih (none.imp (fun no more => no (List.mem_cons_of_mem x more))
      fun no more => no (List.mem_cons_of_mem x more))]

theorem count_shortenLineEnds (b : Bytes) : (shortenLineEnds b).count feed = b.count feed := by
  fun_induction shortenLineEnds b with
  | case1 => rfl
  | case2 => rfl
  | case3 a b rest broken ih =>
    obtain ⟨rfl, rfl⟩ := broken
    rw [List.count_cons, ih, List.count_cons, List.count_cons]
    rfl
  | case4 a b rest whole ih => rw [List.count_cons, ih, List.count_cons (a := feed) (b := a)]

end Shortening

section Places

variable {f g : SourceFile} {offset offset' : Nat}

/-- An offset of a text and of the text with short line ends, with as much of it before them. -/
def Shifted (text : Bytes) (offset offset' : Nat) : Prop :=
  ∃ front back, text = front ++ back ∧ Unbroken front back ∧ offset = front.length ∧
    offset' = (shortenLineEnds front).length

/-- Lines and columns are the same with short line ends. -/
theorem position_shortened (content : g.content = shortenLineEnds f.content) (shifted : Shifted f.content offset offset') :
    g.position offset' = f.position offset := by
  obtain ⟨before, back, split, whole, rfl, rfl⟩ := shifted
  obtain ⟨front, tail, rfl, opened, single⟩ := SourceFile.exists_split before
  have apart : Unbroken front tail := by
    intro last
    rcases opened with rfl | feeds
    · cases last
    · rw [feeds] at last
      exact absurd last (by decide)
  have shortened : shortenLineEnds (front ++ tail) = shortenLineEnds front ++ tail := by
    rw [shortenLineEnds_append apart, shortenLineEnds_eq_self (Or.inr single)]
  have opened' : shortenLineEnds front = [] ∨ (shortenLineEnds front).getLast? = some feed := by
    rcases opened with rfl | feeds
    · exact Or.inl rfl
    · obtain ⟨lines, rfl⟩ := List.getLast?_eq_some_iff.mp feeds
      rcases List.eq_nil_or_concat lines with rfl | ⟨lines, x, rfl⟩
      · exact Or.inr rfl
      · by_cases broken : x = carriageReturn
        · subst broken
          have early : Unbroken lines [carriageReturn, feed] := fun _ => by decide
          rw [List.concat_eq_append, List.append_assoc]
          rw [show [carriageReturn] ++ [feed] = [carriageReturn, feed] from rfl, shortenLineEnds_append early,
            shortenLineEnds_break]
          exact Or.inr List.getLast?_concat
        · have early : Unbroken (lines.concat x) [feed] := by
            intro last
            rw [List.concat_eq_append, List.getLast?_concat] at last
            exact absurd (Option.some.inj last) broken
          rw [shortenLineEnds_append early]
          exact Or.inr List.getLast?_concat
  have empty : shortenLineEnds front = [] ↔ front = [] := by
    constructor
    · intro none
      have count := count_shortenLineEnds front
      rw [none] at count
      rcases opened with none | feeds
      · exact none
      · have some := List.count_pos_iff.mpr (List.mem_of_getLast? feeds)
        rw [← count] at some
        exact absurd some (Nat.lt_irrefl 0)
    · rintro rfl
      rfl
  have split' : g.content = shortenLineEnds front ++ tail ++ shortenLineEnds back := by
    rw [content, split, shortenLineEnds_append whole, shortened]
  rw [shortened, SourceFile.position_of_split split' opened' single, SourceFile.position_of_split split opened single,
    count_shortenLineEnds]
  simp only [empty]

end Places

namespace Lexer

section Ends

variable {b e : UInt8} {rest text tail : Bytes} {c : Char}

end Ends

section Pieces

variable {file file' n : Nat} {b e : UInt8} {done rest text used back c z : Bytes}

/-- Nothing, or a comment: what may stand at the end of a line unread. -/
def Idle (c : Bytes) : Prop := c = [] ∨ ∃ line, c = 47 :: 47 :: line ∧ feed ∉ line

theorem Idle.single (idle : Idle c) : feed ∉ c := by
  rcases idle with rfl | ⟨line, rfl, single⟩
  · exact List.not_mem_nil
  · simpa [feed] using single

/-- A piece that stands in the text with short line ends as well, with as much before it and behind it. -/
structure Moved (text : Bytes) (l l' : Span × Piece) : Prop where
  piece : l'.2 = l.2
  start : Shifted text l.1.start l'.1.start
  stop : Shifted text l.1.stop l'.1.stop

end Pieces

end Lexer

section Files

variable {f g : SourceFile} {d e : Diagnostic} {ds es : List Diagnostic}

/-- Two spans of two files start and end at the same lines and columns. -/
structure Span.SamePlaces (f g : SourceFile) (s s' : Span) : Prop where
  start : g.position s'.start = f.position s.start
  stop : g.position s'.stop = f.position s.stop

theorem Lexer.Moved.places {l l' : Span × Piece} (content : g.content = shortenLineEnds f.content)
    (moved : Moved f.content l l') : l.1.SamePlaces f g l'.1 :=
  ⟨position_shortened content moved.start, position_shortened content moved.stop⟩

end Files

end WitnessLang
