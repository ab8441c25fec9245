import Mathlib.Algebra.Group.Nat.Defs
import Mathlib.Data.List.Pairwise
import WitnessLang.Proofs.Text.Utf8
import WitnessLang.Token.Lexer

set_option autoImplicit false

/-! A source text is cut into its tokens, and what is left between them is blanks, comments and reported
characters. Nothing is lost and nothing is read twice, whatever the bytes are. -/
namespace WitnessLang

/-- Whether the byte at an offset belongs to a span. -/
def Span.Holds (s : Span) (i : Nat) : Prop := s.start ≤ i ∧ i < s.stop

def TokenKind.IsWord (k : TokenKind) : Prop := k = .identifier ∨ k.isKeyword = true

instance (k : TokenKind) : Decidable k.IsWord := inferInstanceAs (Decidable (_ ∨ _))

namespace Lexer

/-- Bytes that are no blanks and begin no comment. -/
def Solid (x : UInt8) : Prop := isBlank x = false ∧ x ≠ 47

/-- How a token reads the bytes it takes. A word is put in normal form, anything else is kept as it is; a kind
that has one spelling is spelled so, and a number begins with a digit. -/
structure Reads (kind : TokenKind) (text : String) (raw : Bytes) : Prop where
  inside : kind ≠ .endOfFile
  solid : ∀ x ∈ raw, Solid x
  word : kind.IsWord → kind = .ofWord text ∧ ∃ s, Bytes.ofString s = raw ∧ text = Normal.normalize s
  other : ¬ kind.IsWord → Bytes.ofString text = raw
  spelled : ∀ s, kind.spelling? = some s → text = s
  number : kind = .number ∨ kind = .invalid → ∃ d rest, raw = d :: rest ∧ isDigit d = true

/-- Two slashes and what follows them on their line. -/
structure IsComment (b : Bytes) (s : Span) : Prop where
  opened : ∃ line, b.slice s.start s.stop = 47 :: 47 :: line
  inLine : 10 ∉ b.slice s.start s.stop
  ended : s.stop = b.length ∨ b[s.stop]? = some 10

/-- A byte and what follows it, when neither a blank nor a comment nor a token begins there. -/
structure Strange (lead : UInt8) (rest : Bytes) : Prop where
  blank : isBlank lead = false
  comment : ¬ (lead = 47 ∧ rest.head? = some 47)
  word : isWordStart lead = false
  letter : 0x80 ≤ lead → ∀ c after, Utf8.char? lead rest = some (c, after) → CharClass.letter.has c = false
  digit : isDigit lead = false
  sign : punctuation? lead rest.head? = none

/-- One character as a reader sees it, at which nothing begins. -/
structure IsUnknown (b : Bytes) (s : Span) (c : Char) : Prop where
  read : ∃ lead rest, b.drop s.start = lead :: rest ∧ (Utf8.step lead rest).1.shown = c ∧
    (Utf8.step lead rest).2 = b.drop s.stop ∧ Strange lead rest
  filled : s.start < s.stop
  within : s.stop ≤ b.length

/-- The report of a character that nothing knows what to do with. -/
def unknownFinding (s : Span) (c : Char) : Diagnostic :=
  .error .unknownCharacter s ("unknown character " ++ Quoted.ofChar c)

/-- The report of a number with letters in it. -/
def malformedFinding (s : Span) (text : String) : Diagnostic :=
  .error .malformedNumber s ("malformed number " ++ Quoted.ofString text)

inductive Part where
  | token
  | comment
  | blank
  | unknown
  deriving DecidableEq

/-- Whether the byte at an offset belongs to a part of a text with some tokens and findings. -/
def Belongs (b : Bytes) (words : List Token) (findings : List Diagnostic) (i : Nat) : Part → Prop
  | .token => ∃ t ∈ words, t.span.Holds i
  | .comment => ∃ s, IsComment b s ∧ s.Holds i
  | .blank => (∃ x, b[i]? = some x ∧ isBlank x = true) ∧ ¬ ∃ s, IsComment b s ∧ s.Holds i
  | .unknown => ∃ d ∈ findings, d.code = .unknownCharacter ∧ d.span.Holds i

/-- A text is cut into tokens, and the rest is blank, commented out or reported: every byte belongs to one part and
to no other. -/
structure Cut (b : Bytes) (file : Nat) (words : List Token) (findings : List Diagnostic) : Prop where
  placed : ∀ t ∈ words, t.span.file = file ∧ t.span.start < t.span.stop ∧ t.span.stop ≤ b.length
  apart : words.Pairwise fun t u => t.span.stop ≤ u.span.start
  read : ∀ t ∈ words, Reads t.kind t.text (b.slice t.span.start t.span.stop)
  partitioned : ∀ i < b.length, ∃! part, Belongs b words findings i part
  reported : ∀ d ∈ findings, d.span.file = file ∧ ((∃ c, d = unknownFinding d.span c ∧ IsUnknown b d.span c) ∨
    ∃ t ∈ words, t.kind = .invalid ∧ d = malformedFinding t.span t.text)
  malformed : ∀ t ∈ words, t.kind = .invalid → malformedFinding t.span t.text ∈ findings
  ordered : findings.Pairwise fun d e => d.span.stop ≤ e.span.start

-- What stands in a comment is not reported.
example : ¬ Cut [47, 47, 32, 36] 0 [] [unknownFinding ⟨3, 4, 0⟩ '$'] := fun cut => by
  obtain ⟨part, -, only⟩ := cut.partitioned 3 (by decide)
  have commented := only .comment ⟨⟨0, 4, 0⟩, ⟨⟨[32, 36], rfl⟩, by decide, Or.inl rfl⟩, by decide, by decide⟩
  have reported := only .unknown ⟨_, List.mem_singleton_self _, rfl, by decide, by decide⟩
  cases commented.trans reported.symm

section Pieces

def Piece.Fits (p : Piece) (after : Bytes) : Prop :=
  match p.kind with
  | .blank => ∃ x, p.raw = [x] ∧ isBlank x = true
  | .comment => ∃ line, p.raw = 47 :: 47 :: line ∧ 10 ∉ line ∧ (after = [] ∨ after.head? = some 10)
  | .unknown c => ∃ lead rest, p.raw ++ after = lead :: rest ∧ (Utf8.step lead rest).1.shown = c ∧
      (Utf8.step lead rest).2 = after ∧ Strange lead rest
  | .token kind text => Reads kind text p.raw

theorem upTo_append {before after : Bytes} : upTo (before ++ after) after = before := by
  simp [upTo]

theorem isWordByte_ascii {b : UInt8} (word : isWordByte b = true) : b < 0x80 := by
  rw [UInt8.lt_iff_toNat_lt]
  simp only [isWordByte, isWordStart, isDigit, Bool.or_eq_true, Bool.and_eq_true, beq_iff_eq, decide_eq_true_eq,
    UInt8.le_iff_toNat_le, ← UInt8.toNat_inj] at word
  simp at word ⊢
  omega

theorem solid_of_word {x : UInt8} (word : isWordByte x = true) : Solid x := by
  simp only [isWordByte, isWordStart, isDigit, Bool.or_eq_true, Bool.and_eq_true, beq_iff_eq, decide_eq_true_eq,
    UInt8.le_iff_toNat_le, ← UInt8.toNat_inj] at word
  simp only [Solid, isBlank, Bool.or_eq_false_iff, beq_eq_false_iff_ne, ne_eq, ← UInt8.toNat_inj]
  simp at word ⊢
  omega

theorem solid_of_high {x : UInt8} (high : 128 ≤ x.toNat) : Solid x := by
  simp only [Solid, isBlank, Bool.or_eq_false_iff, beq_eq_false_iff_ne, ne_eq, ← UInt8.toNat_inj]
  simp
  omega

/-- The longest name, and what comes behind it. -/
theorem afterName_split (b : Bytes) : ∃ name, b = name ++ afterName b ∧ Utf8.WellFormed name ∧ ∀ x ∈ name, Solid x := by
  have none : Utf8.WellFormed [] ∧ ∀ x ∈ ([] : Bytes), Solid x := ⟨Utf8.wellFormed_nil, List.forall_mem_nil _⟩
  fun_induction afterName b with
  | case1 => exact ⟨[], rfl, none⟩
  | case2 b rest word ih =>
    obtain ⟨name, split, formed, solid⟩ := ih
    exact ⟨b :: name, congrArg (b :: ·) split, .cons (Utf8.char?_ascii (isWordByte_ascii word) name) formed,
      List.forall_mem_cons.mpr ⟨solid_of_word word, solid⟩⟩
  | case3 b rest => exact ⟨[], rfl, none⟩
  | case4 b rest word high c rest' read more ih =>
    obtain ⟨name, split, formed, solid⟩ := ih
    obtain ⟨used, same, beyond, reads⟩ := Utf8.char?_used read
    refine ⟨b :: (used ++ name), ?_, .cons (reads name) formed, ?_⟩
    · rw [same, List.cons_append, List.append_assoc, ← split]
    · have first : 128 ≤ b.toNat := Nat.le_of_not_lt fun low => high (UInt8.lt_iff_toNat_lt.mpr low)
      refine List.forall_mem_cons.mpr ⟨solid_of_high first, fun x member => ?_⟩
      rcases List.mem_append.mp member with early | late
      · exact solid_of_high (beyond x early)
      · exact solid x late
  | case5 => exact ⟨[], rfl, none⟩
  | case6 => exact ⟨[], rfl, none⟩

theorem keywords_spelled : ∀ e ∈ TokenKind.keywords, e.2.spelling? = some e.1 := by decide

/-- The kinds of words. -/
theorem ofWord_cases (w : String) : TokenKind.ofWord w = .identifier ∨
    (TokenKind.ofWord w).isKeyword = true ∧ (TokenKind.ofWord w).spelling? = some w := by
  rw [TokenKind.ofWord]
  cases found : TokenKind.keywords.lookup w with
  | none => exact Or.inl rfl
  | some k =>
    obtain ⟨front, back, same, -⟩ := List.lookup_eq_some_iff.mp found
    have member : (w, k) ∈ TokenKind.keywords := by simp [same]
    refine Or.inr ⟨?_, keywords_spelled _ member⟩
    exact List.any_eq_true.mpr ⟨_, member, by simp⟩

theorem keyword_kinds {k : TokenKind} (word : k.IsWord) : k ≠ .endOfFile ∧ k ≠ .number ∧ k ≠ .invalid := by
  refine ⟨?_, ?_, ?_⟩
  all_goals
    rintro rfl
    exact absurd word (by simp [TokenKind.IsWord, TokenKind.isKeyword, TokenKind.keywords])

theorem reads_word {raw : Bytes} (formed : Utf8.WellFormed raw) (solid : ∀ x ∈ raw, Solid x) :
    Reads (.ofWord (Normal.normalize (Utf8.stringLossy raw))) (Normal.normalize (Utf8.stringLossy raw)) raw := by
  generalize same : Normal.normalize (Utf8.stringLossy raw) = text
  have kinds := ofWord_cases text
  have word : (TokenKind.ofWord text).IsWord := kinds.imp_right And.left
  obtain ⟨notEnd, notNumber, notInvalid⟩ := keyword_kinds word
  refine ⟨notEnd, solid, fun _ => ⟨rfl, _, Utf8.ofString_stringLossy formed, same.symm⟩,
    fun other => absurd word other, ?_, ?_⟩
  · intro s spelled
    rcases kinds with name | ⟨-, own⟩
    · rw [name] at spelled
      cases spelled
    · exact Option.some.inj (own.symm.trans spelled)
  · rintro (number | invalid)
    · exact absurd number notNumber
    · exact absurd invalid notInvalid

theorem nameAt_fits {whole : Bytes} : whole = (nameAt whole).1.raw ++ (nameAt whole).2 ∧
    (nameAt whole).1.Fits (nameAt whole).2 := by
  obtain ⟨name, split, formed, solid⟩ := afterName_split whole
  have raw : upTo whole (afterName whole) = name := by
    conv => lhs; arg 1; rw [split]
    exact upTo_append
  simp only [nameAt, Piece.Fits, raw]
  exact ⟨split, reads_word formed solid⟩

/-- The digits, perhaps with a fraction, and what comes behind them. -/
theorem afterDigits_split (b : Bytes) : ∃ number, b = number ++ afterDigits b ∧
    ∀ x ∈ number, isDigit x = true ∨ x = 46 := by
  have digits (l : Bytes) : ∀ x ∈ l.takeWhile isDigit, isDigit x = true ∨ x = 46 := fun x member =>
    Or.inl (List.all_eq_true.mp List.all_takeWhile x member)
  have whole := List.takeWhile_append_dropWhile (p := isDigit) (l := b)
  rw [afterDigits]
  split
  · rename_i d rest same
    split
    · rename_i digit
      refine ⟨b.takeWhile isDigit ++ 46 :: d :: rest.takeWhile isDigit, ?_, ?_⟩
      · rw [List.append_assoc, List.cons_append, List.cons_append, List.takeWhile_append_dropWhile, ← same, whole]
      · intro x member
        rcases List.mem_append.mp member with early | late
        · exact digits b x early
        rcases List.mem_cons.mp late with rfl | late
        · exact Or.inr rfl
        rcases List.mem_cons.mp late with rfl | late
        · exact Or.inl digit
        · exact digits rest x late
    · exact ⟨b.takeWhile isDigit, by rw [← same, whole], digits b⟩
  · exact ⟨b.takeWhile isDigit, whole.symm, digits b⟩

theorem reads_number {kind : TokenKind} {raw : Bytes} (number : kind = .number ∨ kind = .invalid)
    (formed : Utf8.WellFormed raw) (solid : ∀ x ∈ raw, Solid x) (starts : ∃ d rest, raw = d :: rest ∧ isDigit d = true) :
    Reads kind (Utf8.stringLossy raw) raw := by
  have kinds : kind ≠ .endOfFile ∧ ¬ kind.IsWord ∧ kind.spelling? = none := by
    rcases number with rfl | rfl
    · decide
    · decide
  obtain ⟨notEnd, noWord, unspelled⟩ := kinds
  refine ⟨notEnd, solid, fun word => absurd word noWord, fun _ => Utf8.ofString_stringLossy formed, ?_, fun _ => starts⟩
  intro s spelled
  rw [unspelled] at spelled
  cases spelled

theorem numberAt_fits {b : UInt8} {rest : Bytes} (digit : isDigit b = true) :
    b :: rest = (numberAt (b :: rest)).1.raw ++ (numberAt (b :: rest)).2 ∧
      (numberAt (b :: rest)).1.Fits (numberAt (b :: rest)).2 := by
  obtain ⟨number, split, digits⟩ := afterDigits_split (b :: rest)
  generalize ended : afterDigits (b :: rest) = sound at split
  have whole : b :: rest = (number ++ sound.takeWhile isWordByte) ++ sound.dropWhile isWordByte := by
    rw [List.append_assoc, List.takeWhile_append_dropWhile, split]
  have raw : upTo (b :: rest) (sound.dropWhile isWordByte) = number ++ sound.takeWhile isWordByte := by
    rw [whole, upTo_append]
  have bytes : ∀ x ∈ number ++ sound.takeWhile isWordByte, isWordByte x = true ∨ x = 46 := by
    intro x member
    rcases List.mem_append.mp member with early | late
    · exact (digits x early).imp_left fun digit => by rw [isWordByte, digit, Bool.or_true]
    · exact Or.inl (List.all_eq_true.mp List.all_takeWhile x late)
  have ascii : ∀ x ∈ number ++ sound.takeWhile isWordByte, x < 0x80 := by
    intro x member
    rcases bytes x member with word | rfl
    · exact isWordByte_ascii word
    · decide
  have solid : ∀ x ∈ number ++ sound.takeWhile isWordByte, Solid x := by
    intro x member
    rcases bytes x member with word | rfl
    · exact solid_of_word word
    · exact ⟨by decide, by decide⟩
  have shorter := numberAt_length b rest digit
  simp only [numberAt, ended] at shorter
  simp only [numberAt, Piece.Fits, ended, raw]
  refine ⟨whole, reads_number ?_ (Utf8.wellFormed_ascii ascii) solid ?_⟩
  · split
    · exact Or.inr rfl
    · exact Or.inl rfl
  · cases filled : number ++ sound.takeWhile isWordByte with
    | nil =>
      rw [filled, List.nil_append] at whole
      rw [← whole, List.length_cons] at shorter
      omega
    | cons d more =>
      rw [filled, List.cons_append] at whole
      exact ⟨d, more, rfl, (List.cons.inj whole).1 ▸ digit⟩

/-- Punctuation is one byte, or two of which the second is a greater sign, and is spelled as it stands. -/
theorem punctuation?_spelled {b : UInt8} {next : Option UInt8} {kind : TokenKind} {width : Nat}
    (found : punctuation? b next = some (kind, width)) : b < 0x80 ∧ ¬ kind.IsWord ∧ kind ≠ .endOfFile ∧
      ¬ (kind = .number ∨ kind = .invalid) ∧
      (width = 1 ∧ kind.spelling? = some (String.ofList [Char.ofNat b.toNat]) ∨
        width = 2 ∧ next = some 62 ∧ kind.spelling? = some (String.ofList [Char.ofNat b.toNat, '>'])) := by
  unfold punctuation? at found
  split at found
  case h_14 | h_15 =>
    split at found
    · cases found
      exact ⟨by decide, by decide, by decide, by decide, Or.inr ⟨rfl, ‹_›, by decide⟩⟩
    · cases found
      exact ⟨by decide, by decide, by decide, by decide, Or.inl ⟨rfl, by decide⟩⟩
  case h_16 => cases found
  all_goals
    cases found
    exact ⟨by decide, by decide, by decide, by decide, Or.inl ⟨rfl, by decide⟩⟩

theorem punctuation?_solid {b : UInt8} {next : Option UInt8} {sign : TokenKind × Nat}
    (found : punctuation? b next = some sign) : Solid b := by
  unfold punctuation? at found
  split at found
  case h_16 => cases found
  all_goals exact ⟨by decide, by decide⟩

theorem reads_punctuation {kind : TokenKind} {cs : List Char} {raw : Bytes} (noWord : ¬ kind.IsWord)
    (notEnd : kind ≠ .endOfFile) (noNumber : ¬ (kind = .number ∨ kind = .invalid)) (solid : ∀ x ∈ raw, Solid x)
    (spelled : kind.spelling? = some (String.ofList cs)) (formed : Utf8.WellFormed raw)
    (chars : Utf8.stringLossy raw = String.ofList cs) : Reads kind (Utf8.stringLossy raw) raw := by
  refine ⟨notEnd, solid, fun word => absurd word noWord, fun _ => Utf8.ofString_stringLossy formed, ?_,
    fun number => absurd number noNumber⟩
  intro s same
  rw [chars]
  exact Option.some.inj (spelled.symm.trans same)

/-- ASCII is read byte by byte. -/
theorem stringLossy_ascii {b : Bytes} (ascii : ∀ x ∈ b, x < 0x80) :
    Utf8.stringLossy b = String.ofList (b.map fun x => Char.ofNat x.toNat) := by
  rw [Utf8.stringLossy]
  congr 1
  induction b with
  | nil => rw [Utf8.glyphs, List.map_nil, List.map_nil]
  | cons x rest ih =>
    have first : Utf8.step x rest = (.char (Char.ofNat x.toNat), rest) := by
      rw [Utf8.step, Utf8.char?_ascii (ascii x List.mem_cons_self)]
    rw [Utf8.glyphs, first, List.map_cons, List.map_cons, ih fun y member => ascii y (List.mem_cons_of_mem x member)]
    rfl

theorem punctuation_fits {b : UInt8} {rest : Bytes} {kind : TokenKind} {width : Nat}
    (found : punctuation? b rest.head? = some (kind, width)) :
    b :: rest = (b :: rest).take width ++ rest.drop (width - 1) ∧
      Reads kind (Utf8.stringLossy ((b :: rest).take width)) ((b :: rest).take width) := by
  have solid := punctuation?_solid found
  obtain ⟨low, noWord, notEnd, noNumber, ⟨rfl, spelled⟩ | ⟨rfl, next, spelled⟩⟩ := punctuation?_spelled found
  · have ascii : ∀ x ∈ [b], x < 0x80 := List.forall_mem_singleton.mpr low
    exact ⟨rfl, reads_punctuation noWord notEnd noNumber (List.forall_mem_singleton.mpr solid) spelled
      (Utf8.wellFormed_ascii ascii) (stringLossy_ascii ascii)⟩
  · cases rest with
    | nil => cases next
    | cons y more =>
      obtain rfl : y = 62 := Option.some.inj next
      have ascii : ∀ x ∈ [b, 62], x < 0x80 := List.forall_mem_cons.mpr ⟨low, List.forall_mem_singleton.mpr (by decide)⟩
      have solids : ∀ x ∈ [b, 62], Solid x :=
        List.forall_mem_cons.mpr ⟨solid, List.forall_mem_singleton.mpr ⟨by decide, by decide⟩⟩
      exact ⟨rfl, reads_punctuation noWord notEnd noNumber solids spelled (Utf8.wellFormed_ascii ascii)
        (stringLossy_ascii ascii)⟩

/-- Behind the first byte of what is read in one step there are no bytes of ASCII. -/
theorem step_split (lead : UInt8) (rest : Bytes) :
    ∃ used, rest = used ++ (Utf8.step lead rest).2 ∧ ∀ x ∈ used, 128 ≤ x.toNat := by
  rw [Utf8.step]
  split
  · rename_i read
    obtain ⟨used, split, beyond, -⟩ := Utf8.char?_used read
    exact ⟨used, split, beyond⟩
  · exact ⟨[], rfl, List.forall_mem_nil _⟩

theorem unknownAt_fits {b : UInt8} {rest : Bytes} (strange : Strange b rest) :
    b :: rest = (unknownAt b rest).1.raw ++ (unknownAt b rest).2 ∧ (unknownAt b rest).1.Fits (unknownAt b rest).2 := by
  obtain ⟨used, split, -⟩ := step_split b rest
  have whole : b :: rest = (b :: used) ++ (Utf8.step b rest).2 := congrArg (b :: ·) split
  have raw : upTo (b :: rest) (Utf8.step b rest).2 = b :: used := by
    conv => lhs; arg 1; rw [whole]
    exact upTo_append
  simp only [unknownAt, Piece.Fits, raw]
  exact ⟨whole, b, rest, whole.symm, rfl, rfl, strange⟩

theorem comment_fits {rest : Bytes} (next : rest.head? = some 47) :
    47 :: rest = (47 :: rest.takeWhile (· != 10)) ++ rest.dropWhile (· != 10) ∧
      (Piece.mk .comment (47 :: rest.takeWhile (· != 10))).Fits (rest.dropWhile (· != 10)) := by
  refine ⟨by rw [List.cons_append, List.takeWhile_append_dropWhile], ?_⟩
  cases rest with
  | nil => cases next
  | cons y more =>
    obtain rfl : y = 47 := Option.some.inj next
    refine ⟨more.takeWhile (· != 10), rfl, fun member => ?_, ?_⟩
    · have other := List.all_eq_true.mp List.all_takeWhile _ member
      exact absurd other (by decide)
    · have ended := List.head?_dropWhile_not (· != 10) (47 :: more)
      cases left : (47 :: more).dropWhile (· != 10) with
      | nil => exact Or.inl rfl
      | cons z after =>
        rw [left] at ended
        exact Or.inr (by simpa using ended)

/-- The first piece of a text is what it is said to be, and what follows it follows it. -/
theorem pieceAt_fits (b : UInt8) (rest : Bytes) :
    b :: rest = (pieceAt b rest).1.raw ++ (pieceAt b rest).2 ∧ (pieceAt b rest).1.Fits (pieceAt b rest).2 := by
  unfold pieceAt
  split
  · rename_i blank
    exact ⟨rfl, b, rfl, blank⟩
  rename_i notBlank
  rw [Bool.not_eq_true] at notBlank
  split
  · rename_i comment
    obtain ⟨slash, next⟩ := Bool.and_eq_true_iff.mp comment
    obtain rfl : b = 47 := beq_iff_eq.mp slash
    exact comment_fits (beq_iff_eq.mp next)
  rename_i noComment
  have single : ¬ (b = 47 ∧ rest.head? = some 47) := by simpa using noComment
  split
  · exact nameAt_fits
  rename_i notWord
  rw [Bool.not_eq_true] at notWord
  split
  · rename_i high
    have noDigit : isDigit b = false := by
      refine Bool.eq_false_iff.mpr fun digit => ?_
      exact absurd (isWordByte_ascii (by rw [isWordByte, digit, Bool.or_true])) (UInt8.not_lt.mpr high)
    have noSign : punctuation? b rest.head? = none := by
      refine Option.eq_none_iff_forall_ne_some.mpr fun sign found => ?_
      exact absurd (punctuation?_spelled found).1 (UInt8.not_lt.mpr high)
    split
    · rename_i c after read
      split
      · exact nameAt_fits
      · rename_i noLetter
        refine unknownAt_fits ⟨notBlank, single, notWord, fun _ c' after' again => ?_, noDigit, noSign⟩
        obtain ⟨rfl, -⟩ := Prod.mk.inj (Option.some.inj (read.symm.trans again))
        exact Bool.eq_false_iff.mpr noLetter
    · rename_i unread
      refine unknownAt_fits ⟨notBlank, single, notWord, fun _ c after read => ?_, noDigit, noSign⟩
      rw [unread] at read
      cases read
  rename_i low
  split
  · rename_i digit
    exact numberAt_fits digit
  rename_i noDigit
  split
  · rename_i kind width found
    exact punctuation_fits found
  · rename_i noSign
    exact unknownAt_fits ⟨notBlank, single, notWord, fun high => absurd high low, Bool.eq_false_iff.mpr noDigit, noSign⟩

end Pieces

section Places

/-- Pieces with their places, from an offset on. -/
def located (file offset : Nat) : List Piece → List (Span × Piece)
  | [] => []
  | p :: rest => (⟨offset, offset + p.raw.length, file⟩, p) :: located file (offset + p.raw.length) rest

def tokenOf (l : Span × Piece) : Option Token :=
  match l.2.kind with
  | .token kind text => some ⟨kind, l.1, text⟩
  | _ => none

def findingOf (l : Span × Piece) : Option Diagnostic :=
  match l.2.kind with
  | .unknown c => some (unknownFinding l.1 c)
  | .token .invalid text => some (malformedFinding l.1 text)
  | _ => none

variable (file : Nat)

theorem tokensFrom_eq (offset : Nat) (ps : List Piece) : tokensFrom file offset ps =
    (located file offset ps).filterMap tokenOf ++
      [⟨.endOfFile, ⟨offset + (ps.flatMap (·.raw)).length, offset + (ps.flatMap (·.raw)).length, file⟩, ""⟩] := by
  induction ps generalizing offset with
  | nil => rfl
  | cons p rest ih =>
    rw [tokensFrom, located, List.flatMap_cons, List.length_append, ← Nat.add_assoc, ih]
    cases same : p.kind <;> simp [tokenOf, same]

theorem findingsFrom_eq (offset : Nat) (ps : List Piece) :
    findingsFrom file offset ps = (located file offset ps).filterMap findingOf := by
  induction ps generalizing offset with
  | nil => rfl
  | cons p rest ih =>
    rw [findingsFrom, located, ih, List.filterMap_cons]
    cases same : p.kind with
    | token kind text =>
      by_cases malformed : kind = .invalid
      · simp [findingOf, same, malformed, malformedFinding]
      · simp [findingOf, same, malformed]
    | _ => simp [findingOf, same, unknownFinding]

theorem located_after {offset : Nat} {ps : List Piece} :
    ∀ l ∈ located file offset ps, offset ≤ l.1.start := by
  induction ps generalizing offset with
  | nil => exact List.forall_mem_nil _
  | cons p rest ih =>
    refine List.forall_mem_cons.mpr ⟨Nat.le_refl offset, fun l member => ?_⟩
    have := ih l member
    omega

theorem located_apart {offset : Nat} {ps : List Piece} :
    (located file offset ps).Pairwise fun l m => l.1.stop ≤ m.1.start := by
  induction ps generalizing offset with
  | nil => exact .nil
  | cons p rest ih => exact .cons (located_after file) ih

theorem pieces_flatten (b : Bytes) : (pieces b).flatMap (·.raw) = b := by
  fun_induction pieces b with
  | case1 => rfl
  | case2 b rest ih => rw [List.flatMap_cons, ih, ← (pieceAt_fits b rest).1]

/-- A piece of a text stands where its place says, and is what it is said to be. -/
theorem located_fits (done b : Bytes) : ∀ l ∈ located file done.length (pieces b), ∃ before after,
    done ++ b = before ++ (l.2.raw ++ after) ∧ l.1 = ⟨before.length, before.length + l.2.raw.length, file⟩ ∧
      l.2.raw ≠ [] ∧ l.2.Fits after := by
  fun_induction pieces b generalizing done with
  | case1 => exact List.forall_mem_nil _
  | case2 b rest ih =>
    obtain ⟨split, fits⟩ := pieceAt_fits b rest
    have shorter := pieceAt_length b rest
    refine List.forall_mem_cons.mpr ⟨⟨done, (pieceAt b rest).2, ?_, rfl, fun empty => ?_, fits⟩, ?_⟩
    · rw [← split]
    · rw [empty, List.nil_append] at split
      rw [← split, List.length_cons] at shorter
      omega
    · have later := ih (done ++ (pieceAt b rest).1.raw)
      rw [List.length_append, List.append_assoc, ← split] at later
      exact later

theorem located_covers {offset : Nat} {ps : List Piece} {i : Nat} (low : offset ≤ i)
    (high : i < offset + (ps.flatMap (·.raw)).length) : ∃ l ∈ located file offset ps, l.1.Holds i := by
  induction ps generalizing offset with
  | nil =>
    simp only [List.flatMap_nil, List.length_nil] at high
    omega
  | cons p rest ih =>
    rw [List.flatMap_cons, List.length_append, ← Nat.add_assoc] at high
    by_cases own : i < offset + p.raw.length
    · exact ⟨_, List.mem_cons_self, low, own⟩
    · obtain ⟨l, member, holds⟩ := ih (Nat.le_of_not_lt own) high
      exact ⟨l, List.mem_cons_of_mem _ member, holds⟩

end Places

section Text

variable {file : Nat} {b : Bytes} {l m : Span × Piece} {t : Token} {d : Diagnostic}

def wordsOf (file : Nat) (b : Bytes) : List Token := (located file 0 (pieces b)).filterMap tokenOf

theorem tokenOf_eq_some : tokenOf l = some t ↔ ∃ kind text, l.2.kind = .token kind text ∧ t = ⟨kind, l.1, text⟩ := by
  cases same : l.2.kind with
  | token kind text =>
    simp only [tokenOf, same, Option.some.injEq, PieceKind.token.injEq]
    constructor
    · rintro rfl
      exact ⟨kind, text, ⟨rfl, rfl⟩, rfl⟩
    · rintro ⟨_, _, ⟨rfl, rfl⟩, rfl⟩
      rfl
  | _ => simp [tokenOf, same]

theorem mem_wordsOf : t ∈ wordsOf file b ↔ ∃ l ∈ located file 0 (pieces b), l.2.kind = .token t.kind t.text ∧ t.span = l.1 := by
  rw [wordsOf, List.mem_filterMap]
  refine exists_congr fun l => and_congr_right fun _ => ?_
  rw [tokenOf_eq_some]
  constructor
  · rintro ⟨kind, text, same, rfl⟩
    exact ⟨same, rfl⟩
  · rintro ⟨same, place⟩
    exact ⟨t.kind, t.text, same, by rw [← place]⟩

structure At (b : Bytes) (file : Nat) (l : Span × Piece) : Prop where
  file : l.1.file = file
  filled : l.1.start < l.1.stop
  within : l.1.stop ≤ b.length
  raw : b.slice l.1.start l.1.stop = l.2.raw
  rest : b.drop l.1.start = l.2.raw ++ b.drop l.1.stop
  fits : l.2.Fits (b.drop l.1.stop)

theorem located_at (member : l ∈ located file 0 (pieces b)) : At b file l := by
  obtain ⟨before, after, split, place, some, fits⟩ := located_fits file [] b l member
  rw [List.nil_append] at split
  obtain ⟨s, p⟩ := l
  obtain rfl : s = ⟨before.length, before.length + p.raw.length, file⟩ := place
  have positive : 0 < p.raw.length := List.length_pos_iff.mpr some
  have dropped : b.drop before.length = p.raw ++ after := by rw [split, List.drop_left]
  have later : b.drop (before.length + p.raw.length) = after := by
    rw [← List.drop_drop, dropped, List.drop_left]
  refine ⟨rfl, ?_, ?_, ?_, ?_, ?_⟩
  · change before.length < before.length + p.raw.length
    omega
  · change before.length + p.raw.length ≤ b.length
    simp only [split, List.length_append]
    omega
  · change (b.drop before.length).take (before.length + p.raw.length - before.length) = p.raw
    rw [dropped, Nat.add_sub_cancel_left, List.take_left]
  · change b.drop before.length = p.raw ++ b.drop (before.length + p.raw.length)
    rw [dropped, later]
  · change p.Fits (b.drop (before.length + p.raw.length))
    rw [later]
    exact fits

/-- Two pieces of a text have no byte in common. -/
theorem located_disjoint (first : l ∈ located file 0 (pieces b)) (second : m ∈ located file 0 (pieces b))
    (differ : l ≠ m) : l.1.stop ≤ m.1.start ∨ m.1.stop ≤ l.1.start := by
  let Apart (l m : Span × Piece) : Prop := l.1.stop ≤ m.1.start ∨ m.1.stop ≤ l.1.start
  have : Std.Symm Apart := ⟨fun _ _ => Or.symm⟩
  have apart : (located file 0 (pieces b)).Pairwise Apart := (located_apart file).imp Or.inl
  exact apart.forall first second differ

theorem comment_of_located (member : l ∈ located file 0 (pieces b)) (comment : l.2.kind = .comment) :
    IsComment b l.1 := by
  have known := located_at member
  have fits := known.fits
  rw [Piece.Fits, comment] at fits
  obtain ⟨line, raw, inLine, ended⟩ := fits
  refine ⟨⟨line, known.raw.trans raw⟩, ?_, ?_⟩
  · rw [known.raw, raw]
    simpa using inLine
  · rcases ended with none | feed
    · exact Or.inl (Nat.le_antisymm known.within (List.drop_eq_nil_iff.mp none))
    · rw [List.head?_drop] at feed
      exact Or.inr feed

theorem unknown_of_located {c : Char} (member : l ∈ located file 0 (pieces b)) (unknown : l.2.kind = .unknown c) :
    IsUnknown b l.1 c := by
  have known := located_at member
  have fits := known.fits
  rw [Piece.Fits, unknown] at fits
  obtain ⟨lead, rest, split, shown, after, strange⟩ := fits
  exact ⟨⟨lead, rest, known.rest.trans split, shown, after, strange⟩, known.filled, known.within⟩

def findingsOf (file : Nat) (b : Bytes) : List Diagnostic := (located file 0 (pieces b)).filterMap findingOf

theorem findingOf_eq_some : findingOf l = some d ↔ (∃ c, l.2.kind = .unknown c ∧ d = unknownFinding l.1 c) ∨
    ∃ text, l.2.kind = .token .invalid text ∧ d = malformedFinding l.1 text := by
  cases same : l.2.kind with
  | token kind text =>
    by_cases malformed : kind = .invalid
    · simp [findingOf, same, malformed, eq_comm]
    · simp [findingOf, same, malformed]
  | _ => simp [findingOf, same, eq_comm]

theorem span_of_findingOf (found : findingOf l = some d) : d.span = l.1 := by
  rcases findingOf_eq_some.mp found with ⟨c, -, rfl⟩ | ⟨text, -, rfl⟩
  · rfl
  · rfl

/-- No byte belongs to two pieces. -/
theorem located_unique {i : Nat} (first : l ∈ located file 0 (pieces b)) (second : m ∈ located file 0 (pieces b))
    (holds : l.1.Holds i) (holds' : m.1.Holds i) : l = m := by
  by_contra differ
  have apart := located_disjoint first second differ
  unfold Span.Holds at holds holds'
  omega

theorem getElem?_slice {i start stop : Nat} (low : start ≤ i) (high : i < stop) :
    (b.slice start stop)[i - start]? = b[i]? := by
  rw [Bytes.slice, List.getElem?_take_of_lt (by omega), List.getElem?_drop, Nat.add_sub_cancel' low]

theorem At.byte {i : Nat} (known : At b file l) (holds : l.1.Holds i) : l.2.raw[i - l.1.start]? = b[i]? := by
  rw [← known.raw, getElem?_slice holds.1 holds.2]

theorem At.exists_byte {i : Nat} (known : At b file l) (holds : l.1.Holds i) : ∃ x ∈ l.2.raw, b[i]? = some x := by
  have inside : i < b.length := Nat.lt_of_lt_of_le holds.2 known.within
  have byte := known.byte holds
  rw [List.getElem?_eq_getElem inside] at byte ⊢
  exact ⟨b[i], List.mem_of_getElem? byte, rfl⟩

/-- The bytes of an unknown character: its first one, and perhaps more beyond ASCII. -/
theorem At.unknown {c : Char} (known : At b file l) (unknown : l.2.kind = .unknown c) :
    ∃ lead used, l.2.raw = lead :: used ∧ (∀ x ∈ used, 128 ≤ x.toNat) ∧ Strange lead (used ++ b.drop l.1.stop) := by
  have fits := known.fits
  rw [Piece.Fits, unknown] at fits
  obtain ⟨lead, rest, split, -, after, strange⟩ := fits
  obtain ⟨used, left, beyond⟩ := step_split lead rest
  rw [after] at left
  subst left
  exact ⟨lead, used, List.append_cancel_right split, beyond, strange⟩

/-- A comment, wherever it is taken to begin, is inside a piece that is a comment: no token has a slash, and no other
character is followed by one. -/
theorem comment_within {s : Span} {i : Nat} (file : Nat) (commented : IsComment b s) (held : s.Holds i) :
    ∃ l ∈ located file 0 (pieces b), l.2.kind = .comment ∧ l.1.Holds i := by
  obtain ⟨line, opened⟩ := commented.opened
  have within : s.stop ≤ b.length := by
    rcases commented.ended with whole | feed
    · exact Nat.le_of_eq whole
    · exact Nat.le_of_lt (List.getElem?_eq_some_iff.mp feed).1
  have length := congrArg List.length opened
  simp only [Bytes.slice, List.length_take, List.length_drop, List.length_cons] at length
  have first : b[s.start]? = some 47 := by
    have inside := getElem?_slice (b := b) (Nat.le_refl s.start) (show s.start < s.stop by omega)
    rw [← inside, opened, Nat.sub_self]
    rfl
  have second : b[s.start + 1]? = some 47 := by
    have inside := getElem?_slice (b := b) (show s.start ≤ s.start + 1 by omega) (show s.start + 1 < s.stop by omega)
    rw [← inside, opened, Nat.add_sub_cancel_left]
    rfl
  have covered : s.start < 0 + ((pieces b).flatMap (·.raw)).length := by
    rw [pieces_flatten]
    omega
  obtain ⟨l, member, holds⟩ := located_covers file (Nat.zero_le _) covered
  have known := located_at member
  have byte := known.byte holds
  rw [first] at byte
  have fits := known.fits
  cases kind : l.2.kind with
  | token kind' text =>
    rw [Piece.Fits, kind] at fits
    exact absurd rfl (fits.solid 47 (List.mem_of_getElem? byte)).2
  | blank =>
    rw [Piece.Fits, kind] at fits
    obtain ⟨x, raw, blank⟩ := fits
    rw [raw] at byte
    obtain rfl := List.mem_singleton.mp (List.mem_of_getElem? byte)
    exact absurd blank (by decide)
  | unknown c =>
    obtain ⟨lead, used, raw, beyond, strange⟩ := known.unknown kind
    have rest := known.rest
    rw [raw] at byte rest
    cases offset : s.start - l.1.start with
    | zero =>
      have same : l.1.start = s.start := Nat.le_antisymm holds.1 (Nat.sub_eq_zero_iff_le.mp offset)
      rw [offset] at byte
      have next := congrArg (·[1]?) rest
      simp only [List.getElem?_drop, same, second, List.cons_append, List.getElem?_cons_succ] at next
      exact absurd ⟨Option.some.inj byte, by rw [List.head?_eq_getElem?]; exact next.symm⟩ strange.comment
    | succ k =>
      rw [offset] at byte
      exact absurd (beyond 47 (List.mem_of_getElem? byte)) (by decide)
  | comment =>
    refine ⟨l, member, kind, Nat.le_trans holds.1 held.1, ?_⟩
    by_contra past
    have later := held.2
    rw [Piece.Fits, kind] at fits
    obtain ⟨-, -, -, none | feed⟩ := fits
    · have short := List.drop_eq_nil_iff.mp none
      omega
    · rw [List.head?_drop] at feed
      have inside := getElem?_slice (b := b) (Nat.le_of_lt holds.2) (show l.1.stop < s.stop by omega)
      rw [feed] at inside
      exact commented.inLine (List.mem_of_getElem? inside)

/-- The part that the bytes of a piece belong to. -/
def PieceKind.part : PieceKind → Part
  | .blank => .blank
  | .comment => .comment
  | .unknown _ => .unknown
  | .token _ _ => .token

theorem belongs_part {i : Nat} (member : l ∈ located file 0 (pieces b)) (holds : l.1.Holds i) :
    Belongs b (wordsOf file b) (findingsOf file b) i l.2.kind.part := by
  have known := located_at member
  cases kind : l.2.kind with
  | token kind' text => exact ⟨⟨kind', l.1, text⟩, mem_wordsOf.mpr ⟨l, member, kind, rfl⟩, holds⟩
  | comment => exact ⟨l.1, comment_of_located member kind, holds⟩
  | unknown c =>
    have found := findingOf_eq_some.mpr (Or.inl ⟨c, kind, rfl⟩)
    exact ⟨unknownFinding l.1 c, List.mem_filterMap.mpr ⟨l, member, found⟩, rfl, holds⟩
  | blank =>
    have fits := known.fits
    rw [Piece.Fits, kind] at fits
    obtain ⟨x, raw, blank⟩ := fits
    obtain ⟨y, inside, byte⟩ := known.exists_byte holds
    rw [raw, List.mem_singleton] at inside
    refine ⟨⟨x, inside ▸ byte, blank⟩, ?_⟩
    rintro ⟨s, commented, held⟩
    obtain ⟨m, found, comment, held'⟩ := comment_within file commented held
    obtain rfl := located_unique member found holds held'
    rw [kind] at comment
    cases comment

theorem part_of_belongs {i : Nat} {part : Part} (member : l ∈ located file 0 (pieces b)) (holds : l.1.Holds i)
    (belongs : Belongs b (wordsOf file b) (findingsOf file b) i part) : part = l.2.kind.part := by
  have known := located_at member
  cases part with
  | token =>
    obtain ⟨t, word, held⟩ := belongs
    obtain ⟨m, found, kind, place⟩ := mem_wordsOf.mp word
    obtain rfl := located_unique member found holds (place ▸ held)
    rw [kind]
    rfl
  | comment =>
    obtain ⟨s, commented, held⟩ := belongs
    obtain ⟨m, found, kind, held'⟩ := comment_within file commented held
    obtain rfl := located_unique member found holds held'
    rw [kind]
    rfl
  | unknown =>
    obtain ⟨d, reported, code, held⟩ := belongs
    obtain ⟨m, found, same⟩ := List.mem_filterMap.mp reported
    obtain rfl := located_unique member found holds (span_of_findingOf same ▸ held)
    rcases findingOf_eq_some.mp same with ⟨c, kind, -⟩ | ⟨text, -, rfl⟩
    · rw [kind]
      rfl
    · cases code
  | blank =>
    obtain ⟨⟨x, byte, blank⟩, uncommented⟩ := belongs
    obtain ⟨y, inside, byte'⟩ := known.exists_byte holds
    obtain rfl := Option.some.inj (byte.symm.trans byte')
    cases kind : l.2.kind with
    | blank => rfl
    | comment => exact absurd ⟨l.1, comment_of_located member kind, holds⟩ uncommented
    | token kind' text =>
      have fits := known.fits
      rw [Piece.Fits, kind] at fits
      rw [(fits.solid x inside).1] at blank
      cases blank
    | unknown c =>
      obtain ⟨lead, used, raw, beyond, strange⟩ := known.unknown kind
      rw [raw] at inside
      rcases List.mem_cons.mp inside with rfl | later
      · rw [strange.blank] at blank
        cases blank
      · rw [(solid_of_high (beyond x later)).1] at blank
        cases blank

theorem reported_of_located (member : l ∈ located file 0 (pieces b)) (found : findingOf l = some d) :
    (∃ c, d = unknownFinding d.span c ∧ IsUnknown b d.span c) ∨
      ∃ t ∈ wordsOf file b, t.kind = .invalid ∧ d = malformedFinding t.span t.text := by
  rcases findingOf_eq_some.mp found with ⟨c, kind, rfl⟩ | ⟨text, kind, rfl⟩
  · exact Or.inl ⟨c, rfl, unknown_of_located member kind⟩
  · exact Or.inr ⟨⟨.invalid, l.1, text⟩, mem_wordsOf.mpr ⟨l, member, kind, rfl⟩, rfl, rfl⟩

/-- A text is cut into the tokens and findings that its pieces are. -/
theorem pieces_cut (file : Nat) (b : Bytes) :
    Cut b file (wordsOf file b) (findingsOf file b) where
  placed := by
    intro t word
    obtain ⟨l, member, -, place⟩ := mem_wordsOf.mp word
    have known := located_at member
    rw [place]
    exact ⟨known.file, known.filled, known.within⟩
  apart := by
    refine List.Pairwise.filterMap tokenOf ?_ (located_apart file)
    intro l m before t first u second
    obtain ⟨kind, text, -, rfl⟩ := tokenOf_eq_some.mp first
    obtain ⟨kind', text', -, rfl⟩ := tokenOf_eq_some.mp second
    exact before
  read := by
    intro t word
    obtain ⟨l, member, kind, place⟩ := mem_wordsOf.mp word
    have known := located_at member
    have fits := known.fits
    rw [Piece.Fits, kind] at fits
    rw [place, known.raw]
    exact fits
  partitioned := by
    intro i within
    have high : i < 0 + ((pieces b).flatMap (·.raw)).length := by
      rwa [pieces_flatten, Nat.zero_add]
    obtain ⟨l, member, holds⟩ := located_covers file (Nat.zero_le i) high
    exact ⟨_, belongs_part member holds, fun part => part_of_belongs member holds⟩
  reported := by
    intro d found
    obtain ⟨l, member, same⟩ := List.mem_filterMap.mp found
    refine ⟨?_, reported_of_located member same⟩
    rw [span_of_findingOf same, (located_at member).file]
  malformed := by
    intro t word invalid
    obtain ⟨l, member, kind, place⟩ := mem_wordsOf.mp word
    rw [invalid] at kind
    exact List.mem_filterMap.mpr ⟨l, member, findingOf_eq_some.mpr (Or.inr ⟨t.text, kind, by rw [place]⟩)⟩
  ordered := by
    refine List.Pairwise.filterMap findingOf ?_ (located_apart file)
    intro l m before d first e second
    rw [span_of_findingOf first, span_of_findingOf second]
    exact before

end Text

end Lexer

/-- The tokens of a file, and the end of the file. -/
theorem SourceFile.tokens_words (f : SourceFile) : f.tokens =
    Lexer.wordsOf f.id f.content ++ [⟨.endOfFile, ⟨f.content.length, f.content.length, f.id⟩, ""⟩] := by
  rw [SourceFile.tokens, Lexer.tokensFrom_eq, Lexer.pieces_flatten, Nat.zero_add, Lexer.wordsOf]

theorem SourceFile.words_cut (f : SourceFile) :
    Lexer.Cut f.content f.id (Lexer.wordsOf f.id f.content) f.lexicalFindings := by
  rw [SourceFile.lexicalFindings, Lexer.findingsFrom_eq]
  exact Lexer.pieces_cut f.id f.content

theorem SourceFile.scan_of_short {f : SourceFile} (short : f.content.length < 2 ^ 32) :
    f.scan = .ok (f.tokens, f.lexicalFindings) :=
  if_pos short

theorem SourceFile.scan_of_long {f : SourceFile} (long : ¬ f.content.length < 2 ^ 32) :
    f.scan = .error "len file content overflow: out of range" :=
  if_neg long

/-- Cutting a file that is not too long gives tokens that cut its content, whatever that is, and findings about the
rest and about malformed numbers. The end of the file comes last and takes no byte. -/
theorem SourceFile.tokens_cut (f : SourceFile) (short : f.content.length < 2 ^ 32) : ∃ words,
    f.scan = .ok (words ++ [⟨.endOfFile, ⟨f.content.length, f.content.length, f.id⟩, ""⟩], f.lexicalFindings) ∧
      Lexer.Cut f.content f.id words f.lexicalFindings := by
  refine ⟨Lexer.wordsOf f.id f.content, ?_, f.words_cut⟩
  rw [← f.tokens_words, scan_of_short short]

/-- A stray character outside of a comment and one inside, and a number that is none. -/
def SourceFile.strays : SourceFile := ⟨0, "a.kl", Bytes.ofString "x $ // $\n1a", .memory⟩

theorem SourceFile.strays_cut : strays.content.length < 2 ^ 32 ∧
    strays.lexicalFindings.map (·.span) = [⟨2, 3, 0⟩, ⟨9, 11, 0⟩] ∧
    ∃ words, strays.scan = .ok (words ++ [⟨.endOfFile, ⟨11, 11, 0⟩, ""⟩], strays.lexicalFindings) ∧
      Lexer.Cut strays.content 0 words strays.lexicalFindings := by
  have short : strays.content.length < 2 ^ 32 := by decide +kernel
  have spans : strays.lexicalFindings.map (·.span) = [⟨2, 3, 0⟩, ⟨9, 11, 0⟩] := by decide +kernel
  exact ⟨short, spans, tokens_cut strays short⟩

end WitnessLang
