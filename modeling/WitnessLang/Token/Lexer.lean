import WitnessLang.Diagnostic.Bag
import WitnessLang.Source.File
import WitnessLang.Text.CharClass
import WitnessLang.Text.Normal
import WitnessLang.Text.Quoted
import WitnessLang.Text.Utf8
import WitnessLang.Token.Kind

set_option autoImplicit false

namespace WitnessLang

/-- A word of the language, with its place. Names are in normal form. -/
structure Token where
  kind : TokenKind
  span : Span
  text : String
  deriving DecidableEq, Repr, Inhabited

namespace Lexer

inductive PieceKind where
  | blank
  | comment
  | unknown (c : Char)
  | token (kind : TokenKind) (text : String)
  deriving DecidableEq, Repr

structure Piece where
  kind : PieceKind
  raw : Bytes
  deriving DecidableEq, Repr

def isBlank (b : UInt8) : Bool := b == 32 || b == 9 || b == 10 || b == 13

def isWordStart (b : UInt8) : Bool :=
  b == 95 || (decide (97 ≤ b) && decide (b ≤ 122)) || (decide (65 ≤ b) && decide (b ≤ 90))

def isDigit (b : UInt8) : Bool := decide (48 ≤ b) && decide (b ≤ 57)

def isWordByte (b : UInt8) : Bool := isWordStart b || isDigit b

def continuesName (c : Char) : Bool :=
  CharClass.letter.has c || CharClass.decimalDigit.has c || CharClass.nonspacingMark.has c

/-- What follows the longest name at the start of a text. -/
def afterName : Bytes → Bytes
  | [] => []
  | b :: rest =>
    if isWordByte b then afterName rest
    else if b < 0x80 then b :: rest
    else match _read : Utf8.char? b rest with
      | some (c, rest') => if continuesName c then afterName rest' else b :: rest
      | none => b :: rest
termination_by b => b.length
decreasing_by
  · simp
  · have := Utf8.char?_length _read
    simp only [List.length_cons]
    omega

theorem afterName_length (b : Bytes) : (afterName b).length ≤ b.length := by
  fun_induction afterName b with
  | case1 => simp
  | case2 b rest _ ih => simp only [List.length_cons]; omega
  | case3 => simp
  | case4 b rest _ _ c rest' read _ ih =>
    have := Utf8.char?_length read
    simp only [List.length_cons]
    omega
  | case5 => simp
  | case6 => simp

/-- What follows the digits, and a fraction if there is one, at the start of a text. -/
def afterDigits (b : Bytes) : Bytes :=
  match b.dropWhile isDigit with
  | 46 :: d :: rest => if isDigit d then rest.dropWhile isDigit else 46 :: d :: rest
  | rest => rest

theorem afterDigits_length (b : Bytes) : (afterDigits b).length ≤ b.length := by
  have bound := (b.dropWhile_sublist isDigit).length_le
  unfold afterDigits
  split
  next d rest eq =>
    rw [eq] at bound
    have := (rest.dropWhile_sublist isDigit).length_le
    split
    all_goals simp_all
    omega
  next => exact bound

/-- The kind and width of the punctuation that begins with `b`. -/
def punctuation? (b : UInt8) (next : Option UInt8) : Option (TokenKind × Nat) :=
  match b with
  | 40 => some (.leftParen, 1)
  | 41 => some (.rightParen, 1)
  | 123 => some (.leftBrace, 1)
  | 125 => some (.rightBrace, 1)
  | 91 => some (.leftBracket, 1)
  | 93 => some (.rightBracket, 1)
  | 44 => some (.comma, 1)
  | 58 => some (.colon, 1)
  | 59 => some (.semicolon, 1)
  | 124 => some (.pipe, 1)
  | 43 => some (.plus, 1)
  | 42 => some (.star, 1)
  | 60 => some (.less, 1)
  | 61 => if next = some 62 then some (.fatArrow, 2) else some (.assign, 1)
  | 45 => if next = some 62 then some (.arrow, 2) else some (.minus, 1)
  | _ => none

def upTo (whole rest : Bytes) : Bytes := whole.take (whole.length - rest.length)

def nameAt (whole : Bytes) : Piece × Bytes :=
  let rest := afterName whole
  let raw := upTo whole rest
  let text := Normal.normalize (Utf8.stringLossy raw)
  (⟨.token (.ofWord text) text, raw⟩, rest)

/-- The number at the start of a text. Letters that touch it spoil it. -/
def numberAt (whole : Bytes) : Piece × Bytes :=
  let sound := afterDigits whole
  let rest := sound.dropWhile isWordByte
  let raw := upTo whole rest
  (⟨.token (if rest.length < sound.length then .invalid else .number) (Utf8.stringLossy raw), raw⟩,
    rest)

/-- The character at the start of a text, which nothing knows what to do with. -/
def unknownAt (b : UInt8) (rest : Bytes) : Piece × Bytes :=
  let (g, rest') := Utf8.step b rest
  (⟨.unknown g.shown, upTo (b :: rest) rest'⟩, rest')

def pieceAt (b : UInt8) (rest : Bytes) : Piece × Bytes :=
  if isBlank b then (⟨.blank, [b]⟩, rest)
  else if b == 47 && rest.head? == some 47 then
    (⟨.comment, b :: rest.takeWhile (· != 10)⟩, rest.dropWhile (· != 10))
  else if isWordStart b then nameAt (b :: rest)
  else if 0x80 ≤ b then
    match Utf8.char? b rest with
    | some (c, _) => if CharClass.letter.has c then nameAt (b :: rest) else unknownAt b rest
    | none => unknownAt b rest
  else if isDigit b then numberAt (b :: rest)
  else match punctuation? b rest.head? with
    | some (kind, width) =>
      let raw := (b :: rest).take width
      (⟨.token kind (Utf8.stringLossy raw), raw⟩, rest.drop (width - 1))
    | none => unknownAt b rest

theorem unknownAt_length (b : UInt8) (rest : Bytes) :
    (unknownAt b rest).2.length ≤ rest.length := Utf8.step_length b rest

theorem nameAt_length_ascii (b : UInt8) (rest : Bytes) (h : isWordStart b = true) :
    (nameAt (b :: rest)).2.length ≤ rest.length := by
  have := afterName_length rest
  simp only [nameAt]
  rw [afterName]
  simp [isWordByte, h]
  omega

theorem nameAt_length_letter (b : UInt8) (rest rest' : Bytes) (c : Char)
    (high : 0x80 ≤ b) (read : Utf8.char? b rest = some (c, rest'))
    (h : CharClass.letter.has c = true) : (nameAt (b :: rest)).2.length ≤ rest.length := by
  have shorter := Utf8.char?_length read
  have := afterName_length rest'
  have := afterName_length rest
  simp only [nameAt]
  rw [afterName]
  split
  · omega
  · split
    next low => exact absurd low (by simpa using high)
    next =>
      split
      next c' r eq =>
        rw [eq] at read
        cases read
        simp only [continuesName, h, Bool.true_or, if_true]
        omega
      next eq => rw [eq] at read; cases read

theorem numberAt_length (b : UInt8) (rest : Bytes) (h : isDigit b = true) :
    (numberAt (b :: rest)).2.length ≤ rest.length := by
  have step : afterDigits (b :: rest) = afterDigits rest := by
    simp [afterDigits, List.dropWhile, h]
  have := afterDigits_length rest
  have := ((afterDigits rest).dropWhile_sublist isWordByte).length_le
  simp only [numberAt, step]
  omega

theorem pieceAt_length (b : UInt8) (rest : Bytes) :
    (pieceAt b rest).2.length ≤ rest.length := by
  unfold pieceAt
  split
  · simp
  split
  · exact (rest.dropWhile_sublist _).length_le
  split
  next h => exact nameAt_length_ascii b rest h
  split
  next high =>
    split
    next c r read =>
      split
      next h => exact nameAt_length_letter b rest r c high read h
      next => exact unknownAt_length b rest
    next => exact unknownAt_length b rest
  split
  next h => exact numberAt_length b rest h
  split
  · simp
  · exact unknownAt_length b rest

def pieces : Bytes → List Piece
  | [] => []
  | b :: rest => (pieceAt b rest).1 :: pieces (pieceAt b rest).2
termination_by b => b.length
decreasing_by
  have := pieceAt_length b rest
  simp only [List.length_cons]
  omega

def tokensFrom (file : Nat) (offset : Nat) : List Piece → List Token
  | [] => [⟨.endOfFile, ⟨offset, offset, file⟩, ""⟩]
  | p :: rest =>
    let stop := offset + p.raw.length
    match p.kind with
    | .token kind text => ⟨kind, ⟨offset, stop, file⟩, text⟩ :: tokensFrom file stop rest
    | _ => tokensFrom file stop rest

/-- The findings about pieces that start at an offset: one for each unknown character, one for
each malformed number. -/
def findingsFrom (file : Nat) (offset : Nat) : List Piece → List Diagnostic
  | [] => []
  | p :: rest =>
    let span : Span := ⟨offset, offset + p.raw.length, file⟩
    let later := findingsFrom file (offset + p.raw.length) rest
    match p.kind with
    | .unknown c =>
      .error .unknownCharacter span ("unknown character " ++ Quoted.ofChar c) :: later
    | .token .invalid text =>
      .error .malformedNumber span ("malformed number " ++ Quoted.ofString text) :: later
    | _ => later

end Lexer

def SourceFile.tokens (f : SourceFile) : List Token :=
  Lexer.tokensFrom f.id 0 (Lexer.pieces f.content)

/-- The findings made while cutting a file into tokens. -/
def SourceFile.lexicalFindings (f : SourceFile) : List Diagnostic :=
  Lexer.findingsFrom f.id 0 (Lexer.pieces f.content)

/-- Cuts a file into tokens, with the findings made on the way. Offsets have 32 bits, so a file may be too long. -/
def SourceFile.scan (f : SourceFile) : Except String (List Token × List Diagnostic) :=
  if f.content.length < UInt32.size then .ok (f.tokens, f.lexicalFindings)
  else .error "len file content overflow: out of range"

inductive Lexer.Request where
  | peek
  | next

/-- Answers requests from a token sequence; at its last token it stays. -/
def Lexer.answer : List Token → List Lexer.Request → List Token
  | _, [] => []
  | [], _ => []
  | t :: rest, .peek :: more => t :: Lexer.answer (t :: rest) more
  | [t], .next :: more => t :: Lexer.answer [t] more
  | t :: u :: rest, .next :: more => t :: Lexer.answer (u :: rest) more

end WitnessLang
