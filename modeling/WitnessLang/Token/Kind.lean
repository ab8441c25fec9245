set_option autoImplicit false

namespace WitnessLang

inductive TokenKind where
  | invalid | endOfFile | identifier | number
  | kwFunc | kwStruct | kwLet | kwIf | kwThen | kwElse | kwCase | kwOf | kwTrue | kwFalse
  | leftParen | rightParen | leftBrace | rightBrace | leftBracket | rightBracket
  | comma | colon | semicolon | assign | fatArrow | arrow | pipe | plus | minus | star | less
  deriving DecidableEq, Repr, Inhabited

namespace TokenKind

def all : List TokenKind := [
  .invalid, .endOfFile, .identifier, .number,
  .kwFunc, .kwStruct, .kwLet, .kwIf, .kwThen, .kwElse, .kwCase, .kwOf, .kwTrue, .kwFalse,
  .leftParen, .rightParen, .leftBrace, .rightBrace, .leftBracket, .rightBracket,
  .comma, .colon, .semicolon, .assign, .fatArrow, .arrow, .pipe, .plus, .minus, .star, .less]

def index (k : TokenKind) : Nat := all.idxOf k

def keywords : List (String × TokenKind) := [
  ("func", .kwFunc), ("struct", .kwStruct), ("let", .kwLet), ("if", .kwIf), ("then", .kwThen),
  ("else", .kwElse), ("case", .kwCase), ("of", .kwOf), ("True", .kwTrue), ("False", .kwFalse)]

def ofWord (w : String) : TokenKind := (keywords.lookup w).getD .identifier

def isKeyword (k : TokenKind) : Bool := keywords.any fun e => e.2 == k

/-- How a kind is spelled, where it has one spelling. -/
def spelling? : TokenKind → Option String
  | .invalid | .endOfFile | .identifier | .number => none
  | .kwFunc => some "func"
  | .kwStruct => some "struct"
  | .kwLet => some "let"
  | .kwIf => some "if"
  | .kwThen => some "then"
  | .kwElse => some "else"
  | .kwCase => some "case"
  | .kwOf => some "of"
  | .kwTrue => some "True"
  | .kwFalse => some "False"
  | .leftParen => some "("
  | .rightParen => some ")"
  | .leftBrace => some "\x7b"
  | .rightBrace => some "\x7d"
  | .leftBracket => some "["
  | .rightBracket => some "]"
  | .comma => some ","
  | .colon => some ":"
  | .semicolon => some ";"
  | .assign => some "="
  | .fatArrow => some "=>"
  | .arrow => some "->"
  | .pipe => some "|"
  | .plus => some "+"
  | .minus => some "-"
  | .star => some "*"
  | .less => some "<"

/-- How a kind is named in messages: its spelling in quotes, or a description. -/
def name (k : TokenKind) : String :=
  match k with
  | .invalid => "invalid"
  | .endOfFile => "end of file"
  | .identifier => "identifier"
  | .number => "number"
  | k => "'" ++ (k.spelling?).getD "" ++ "'"

end TokenKind

end WitnessLang
