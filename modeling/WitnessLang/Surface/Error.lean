import WitnessLang.Token.Lexer

set_option autoImplicit false

namespace WitnessLang.Surface

inductive Expectation where
  | kind (k : TokenKind)
  /-- The end of a list, or one more element. -/
  | listEnd (close : TokenKind)
  | type
  | expression
  | pattern
  | definition
  deriving DecidableEq, Repr

namespace Expectation

def quoted (k : TokenKind) : String := "'" ++ k.name ++ "'"

def describe : Expectation → String
  | .kind k => quoted k
  | .listEnd close => quoted .comma ++ " or " ++ quoted close
  | .type => "type"
  | .expression => "expression"
  | .pattern => "pattern"
  | .definition => "'func' or 'struct'"

/-- The kind of finding that a failed expectation is. -/
def code : Expectation → Code
  | .kind .identifier => .expectedIdentifier
  | .kind .rightParen | .kind .rightBrace | .kind .rightBracket => .unclosedDelimiter
  | .kind _ => .unexpectedToken
  | .listEnd _ => .unclosedDelimiter
  | .type => .expectedType
  | .expression => .expectedExpression
  | .pattern => .expectedPattern
  | .definition => .expectedDefinition

end Expectation

inductive SyntaxCause where
  | expected (e : Expectation)
  /-- A number too large for its type. -/
  | numberRange
  deriving DecidableEq, Repr

/-- A failure of the grammar: its cause, the token it shows at, and the constructs that were being
read, outermost first. -/
structure SyntaxError where
  cause : SyntaxCause
  found : Token
  context : List String
  deriving DecidableEq, Repr

namespace SyntaxError

def foundText (t : Token) : String :=
  if t.kind = .endOfFile then "end of file" else Quoted.ofString t.text

def code (e : SyntaxError) : Code :=
  match e.cause with
  | .expected x => x.code
  | .numberRange => .unexpectedToken

def span (e : SyntaxError) : Span := e.found.span

def message (e : SyntaxError) : String :=
  match e.cause with
  | .expected x => "expected " ++ x.describe ++ ", found " ++ foundText e.found
  | .numberRange =>
    "strconv.ParseFloat: parsing " ++ Quoted.ofString e.found.text ++ ": value out of range"

/-- The constructs that were being read, outermost first. -/
def trail (e : SyntaxError) : String := " > ".intercalate e.context

def text (e : SyntaxError) : String :=
  if e.context.isEmpty then e.message else e.message ++ " (while parsing " ++ e.trail ++ ")"

end SyntaxError

end WitnessLang.Surface
