import WitnessLang.Number.Binary64
import WitnessLang.Surface.Error
import WitnessLang.Surface.Tree

set_option autoImplicit false

namespace WitnessLang.Surface

/-- A place in a token sequence: the span of the last token read, the next token, and those after
it. The sequence ends in an end-of-file token, beyond which nothing is read. -/
structure Cursor where
  last : Span
  head : Token
  tail : List Token

namespace Cursor

def size (c : Cursor) : Nat := c.tail.length + 1

def ahead (c : Cursor) : Nat → Token
  | 0 => c.head
  | n + 1 => c.tail.getD n (c.tail.getLast?.getD c.head)

def advance (c : Cursor) : Cursor :=
  match c.head.kind, c.tail with
  | .endOfFile, _ => c
  | _, [] => c
  | _, t :: ts => ⟨c.head.span, t, ts⟩

end Cursor

inductive Outcome (α : Type) where
  | ok (value : α) (rest : Cursor)
  /-- Another production may match here. -/
  | mismatch (expected : Expectation) (found : Token)
  | failure (error : SyntaxError)

def Parser (α : Type) : Type := Cursor → Outcome α

namespace Parser

variable {α : Type}

instance : Monad Parser where
  pure a := fun c => .ok a c
  bind p f := fun c =>
    match p c with
    | .ok a rest => f a rest
    | .mismatch e t => .mismatch e t
    | .failure e => .failure e

def peek : Parser Token := fun c => .ok c.head c

def peekKind : Parser TokenKind := fun c => .ok c.head.kind c

def next : Parser Token := fun c => .ok c.head c.advance

def lastSpan : Parser Span := fun c => .ok c.last c

def mismatch (e : Expectation) : Parser α := fun c => .mismatch e c.head

def expect (k : TokenKind) : Parser Token := fun c =>
  if c.head.kind = k then .ok c.head c.advance else .mismatch (.kind k) c.head

/-- Reads `p` as part of a larger construct: what does not match is a failure. -/
def within (context : String) (p : Parser α) : Parser α := fun c =>
  match p c with
  | .ok a rest => .ok a rest
  | .mismatch e t => .failure ⟨.expected e, t, [context]⟩
  | .failure e => .failure { e with context := context :: e.context }

def ident : Parser (String × Span) := do
  let t ← expect .identifier
  return (t.text, t.span)

/-- The rest of a list after its opening token, with the span of its closing one. A comma may follow
the last element. -/
def listRest (close : TokenKind) (context : String) (element : Parser α) :
    Nat → List α → Parser (List α × Span)
  | 0, _ => mismatch (.listEnd close)
  | room + 1, read => fun c =>
    if c.head.kind = close then .ok (read.reverse, c.head.span) c.advance
    else
      match within context element c with
      | .ok a rest =>
        if rest.head.kind = .comma then
          listRest close context element room (a :: read) rest.advance
        else if rest.head.kind = close then
          .ok ((a :: read).reverse, rest.head.span) rest.advance
        else within context (mismatch (.listEnd close)) rest
      | .mismatch e t => .mismatch e t
      | .failure e => .failure e

def list (opening close : TokenKind) (context : String) (element : Parser α) :
    Parser (List α × Span) := do
  let start ← expect opening
  let (read, stop) ← fun c => listRest close context element c.size [] c
  return (read, start.span.cover stop)

def typeStep (self : Parser TypeExpr) : Parser TypeExpr := do
  match ← peekKind with
  | .identifier =>
    let (name, span) ← ident
    if (← peekKind) != .leftBracket then return .named span name
    let (args, whole) ← list .leftBracket .rightBracket "type arguments" self
    return .apply (span.cover whole) name args
  | .leftParen =>
    let (args, span) ← list .leftParen .rightParen "function type" self
    let _ ← within "function type" (expect .arrow)
    let result ← within "function type" self
    return .func (span.cover (← lastSpan)) args result
  | _ => mismatch .type

def typeAt : Nat → Parser TypeExpr
  | 0 => mismatch .type
  | depth + 1 => typeStep (typeAt depth)

def type : Parser TypeExpr := fun c => typeAt c.size c

/-- What a field is bound to; a field without a pattern binds its own name. -/
def fieldPattern (self : Parser Pattern) : Parser FieldPattern := do
  let (name, span) ← ident
  if (← peekKind) != .colon then return ⟨span, name, .var span name⟩
  let _ ← next
  let inner ← within "field pattern" self
  return ⟨span.cover (← lastSpan), name, inner⟩

/-- A pattern, given how to read the patterns inside it. -/
def patternStep (self : Parser Pattern) : Parser Pattern := do
  if (← peekKind) != .identifier then mismatch .pattern
  else
    let (name, span) ← ident
    if (← peekKind) != .leftBrace then return .var span name
    let (fields, whole) ← list .leftBrace .rightBrace "struct pattern" (fieldPattern self)
    return .record (span.cover whole) name fields

def patternAt : Nat → Parser Pattern
  | 0 => mismatch .pattern
  | depth + 1 => patternStep (patternAt depth)

def pattern : Parser Pattern := fun c => patternAt c.size c

def param : Parser Param := do
  let p ← pattern
  let _ ← within "parameter" (expect .colon)
  let t ← within "parameter" type
  return ⟨p.span.cover (← lastSpan), p, t⟩

/-- A conditional, given how to read the expressions inside it. -/
def conditional (self : Parser Expr) : Parser Expr := do
  let start ← next
  let test ← self
  let _ ← expect .kwThen
  let yes ← self
  let _ ← expect .kwElse
  let no ← self
  return .cond (start.span.cover (← lastSpan)) test yes no

def arm (self : Parser Expr) : Parser Arm := do
  let p ← pattern
  let _ ← expect .fatArrow
  let body ← self
  return ⟨p.span.cover (← lastSpan), p, body⟩

/-- Alternatives up to a closing brace, which stays; a semicolon goes between two. -/
def arms (self : Parser Expr) : Nat → List Arm → Parser (List Arm)
  | 0, _ => mismatch .pattern
  | room + 1, read => do
    if (← peekKind) = .rightBrace then return read.reverse
    let a ← within "case arm" (arm self)
    if (← peekKind) = .semicolon then
      let _ ← next
      arms self room (a :: read)
    else return (a :: read).reverse

/-- A case expression, which has at least one alternative. -/
def caseOf (self : Parser Expr) : Parser Expr := do
  let start ← next
  let scrutinee ← self
  let _ ← expect .kwOf
  let _ ← expect .leftBrace
  let read ← fun c => arms self c.size [] c
  if read.isEmpty then mismatch .pattern
  else
    let _ ← expect .rightBrace
    return .case (start.span.cover (← lastSpan)) scrutinee read

def closure (self : Parser Expr) : Parser Expr := do
  let start ← peek
  let (params, _) ← list .pipe .pipe "closure parameters" param
  let body ← self
  return .closure (start.span.cover (← lastSpan)) params body

def fieldInit (self : Parser Expr) : Parser FieldInit := do
  let (name, span) ← ident
  let _ ← expect .colon
  let value ← within "field initializer" self
  return ⟨span, name, value⟩

def record (self : Parser Expr) : Parser Expr := do
  let (name, nameSpan) ← ident
  let (fields, span) ← list .leftBrace .rightBrace "field initializers" (fieldInit self)
  return .record (nameSpan.cover span) name nameSpan fields

/-- Whether a struct literal starts here: a name and a brace, then the closing brace or a field name
and a colon. -/
def atRecord (c : Cursor) : Bool :=
  (c.ahead 1).kind == .leftBrace &&
    ((c.ahead 2).kind == .rightBrace ||
      ((c.ahead 2).kind == .identifier && (c.ahead 3).kind == .colon))

def letBinding (self : Parser Expr) : Parser Let := do
  let start ← next
  let p ← pattern
  let _ ← expect .assign
  let value ← self
  let _ ← expect .semicolon
  return ⟨start.span.cover (← lastSpan), p, value⟩

def lets (self : Parser Expr) : Nat → List Let → Parser (List Let)
  | 0, _ => mismatch .expression
  | room + 1, read => do
    if (← peekKind) = .kwLet then
      let l ← within "let binding" (letBinding self)
      lets self room (l :: read)
    else return read.reverse

def block (self : Parser Expr) : Parser Expr := do
  let start ← next
  let read ← fun c => lets self c.size [] c
  let result ← self
  let _ ← expect .rightBrace
  return .block (start.span.cover (← lastSpan)) read result

/-- An expression in parentheses, perhaps with its type. The parentheses alone leave no trace. -/
def group (self : Parser Expr) : Parser Expr := do
  let start ← next
  let inner ← self
  if (← peekKind) = .colon then
    let _ ← next
    let t ← within "type annotation" type
    let _ ← expect .rightParen
    return .annotated (start.span.cover (← lastSpan)) inner t
  else
    let _ ← expect .rightParen
    return inner

def number : Parser Expr := fun c =>
  match Binary64.ofLiteral c.head.text with
  | some bits => .ok (.number c.head.span c.head.text bits) c.advance
  | none => .failure ⟨.numberRange, c.head, []⟩

/-- An expression that needs no parentheses anywhere. -/
def atom (self : Parser Expr) : Parser Expr := fun c =>
  match c.head.kind with
  | .number => number c
  | .kwTrue => .ok (.bool c.head.span true) c.advance
  | .kwFalse => .ok (.bool c.head.span false) c.advance
  | .identifier =>
    if atRecord c then within "struct literal" (record self) c
    else .ok (.var c.head.span c.head.text) c.advance
  | .leftBrace => within "block" (block self) c
  | .leftParen => within "parenthesized expression" (group self) c
  | _ => .mismatch .expression c.head

def callsAfter (self : Parser Expr) : Nat → Expr → Parser Expr
  | 0, _ => mismatch .expression
  | room + 1, callee => do
    if (← peekKind) = .leftParen then
      let (args, span) ← list .leftParen .rightParen "call arguments" self
      callsAfter self room (.call (callee.span.cover span) callee args)
    else return callee

def application (self : Parser Expr) : Parser Expr := do
  let callee ← atom self
  fun c => callsAfter self c.size callee c

def binary (op : Operator) (left right : Expr) : Expr :=
  .operation (left.span.cover right.span) op left right

def sumOperator? : TokenKind → Option Operator
  | .plus => some .add
  | .minus => some .sub
  | _ => none

def productOperator? : TokenKind → Option Operator
  | .star => some .mul
  | _ => none

/-- Operators and operands after a first operand, grouped to the left. -/
def chainAfter (operator? : TokenKind → Option Operator) (operand : Parser Expr) :
    Nat → Expr → Parser Expr
  | 0, _ => mismatch .expression
  | room + 1, left => do
    match operator? (← peekKind) with
    | some op =>
      let _ ← next
      let right ← within "binary operation" operand
      chainAfter operator? operand room (binary op left right)
    | none => return left

/-- Operands with operators of one rank between them. -/
def chain (operator? : TokenKind → Option Operator) (operand : Parser Expr) : Parser Expr := do
  let left ← operand
  fun c => chainAfter operator? operand c.size left c

def product (self : Parser Expr) : Parser Expr := chain productOperator? (application self)

def sum (self : Parser Expr) : Parser Expr := chain sumOperator? (product self)

def comparison (self : Parser Expr) : Parser Expr := do
  let left ← sum self
  if (← peekKind) = .less then
    let _ ← next
    let right ← within "comparison" (sum self)
    return binary .less left right
  else return left

/-- An expression, given how to read the expressions inside it. -/
def exprStep (self : Parser Expr) : Parser Expr := fun c =>
  match c.head.kind with
  | .kwIf => within "if expression" (conditional self) c
  | .kwCase => within "case expression" (caseOf self) c
  | .pipe => within "closure" (closure self) c
  | _ => comparison self c

def exprAt : Nat → Parser Expr
  | 0 => mismatch .expression
  | depth + 1 => exprStep (exprAt depth)

def expr : Parser Expr := fun c => exprAt c.size c

def generic : Parser Generic := do
  let (name, span) ← ident
  return ⟨span, name⟩

def generics : Parser (List Generic) := do
  if (← peekKind) = .leftBracket then
    let (gs, _) ← list .leftBracket .rightBracket "generics" generic
    return gs
  else return []

def field : Parser Field := do
  let (name, span) ← ident
  let _ ← within "field" (expect .colon)
  let t ← within "field" type
  return ⟨span, name, t⟩

def function : Parser Item := do
  let start ← next
  let (name, nameSpan) ← ident
  let gs ← generics
  let (params, _) ← list .leftParen .rightParen "parameters" param
  let _ ← expect .colon
  let result ← within "return type" type
  let _ ← expect .assign
  let body ← within "function body" expr
  return .func ⟨start.span.cover (← lastSpan), name, nameSpan, gs, params, result, body⟩

def struct : Parser Item := do
  let start ← next
  let (name, nameSpan) ← ident
  let gs ← generics
  let (fields, _) ← list .leftBrace .rightBrace "field list" field
  return .struct ⟨start.span.cover (← lastSpan), name, nameSpan, gs, fields⟩

def definition : Parser Item := fun c =>
  match c.head.kind with
  | .kwFunc => within "function definition" function c
  | .kwStruct => within "struct definition" struct c
  | _ => .mismatch .definition c.head

/-- Definitions up to the end of the file, or up to the first failure. -/
def definitions : Nat → Cursor → List Item × Option SyntaxError
  | 0, _ => ([], none)
  | room + 1, c =>
    if c.head.kind = .endOfFile then ([], none)
    else match definition c with
      | .ok item rest =>
        let (items, e) := definitions room rest
        (item :: items, e)
      | .mismatch e t => ([], some ⟨.expected e, t, ["program"]⟩)
      | .failure e => ([], some e)

end Parser

/-- The definitions of a file, and the failure that ended them if one did. -/
structure Reading where
  file : File
  error : Option SyntaxError

def Cursor.ofTokens : List Token → Cursor
  | [] => ⟨{}, ⟨.endOfFile, {}, ""⟩, []⟩
  | t :: ts => ⟨t.span, t, ts⟩

def read (f : SourceFile) : Reading :=
  let c := Cursor.ofTokens f.tokens
  let (items, e) := Parser.definitions c.size c
  ⟨⟨⟨0, f.content.length, f.id⟩, items⟩, e⟩

/-- The names a reading has come across, in order of their occurrence: every name before the failure,
or every name when there was none. -/
def Reading.namesMet (r : Reading) (f : SourceFile) : List String :=
  let met : List Token := match r.error with
    | some e => f.tokens.takeWhile fun t => decide (t.span.start < e.span.start)
    | none => f.tokens
  (met.filter fun t => t.kind == .identifier).map (·.text)

end WitnessLang.Surface
