import Mathlib.Data.List.Basic
import WitnessLang.Surface.Parser

set_option autoImplicit false

/-! The grammar of the language, apart from any way of reading it: which tokens derive which tree. A rule that
nests is given as a form with a hole for what is nested inside; types, patterns and expressions are what the
forms build up from nothing. A list is written `open (x (',' x)* ','?)? close`. -/
namespace WitnessLang.Surface

/-- The span of the last of some tokens, or `s` if there are none. -/
def endSpan (s : Span) (ts : List Token) : Span := (ts.getLast?.map (·.span)).getD s

/-- From the first of some tokens to the last. -/
def spanOf : List Token → Span
  | [] => {}
  | t :: ts => t.span.cover (endSpan t.span ts)

namespace Grammar

section Lists

variable {α : Type}

/-- Things with commas between them. A comma may follow the last one. -/
inductive Items (E : List Token → α → Prop) : List Token → List α → Prop where
  | nil : Items E [] []
  | last {ts : List Token} {a : α} (own : E ts a) : Items E ts [a]
  | more {ts us : List Token} {comma : Token} {a : α} {as : List α} (own : E ts a) (sep : comma.kind = .comma)
      (others : Items E us as) : Items E (ts ++ comma :: us) (a :: as)

/-- Things with commas between them, within two tokens. -/
inductive Enclosed (opening close : TokenKind) (E : List Token → α → Prop) : List Token → List α → Prop where
  | mk {ts : List Token} {o c : Token} {as : List α} (opened : o.kind = opening) (items : Items E ts as)
      (closed : c.kind = close) : Enclosed opening close E (o :: (ts ++ [c])) as

end Lists

section Types

/-- A type, given what stands for a type inside it. -/
inductive TypeForm (E : List Token → TypeExpr → Prop) : List Token → TypeExpr → Prop where
  | named {t : Token} (name : t.kind = .identifier) : TypeForm E [t] (.named t.span t.text)
  | apply {t : Token} {us : List Token} {args : List TypeExpr} (name : t.kind = .identifier)
      (list : Enclosed .leftBracket .rightBracket E us args) :
      TypeForm E (t :: us) (.apply (t.span.cover (spanOf us)) t.text args)
  | func {us vs : List Token} {arrow : Token} {args : List TypeExpr} {result : TypeExpr}
      (list : Enclosed .leftParen .rightParen E us args) (sign : arrow.kind = .arrow) (own : E vs result) :
      TypeForm E (us ++ arrow :: vs) (.func ((spanOf us).cover (endSpan arrow.span vs)) args result)

inductive IsType : List Token → TypeExpr → Prop where
  | build {E : List Token → TypeExpr → Prop} {ts : List Token} {t : TypeExpr} (inside : ∀ us u, E us u → IsType us u)
      (form : TypeForm E ts t) : IsType ts t

end Types

section Patterns

/-- A field of a pattern; a field alone binds its own name. -/
inductive FieldPatternForm (E : List Token → Pattern → Prop) : List Token → FieldPattern → Prop where
  | short {t : Token} (name : t.kind = .identifier) : FieldPatternForm E [t] ⟨t.span, t.text, .var t.span t.text⟩
  | long {t colon : Token} {us : List Token} {p : Pattern} (name : t.kind = .identifier) (sign : colon.kind = .colon)
      (own : E us p) : FieldPatternForm E (t :: colon :: us) ⟨t.span.cover (endSpan colon.span us), t.text, p⟩

/-- A pattern, given what stands for a pattern inside it. -/
inductive PatternForm (E : List Token → Pattern → Prop) : List Token → Pattern → Prop where
  | var {t : Token} (name : t.kind = .identifier) : PatternForm E [t] (.var t.span t.text)
  | record {t : Token} {us : List Token} {fields : List FieldPattern} (name : t.kind = .identifier)
      (list : Enclosed .leftBrace .rightBrace (FieldPatternForm E) us fields) :
      PatternForm E (t :: us) (.record (t.span.cover (spanOf us)) t.text fields)

inductive IsPattern : List Token → Pattern → Prop where
  | build {E : List Token → Pattern → Prop} {ts : List Token} {p : Pattern} (inside : ∀ us q, E us q → IsPattern us q)
      (form : PatternForm E ts p) : IsPattern ts p

inductive IsParam : List Token → Param → Prop where
  | mk {ts us : List Token} {colon : Token} {p : Pattern} {t : TypeExpr} (pattern : IsPattern ts p)
      (sign : colon.kind = .colon) (type : IsType us t) :
      IsParam (ts ++ colon :: us) ⟨p.span.cover (endSpan colon.span us), p, t⟩

end Patterns

section Expressions

inductive ArmForm (E : List Token → Expr → Prop) : List Token → Arm → Prop where
  | mk {ts us : List Token} {arrow : Token} {p : Pattern} {body : Expr} (pattern : IsPattern ts p)
      (sign : arrow.kind = .fatArrow) (own : E us body) :
      ArmForm E (ts ++ arrow :: us) ⟨p.span.cover (endSpan arrow.span us), p, body⟩

/-- Alternatives with semicolons between them. A semicolon may follow the last one. -/
inductive Arms (E : List Token → Expr → Prop) : List Token → List Arm → Prop where
  | last {ts : List Token} {a : Arm} (own : ArmForm E ts a) : Arms E ts [a]
  | closed {ts : List Token} {semicolon : Token} {a : Arm} (own : ArmForm E ts a) (sep : semicolon.kind = .semicolon) :
      Arms E (ts ++ [semicolon]) [a]
  | more {ts us : List Token} {semicolon : Token} {a : Arm} {as : List Arm} (own : ArmForm E ts a)
      (sep : semicolon.kind = .semicolon) (others : Arms E us as) : Arms E (ts ++ semicolon :: us) (a :: as)

inductive LetForm (E : List Token → Expr → Prop) : List Token → Let → Prop where
  | mk {ts us : List Token} {start assign semicolon : Token} {p : Pattern} {value : Expr} (word : start.kind = .kwLet)
      (pattern : IsPattern ts p) (sign : assign.kind = .assign) (own : E us value)
      (ended : semicolon.kind = .semicolon) :
      LetForm E (start :: (ts ++ assign :: (us ++ [semicolon]))) ⟨start.span.cover semicolon.span, p, value⟩

inductive Lets (E : List Token → Expr → Prop) : List Token → List Let → Prop where
  | nil : Lets E [] []
  | cons {ts us : List Token} {l : Let} {ls : List Let} (own : LetForm E ts l) (others : Lets E us ls) :
      Lets E (ts ++ us) (l :: ls)

inductive FieldInitForm (E : List Token → Expr → Prop) : List Token → FieldInit → Prop where
  | mk {t colon : Token} {us : List Token} {value : Expr} (name : t.kind = .identifier) (sign : colon.kind = .colon)
      (own : E us value) : FieldInitForm E (t :: colon :: us) ⟨t.span, t.text, value⟩

/-- What needs no parentheses anywhere. The value of a number has to be in range. -/
inductive AtomForm (E : List Token → Expr → Prop) : List Token → Expr → Prop where
  | number {t : Token} {bits : Nat} (kind : t.kind = .number) (value : Binary64.ofLiteral t.text = some bits) :
      AtomForm E [t] (.number t.span t.text bits)
  | true {t : Token} (kind : t.kind = .kwTrue) : AtomForm E [t] (.bool t.span true)
  | false {t : Token} (kind : t.kind = .kwFalse) : AtomForm E [t] (.bool t.span false)
  | var {t : Token} (name : t.kind = .identifier) : AtomForm E [t] (.var t.span t.text)
  | record {t : Token} {us : List Token} {fields : List FieldInit} (name : t.kind = .identifier)
      (list : Enclosed .leftBrace .rightBrace (FieldInitForm E) us fields) :
      AtomForm E (t :: us) (.record (t.span.cover (spanOf us)) t.text t.span fields)
  | block {o c : Token} {ts us : List Token} {ls : List Let} {result : Expr} (opened : o.kind = .leftBrace)
      (lets : Lets E ts ls) (own : E us result) (closed : c.kind = .rightBrace) :
      AtomForm E (o :: (ts ++ (us ++ [c]))) (.block (o.span.cover c.span) ls result)
  | group {o c : Token} {ts : List Token} {e : Expr} (opened : o.kind = .leftParen) (own : E ts e)
      (closed : c.kind = .rightParen) : AtomForm E (o :: (ts ++ [c])) e
  | annotated {o colon c : Token} {ts us : List Token} {e : Expr} {t : TypeExpr} (opened : o.kind = .leftParen)
      (own : E ts e) (sign : colon.kind = .colon) (type : IsType us t) (closed : c.kind = .rightParen) :
      AtomForm E (o :: (ts ++ colon :: (us ++ [c]))) (.annotated (o.span.cover c.span) e t)

/-- An atom, perhaps called, and what comes of that called again. -/
inductive Application (E : List Token → Expr → Prop) : List Token → Expr → Prop where
  | atom {ts : List Token} {e : Expr} (own : AtomForm E ts e) : Application E ts e
  | call {ts us : List Token} {callee : Expr} {args : List Expr} (before : Application E ts callee)
      (list : Enclosed .leftParen .rightParen E us args) :
      Application E (ts ++ us) (.call (callee.span.cover (spanOf us)) callee args)

/-- Operands with operators of one rank between them, grouped to the left. -/
inductive Chain (operator? : TokenKind → Option Operator) (Operand : List Token → Expr → Prop) :
    List Token → Expr → Prop where
  | single {ts : List Token} {e : Expr} (own : Operand ts e) : Chain operator? Operand ts e
  | more {ts us : List Token} {sign : Token} {op : Operator} {left right : Expr}
      (before : Chain operator? Operand ts left) (operator : operator? sign.kind = some op) (own : Operand us right) :
      Chain operator? Operand (ts ++ sign :: us) (Parser.binary op left right)

abbrev Product (E : List Token → Expr → Prop) : List Token → Expr → Prop :=
  Chain Parser.productOperator? (Application E)

abbrev Sum (E : List Token → Expr → Prop) : List Token → Expr → Prop := Chain Parser.sumOperator? (Product E)

inductive Comparison (E : List Token → Expr → Prop) : List Token → Expr → Prop where
  | single {ts : List Token} {e : Expr} (own : Sum E ts e) : Comparison E ts e
  | less {ts us : List Token} {sign : Token} {left right : Expr} (first : Sum E ts left) (operator : sign.kind = .less)
      (second : Sum E us right) : Comparison E (ts ++ sign :: us) (Parser.binary .less left right)

/-- An expression, given what stands for an expression inside it. -/
inductive ExprForm (E : List Token → Expr → Prop) : List Token → Expr → Prop where
  | comparison {ts : List Token} {e : Expr} (own : Comparison E ts e) : ExprForm E ts e
  | cond {i t e : Token} {ts us vs : List Token} {test yes no : Expr} (word : i.kind = .kwIf) (first : E ts test)
      (word₁ : t.kind = .kwThen) (second : E us yes) (word₂ : e.kind = .kwElse) (third : E vs no) :
      ExprForm E (i :: (ts ++ t :: (us ++ e :: vs))) (.cond (i.span.cover (endSpan e.span vs)) test yes no)
  | case {k f o c : Token} {ts us : List Token} {scrutinee : Expr} {arms : List Arm} (word : k.kind = .kwCase)
      (own : E ts scrutinee) (word' : f.kind = .kwOf) (opened : o.kind = .leftBrace) (alternatives : Arms E us arms)
      (closed : c.kind = .rightBrace) :
      ExprForm E (k :: (ts ++ f :: o :: (us ++ [c]))) (.case (k.span.cover c.span) scrutinee arms)
  | closure {bar : Token} {us vs : List Token} {params : List Param} {body : Expr}
      (list : Enclosed .pipe .pipe IsParam (bar :: us) params) (own : E vs body) :
      ExprForm E (bar :: (us ++ vs)) (.closure (bar.span.cover (endSpan (endSpan bar.span us) vs)) params body)

inductive IsExpr : List Token → Expr → Prop where
  | build {E : List Token → Expr → Prop} {ts : List Token} {e : Expr} (inside : ∀ us u, E us u → IsExpr us u)
      (form : ExprForm E ts e) : IsExpr ts e

end Expressions

section Definitions

inductive IsGeneric : List Token → Generic → Prop where
  | mk {t : Token} (name : t.kind = .identifier) : IsGeneric [t] ⟨t.span, t.text⟩

inductive IsGenerics : List Token → List Generic → Prop where
  | none : IsGenerics [] []
  | some {us : List Token} {gs : List Generic} (list : Enclosed .leftBracket .rightBracket IsGeneric us gs) :
      IsGenerics us gs

inductive IsStructField : List Token → Field → Prop where
  | mk {t colon : Token} {us : List Token} {type : TypeExpr} (name : t.kind = .identifier) (sign : colon.kind = .colon)
      (own : IsType us type) : IsStructField (t :: colon :: us) ⟨t.span, t.text, type⟩

inductive IsItem : List Token → Item → Prop where
  | func {start name colon assign : Token} {gs ps rs bs : List Token} {generics : List Generic} {params : List Param}
      {result : TypeExpr} {body : Expr} (word : start.kind = .kwFunc) (named : name.kind = .identifier)
      (generic : IsGenerics gs generics) (list : Enclosed .leftParen .rightParen IsParam ps params)
      (sign : colon.kind = .colon) (type : IsType rs result) (sign' : assign.kind = .assign) (own : IsExpr bs body) :
      IsItem (start :: name :: (gs ++ (ps ++ colon :: (rs ++ assign :: bs))))
        (.func ⟨start.span.cover (endSpan assign.span bs), name.text, name.span, generics, params, result, body⟩)
  | struct {start name : Token} {gs fs : List Token} {generics : List Generic} {fields : List Field}
      (word : start.kind = .kwStruct) (named : name.kind = .identifier) (generic : IsGenerics gs generics)
      (list : Enclosed .leftBrace .rightBrace IsStructField fs fields) :
      IsItem (start :: name :: (gs ++ fs))
        (.struct ⟨start.span.cover (endSpan name.span fs), name.text, name.span, generics, fields⟩)

/-- A program: definitions one after the other. -/
inductive IsProgram : List Token → List Item → Prop where
  | nil : IsProgram [] []
  | cons {ts us : List Token} {item : Item} {items : List Item} (own : IsItem ts item) (others : IsProgram us items) :
      IsProgram (ts ++ us) (item :: items)

end Definitions

end Grammar

end WitnessLang.Surface
