import WitnessLang.Surface.Tree
import WitnessLang.Source.File

set_option autoImplicit false

namespace WitnessLang.Surface

/-- What a node is, where it stands, and for a number the bits of its value. -/
structure SpanRow where
  what : String
  span : Span
  bits : Option Nat := none

mutual

def TypeExpr.spans : TypeExpr → List SpanRow
  | .named s _ => [⟨"TNamed", s, none⟩]
  | .apply s _ args => ⟨"TApp", s, none⟩ :: TypeExpr.spansAll args
  | .func s args result => ⟨"TFunc", s, none⟩ :: (TypeExpr.spansAll args ++ result.spans)

def TypeExpr.spansAll : List TypeExpr → List SpanRow
  | [] => []
  | t :: rest => t.spans ++ TypeExpr.spansAll rest

end

mutual

def Pattern.spans : Pattern → List SpanRow
  | .var s _ => [⟨"PVar", s, none⟩]
  | .record s _ fields => ⟨"PStruct", s, none⟩ :: Pattern.spansFields fields

def Pattern.spansFields : List FieldPattern → List SpanRow
  | [] => []
  | ⟨s, _, p⟩ :: rest => ⟨"PField", s, none⟩ :: (p.spans ++ Pattern.spansFields rest)

end

def Param.spans (p : Param) : List SpanRow :=
  ⟨"Param", p.span, none⟩ :: (p.pattern.spans ++ p.type.spans)

mutual

def Expr.spans : Expr → List SpanRow
  | .number s _ bits => [⟨"Literal", s, some bits⟩]
  | .bool s _ => [⟨"Literal", s, none⟩]
  | .var s _ => [⟨"Variable", s, none⟩]
  | .call s callee args => ⟨"Call", s, none⟩ :: (callee.spans ++ Expr.spansAll args)
  | .operation s _ left right => ⟨"Operation", s, none⟩ :: (left.spans ++ right.spans)
  | .record s _ nameSpan fields =>
    ⟨"StructLiteral", s, none⟩ :: ⟨"Name", nameSpan, none⟩ :: Expr.spansFields fields
  | .block s lets result => ⟨"Block", s, none⟩ :: (Expr.spansLets lets ++ result.spans)
  | .annotated s value type => ⟨"Annotated", s, none⟩ :: (value.spans ++ type.spans)
  | .case s scrutinee arms => ⟨"Case", s, none⟩ :: (scrutinee.spans ++ Expr.spansArms arms)
  | .cond s test yes no => ⟨"If", s, none⟩ :: (test.spans ++ yes.spans ++ no.spans)
  | .closure s params body => ⟨"Closure", s, none⟩ :: (params.flatMap Param.spans ++ body.spans)

def Expr.spansAll : List Expr → List SpanRow
  | [] => []
  | e :: rest => e.spans ++ Expr.spansAll rest

def Expr.spansFields : List FieldInit → List SpanRow
  | [] => []
  | ⟨s, _, value⟩ :: rest => ⟨"FieldInit", s, none⟩ :: (value.spans ++ Expr.spansFields rest)

def Expr.spansLets : List Let → List SpanRow
  | [] => []
  | ⟨s, p, value⟩ :: rest => ⟨"Let", s, none⟩ :: (p.spans ++ value.spans ++ Expr.spansLets rest)

def Expr.spansArms : List Arm → List SpanRow
  | [] => []
  | ⟨s, p, body⟩ :: rest => ⟨"Arm", s, none⟩ :: (p.spans ++ body.spans ++ Expr.spansArms rest)

end

def Item.spans : Item → List SpanRow
  | .func f =>
    ⟨"func", f.span, none⟩ :: ⟨"Name", f.nameSpan, none⟩
      :: (f.generics.map (fun g => ⟨"Generic", g.span, none⟩) ++ f.params.flatMap Param.spans
        ++ f.result.spans ++ f.body.spans)
  | .struct s =>
    ⟨"struct", s.span, none⟩ :: ⟨"Name", s.nameSpan, none⟩
      :: (s.generics.map (fun g => ⟨"Generic", g.span, none⟩)
        ++ s.fields.flatMap fun x => ⟨"Field", x.span, none⟩ :: x.type.spans)

def File.spans (f : File) : List SpanRow :=
  ⟨"File", f.span, none⟩ :: f.items.flatMap Item.spans

inductive SpanFault where
  | outsideFile (span : Span) (path : String) (size : Nat)
  | empty (what : String) (span : Span)
  | otherFile (what : String) (span : Span)
  | escapes (what : String) (span outer : Span)
  deriving DecidableEq, Repr

def SpanFault.message : SpanFault → String
  | .outsideFile s path size =>
    "file span " ++ s.render ++ " outside " ++ path ++ " (" ++ toString size ++ " bytes)"
  | .empty what s => what ++ " has empty span " ++ s.render
  | .otherFile what s => what ++ " span " ++ s.render ++ " belongs to file " ++ toString s.file
  | .escapes what s outer => what ++ " span " ++ s.render ++ " escapes " ++ outer.render

/-- A node's span is not empty, is of its file and lies inside that of its owner. -/
def nested (file : Nat) (what : String) (s outer : Span) : Except SpanFault Unit :=
  if s.isEmpty then .error (.empty what s)
  else if s.file != file then .error (.otherFile what s)
  else if s.inside outer then .ok () else .error (.escapes what s outer)

mutual

def TypeExpr.checkSpans (file : Nat) (outer : Span) : TypeExpr → Except SpanFault Unit
  | .named s _ => nested file "type" s outer
  | .apply s _ args => do
    nested file "type" s outer
    TypeExpr.checkSpansAll file s args
  | .func s args result => do
    nested file "type" s outer
    TypeExpr.checkSpansAll file s args
    result.checkSpans file s

def TypeExpr.checkSpansAll (file : Nat) (outer : Span) : List TypeExpr → Except SpanFault Unit
  | [] => .ok ()
  | t :: rest => do
    t.checkSpans file outer
    TypeExpr.checkSpansAll file outer rest

end

mutual

def Pattern.checkSpans (file : Nat) (outer : Span) : Pattern → Except SpanFault Unit
  | .var s _ => nested file "pattern" s outer
  | .record s _ fields => do
    nested file "pattern" s outer
    Pattern.checkSpansFields file s fields

def Pattern.checkSpansFields (file : Nat) (outer : Span) :
    List FieldPattern → Except SpanFault Unit
  | [] => .ok ()
  | ⟨s, _, p⟩ :: rest => do
    nested file "pattern field" s outer
    p.checkSpans file s
    Pattern.checkSpansFields file outer rest

end

def Param.checkSpans (file : Nat) (outer : Span) (p : Param) : Except SpanFault Unit := do
  nested file "param" p.span outer
  p.pattern.checkSpans file p.span
  p.type.checkSpans file p.span

mutual

def Expr.checkSpans (file : Nat) (outer : Span) : Expr → Except SpanFault Unit
  | .number s _ _ => nested file "expression Literal" s outer
  | .bool s _ => nested file "expression Literal" s outer
  | .var s _ => nested file "expression Variable" s outer
  | .call s callee args => do
    nested file "expression Call" s outer
    callee.checkSpans file s
    Expr.checkSpansAll file s args
  | .operation s _ left right => do
    nested file "expression Operation" s outer
    left.checkSpans file s
    right.checkSpans file s
  | .record s _ nameSpan fields => do
    nested file "expression StructLiteral" s outer
    nested file "struct name" nameSpan s
    Expr.checkSpansFields file s fields
  | .block s lets result => do
    nested file "expression Block" s outer
    Expr.checkSpansLets file s lets
    result.checkSpans file s
  | .annotated s value type => do
    nested file "expression Annotated" s outer
    value.checkSpans file s
    type.checkSpans file s
  | .case s scrutinee arms => do
    nested file "expression Case" s outer
    scrutinee.checkSpans file s
    Expr.checkSpansArms file s arms
  | .cond s test yes no => do
    nested file "expression If" s outer
    test.checkSpans file s
    yes.checkSpans file s
    no.checkSpans file s
  | .closure s params body => do
    nested file "expression Closure" s outer
    params.forM (Param.checkSpans file s)
    body.checkSpans file s

def Expr.checkSpansAll (file : Nat) (outer : Span) : List Expr → Except SpanFault Unit
  | [] => .ok ()
  | e :: rest => do
    e.checkSpans file outer
    Expr.checkSpansAll file outer rest

/-- Every span of field values nests; a value stands beside its field's name. -/
def Expr.checkSpansFields (file : Nat) (outer : Span) : List FieldInit → Except SpanFault Unit
  | [] => .ok ()
  | ⟨s, _, value⟩ :: rest => do
    nested file "field initializer" s outer
    value.checkSpans file outer
    Expr.checkSpansFields file outer rest

def Expr.checkSpansLets (file : Nat) (outer : Span) : List Let → Except SpanFault Unit
  | [] => .ok ()
  | ⟨s, p, value⟩ :: rest => do
    nested file "let" s outer
    p.checkSpans file s
    value.checkSpans file s
    Expr.checkSpansLets file outer rest

def Expr.checkSpansArms (file : Nat) (outer : Span) : List Arm → Except SpanFault Unit
  | [] => .ok ()
  | ⟨s, p, body⟩ :: rest => do
    nested file "case arm" s outer
    p.checkSpans file s
    body.checkSpans file s
    Expr.checkSpansArms file outer rest

end

def Item.checkSpans (file : Nat) (outer : Span) : Item → Except SpanFault Unit
  | .func f => do
    nested file "item" f.span outer
    nested file "function name" f.nameSpan f.span
    f.generics.forM fun g => nested file "generic" g.span f.span
    f.params.forM (Param.checkSpans file f.span)
    f.result.checkSpans file f.span
    f.body.checkSpans file f.span
  | .struct s => do
    nested file "item" s.span outer
    nested file "struct name" s.nameSpan s.span
    s.fields.forM fun x => do
      nested file "field" x.span s.span
      x.type.checkSpans file s.span

def File.checkSpans (f : File) (source : SourceFile) : Except SpanFault Unit := do
  if f.span.file != source.id || source.content.length < f.span.stop then
    .error (.outsideFile f.span source.path source.content.length)
  f.items.forM (Item.checkSpans source.id f.span)

end WitnessLang.Surface
