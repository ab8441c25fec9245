import WitnessLang.Text.Quoted

set_option autoImplicit false

namespace WitnessLang

structure Target where
  triple : String
  pointerSize : Int64
  pointerAlign : Int64
  deriving DecidableEq, Repr, Inhabited

namespace Target

/-- The 64-bit machine, used when nothing else is asked for. -/
def wide : Target := ⟨"x86_64-linux-gnu", 8, 8⟩

def narrow : Target := ⟨"i386-linux-gnu", 4, 4⟩

/-- The machine with pointers of a size; zero asks for the default. -/
def ofPointerSize (n : Int) : Except String Target :=
  if n = 0 ∨ n = 8 then .ok wide
  else if n = 4 then .ok narrow
  else .error ("unsupported pointer size " ++ toString n ++ " (want 4 or 8)")

/-- The size of a type description: its size, three operations, and a pointer to the
descriptions of its parts. -/
def witnessSize (t : Target) : Int64 := 5 * t.pointerSize

/-- The size of a closure: a pointer to its code and one to its environment. -/
def closureSize (t : Target) : Int64 := 2 * t.pointerSize

end Target

/-- A value to place: `static` bytes, and the sizes held by some type descriptions. -/
structure Slot where
  name : String
  static : Int64
  dynamic : List String := []
  deriving DecidableEq, Repr

def Slot.isStatic (s : Slot) : Bool := s.dynamic.isEmpty

/-- The least multiple of `align` that is not below `n`, for `n` not negative. -/
def roundUp (n align : Int64) : Int64 :=
  if align ≤ 1 then n
  else if n % align = 0 then n
  else n + (align - n % align)

/-- A distance: `static` bytes and the sizes held by type descriptions, each rounded up
on its own, so that the whole stays aligned. -/
structure Offset where
  static : Int64 := 0
  dynamic : List String := []
  align : Int64 := 0
  deriving DecidableEq, Repr, Inhabited

namespace Offset

def isStatic (o : Offset) : Bool := o.dynamic.isEmpty

/-- The size of a description's type, rounded up if that changes anything. -/
def renderTerm (align : Int64) (witness : String) : String :=
  if align > 1 then "align(size(" ++ witness ++ "), " ++ toString align.toInt ++ ")"
  else "size(" ++ witness ++ ")"

def render (o : Offset) : String :=
  " + ".intercalate (toString o.static.toInt :: o.dynamic.map (renderTerm o.align))

def eval (o : Offset) (size : String → Int64) : Int64 :=
  o.dynamic.foldl (fun sum witness => sum + roundUp (size witness) o.align) o.static

end Offset

structure Placed where
  slot : Slot
  offset : Offset
  deriving DecidableEq, Repr

structure Frame where
  name : String := ""
  slots : List Placed := []
  size : Offset := {}
  deriving DecidableEq, Repr, Inhabited

def Frame.offset? (f : Frame) (name : String) : Option Offset :=
  (f.slots.find? fun p => p.slot.name == name).map (·.offset)

inductive LayoutCause where
  | duplicateSlot
  | negativeSize (size : Int64)
  /-- The known part no longer fits 32 bits. -/
  | tooLarge
  deriving DecidableEq, Repr

structure LayoutError where
  cause : LayoutCause
  frame : String
  slot : String
  deriving DecidableEq, Repr

namespace LayoutError

def kindNumber (e : LayoutError) : Nat :=
  match e.cause with
  | .duplicateSlot => 1
  | .negativeSize _ => 2
  | .tooLarge => 3

def rangeMessage : String := "out of range"

def reason? (e : LayoutError) : Option String :=
  match e.cause with
  | .tooLarge => some rangeMessage
  | _ => none

def message (e : LayoutError) : String :=
  let slot := Quoted.ofString e.slot
  match e.cause with
  | .duplicateSlot => e.frame ++ ": duplicate slot " ++ slot
  | .negativeSize n => e.frame ++ ": slot " ++ slot ++ " has negative size " ++ toString n.toInt
  | .tooLarge => e.frame ++ ": frame too large at slot " ++ slot ++ ": " ++ rangeMessage

end LayoutError

namespace Frame

/-- The first slot that repeats a name or has a negative size. -/
def badSlot? : List String → List Slot → Option (LayoutCause × String)
  | _, [] => none
  | before, s :: rest =>
    if before.contains s.name then some (.duplicateSlot, s.name)
    else if s.static < 0 then some (.negativeSize s.static, s.name)
    else badSlot? (s.name :: before) rest

/-- The offset after a value of some size, if it fits 32 bits. -/
def advance (offset size align : Int64) : Option Int64 :=
  let next := roundUp (offset + size) align
  if 0 ≤ next ∧ next.toInt < 0x100000000 then some next else none

/-- Places slots one after the other from an offset on; gives the offset behind them,
or the slot that does not fit. -/
def place (align : Int64) : Int64 → List String → List Slot →
    Except String (List Placed × Int64 × List String)
  | static, dynamic, [] => .ok ([], static, dynamic)
  | static, dynamic, s :: rest =>
    match advance static s.static align with
    | none => .error s.name
    | some next => do
      let (placed, static', dynamic') ← place align next (dynamic ++ s.dynamic) rest
      return (⟨s, ⟨static, dynamic, align⟩⟩ :: placed, static', dynamic')

/-- Lays out slots: first those of known size in order, then the others in order. -/
def compute (name : String) (slots : List Slot) (target : Target) : Except LayoutError Frame :=
  let align := if target.pointerAlign ≤ 0 then 1 else target.pointerAlign
  match badSlot? [] slots with
  | some (cause, slot) => .error ⟨cause, name, slot⟩
  | none =>
    match place align 0 [] (slots.filter Slot.isStatic ++ slots.filter (!·.isStatic)) with
    | .error slot => .error ⟨.tooLarge, name, slot⟩
    | .ok (placed, static, dynamic) => .ok ⟨name, placed, ⟨static, dynamic, align⟩⟩

end Frame

/-- The struct layouts of a program. A struct is laid out once; later requests under
its name get the same layout. -/
structure StructLayouts where
  target : Target
  known : List (String × Frame) := []

def StructLayouts.struct (l : StructLayouts) (name : String) (fields : List Slot) :
    Except LayoutError Frame × StructLayouts :=
  match l.known.lookup name with
  | some f => (.ok f, l)
  | none =>
    match Frame.compute name fields l.target with
    | .error e => (.error e, l)
    | .ok f => (.ok f, { l with known := (name, f) :: l.known })

end WitnessLang
