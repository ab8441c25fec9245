import WitnessLang.Build.Summary
import WitnessLang.Text.Utf8

set_option autoImplicit false

namespace WitnessLang.Build.Store

def field (b : Bytes) : Bytes := Bytes.ofString (toString b.length ++ ":") ++ b

def record (fields : List Bytes) : Bytes := fields.flatMap field

def number? (digits : Bytes) : Option Nat :=
  if digits.isEmpty then none
  else digits.foldl (fun n b => do
    if 48 ≤ b ∧ b ≤ 57 then some (10 * (← n) + (b.toNat - 48)) else none) (some 0)

def fields? : Nat → Bytes → Option (List Bytes)
  | _, [] => some []
  | 0, _ :: _ => none
  | n + 1, b => do
    let size ← number? (b.takeWhile (· != 58))
    let rest := (b.dropWhile (· != 58)).drop 1
    if rest.length < size then none
    else return rest.take size :: (← fields? n (rest.drop size))

def read (b : Bytes) : Option (List Bytes) := fields? b.length b

def text (s : String) : Bytes := Bytes.ofString s
def nat (n : Nat) : Bytes := text (toString n)
def flag (b : Bool) : Bytes := text (if b then "1" else "0")

def flag? (b : Bytes) : Option Bool :=
  if b = flag true then some true else if b = flag false then some false else none

def list {α : Type} (f : α → List Bytes) (xs : List α) : Bytes := record (xs.map (record ∘ f))

def list? {α : Type} (f : List Bytes → Option α) (b : Bytes) : Option (List α) := do
  (← read b).mapM fun r => do f (← read r)

def stage? (b : Bytes) : Option Stage := do Stage.ofName? (← Utf8.string? b)

def structFields (s : StructSummary) : List Bytes := [text s.name, text s.size]

def struct? : List Bytes → Option StructSummary
  | [name, size] => return ⟨← Utf8.string? name, ← Utf8.string? size⟩
  | _ => none

def functionFields (f : FunctionSummary) : List Bytes :=
  [text f.name, flag f.isClosure, text f.frame, nat f.instructions, nat f.destroys]

def function? : List Bytes → Option FunctionSummary
  | [name, isClosure, frame, instructions, destroys] =>
    return ⟨← Utf8.string? name, ← flag? isClosure, ← Utf8.string? frame, ← number? instructions,
      ← number? destroys⟩
  | _ => none

def findingFields (d : FindingSummary) : List Bytes := [nat d.code, d.message, nat d.start, nat d.stop]

def finding? : List Bytes → Option FindingSummary
  | [code, message, start, stop] =>
    return ⟨← number? code, message, ← number? start, ← number? stop⟩
  | _ => none

/-- The fields of an entry: its key, and those of its summary. -/
def entryFields (e : CacheKey × Summary) : List Bytes :=
  [e.1.bytes, text e.2.path, text (Stage.nameOf e.2.reached), flag e.2.failed, list structFields e.2.structs,
    list functionFields e.2.functions, list findingFields e.2.findings]

def entry? : List Bytes → Option (CacheKey × Summary)
  | [key, path, reached, failed, structs, functions, findings] => do
    let reached ← if reached.isEmpty then pure none else some <$> stage? reached
    return (⟨key⟩, ⟨← Utf8.string? path, reached, ← flag? failed, ← list? struct? structs,
      ← list? function? functions, ← list? finding? findings⟩)
  | _ => none

def encode (c : Cache) : Bytes := list entryFields c

/-- The cache in some bytes; bytes that are damaged hold none. -/
def decode (b : Bytes) : Cache := (list? entry? b).getD []

end WitnessLang.Build.Store
