import WitnessLang.Digest.Sha256
import WitnessLang.Path
import WitnessLang.Source.Span

set_option autoImplicit false

namespace WitnessLang

structure Position where
  line : Nat
  column : Nat
  deriving DecidableEq, Repr

structure Origin where
  /-- Held in memory only. -/
  isVirtual : Bool := false
  /-- A byte order mark was dropped. -/
  hadMark : Bool := false
  /-- Line ends of two bytes were shortened. -/
  hadCarriageReturns : Bool := false
  /-- Marks without a meaning of their own, kept as they were given. -/
  others : Nat := 0
  deriving DecidableEq, Repr

namespace Origin

def bits (o : Origin) : Nat :=
  (if o.isVirtual then 1 else 0) + (if o.hadMark then 2 else 0)
    + (if o.hadCarriageReturns then 4 else 0) + 8 * o.others

def ofBits (n : Nat) : Origin :=
  ⟨n % 2 == 1, n / 2 % 2 == 1, n / 4 % 2 == 1, n / 8⟩

def memory : Origin := { isVirtual := true }

end Origin

structure SourceFile where
  id : Nat
  path : String
  content : Bytes
  origin : Origin

/-- Offsets of the line feeds of a text that starts at offset `at`. -/
def lineFeedsFrom (offset : Nat) : Bytes → List Nat
  | [] => []
  | b :: rest =>
    if b = 10 then offset :: lineFeedsFrom (offset + 1) rest else lineFeedsFrom (offset + 1) rest

def lineFeeds (b : Bytes) : List Nat := lineFeedsFrom 0 b

namespace SourceFile

def lineFeeds (f : SourceFile) : List Nat := WitnessLang.lineFeeds f.content

/-- The number of lines; a file that ends in a line feed has an empty last line. -/
def lineCount (f : SourceFile) : Nat := f.lineFeeds.length + 1

/-- The place of a byte offset. The line is one more than the number of line feeds before it. -/
def position (f : SourceFile) (offset : Nat) : Position :=
  let before := f.lineFeeds.takeWhile fun n => decide (n < offset)
  match before.getLast? with
  | none => ⟨1, (offset + 1) % Nat.pow 2 32⟩
  | some last => ⟨before.length + 1, offset - last⟩

/-- The text of a line, without its line feed; lines that do not exist are empty. -/
def line (f : SourceFile) (n : Nat) : Bytes :=
  if n = 0 then [] else
    let feeds := f.lineFeeds
    if feeds.length + 1 < n then [] else
      let start := if n = 1 then 0 else feeds.getD (n - 2) 0 + 1
      f.content.slice start (feeds.getD (n - 1) f.content.length)

def hash (f : SourceFile) : String := Sha256.hexadecimal (Sha256.digest f.content)

end SourceFile

def byteOrderMark : Bytes := [0xEF, 0xBB, 0xBF]

/-- Shortens every line end of two bytes to its line feed. -/
def shortenLineEnds : Bytes → Bytes
  | [] => []
  | [b] => [b]
  | a :: b :: rest =>
    if a = 13 ∧ b = 10 then 10 :: shortenLineEnds rest else a :: shortenLineEnds (b :: rest)

def hasLongLineEnd : Bytes → Bool
  | [] => false
  | [_] => false
  | a :: b :: rest => (a = 13 ∧ b = 10) || hasLongLineEnd (b :: rest)

/-- What is kept of a text read from disk: no byte order mark, short line ends. -/
def loaded (raw : Bytes) : Bytes × Origin :=
  let hadMark := byteOrderMark.isPrefixOf raw
  let text := if hadMark then raw.drop 3 else raw
  let long := hasLongLineEnd text
  (if long then shortenLineEnds text else text,
    { hadMark := hadMark, hadCarriageReturns := long })

/-- Every version of every file of one compilation, numbered from zero. -/
structure FileSet where
  files : List SourceFile := []

namespace FileSet

def add (fs : FileSet) (path : String) (content : Bytes) (origin : Origin) : FileSet :=
  ⟨fs.files ++ [⟨fs.files.length, Path.clean path, content, origin⟩]⟩

def next (fs : FileSet) : Nat := fs.files.length

def get? (fs : FileSet) (id : Nat) : Option SourceFile := fs.files[id]?

def latest? (fs : FileSet) (path : String) : Option Nat :=
  (fs.files.reverse.find? fun f => f.path == Path.clean path).map (·.id)

/-- Start and end of a span; an unknown file counts as empty. -/
def resolve (fs : FileSet) (s : Span) : Position × Position :=
  match fs.get? s.file with
  | none => (⟨1, 1⟩, ⟨1, 1⟩)
  | some f => (f.position s.start, f.position s.stop)

end FileSet

end WitnessLang
