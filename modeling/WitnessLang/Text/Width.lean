import WitnessLang.Text.Utf8
import WitnessLang.Text.Width.Table

set_option autoImplicit false

namespace WitnessLang.Width

def ofChar (c : Char) : Nat :=
  let n := c.toNat
  if n < 0x20 then 0
  else if (0x7F ≤ n && n ≤ 0x9F) || n == 0xAD then 0
  else if n < 0x300 then 1
  else if narrow.has c then 1
  else if unseen.has c || combining.has c then 0
  else if wide.has c then 2
  else 1

inductive Role where
  | carriageReturn | lineFeed | control | extend | link | flag | lead | spacing
  | jamoL | jamoV | jamoT | syllable | closedSyllable | pictograph | plain
  deriving DecidableEq, Repr

def roleOf (n : Nat) : Role :=
  if n == 0x0D then .carriageReturn
  else if n == 0x0A then .lineFeed
  else if n == 0x200D then .link
  else if control.hasCode n then .control
  else if n < 0xA9 then .plain
  else if extending.hasCode n then .extend
  else if 0x1F1E6 ≤ n && n ≤ 0x1F1FF then .flag
  else if prepended.hasCode n then .lead
  else if WitnessLang.Width.spacing.hasCode n then .spacing
  else if (0x1100 ≤ n && n ≤ 0x115F) || (0xA960 ≤ n && n ≤ 0xA97C) then .jamoL
  else if (0x1160 ≤ n && n ≤ 0x11A7) || (0xD7B0 ≤ n && n ≤ 0xD7C6) then .jamoV
  else if (0x11A8 ≤ n && n ≤ 0x11FF) || (0xD7CB ≤ n && n ≤ 0xD7FB) then .jamoT
  else if 0xAC00 ≤ n && n ≤ 0xD7A3 then
    if (n - 0xAC00) % 28 = 0 then .syllable else .closedSyllable
  else if pictograph.hasCode n then .pictograph
  else .plain

/-- The role of a code point spelled in `size` bytes. One spelled in more bytes than it needs has
no role of its own. -/
def roleSpelled (code size : Nat) : Role :=
  if (size == 3 && code < 0x800) || (size == 4 && code < 0x10000) then .plain else roleOf code

/-- A sequence of `tails` more bytes after a lead byte, by shape alone: its role and its length, the
bytes before the first that does not go on the sequence when one does not. Nothing when the text
ends too soon. -/
def sequence? (code tails taken : Nat) : Bytes → Option (Role × Nat)
  | [] => if tails = 0 then some (roleSpelled code taken, taken) else none
  | b :: rest =>
    match tails with
    | 0 => some (roleSpelled code taken, taken)
    | tails + 1 =>
      if Utf8.isTail b then sequence? (code * 64 + Utf8.payload b) tails (taken + 1) rest
      else some (.plain, taken)

/-- The role and length of what a text starts with. Nothing when the text ends too soon. -/
def unit? (lead : UInt8) (rest : Bytes) : Option (Role × Nat) :=
  if lead < 0x80 then some (roleOf lead.toNat, 1)
  else
    let tails := if lead < 0xC2 then 0 else if lead < 0xE0 then 1 else if lead < 0xF0 then 2
      else if lead < 0xF8 then 3 else 0
    if tails = 0 then some (.plain, 1)
    else if rest.length < tails then none
    else sequence? (lead.toNat % Nat.pow 2 (6 - tails)) tails 1 rest

/-- What the text so far says about its next boundary. -/
structure Joint where
  /-- Role of the last character. -/
  last : Role
  /-- A pictograph and its extensions stand last. -/
  picture : Bool
  /-- As `picture`, and a link followed them. -/
  linked : Bool
  /-- An odd number of flag letters stands last. -/
  halfFlag : Bool

/-- Whether a character of role `next` belongs to the cluster that ends in `j`. -/
def Joint.holds (j : Joint) (next : Role) : Bool :=
  match j.last, next with
  | .carriageReturn, .lineFeed => true
  | .carriageReturn, _ | .lineFeed, _ | .control, _ => false
  | _, .carriageReturn | _, .lineFeed | _, .control => false
  | .jamoL, .jamoL | .jamoL, .jamoV | .jamoL, .syllable | .jamoL, .closedSyllable => true
  | .syllable, .jamoV | .syllable, .jamoT | .jamoV, .jamoV | .jamoV, .jamoT => true
  | .closedSyllable, .jamoT | .jamoT, .jamoT => true
  | _, .extend | _, .link | _, .spacing => true
  | .lead, _ => true
  | .link, .pictograph => j.linked
  | .flag, .flag => j.halfFlag
  | _, _ => false

/-- The joint after one more character of role `next`. -/
def Joint.push (j : Joint) (next : Role) : Joint where
  last := next
  picture := next == .pictograph || (j.picture && next == .extend)
  linked := j.picture && next == .link
  halfFlag := next == .flag && !(j.last == .flag && j.halfFlag)

/-- The joint after a first character of role `next`. -/
def Joint.start (next : Role) : Joint where
  last := next
  picture := next == .pictograph
  linked := false
  halfFlag := next == .flag

/-- Cuts the rest of a text, given the current cluster in reverse. At most `fuel` units are read. -/
def clustersAfter : Nat → Joint → Bytes → Bytes → List Bytes
  | 0, _, current, text => [current.reverse ++ text]
  | _ + 1, _, current, [] => [current.reverse]
  | fuel + 1, j, current, lead :: rest =>
    match unit? lead rest with
    | none => [current.reverse ++ lead :: rest]
    | some (role, n) =>
      let raw := (lead :: rest).take n
      let later := (lead :: rest).drop n
      if j.holds role then clustersAfter fuel (j.push role) (raw.reverse ++ current) later
      else current.reverse :: clustersAfter fuel (.start role) raw.reverse later

def clusters : Bytes → List Bytes
  | [] => []
  | lead :: rest =>
    match unit? lead rest with
    | none => [lead :: rest]
    | some (role, n) =>
      clustersAfter (rest.length + 1) (.start role) ((lead :: rest).take n).reverse
        ((lead :: rest).drop n)

def ofCluster (cluster : Bytes) : Nat :=
  (((Utf8.glyphs cluster).map fun g => ofChar g.shown).find? fun w => decide (0 < w)).getD 0

def ofBytes (b : Bytes) : Nat := (clusters b).foldr (fun c n => ofCluster c + n) 0

def ofString (s : String) : Nat := ofBytes (Bytes.ofString s)

/-- The longest run of clusters from the left that fits into `columns`. -/
def fitting (columns : Nat) : List Bytes → Bytes
  | [] => []
  | k :: rest =>
    if columns < ofCluster k then [] else k ++ fitting (columns - ofCluster k) rest

/-- A string cut to `columns`, the last of them taken by `tail` when anything is cut off. -/
def truncate (s : String) (columns : Nat) (tail : String) : String :=
  if ofString s ≤ columns then s
  else Utf8.stringLossy (fitting (columns - ofString tail) (clusters (Bytes.ofString s))) ++ tail

end WitnessLang.Width
