set_option autoImplicit false

namespace WitnessLang

abbrev Bytes := List UInt8

namespace Bytes

def ofString (s : String) : Bytes := s.toList.flatMap String.utf8EncodeChar

def fill (n : Nat) (b : UInt8) : Bytes := List.replicate n b

/-- The bytes from offset `start` up to, not including, offset `stop`. -/
def slice (b : Bytes) (start stop : Nat) : Bytes := (b.drop start).take (stop - start)

def replace (b : Bytes) (old : UInt8) (new : Bytes) : Bytes :=
  b.flatMap fun x => if x = old then new else [x]

end Bytes

end WitnessLang
