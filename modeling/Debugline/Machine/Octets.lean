import Debugline.Text.Utf8

/-! Programs see text as bytes. A string of octets holds a byte as the character of
that code, so every character of it is below 256. -/

namespace Debugline.Machine

/-- The octets of bytes. -/
def octets (bytes : List UInt8) : String := .ofList (bytes.map fun b => .ofNat b.toNat)

/-- The bytes of a string of octets. -/
def bytesOf (s : String) : List UInt8 := s.toList.map fun c => .ofNat c.toNat

/-- A text as programs see it. -/
def octetsOfText (s : String) : String := octets (Text.encode s)

/-- The text of octets, as the files of a disk are named. -/
def textOfOctets (s : String) : String := Text.decodeLossy (bytesOf s)

end Debugline.Machine
