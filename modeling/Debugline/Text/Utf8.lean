/-! UTF-8. `encode` writes a text as bytes. Decoding cuts a byte list into
characters and malformed pieces: a piece is the longest beginning of some
well-formed character that the next byte does not continue, or one byte that
begins no character. `decode?` refuses such a piece and `decodeLossy` puts
U+FFFD in its place. -/

namespace Debugline.Text

/-- A byte of a character after its first. -/
def isContinuation (b : UInt8) : Bool := b &&& 0xC0 == 0x80

def encode (s : String) : List UInt8 := s.toList.flatMap String.utf8EncodeChar

/-- A character whose first byte has been read: its bits so far, the bytes still
owed, and the range of the next one. -/
structure Opened where
  bits : Nat
  owed : Nat
  low : Nat
  high : Nat
  deriving DecidableEq, Repr

/-- What the first byte of a character says about it. -/
inductive Lead
  | char (c : Char)
  | opened (o : Opened)
  | malformed

/-- Overlong forms, surrogates and values above U+10FFFF are excluded by the range
of the second byte. -/
def lead (b : UInt8) : Lead :=
  let n := b.toNat
  if n < 0x80 then .char (.ofNat n)
  else if n < 0xC2 then .malformed
  else if n < 0xE0 then .opened ⟨n - 0xC0, 1, 0x80, 0xBF⟩
  else if n = 0xE0 then .opened ⟨0, 2, 0xA0, 0xBF⟩
  else if n = 0xED then .opened ⟨13, 2, 0x80, 0x9F⟩
  else if n < 0xF0 then .opened ⟨n - 0xE0, 2, 0x80, 0xBF⟩
  else if n = 0xF0 then .opened ⟨0, 3, 0x90, 0xBF⟩
  else if n < 0xF4 then .opened ⟨n - 0xF0, 3, 0x80, 0xBF⟩
  else if n = 0xF4 then .opened ⟨4, 3, 0x80, 0x8F⟩
  else .malformed

/-- A decoder between two bytes. The pieces found so far stand newest first;
`none` is a malformed one. -/
structure Decoder where
  opened : Option Opened
  found : List (Option Char)

namespace Decoder

/-- A byte that stands where a character may begin. -/
def begin (found : List (Option Char)) (b : UInt8) : Decoder :=
  match lead b with
  | .char c => ⟨none, some c :: found⟩
  | .opened o => ⟨some o, found⟩
  | .malformed => ⟨none, none :: found⟩

def step (d : Decoder) (b : UInt8) : Decoder :=
  match d.opened with
  | none => begin d.found b
  | some o =>
    if o.low ≤ b.toNat ∧ b.toNat ≤ o.high then
      let bits := o.bits * 64 + (b.toNat - 0x80)
      if o.owed ≤ 1 then ⟨none, some (.ofNat bits) :: d.found⟩
      else ⟨some ⟨bits, o.owed - 1, 0x80, 0xBF⟩, d.found⟩
    else begin (none :: d.found) b

/-- The pieces in order; a character still open at the end is malformed. -/
def finish (d : Decoder) : List (Option Char) :=
  (match d.opened with
    | none => d.found
    | some _ => none :: d.found).reverse

end Decoder

/-- The characters and malformed pieces of a byte list. -/
def pieces (bytes : List UInt8) : List (Option Char) :=
  (bytes.foldl Decoder.step ⟨none, []⟩).finish

/-- The text of well-formed bytes. -/
def decode? (bytes : List UInt8) : Option String :=
  let ps := pieces bytes
  if ps.all Option.isSome then some (.ofList (ps.filterMap id)) else none

/-- The text with U+FFFD for every malformed piece. -/
def decodeLossy (bytes : List UInt8) : String :=
  .ofList ((pieces bytes).map fun p => p.getD '\uFFFD')

end Debugline.Text
