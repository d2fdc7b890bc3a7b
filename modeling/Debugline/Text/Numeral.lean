/-! Decimal numerals of 64-bit numbers. A value of 2⁶⁴ or more has no reading. -/

namespace Debugline.Text

/-- The first number that has no reading. -/
def wordLimit : Nat := Nat.pow 2 64

/-- The value of a digit string, most significant first. -/
def valueOf (digits : List Char) : Nat :=
  digits.foldl (fun n c => 10 * n + (c.toNat - '0'.toNat)) 0

/-- One or more ASCII digits. -/
def isDigits (s : List Char) : Bool := !s.isEmpty && s.all Char.isDigit

def bounded (n : Nat) : Option Nat := if n < wordLimit then some n else none

/-- Reads ASCII digits alone. -/
def digits? (s : List Char) : Option Nat := if isDigits s then bounded (valueOf s) else none

/-- Reads ASCII digits, after a plus sign or not. -/
def unsigned? : List Char → Option Nat
  | '+' :: s => digits? s
  | s => digits? s

end Debugline.Text
