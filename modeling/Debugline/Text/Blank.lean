/-! Blank characters, the Unicode property White_Space. Trimming takes them off
the ends of a text; `words` cuts a text at every run of them. -/

namespace Debugline.Text

/-- The 25 characters of White_Space. -/
def isBlank (c : Char) : Bool :=
  let n := c.toNat
  (9 ≤ n && n ≤ 13) || n == 0x20 || n == 0x85 || n == 0xA0 || n == 0x1680 ||
    (0x2000 ≤ n && n ≤ 0x200A) || n == 0x2028 || n == 0x2029 || n == 0x202F || n == 0x205F ||
    n == 0x3000

def trimStart (s : List Char) : List Char := s.dropWhile isBlank

def trimEnd (s : List Char) : List Char := (s.reverse.dropWhile isBlank).reverse

def trim (s : List Char) : List Char := trimEnd (trimStart s)

/-- The runs of characters that are not blank, in order. -/
def words (s : List Char) : List (List Char) :=
  (s.splitOnP isBlank).filter fun w => !w.isEmpty

/-- A text cut at its first blank: the part before it and the part after it. -/
def cutAtBlank (s : List Char) : Option (List Char × List Char) :=
  match s.dropWhile fun c => !isBlank c with
  | [] => none
  | _ :: rest => some (s.takeWhile fun c => !isBlank c, rest)

/-- What follows `lead` in a text that begins with it. -/
def after? : (lead s : List Char) → Option (List Char)
  | [], s => some s
  | _ :: _, [] => none
  | l :: lead, c :: s => if l = c then after? lead s else none

/-- The text without the blanks at its ends. -/
def trimmed (s : String) : String := .ofList (trim s.toList)

end Debugline.Text
