/-! Identifiers under a column: runs of letters, digits, underscores and dots that
begin with a letter or an underscore. All classes here are ASCII, as the names of
the debugged language are. -/

namespace Debugline.Text

def beginsIdentifier (c : Char) : Bool := c.isAlpha || c == '_'

def isIdentifier (c : Char) : Bool := c.isAlphanum || c == '_' || c == '.'

/-- A run without the dots at its end. -/
def withoutDots (s : List Char) : List Char := (s.reverse.dropWhile (· == '.')).reverse

/-- The identifier that holds a column. Identifiers are taken from the left, each as
long as it can be. -/
def identifierAt (s : List Char) (column : Nat) : Option (List Char) :=
  match s with
  | [] => none
  | c :: r =>
    if beginsIdentifier c then
      let run := c :: r.takeWhile isIdentifier
      if column < run.length then some (withoutDots run)
      else identifierAt (r.dropWhile isIdentifier) (column - run.length)
    else
      match column with
      | 0 => none
      | column + 1 => identifierAt r column
termination_by s.length
decreasing_by
  · exact Nat.lt_succ_of_le (List.dropWhile_suffix _).length_le
  · simp

end Debugline.Text
