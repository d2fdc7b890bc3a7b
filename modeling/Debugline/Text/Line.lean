/-! Lines of a text. -/

namespace Debugline.Text

/-- A text without one carriage return at its end. -/
def dropReturn (s : List Char) : List Char :=
  if s.getLast? = some '\r' then s.dropLast else s

/-- The lines of a text. A line ends at a line feed or at a carriage return and a
line feed; what follows the last line feed is a line if it is not empty, and keeps
a carriage return at its end. -/
def lines (s : List Char) : List (List Char) :=
  let parts := s.splitOn '\n'
  let closed := parts.dropLast.map dropReturn
  match parts.getLast? with
  | none | some [] => closed
  | some rest => closed ++ [rest]

end Debugline.Text
