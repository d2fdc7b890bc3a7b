/-! Paths with `/` between their components. -/

namespace Debugline.Path

/-- The components that name something: neither empty nor `.`. -/
def components (path : List Char) : List (List Char) :=
  (path.splitOn '/').filter fun c => !c.isEmpty && c != ['.']

/-- The last component, or the whole path if it has none or the last is `..`. -/
def baseName (path : String) : String :=
  match (components path.toList).getLast? with
  | none => path
  | some ['.', '.'] => path
  | some c => .ofList c

end Debugline.Path
