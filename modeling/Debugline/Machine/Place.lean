import Debugline.Disk
import Debugline.Machine.Errno
import Debugline.Path

/-! Places in the tree of files: below the root of the system, or below the directory
where programs start. -/

namespace Debugline.Machine

structure Place where
  /-- Whether the parts stand below the root of the system. -/
  absolute : Bool
  parts : List String
  deriving DecidableEq, Repr

namespace Place

/-- The directory where programs start. -/
def start : Place := ⟨false, []⟩

/-- One part further: `..` goes up, and at the top it stays there. -/
def enter (p : Place) (part : String) : Place :=
  if part = ".." then { p with parts := p.parts.dropLast }
  else { p with parts := p.parts ++ [part] }

/-- The place that a path names as seen from a directory. -/
def resolve (cwd : Place) (path : String) : Place :=
  let base := if path.startsWith "/" then ⟨true, []⟩ else cwd
  ((Path.components path.toList).map String.ofList).foldl enter base

end Place

end Debugline.Machine
