import Debugline.Text.Utf8

/-! Files by path. A path names a file only as it was written; the directories are
the paths above the files. -/

namespace Debugline

structure Disk where
  files : List (String × List UInt8)
  deriving DecidableEq, Inhabited

namespace Disk

def empty : Disk := ⟨[]⟩

def contents? (d : Disk) (path : String) : Option (List UInt8) := d.files.lookup path

/-- The text of a file; empty if there is none or it is not UTF-8. -/
def text (d : Disk) (path : String) : String :=
  ((d.contents? path).bind Text.decode?).getD ""

/-- Puts a file in the place of the one of that name. -/
def write (d : Disk) (path : String) (contents : List UInt8) : Disk :=
  if d.files.any (·.1 == path) then
    ⟨d.files.map fun f => if f.1 = path then (path, contents) else f⟩
  else ⟨d.files ++ [(path, contents)]⟩

end Disk

end Debugline
