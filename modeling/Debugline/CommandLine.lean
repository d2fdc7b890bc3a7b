/-! How a program is started. -/

namespace Debugline

structure CommandLine where
  program : String
  args : List String
  /-- The directory the program starts in. -/
  dir : Option String
  deriving DecidableEq, Repr

namespace CommandLine

def new (program : String) : CommandLine := ⟨program, [], none⟩

def addArgs (c : CommandLine) (args : List String) : CommandLine :=
  { c with args := c.args ++ args }

def inDir (c : CommandLine) (dir : String) : CommandLine := { c with dir := some dir }

/-- The words with single spaces between them; nothing is quoted. -/
def display (c : CommandLine) : String := " ".intercalate (c.program :: c.args)

end CommandLine

end Debugline
