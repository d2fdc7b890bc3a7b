import Debugline.Console.Repl
import Debugline.Transport.Script

/-! Hosts of scripted programs. A script says how many polls it can keep busy, so
they need no other limit. -/

namespace Debugline.Console.Host

/-- Polls that are enough for a pump. Each that reports something reads a chunk, ends
the session, or prints what waited before; fewer than `patience` silent ones lie
between two of them. -/
def enough (c : Controller Script) : Nat :=
  match c.session with
  | none => 1
  | some s => 26 * (s.transport.work + 4)

def replScripted (typed : List Typed) (h : Host Script) : Option (Host Script × Ending) :=
  h.repl enough typed

/-- Runs a program that exits once all it wrote is read. -/
def runScripted (lines : List String) (h : Host Script) : Option (Host Script) :=
  h.pumpUntilExit (enough h.controller) lines

end Debugline.Console.Host
