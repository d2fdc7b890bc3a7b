import Debugline.Console.Program
import Debugline.Machine.System

/-! The console at the command line. -/

namespace Debugline

/-- Reads a stream to its end. -/
partial def readToEnd (s : IO.FS.Stream) (acc : List UInt8) : IO (List UInt8) := do
  let bytes ← s.read 65536
  if bytes.isEmpty then pure acc.reverse
  else readToEnd s (bytes.toList.reverse ++ acc)

end Debugline

def main (args : List String) : IO UInt32 := do
  let input ← Debugline.readToEnd (← IO.getStdin) []
  let report := Debugline.Console.run (Debugline.Machine.start .empty) args input .empty
  (← IO.getStdout).putStr report.out
  (← IO.getStderr).putStr report.err
  pure (UInt32.ofNat report.code)
