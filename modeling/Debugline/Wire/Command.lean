import Debugline.Text.Utf8

/-! Commands to the debugger. Lines and rows are counted from 1, and a carriage
return ends each command. -/

namespace Debugline.Wire

inductive Command
  | go
  | runToLine (line : Nat)
  | stepOut
  | stepInto
  | stepOver
  | evaluate (expr : String)
  | setWatch (row : Nat) (name : String)
  | clearWatch (row : Nat)
  | breakAt (file : String) (line : Nat)
  | clearBreakpoints
  deriving DecidableEq, Repr

namespace Command

/-- Whether the command sets the program going. -/
def resumes : Command → Bool
  | .go | .runToLine _ | .stepOut | .stepInto | .stepOver => true
  | _ => false

def text : Command → String
  | .go => "g"
  | .runToLine line => "g " ++ toString line
  | .stepOut => "g func"
  | .stepInto => "s"
  | .stepOver => "n"
  | .evaluate expr => "d " ++ expr
  | .setWatch row name => "w " ++ toString row ++ " " ++ name
  | .clearWatch row => "cw " ++ toString row
  | .breakAt file line => "break " ++ file ++ ":" ++ toString line
  | .clearBreakpoints => "cbreak *"

end Command

/-- The byte that ends what is sent to the program. -/
def terminator : UInt8 := 0x0d

/-- A text as it is sent to the program. -/
def terminated (text : String) : List UInt8 := Text.encode text ++ [terminator]

/-- A command as it is sent to the debugger. -/
def Command.wire (c : Command) : List UInt8 := terminated c.text

end Debugline.Wire
