import Debugline.Text.Blank
import Debugline.Text.Numeral

/-! What a user types at the prompt of the console: a name and an argument, cut at
the first blank. -/

namespace Debugline.Console

open Text

inductive Request
  | go
  | step
  | next
  | finish
  /-- Lines and rows are counted from 1. -/
  | until (line : Nat)
  | breakAt (file : String) (line : Nat)
  | delete
  | breakpoints
  | watch (expr : String)
  | unwatch (row : Nat)
  | watches
  | print (expr : String)
  | input (text : String)
  | list
  | kill
  | help
  | quit
  deriving DecidableEq, Repr

namespace Request

/-- A file and a line from 1 on, cut at the last colon. The file is not empty and
within one line. -/
def location? (s : List Char) : Option (String × Nat) :=
  match s.reverse.dropWhile (· != ':') with
  | [] => none
  | _ :: file =>
    if file.isEmpty || file.contains '\n' then none
    else
      match digits? (s.reverse.takeWhile (· != ':')).reverse with
      | none | some 0 => none
      | some line => some (.ofList file.reverse, line)

/-- The name and the argument of a line. -/
def cut (line : List Char) : List Char × List Char :=
  match cutAtBlank (trim line) with
  | none => (trim line, [])
  | some (head, rest) => (head, trim rest)

/-- Reads a name with its argument; a name without one ignores what follows. -/
def read (head : String) (rest : List Char) : Option Request :=
  match head with
  | "continue" | "c" => some .go
  | "step" | "s" => some .step
  | "next" | "n" => some .next
  | "finish" | "f" => some .finish
  | "until" | "u" => (unsigned? rest).map .until
  | "break" | "b" => (location? rest).map fun (file, line) => .breakAt file line
  | "delete" => some .delete
  | "breakpoints" | "bl" => some .breakpoints
  | "watch" | "w" => if rest.isEmpty then none else some (.watch (.ofList rest))
  | "unwatch" => (unsigned? rest).map .unwatch
  | "watches" => some .watches
  | "print" | "p" => if rest.isEmpty then none else some (.print (.ofList rest))
  | "input" => some (.input (.ofList rest))
  | "list" | "l" => some .list
  | "kill" => some .kill
  | "help" | "h" | "?" => some .help
  | "quit" | "q" | "exit" => some .quit
  | _ => none

def parse (line : String) : Option Request :=
  let (head, rest) := cut line.toList
  read (.ofList head) rest

end Request

end Debugline.Console
