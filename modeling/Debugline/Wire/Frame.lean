import Debugline.Text.Blank
import Debugline.Text.Line
import Debugline.Text.Numeral

/-! Frames, the messages of the debugger: a body without its escape and line feed
is read as one of them or refused with a cause. -/

namespace Debugline.Wire

open Text

inductive Frame
  /-- The source file of the lines that follow. -/
  | file (path : String)
  /-- The value of the watch in a row; rows are counted from 1. -/
  | watch (row : Nat) (name value : String)
  | localValue (text : String)
  | globalValue (text : String)
  | info (text : String)
  /-- The debugger waits for a command. -/
  | prompt
  /-- Execution reached a line; lines are counted from 1. -/
  | lineNumber (line : Nat)
  deriving DecidableEq, Repr

inductive FrameError
  | empty
  | unknownVerb (verb : String)
  | invalidLineNumber (token : String)
  | invalidWatchRow (token : String)
  | missingWatchName
  deriving DecidableEq, Repr

namespace FrameError

def message : FrameError → String
  | empty => "empty frame"
  | unknownVerb verb => "unknown frame verb '" ++ verb ++ "'"
  | invalidLineNumber token => "invalid line number '" ++ token ++ "'"
  | invalidWatchRow token => "invalid watch row '" ++ token ++ "'"
  | missingWatchName => "watch frame without a name"

end FrameError

namespace Frame

/-- What follows the first tab, or without a tab all but the blanks in front. -/
def afterTab (s : List Char) : List Char :=
  match s.dropWhile (· != '\t') with
  | _ :: text => text
  | [] => trimStart s

/-- A row from 1 on, a name and the words of a value. -/
def readWatch (s : List Char) : Except FrameError Frame :=
  match words s with
  | [] => .error (.invalidWatchRow "")
  | token :: rest =>
    match unsigned? token with
    | none | some 0 => .error (.invalidWatchRow (.ofList token))
    | some row =>
      match rest with
      | [] => .error .missingWatchName
      | name :: value => .ok (.watch row (.ofList name) (.ofList ([' '].intercalate value)))

/-- A body that begins with no verb is a line number or nothing. -/
def readLine (token : List Char) : Except FrameError Frame :=
  if isDigits token then
    match digits? token with
    | some line => .ok (.lineNumber line)
    | none => .error (.invalidLineNumber (.ofList token))
  else .error (.unknownVerb (.ofList ((words token).headD token)))

/-- Reads a body without its carriage return. -/
def readBody (body : List Char) : Except FrameError Frame :=
  if (trim body).isEmpty then .error .empty
  else if let some rest := after? ['f', 'i', 'l', 'e'] body then
    .ok (.file (.ofList (trim rest)))
  else if let some rest := after? ['w', 'a', 't', 'c', 'h'] body then readWatch rest
  else if let some rest := after? ['l', 'o', 'c'] body then
    .ok (.localValue (.ofList (afterTab rest)))
  else if let some rest := after? ['g', 'l', 'b'] body then
    .ok (.globalValue (.ofList (afterTab rest)))
  else if let some rest := after? ['i', 'n', 'f', 'o'] body then
    .ok (.info (.ofList (trim rest)))
  else readLine (trim body)

/-- Reads the body of a frame. The prompt counts only if it is the whole body. -/
def parse (raw prompt : String) : Except FrameError Frame :=
  if raw = prompt then .ok .prompt else readBody (dropReturn raw.toList)

end Frame

end Debugline.Wire
