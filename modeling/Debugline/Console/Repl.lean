import Debugline.Console.Host
import Debugline.Console.Request

/-! The console at work: a line is asked for whenever the program is silent. It is a
request at a prompt of the debugger, and input of the program while that runs. -/

namespace Debugline.Console

open Session

/-- What a terminal gives when it is asked for a line. -/
inductive Typed
  | line (text : String)
  | interrupted
  | ended
  | failed (cause : String)
  deriving DecidableEq, Repr

/-- The lines listed around the current one, on either side. -/
def listContext : Nat := 5

def greeting : String := "Type 'help' for available commands, 'quit' to exit.\n\n"

def unknownRequest (line : String) : String :=
  "Unknown command: " ++ line ++ "\nType 'help' for available commands.\n"

def helpText : String := "\n".intercalate [
  "Available commands:",
  "",
  "  help              - Show this help message",
  "  quit/exit/q       - Kill the program and exit",
  "",
  "Execution:",
  "  continue (c)      - Continue execution",
  "  step (s)          - Step into",
  "  next (n)          - Step over",
  "  finish (f)        - Run until the current function returns",
  "  until (u) <line>  - Run to a line in the current file",
  "  input <text>      - Send a line to the program's input",
  "                      (at the running prompt every line goes to the program)",
  "  kill              - Terminate the program",
  "",
  "Breakpoints and watches:",
  "  break (b) <file>:<line> - Toggle a breakpoint",
  "  delete            - Delete all breakpoints",
  "  breakpoints (bl)  - List breakpoints",
  "  watch (w) <expr>  - Add a watch expression",
  "  unwatch <row>     - Remove a watch expression",
  "  watches           - List watch expressions",
  "  print (p) <expr>  - Evaluate an expression",
  "  list (l)          - Show source around the current line",
  "",
  "Examples:",
  "  break main.p:12",
  "  watch total",
  "  until 40",
  ""]

def breakpointTable (ls : List Breakpoint.Location) : String :=
  if ls.isEmpty then "No breakpoints\n"
  else String.join (ls.zipIdx.map fun (l, i) =>
    "  " ++ toString (i + 1) ++ ". " ++ place l.file l.line ++ "\n")

def watchTable (rows : List Watch.Entry) : String :=
  let named := rows.zipIdx.filter fun (e, _) => !e.isBlank
  if named.isEmpty then "No watches\n"
  else String.join (named.map fun (e, i) =>
    "  " ++ toString (i + 1) ++ ". " ++ e.name ++ " = " ++ e.value ++ "\n")

/-- The lines around a line, counted from 0. There are none if the number of the last does
not fit in a word. -/
def listWindow (current : Nat) : Option (List Nat) :=
  let start := current - listContext
  (Text.bounded (current + listContext)).map fun last => List.range' start (last + 1 - start)

/-- How the console ends. -/
inductive Ending
  /-- The user leaves, or the program is gone. -/
  | left
  /-- A sum does not fit in a word. -/
  | crashed
  deriving DecidableEq, Repr

/-- What keeps a request from being carried out. -/
inductive Fault
  | refused (r : Refusal)
  | overflow
  deriving DecidableEq, Repr

namespace Host

variable {τ : Type} [Transport τ]

/-- The lines of a window up to the first that the document lacks, with their texts. -/
def linesOf (h : Host τ) (doc : DocId) (window : List Nat) : List (Nat × Option String) :=
  (window.map fun l => (l, h.controller.editor.lineText? doc l)).takeWhile (·.2.isSome)

/-- The lines around the current one, if the window around it has an end. -/
def listing (h : Host τ) : Option String :=
  match h.controller.session with
  | none => some "No session is running\n"
  | some s =>
    match h.controller.editor.locate? s.file with
    | none => some ("Source not available: " ++ s.file ++ "\n")
    | some doc => (listWindow s.line).map fun window =>
      String.join ((h.linesOf doc window).map fun (l, text) =>
        sourceLine l (if l = s.line then "=>" else "  ") (text.getD ""))

/-- Has the controller do what it may refuse. -/
def attempt (h : Host τ) (f : Controller τ → Controller τ × Except Refusal Unit) :
    Host τ × Except Fault Unit :=
  let (h, r) := h.control f
  (h, r.mapError .refused)

def toggleAnswer (file : String) (line : Nat) : Option Bool → String
  | some true => "Breakpoint set at " ++ file ++ ":" ++ toString line
  | some false => "Breakpoint removed at " ++ file ++ ":" ++ toString line
  | none => "Invalid breakpoint location: " ++ file ++ ":" ++ toString line

/-- Does what a request asks, before its events are printed. -/
def perform (h : Host τ) : Request → Host τ × Except Fault Unit
  | .go => h.attempt Controller.goOn
  | .step => h.attempt Controller.stepInto
  | .next => h.attempt Controller.stepOver
  | .finish => h.attempt Controller.stepOut
  | .until line => h.attempt (·.runToLine line)
  | .breakAt file line =>
    let (h, set) := h.control (·.toggleBreakpointAt file (line - 1))
    (h.outLine (toggleAnswer file line set), .ok ())
  | .delete =>
    let (h, _) := h.control fun c => (c.clearBreakpoints, ())
    (h.outLine "All breakpoints deleted", .ok ())
  | .breakpoints =>
    let (h, ls) := h.control Controller.listBreakpoints
    (h.out (breakpointTable ls), .ok ())
  | .watch expr =>
    let (h, row) := h.control (·.addWatch expr)
    (h.outLine ("Watch " ++ toString (row + 1) ++ " added: " ++ expr), .ok ())
  | .unwatch 0 => (h.outLine "No watch at row 0", .ok ())
  | .unwatch (row + 1) =>
    match h.control (·.deleteWatch row) with
    | (h, true) => (h, .ok ())
    | (h, false) => (h.outLine ("No watch at row " ++ toString (row + 1)), .ok ())
  | .watches => (h.out (watchTable h.controller.watches.rows), .ok ())
  | .print expr => h.attempt (·.evaluate expr none)
  | .input text => h.attempt (·.sendInput text)
  | .list =>
    match h.listing with
    | some text => (h.out text, .ok ())
    | none => (h, .error .overflow)
  | .kill => h.attempt Controller.abort
  | .help => (h.out helpText, .ok ())
  | .quit => (h, .ok ())

/-- Does what a request asks. A refusal is printed, and then the events wait; a sum that does
not fit is the end. -/
def handle (h : Host τ) (r : Request) : Host τ × Option Ending :=
  match h.perform r with
  | (h, .ok ()) => (h.printEvents.1, none)
  | (h, .error (.refused refusal)) => (h.err refusal, none)
  | (h, .error .overflow) => (h, some .crashed)

def abortIfRunning (h : Host τ) : Host τ :=
  if h.controller.hasSession then
    match h.control Controller.abort with
    | (h, .ok ()) => h.printEvents.1
    | (h, .error refusal) => (h.err refusal).printEvents.1
  else h

/-- What is asked with: whether the program runs decides who gets the line. -/
def promptText (running : Bool) : String := if running then "(tansa:running) " else "(tansa) "

/-- Answers a line typed at a prompt of the debugger, and says how the console ends if that
was the last. -/
def answer (h : Host τ) (line : String) : Host τ × Option Ending :=
  let line := Text.trimmed line
  if line.isEmpty then (h, none)
  else
    let h := h.write (.history line)
    match Request.parse line with
    | some .quit => (h.abortIfRunning, some .left)
    | some r => h.handle r
    | none => (h.out (unknownRequest line), none)

/-- Asks for lines until there are none or the program is gone. `budget` is the
number of polls that one pump may take. -/
def converse (budget : Controller τ → Nat) : List Typed → Host τ → Option (Host τ × Ending)
  | typed, h => do
    let h ← h.pumpUntilIdle (budget h.controller) 0
    if h.controller.hasSession then
      let running := h.controller.state = .running
      let h := h.write (.prompt (promptText running))
      match typed with
      | .line text :: rest =>
        if running then converse budget rest (h.sendInput text)
        else
          match h.answer text with
          | (h, some ending) => some (h, ending)
          | (h, none) => converse budget rest h
      | .interrupted :: _ => some ((h.outLine "CTRL-C").abortIfRunning, .left)
      | .failed cause :: _ =>
        some ((h.write (.err ("Error: " ++ cause ++ "\n"))).abortIfRunning, .left)
      | .ended :: _ | [] => some ((h.outLine "CTRL-D").abortIfRunning, .left)
    else some (h, .left)

def repl (budget : Controller τ → Nat) (typed : List Typed) (h : Host τ) :
    Option (Host τ × Ending) :=
  converse budget typed (h.out greeting)

end Host

end Debugline.Console
