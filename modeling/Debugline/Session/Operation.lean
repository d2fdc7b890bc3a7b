import Debugline.Session.Life
import Debugline.Text.Identifier

/-! What the user asks of a session. -/

namespace Debugline.Controller

open Session Wire

variable {τ : Type} [Transport τ]

/-- Whether a debugger waits for a command, and if not, why. -/
def requirePaused (c : Controller τ) : Except Refusal Unit :=
  match c.session with
  | none => .error .notRunning
  | some s =>
    if s.mode ≠ .debug then .error .notDebugging
    else if c.state ≠ .pausedAtPrompt then .error .notPaused
    else .ok ()

/-- Sends a command that sets the program going. -/
def step (c : Controller τ) (command : Command) : Controller τ × Except Refusal Unit :=
  match c.requirePaused with
  | .error refusal => (c, .error refusal)
  | .ok () =>
    match c.removeMarker.transmit (.command command) with
    | (c, .error refusal) => (c, .error refusal)
    | (c, .ok ()) => ({ c with state := .running }, .ok ())

def goOn (c : Controller τ) : Controller τ × Except Refusal Unit := c.step .go

def stepInto (c : Controller τ) : Controller τ × Except Refusal Unit := c.step .stepInto

def stepOver (c : Controller τ) : Controller τ × Except Refusal Unit := c.step .stepOver

def stepOut (c : Controller τ) : Controller τ × Except Refusal Unit := c.step .stepOut

/-- Runs to a line, counted from 1. -/
def runToLine (c : Controller τ) (line : Nat) : Controller τ × Except Refusal Unit :=
  c.step (.runToLine line)

/-- Runs to the line of a position. -/
def runToCursor (c : Controller τ) (doc : DocId) (position : Nat) :
    Controller τ × Except Refusal Unit :=
  c.runToLine (c.editor.lineAt doc position + 1)

/-- Asks for the value of an expression; the answer belongs to the hover position. -/
def evaluate (c : Controller τ) (expr : String) (hover : Option Hover) :
    Controller τ × Except Refusal Unit :=
  match c.requirePaused with
  | .error refusal => (c, .error refusal)
  | .ok () => { c with hover }.transmit (.command (.evaluate (Text.trimmed expr)))

/-- The identifier at a position of a document. -/
def identifierAt? (e : Editor) (doc : DocId) (position : Nat) : Option String :=
  let line := e.lineAt doc position
  match e.lineText? doc line with
  | none => none
  | some text => (Text.identifierAt text.toList (position - e.lineStart doc line)).map .ofList

/-- Asks for the value of the identifier at a position, and returns the identifier. -/
def evaluateAt (c : Controller τ) (doc : DocId) (position : Nat) :
    Controller τ × Except Refusal (Option String) :=
  match c.requirePaused with
  | .error refusal => (c, .error refusal)
  | .ok () =>
    match identifierAt? c.editor doc position with
    | none => (c, .ok none)
    | some expr =>
      let (c, r) := c.evaluate expr (some ⟨doc, position⟩)
      (c, r.map fun _ => some expr)

/-- Sends a line to the program. -/
def sendInput (c : Controller τ) (text : String) : Controller τ × Except Refusal Unit :=
  c.transmit (.input text)

/-- Sets or removes a breakpoint, and says whether it is now set. At a prompt where
nothing was sent yet, the debugger hears of the change at once. -/
def toggleBreakpoint (c : Controller τ) (doc : DocId) (line : Nat) : Controller τ × Bool :=
  let (breakpoints, editor, set) := c.breakpoints.toggle c.editor doc line
  ({ c with breakpoints, editor }.advanceBreakpoints, set)

/-- The same by path; the document is opened if it is not open. -/
def toggleBreakpointAt (c : Controller τ) (path : String) (line : Nat) :
    Controller τ × Option Bool :=
  match c.editor.locateOrOpen path with
  | (_, none) => (c, none)
  | (editor, some doc) =>
    let (c, set) := { c with editor }.toggleBreakpoint doc line
    (c, some set)

def clearBreakpoints (c : Controller τ) : Controller τ :=
  let (breakpoints, editor) := c.breakpoints.clearAll c.editor
  { c with breakpoints, editor }.advanceBreakpoints

/-- Documents or their markers were changed from outside. -/
def documentsChanged (c : Controller τ) : Controller τ :=
  { c with breakpoints := c.breakpoints.invalidate }

def listBreakpoints (c : Controller τ) : Controller τ × List Breakpoint.Location :=
  let (breakpoints, ls) := c.breakpoints.list c.editor
  ({ c with breakpoints }, ls)

/-- Adds a watch expression and returns its row. -/
def addWatch (c : Controller τ) (name : String) : Controller τ × Nat :=
  let (watches, row) := c.watches.add name
  ({ c.note (.asked row (Text.trimmed name)) with watches }.push .watchTableChanged, row)

def editWatch (c : Controller τ) (row : Nat) (name : String) : Controller τ :=
  { c.note (.asked row (Text.trimmed name)) with
    watches := c.watches.edit row name }.push .watchTableChanged

def deleteWatch (c : Controller τ) (row : Nat) : Controller τ × Bool :=
  match c.watches.delete row with
  | (watches, true) => ({ c.note (.asked row "") with watches }.push .watchTableChanged, true)
  | (_, false) => (c, false)

end Debugline.Controller
