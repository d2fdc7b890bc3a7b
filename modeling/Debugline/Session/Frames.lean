import Debugline.Session.Controller
import Debugline.Wire.Frame

/-! What the output of the program does to the controller. Frames are applied one
after the other in the order they came, and after them the text of the chunk goes to
the terminal. -/

namespace Debugline.Controller

open Session Wire

variable {τ : Type} [Transport τ]

def showValue (c : Controller τ) (scope : Scope) (text : String) : Controller τ :=
  c.push (.valuePopup scope text c.hover)

/-- Execution reached a line, counted from 1. The program may not stop there, so the
line is shown but not marked. -/
def reachLine (c : Controller τ) (line : Nat) : Controller τ :=
  match c.session with
  | none => c
  | some s =>
    let line := line - 1
    let c := { c with session := some { s with line } }
    let c :=
      match c.editor.locateOrOpen s.file with
      | (_, none) => c
      | (editor, some doc) => { c with editor := editor.scrollTo doc line }
    c.push (.navigate s.file line)

/-- Once no watch is to be sent, the blank row at their end is put in order. -/
def settleWatches (c : Controller τ) : Controller τ :=
  if c.watches.pending.isEmpty then
    match c.watches.normalize with
    | (table, true) => { c with watches := table }.push .watchTableChanged
    | (_, false) => c
  else c

def reportPause (c : Controller τ) : Controller τ :=
  match c.session with
  | none => c
  | some s => c.push (.paused s.file s.line)

/-- The debugger waits: the command before was taken, so one of each schedule is sent. -/
def reachPrompt (c : Controller τ) : Controller τ :=
  let c := { c with state := .pausedAtPrompt }.placeMarker.advanceWatches.settleWatches
  { c with breakpointSent := false }.advanceBreakpoints.reportPause

/-- What a frame does. A watch frame of a row that the table has no place for does
nothing. -/
def apply (c : Controller τ) (f : Frame) : Controller τ :=
  match f with
  | .file path => (c.note (.frame f)).modifySession fun s => { s with file := path }
  | .watch row name value =>
    match c.watches.update row name value with
    | (_, none) => c
    | (table, some row) => { c.note (.frame f) with watches := table }.push (.watchUpdated row)
  | .localValue text => (c.note (.frame f)).showValue .local text
  | .globalValue text => (c.note (.frame f)).showValue .global text
  | .info text => (c.note (.frame f)).push (.status text)
  | .lineNumber line => (c.note (.frame f)).reachLine line
  | .prompt => (c.note (.frame f)).reachPrompt

/-- Applies the body of a frame; one that cannot be read does nothing. -/
def dispatch (c : Controller τ) (body : String) : Controller τ :=
  match Frame.parse body c.config.prompt with
  | .ok frame => c.apply frame
  | .error _ => c

def pushText (c : Controller τ) (text : List UInt8) : Controller τ :=
  if text.isEmpty then c else c.push (.terminal (Text.decodeLossy text))

/-- Takes a chunk of the output stream. -/
def takeOutput (c : Controller τ) (bytes : List UInt8) : Controller τ :=
  match c.session with
  | none => c
  | some s =>
    let (scanner, out) := s.scanner.feed bytes
    let c := { c with session := some { s with scanner } }
    (out.frames.foldl dispatch c).pushText out.text

/-- Takes a chunk of the error stream, which holds no frames. -/
def takeErrors (c : Controller τ) (bytes : List UInt8) : Controller τ := c.pushText bytes

end Debugline.Controller
