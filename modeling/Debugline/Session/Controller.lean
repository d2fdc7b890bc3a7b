import Debugline.Breakpoint
import Debugline.Session.Event
import Debugline.Watch
import Debugline.Wire.Scanner

/-! The controller drives one program at a time. Breakpoints and watches outlive the
sessions. Events wait in the controller until the host takes them, and so does the
record of what was done to the program. -/

namespace Debugline

open Session

/-- A program that runs. -/
structure Session (τ : Type) where
  transport : τ
  scanner : Wire.Scanner
  mode : Mode
  /-- The file last named by the debugger. -/
  file : String
  /-- Counted from 0. -/
  line : Nat
  /-- Where the marker of the current line was put. -/
  marker : Option (String × Nat)

structure Controller (τ : Type) where
  config : Wire.Config
  editor : Editor
  state : State
  session : Option (Session τ)
  breakpoints : Breakpoint.Schedule
  watches : Watch.Table
  /-- Whether a breakpoint command was sent at this prompt. -/
  breakpointSent : Bool
  /-- Where a value was last asked for. -/
  hover : Option Hover
  events : List Event
  traffic : List Traffic
  /-- All of the run, the newest first. -/
  journal : List Mark

namespace Controller

variable {τ : Type} [Transport τ]

def new (config : Wire.Config) (editor : Editor) : Controller τ :=
  ⟨config, editor, .notRunning, none, .new, .new, false, none, [], [], []⟩

def hasSession (c : Controller τ) : Bool := c.session.isSome

def push (c : Controller τ) (e : Event) : Controller τ := { c with events := c.events ++ [e] }

def note (c : Controller τ) (m : Mark) : Controller τ := { c with journal := m :: c.journal }

def takeEvents (c : Controller τ) : Controller τ × List Event := ({ c with events := [] }, c.events)

def takeTraffic (c : Controller τ) : Controller τ × List Traffic :=
  ({ c with traffic := [] }, c.traffic)

def modifySession (c : Controller τ) (f : Session τ → Session τ) : Controller τ :=
  { c with session := c.session.map f }

/-- Runs an operation of the transport, if there is a session. -/
def withTransport {α : Type} (c : Controller τ) (absent : α) (f : τ → τ × α) : Controller τ × α :=
  match c.session with
  | none => (c, absent)
  | some s =>
    let (t, a) := f s.transport
    ({ c with session := some { s with transport := t } }, a)

/-- Writes to the program and records it. -/
def transmit (c : Controller τ) (sent : Sent) : Controller τ × Except Refusal Unit :=
  match c.session with
  | none => (c, .error .notRunning)
  | some s =>
    let (t, r) := Transport.write s.transport sent.bytes
    let c := { c with
      session := some { s with transport := t }
      traffic := c.traffic ++ [.write sent r.isOk]
      journal := .sent c.state s.mode sent r.isOk :: c.journal }
    (c, r.mapError .transport)

/-- Sends a command of a schedule. If that fails, the next poll finds out why. -/
def sendScheduled (c : Controller τ) (command : Wire.Command) : Controller τ :=
  (c.transmit (.command command)).1

/-- Sends the next breakpoint command, at a prompt and once for each. -/
def advanceBreakpoints (c : Controller τ) : Controller τ :=
  if c.state = .pausedAtPrompt ∧ !c.breakpointSent then
    match c.breakpoints.next c.editor with
    | (schedule, none) => { c with breakpoints := schedule }
    | (schedule, some command) =>
      { c with breakpoints := schedule, breakpointSent := true }.sendScheduled command
  else c

/-- Sends the watch command that is due. -/
def advanceWatches (c : Controller τ) : Controller τ :=
  match c.watches.next with
  | (_, none) => c
  | (table, some command) => { c with watches := table }.sendScheduled command

/-- Takes the marker of the current line off, if its document is open. -/
def removeMarker (c : Controller τ) : Controller τ :=
  match c.session with
  | none => c
  | some s =>
    match s.marker with
    | none => c
    | some (path, line) =>
      let c := c.modifySession fun s => { s with marker := none }
      match c.editor.locate? path with
      | none => c
      | some doc => { c with editor := c.editor.removeMarker doc line .currentLine }

/-- Marks the current line of the session, and no other. -/
def placeMarker (c : Controller τ) : Controller τ :=
  let c := c.removeMarker
  match c.session with
  | none => c
  | some s =>
    match c.editor.locateOrOpen s.file with
    | (_, none) => c
    | (editor, some doc) =>
      { c with
        editor := editor.addMarker doc s.line .currentLine
        session := some { s with marker := some (s.file, s.line) } }

/-- Ends the session; what was still to be sent of the watches is dropped. -/
def finish (c : Controller τ) : Controller τ :=
  { c.removeMarker with
    session := none
    state := .terminated
    hover := none
    watches := c.watches.clearPending }.push .terminated

end Controller

end Debugline
