import Debugline.Editor.Basic
import Debugline.Transport.Basic
import Debugline.Wire.Command
import Debugline.Wire.Frame

/-! What a session reports to its host, what it sends, why it refuses, and what is
remembered of it. -/

namespace Debugline.Session

inductive Mode
  /-- The program alone: its output holds no frames. -/
  | run
  | debug
  deriving DecidableEq, Repr

inductive State
  | notRunning
  | launching
  | running
  | pausedAtPrompt
  | terminated
  deriving DecidableEq, Repr

inductive Scope
  | local
  | global
  deriving DecidableEq, Repr

/-- Where in a document a value was asked for. -/
structure Hover where
  doc : DocId
  position : Nat
  deriving DecidableEq, Repr

/-- Lines and rows are counted from 0. -/
inductive Event
  | terminal (text : String)
  | status (text : String)
  | watchUpdated (row : Nat)
  | watchTableChanged
  | valuePopup (scope : Scope) (text : String) (hover : Option Hover)
  | navigate (path : String) (line : Nat)
  | paused (path : String) (line : Nat)
  | terminated
  deriving DecidableEq, Repr

inductive Refusal
  | notRunning
  | alreadyRunning
  | notDebugging
  | notPaused
  | spawnFailed (cause : Failure)
  | transport (cause : Failure)
  deriving DecidableEq, Repr

namespace Refusal

def message : Refusal → String
  | notRunning => "No session is running"
  | alreadyRunning => "A session is already running"
  | notDebugging => "The session was not started in debug mode"
  | notPaused => "The debugger is not waiting at a prompt"
  | spawnFailed cause => "Failed to start program: " ++ cause.report
  | transport cause => cause.message

end Refusal

/-- What is written to the program. -/
inductive Sent
  | command (c : Wire.Command)
  | input (text : String)
  deriving DecidableEq, Repr

def Sent.bytes : Sent → List UInt8
  | .command c => c.wire
  | .input text => Wire.terminated text

/-- What is done to the program, in the order it is done. -/
inductive Traffic
  | write (sent : Sent) (accepted : Bool)
  | terminate
  | kill
  deriving DecidableEq, Repr

/-- What is remembered of a run. -/
inductive Mark
  | launched (mode : Mode)
  /-- A frame was applied. -/
  | frame (f : Wire.Frame)
  /-- The user gave a row of the watches an expression; the empty one deletes it. -/
  | asked (row : Nat) (name : String)
  /-- Something was handed to the transport, in a state of the controller and a session
  of a mode. -/
  | sent (state : State) (mode : Mode) (what : Sent) (accepted : Bool)
  deriving DecidableEq, Repr

end Debugline.Session
