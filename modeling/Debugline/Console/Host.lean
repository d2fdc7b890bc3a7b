import Debugline.Session.Operation

/-! The host runs a controller at a terminal: it polls, prints what the controller
reports, and keeps a log of all that is seen from outside. -/

namespace Debugline.Console

open Session

/-- What is seen of a host. -/
inductive Entry
  | out (text : String)
  | err (text : String)
  /-- A line is asked for. -/
  | prompt (text : String)
  /-- A line is remembered for recall. -/
  | history (text : String)
  | traffic (t : Traffic)
  deriving DecidableEq, Repr

structure Host (τ : Type) where
  controller : Controller τ
  /-- Milliseconds between two polls. -/
  interval : Nat
  log : List Entry

/-- A number in five columns or more. -/
def inColumns (n : Nat) : String :=
  let s := toString n
  String.ofList (List.replicate (5 - s.length) ' ') ++ s

/-- A line of source, numbered from 1. -/
def sourceLine (line : Nat) (mark text : String) : String :=
  inColumns (line + 1) ++ " " ++ mark ++ " " ++ text ++ "\n"

def place (path : String) (line : Nat) : String := path ++ ":" ++ toString (line + 1)

namespace Host

variable {τ : Type} [Transport τ]

def write (h : Host τ) (e : Entry) : Host τ := { h with log := h.log ++ [e] }

def out (h : Host τ) (text : String) : Host τ := h.write (.out text)

def outLine (h : Host τ) (text : String) : Host τ := h.out (text ++ "\n")

def err (h : Host τ) (r : Refusal) : Host τ := h.write (.err ("Error: " ++ r.message ++ "\n"))

/-- Has the controller do something, and logs what that did to the program. -/
def control {α : Type} (h : Host τ) (f : Controller τ → Controller τ × α) : Host τ × α :=
  let (c, a) := f h.controller
  let (controller, traffic) := c.takeTraffic
  ({ h with controller, log := h.log ++ traffic.map .traffic }, a)

/-- The line of source where the program stopped, if its document is open. -/
def stoppedLine (c : Controller τ) (path : String) (line : Nat) : String :=
  match (c.editor.locate? path).bind (c.editor.lineText? · line) with
  | none => ""
  | some text => sourceLine line "=>" text

/-- An event as it is printed. -/
def describe (c : Controller τ) : Event → String
  | .terminal text => text
  | .status text => "[info] " ++ text ++ "\n"
  | .watchUpdated row =>
    match c.watches.rows[row]? with
    | none => ""
    | some e => "[watch " ++ toString (row + 1) ++ "] " ++ e.name ++ " = " ++ e.value ++ "\n"
  | .valuePopup .local text _ => "(local) " ++ text ++ "\n"
  | .valuePopup .global text _ => "(global) " ++ text ++ "\n"
  | .paused path line =>
    "\nStopped at " ++ place path line ++ "\n" ++ stoppedLine c path line
  | .terminated => "\nProgram terminated\n"
  | .navigate _ _ | .watchTableChanged => ""

/-- Prints the events that wait, and says whether there were any. -/
def printEvents (h : Host τ) : Host τ × Bool :=
  let (controller, events) := h.controller.takeEvents
  ({ h with
      controller
      log := h.log ++ events.map fun e => .out (describe controller e) },
    !events.isEmpty)

def tick (h : Host τ) : Host τ × Bool :=
  (h.control fun c => (c.poll, ())).1.printEvents

/-- Lets the time between two polls go by. -/
def pause (h : Host τ) : Host τ :=
  { h with controller := h.controller.modifySession fun s =>
      { s with transport := Transport.wait s.transport h.interval } }

/-- Sends a line to the program; if that fails, the next poll finds out why. -/
def sendInput (h : Host τ) (line : String) : Host τ :=
  (h.control fun c => c.sendInput line).1

/-- The number of polls without events that count as silence: few at a prompt, more
while the program runs and may be about to write. -/
def patience (c : Controller τ) : Nat := if c.state = .pausedAtPrompt then 3 else 25

/-- Polls until the program is silent or gone; `quiet` polls without events came
before. There is no result if `fuel` polls are not enough. -/
def pumpUntilIdle : (fuel quiet : Nat) → Host τ → Option (Host τ)
  | 0, _, _ => none
  | fuel + 1, quiet, h =>
    if h.controller.hasSession then
      let (h, any) := h.tick
      let quiet := if any then 0 else quiet + 1
      if patience h.controller ≤ quiet then some h else pumpUntilIdle fuel quiet h.pause
    else some h

/-- Polls until the program is gone, and sends it the lines that wait. There is no
result if `fuel` polls are not enough. -/
def pumpUntilExit : (fuel : Nat) → (lines : List String) → Host τ → Option (Host τ)
  | 0, _, _ => none
  | fuel + 1, lines, h =>
    if h.controller.hasSession then
      pumpUntilExit fuel [] ((lines.foldl sendInput h).tick.1.pause)
    else some h

end Host

end Debugline.Console
