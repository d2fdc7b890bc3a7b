import Debugline.Editor.Basic
import Debugline.Wire.Command

/-! Breakpoints are the breakpoint markers of the open documents. The debugger hears
of them by one command at a prompt, so after a change the schedule starts over:
first all are cleared, then each is set. -/

namespace Debugline.Breakpoint

open Wire

structure Location where
  file : String
  /-- Counted from 0. -/
  line : Nat
  deriving DecidableEq, Repr

def Location.command (l : Location) : Command := .breakAt l.file (l.line + 1)

/-- The breakpoint markers by document in opening order, then by line. -/
def ofEditor (e : Editor) : List Location :=
  e.opened.flatMap fun (_, d) => d.breakpoints.toList.map (⟨d.path, ·⟩)

structure Schedule where
  /-- The breakpoints as last derived; `none` if they have to be derived again. -/
  known : Option (List Location)
  /-- How many of them have been sent. -/
  sent : Nat
  /-- Whether clearing them all is still to be sent. -/
  dirty : Bool
  deriving DecidableEq, Repr

namespace Schedule

def new : Schedule := ⟨none, 0, false⟩

/-- Starts over after a change. -/
def invalidate (_ : Schedule) : Schedule := ⟨none, 0, true⟩

/-- The breakpoints the schedule goes by. -/
def locations (s : Schedule) (e : Editor) : List Location := s.known.getD (ofEditor e)

/-- Derives the breakpoints if they have to be, and keeps them. -/
def rebuild (s : Schedule) (e : Editor) : Schedule := { s with known := some (s.locations e) }

def list (s : Schedule) (e : Editor) : Schedule × List Location := (s.rebuild e, s.locations e)

/-- Whether a command is left to be sent. -/
def hasPending (s : Schedule) (e : Editor) : Schedule × Bool :=
  (s.rebuild e, s.dirty || s.sent < (s.locations e).length)

/-- Takes the next command to be sent. -/
def next (s : Schedule) (e : Editor) : Schedule × Option Command :=
  let known := s.locations e
  if s.dirty then (⟨known, 0, false⟩, some .clearBreakpoints)
  else
    match known[s.sent]? with
    | none => (s.rebuild e, none)
    | some l => (⟨known, s.sent + 1, false⟩, some l.command)

/-- Takes commands until none is left, or `limit` of them. -/
def take (s : Schedule) (e : Editor) : (limit : Nat) → Schedule × List Command
  | 0 => (s, [])
  | limit + 1 =>
    match s.next e with
    | (s, none) => (s, [])
    | (s, some c) =>
      let (s, cs) := s.take e limit
      (s, c :: cs)

/-- Takes all commands: one to clear and one for each breakpoint at most. -/
def drain (s : Schedule) (e : Editor) : Schedule × List Command :=
  s.take e ((s.locations e).length + 2)

/-- Sets or removes the breakpoint of a line, and says whether it is now set. -/
def toggle (s : Schedule) (e : Editor) (doc : DocId) (line : Nat) : Schedule × Editor × Bool :=
  if e.hasMarker doc line .breakpoint then
    (s.invalidate, e.removeMarker doc line .breakpoint, false)
  else (s.invalidate, e.addMarker doc line .breakpoint, true)

/-- Removes the breakpoints of all open documents. -/
def clearAll (s : Schedule) (e : Editor) : Schedule × Editor :=
  let unmark (e : Editor) (doc : DocId) : Editor :=
    (e.markers doc .breakpoint).foldl (fun e line => e.removeMarker doc line .breakpoint) e
  (s.invalidate, e.documents.foldl unmark e)

end Schedule

end Debugline.Breakpoint
