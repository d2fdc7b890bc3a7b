import Debugline.Session.Run
import Mathlib.Logic.Relation

/-! The outline of a controller, and all it can do to it. The outline keeps what the
debugger is told and why: the state, the session's mode, the breakpoints, the watches and
the journal. It leaves out what is for display: events, documents but for their
breakpoints, the current file and line. `Move` says once what can happen to an outline;
an invariant of runs is proved for each move. -/

namespace Debugline

namespace Watch.Table

/-- Once nothing is pending, the blank row at the end is put in order. -/
def settle (t : Table) : Table := if t.pending.isEmpty then t.normalize.1 else t

theorem normalize_unchanged {t : Table} (h : t.normalize.2 = false) : t.normalize.1 = t := by
  revert h
  simp only [normalize]
  split <;> simp

end Watch.Table

namespace Breakpoint.Schedule

variable {s : Schedule} {e : Editor}

theorem next_dirty (h : s.dirty = true) :
    s.next e = (⟨some (s.locations e), 0, false⟩, some .clearBreakpoints) := by
  simp [next, h]

theorem next_some {l : Location} (h : s.dirty = false) (hl : (s.locations e)[s.sent]? = some l) :
    s.next e = (⟨some (s.locations e), s.sent + 1, false⟩, some l.command) := by
  simp [next, h, hl]

theorem next_none (h : s.dirty = false) (hl : (s.locations e)[s.sent]? = none) :
    s.next e = (s.rebuild e, none) := by
  simp [next, h, hl]

/-- What is due of a schedule are the breakpoints that it goes by. -/
theorem next_cases {s' : Schedule} {command : Wire.Command}
    (h : s.next e = (s', some command)) : s'.known = some (s.locations e) ∧
      (command = .clearBreakpoints ∨ ∃ l ∈ s.locations e, command = l.command) := by
  cases hd : s.dirty with
  | true =>
    rw [next_dirty hd] at h
    cases h
    exact ⟨rfl, .inl rfl⟩
  | false =>
    cases hl : (s.locations e)[s.sent]? with
    | none =>
      rw [next_none hd hl] at h
      cases h
    | some l =>
      rw [next_some hd hl] at h
      cases h
      exact ⟨rfl, .inr ⟨l, List.mem_of_getElem? hl, rfl⟩⟩

end Breakpoint.Schedule

open Session

/-- The command of a mark. -/
def Session.Mark.command? : Mark → Option Wire.Command
  | .sent _ _ (.command c) _ => some c
  | _ => none

structure Outline where
  state : State
  /-- The mode of the session, and whether its output is searched for frames. -/
  session : Option (Mode × Bool)
  breakpoints : Breakpoint.Schedule
  /-- The breakpoints of the open documents. -/
  located : List Breakpoint.Location
  breakpointSent : Bool
  watches : Watch.Table
  journal : List Mark

namespace Outline

def note (o : Outline) (m : Mark) : Outline := { o with journal := m :: o.journal }

/-- The breakpoints that are sent: those derived last, or those there are. -/
def known (o : Outline) : List Breakpoint.Location := o.breakpoints.known.getD o.located

/-- A debugger waits for a command. -/
structure Waits (o : Outline) : Prop where
  state : o.state = .pausedAtPrompt
  session : o.session = some (.debug, true)

/-- What can happen to an outline. -/
inductive Move : Outline → Outline → Prop
  | refuse {o} (idle : o.session = none) : Move o { o with state := .notRunning }
  | startRun {o} (idle : o.session = none) : Move o { o with
      state := .running, session := some (.run, false), breakpointSent := false
      journal := .launched .run :: o.journal }
  | startDebug {o} (idle : o.session = none) : Move o { o with
      state := .running, session := some (.debug, true), breakpointSent := false
      breakpoints := o.breakpoints.invalidate
      watches := o.watches.clearValues.rearm
      journal := .launched .debug :: o.journal }
  | finish {o} : Move o { o with
      state := .terminated, session := none, watches := o.watches.clearPending }
  /-- A frame that tells of neither a watch nor a prompt. -/
  | frame {o} (f : Wire.Frame) (session : o.session = some (.debug, true))
      (other : ∀ row name value, f ≠ .watch row name value) (going : f ≠ .prompt) :
      Move o (o.note (.frame f))
  | report {o} {row i : Nat} {name value : String} {table : Watch.Table}
      (session : o.session = some (.debug, true))
      (update : o.watches.update row name value = (table, some i)) :
      Move o { o.note (.frame (.watch row name value)) with watches := table }
  /-- A prompt, with no watch pending. -/
  | promptIdle {o} (session : o.session = some (.debug, true)) (none : o.watches.pending = []) :
      Move o { o.note (.frame .prompt) with
        state := .pausedAtPrompt, breakpointSent := false, watches := o.watches.settle }
  /-- A prompt, at which a watch is sent. -/
  | promptWatch {o} {row : Nat} {rest : List Nat} (session : o.session = some (.debug, true))
      (due : o.watches.pending = row :: rest) (ok : Bool) :
      Move o { (o.note (.frame .prompt)).note
          (.sent .pausedAtPrompt .debug (.command (o.watches.commandFor row)) ok) with
        state := .pausedAtPrompt, breakpointSent := false
        watches := { o.watches with pending := rest }.settle }
  | clear {o} (waits : o.Waits) (fresh : o.breakpointSent = false)
      (dirty : o.breakpoints.dirty = true) (ok : Bool) :
      Move o { o.note (.sent .pausedAtPrompt .debug (.command .clearBreakpoints) ok) with
        breakpoints := ⟨some o.known, 0, false⟩, breakpointSent := true }
  | breakAt {o} {l : Breakpoint.Location} (waits : o.Waits) (fresh : o.breakpointSent = false)
      (clean : o.breakpoints.dirty = false) (due : o.known[o.breakpoints.sent]? = some l)
      (ok : Bool) :
      Move o { o.note (.sent .pausedAtPrompt .debug (.command l.command) ok) with
        breakpoints := ⟨some o.known, o.breakpoints.sent + 1, false⟩, breakpointSent := true }
  | rebuild {o} : Move o { o with breakpoints := { o.breakpoints with known := some o.known } }
  | resume {o} {command : Wire.Command} (waits : o.Waits) (resumes : command.resumes = true) :
      Move o { o.note (.sent .pausedAtPrompt .debug (.command command) true) with
        state := .running }
  /-- A command that sets the program going, but was not accepted. -/
  | resumeFailed {o} {command : Wire.Command} (waits : o.Waits)
      (resumes : command.resumes = true) :
      Move o (o.note (.sent .pausedAtPrompt .debug (.command command) false))
  | evaluate {o} (expr : String) (waits : o.Waits) (ok : Bool) :
      Move o (o.note (.sent .pausedAtPrompt .debug (.command (.evaluate expr)) ok))
  | input {o} {mode : Mode} {scanned : Bool} (text : String)
      (session : o.session = some (mode, scanned)) (ok : Bool) :
      Move o (o.note (.sent o.state mode (.input text) ok))
  /-- The controller changes breakpoints itself, or is told that they were changed. -/
  | invalidate {o} (located : List Breakpoint.Location) :
      Move o { o with breakpoints := o.breakpoints.invalidate, located }
  | edit {o} (row : Nat) (name : String) :
      Move o { o.note (.asked row (Text.trimmed name)) with watches := o.watches.edit row name }
  | delete {o} {row : Nat} (there : row < o.watches.rows.length) :
      Move o { o.note (.asked row "") with watches := (o.watches.delete row).1 }

abbrev Moves : Outline → Outline → Prop := Relation.ReflTransGen Move

/-- Only the output of a debugger is searched for frames, and only a debugger waits at a
prompt. -/
structure Sound (o : Outline) : Prop where
  searched : ∀ mode searched, o.session = some (mode, searched) → searched = (mode = .debug)
  paused : o.state = .pausedAtPrompt → o.session = some (.debug, true)

theorem Sound.waits {o : Outline} (h : o.Sound) (hp : o.state = .pausedAtPrompt) : o.Waits :=
  ⟨hp, h.paused hp⟩

theorem Sound.of_eq {o o' : Outline} (h : o.Sound) (hs : o'.state = o.state)
    (hm : o'.session = o.session) : o'.Sound :=
  ⟨by rw [hm]; exact h.searched, by rw [hs, hm]; exact h.paused⟩

theorem Move.sound {o o' : Outline} (m : Move o o') (h : o.Sound) : o'.Sound := by
  cases m with
  | refuse idle => exact ⟨h.searched, nofun⟩
  | startRun idle => exact ⟨by simp, nofun⟩
  | startDebug idle => exact ⟨by simp, nofun⟩
  | finish => exact ⟨nofun, nofun⟩
  | promptIdle session | promptWatch session => exact ⟨h.searched, fun _ => session⟩
  | resume => exact ⟨h.searched, nofun⟩
  | _ => exact h.of_eq rfl rfl

theorem Moves.sound {o o' : Outline} (ms : Moves o o') (h : o.Sound) : o'.Sound := by
  induction ms with
  | refl => exact h
  | tail _ m ih => exact m.sound ih

/-- Moves within a session. -/
structure Within (o o' : Outline) : Prop where
  moves : Moves o o'
  session : o'.session = o.session

namespace Within

theorem refl (o : Outline) : Within o o := ⟨.refl, rfl⟩

theorem single {o o' : Outline} (m : Move o o') (h : o'.session = o.session) : Within o o' :=
  ⟨.single m, h⟩

theorem trans {o o' o'' : Outline} (w : Within o o') (w' : Within o' o'') : Within o o'' :=
  ⟨w.moves.trans w'.moves, w'.session.trans w.session⟩

end Within

/-- What each move keeps, moves keep. -/
theorem Moves.keep {P : Outline → Prop} (keep : ∀ {o o'}, o.Sound → P o → Move o o' → P o')
    {o o' : Outline} (ms : Moves o o') (h : o.Sound) (hp : P o) : P o' := by
  induction ms with
  | refl => exact hp
  | tail ms m ih => exact keep (Moves.sound ms h) ih m

end Outline

end Debugline
