import Debugline.Proofs.Session.Stops

/-! What a session hears, and what is reported of a run. Some of the events wait in the controller
at the end of the run; the host took the others on the way. -/

namespace Debugline

open Session

/-- One reading of both streams of a transport. -/
def Transport.listen {τ : Type} [Transport τ] (t : τ) : τ × List UInt8 × List UInt8 :=
  let (t, output) := Transport.readOutput t
  let (t, errors) := Transport.readErrors t
  (t, output.toOption.getD [], errors.toOption.getD [])

namespace Session

/-- How bytes are shown: in one piece, unless there are none. -/
def shown (text : List UInt8) : List Event :=
  if text.isEmpty then [] else [.terminal (Text.decodeLossy text)]

end Session

namespace Controller

variable {τ : Type}

theorem pushText_eq_shown (c : Controller τ) (text : List UInt8) :
    c.pushText text = { c with events := c.events ++ shown text } := by
  unfold pushText shown
  split
  · rw [List.append_nil]
  · rfl

/-- The events that the host takes with a happening. -/
def taken (c : Controller τ) : Happening τ → List Event
  | .call .takeEvents => c.events
  | _ => []

theorem taken_of_ne (c : Controller τ) {x : Happening τ} (hx : x ≠ .call .takeEvents) :
    c.taken x = [] := by
  unfold taken
  split <;> trivial

variable [Transport τ]

theorem receive_of_listen {c : Controller τ} {s : Session τ} (hs : c.session = some s) {t : τ}
    {output errors : List UInt8} (listen : Transport.listen s.transport = (t, output, errors)) :
    c.receive =
      ({ c with session := some { s with transport := t } }.takeOutput output).takeErrors
        errors := by
  have hread :
      c.readStreams = ({ c with session := some { s with transport := t } }, output, errors) := by
    simp only [Transport.listen, Prod.mk.injEq] at listen
    obtain ⟨rfl, rfl, rfl⟩ := listen
    simp only [readStreams, withTransport, hs]
  rw [receive, hread]

theorem reported_cons (c : Controller τ) (x : Happening τ) (hs : List (Happening τ)) :
    c.reported (x :: hs) = c.taken x ++ (c.after x).reported hs := by
  cases x with
  | edit | meanwhile => rfl
  | call a => cases a <;> rfl

/-- The events that the host takes in a run. -/
def handed (c : Controller τ) : List (Happening τ) → List Event
  | [] => []
  | x :: hs => c.taken x ++ (c.after x).handed hs

theorem reported_eq (c : Controller τ) (hs : List (Happening τ)) :
    c.reported hs = c.handed hs ++ (c.run hs).events := by
  induction hs generalizing c with
  | nil => rfl
  | cons x hs ih =>
    rw [reported_cons, ih, handed, List.append_assoc]
    rfl

theorem reported_concat (c : Controller τ) (hs : List (Happening τ)) (x : Happening τ) :
    c.reported (hs ++ [x]) =
      c.handed hs ++ ((c.run hs).taken x ++ ((c.run hs).after x).events) := by
  induction hs generalizing c with
  | nil =>
    rw [List.nil_append, reported_cons]
    rfl
  | cons y hs ih =>
    rw [List.cons_append, reported_cons, ih, handed, List.append_assoc]
    rfl

end Controller

end Debugline
