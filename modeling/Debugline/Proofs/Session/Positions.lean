import Debugline.Proofs.Editor.Scroll
import Debugline.Proofs.Session.Convergence
import Debugline.Proofs.Session.Supply
import Debugline.Proofs.Session.UserMarkers

/-! Positions that are reported. A session keeps one path and one line, and each frame may change
them. What is reported with a frame is what the frames before it told, looked up among all of them:
the path that was named last and the line that was reached last. It does not depend on how the
output is cut into polls, on what else goes on, or on what an earlier session was told. -/

namespace Debugline

open Session Wire

/-! ### What frames tell -/

namespace Wire.Frame

/-- The path that a frame names. -/
def file? : Frame → Option String
  | .file path => some path
  | _ => none

/-- The line that a frame reaches, counted from 0; the debugger counts from 1, and its line 0 is
taken for its line 1. -/
def reached? : Frame → Option Nat
  | .lineNumber n => some (max n 1 - 1)
  | _ => none

/-- The positions that a frame reports, after a path was named and a line reached. -/
def reports (file : String) (line : Nat) : Frame → List Event
  | .prompt => [.paused file line]
  | .lineNumber n => [.navigate file (max n 1 - 1)]
  | _ => []

/-- The frames that bodies are read as; those that cannot be read are left out. -/
def readAll (prompt : String) (bodies : List String) : List Frame :=
  bodies.filterMap fun body => (parse body prompt).toOption

theorem readAll_append (prompt : String) (bodies later : List String) :
    readAll prompt (bodies ++ later) = readAll prompt bodies ++ readAll prompt later :=
  List.filterMap_append

end Wire.Frame

namespace Session

/-- Events that tell of a position. -/
def Event.isPosition : Event → Bool
  | .paused _ _ | .navigate _ _ => true
  | _ => false

theorem not_isPosition_of_isAside {e : Event} (h : e.isAside) : ¬e.isPosition := by
  cases e <;> first | exact Bool.false_ne_true | cases h

/-- The path that was named last. -/
def lastFile (past : List Frame) : String := (past.filterMap Frame.file?).getLast?.getD ""

/-- The line that was reached last. -/
def lastLine (past : List Frame) : Nat := (past.filterMap Frame.reached?).getLast?.getD 0

/-- The positions that frames report behind those of the past. -/
def positions (past : List Frame) : List Frame → List Event
  | [] => []
  | f :: frames => f.reports (lastFile past) (lastLine past) ++ positions (past ++ [f]) frames

theorem lastFile_concat (past : List Frame) (f : Frame) :
    lastFile (past ++ [f]) = f.file?.getD (lastFile past) := by
  cases f <;> simp [lastFile, Frame.file?]

theorem lastLine_concat (past : List Frame) (f : Frame) :
    lastLine (past ++ [f]) = f.reached?.getD (lastLine past) := by
  cases f <;> simp [lastLine, Frame.reached?]

theorem positions_append (past frames later : List Frame) :
    positions past (frames ++ later) =
      positions past frames ++ positions (past ++ frames) later := by
  induction frames generalizing past with
  | nil => rw [List.append_nil]; rfl
  | cons f frames ih =>
    rw [List.cons_append, positions, positions, ih, List.append_assoc, List.append_assoc]
    rfl

end Session

namespace Controller

variable {τ : Type} {c c' : Controller τ}

/-! ### Beside the frames -/

/-- The positions among the events that wait. -/
def positions (c : Controller τ) : List Event := c.events.filter Event.isPosition

/-- Nothing is scanned, and the position is neither changed nor reported. -/
structure Apart (c c' : Controller τ) : Prop where
  stand : c'.stand? = c.stand?
  positions : c'.positions = c.positions

theorem Apart.refl (c : Controller τ) : Apart c c := ⟨rfl, rfl⟩

theorem positions_push (c : Controller τ) (e : Event) :
    (c.push e).positions = c.positions ++ [e].filter Event.isPosition := List.filter_append ..

theorem Beside.apart (h : Beside c c') : Apart c c' := by
  obtain ⟨new, he, hn⟩ := h.events
  have hnone : new.filter Event.isPosition = [] :=
    List.filter_eq_nil_iff.mpr fun e hp => not_isPosition_of_isAside (hn e hp)
  exact ⟨h.stand, by rw [positions, he, List.filter_append, hnone, List.append_nil]; rfl⟩

theorem pushText_apart (c : Controller τ) (text : List UInt8) : Apart c (c.pushText text) := by
  rcases c.pushText_eq text with h | h <;> rw [h]
  · exact .refl c
  · exact ⟨rfl, by rw [positions_push]; exact List.append_nil _⟩

/-- The end of a session reports no position. -/
theorem finish_positions (c : Controller τ) :
    c.finish.stand? = none ∧ c.finish.positions = c.positions := by
  have hp : c.finish.positions = c.removeMarker.positions ++ [] := List.filter_append ..
  exact ⟨rfl, by rw [hp, List.append_nil, c.removeMarker_beside.apart.positions]⟩

variable [Transport τ]

/-! ### Frames -/

theorem apply_lineNumber {s : Session τ} (hs : c.session = some s) (n : Nat) :
    c.apply (.lineNumber n) = { c.note (.frame (.lineNumber n)) with
      session := some { s with line := max n 1 - 1 }
      editor := c.editor.showLine s.file (max n 1 - 1)
      events := c.events ++ [.navigate s.file (max n 1 - 1)] } := by
  have hn : max n 1 - 1 = n - 1 := by omega
  have happly : c.apply (.lineNumber n) = (c.note (.frame (.lineNumber n))).reachLine n := rfl
  rw [hn, happly, reachLine, Editor.showLine]
  cases ho : c.editor.locateOrOpen s.file with
  | mk opened found => cases found <;> simp only [note, push, hs, ho]

omit [Transport τ] in
theorem stand?_eq_some_iff {scanner : Scanner} {file : String} {line : Nat} :
    c.stand? = some (scanner, file, line) ↔
      ∃ s, c.session = some s ∧ s.scanner = scanner ∧ s.file = file ∧ s.line = line := by
  simp [stand?, bare, Session.bare]

variable {scanner : Scanner} {file : String} {line : Nat}

theorem reachPrompt_tells (h : c.stand? = some (scanner, file, line)) :
    (c.note (.frame .prompt)).reachPrompt.stand? = some (scanner, file, line) ∧
      (c.note (.frame .prompt)).reachPrompt.positions = c.positions ++ [.paused file line] := by
  obtain ⟨p, due, he⟩ := c.reachPrompt_eq
  have hp : Apart c p := (c.stopped_beside.trans due.beside).apart
  have hstand := hp.stand.trans h
  obtain ⟨s, hs, -, rfl, rfl⟩ := stand?_eq_some_iff.mp hstand
  have hpause : p.reportPause = p.push (.paused s.file s.line) := by rw [reportPause, hs]
  rw [he, hpause]
  exact ⟨hstand, by rw [positions_push, hp.positions]; rfl⟩

/-- A frame names its path and reaches its line, and reports its positions. -/
theorem apply_tells (h : c.stand? = some (scanner, file, line)) (f : Frame) :
    (c.apply f).stand? = some (scanner, f.file?.getD file, f.reached?.getD line) ∧
      (c.apply f).positions = c.positions ++ f.reports file line := by
  have aside (due : Asides c (c.apply f)) :
      (c.apply f).stand? = some (scanner, file, line) ∧ (c.apply f).positions = c.positions ++ [] :=
    ⟨due.beside.stand.trans h, by rw [due.beside.apart.positions, List.append_nil]⟩
  cases f with
  | prompt => exact reachPrompt_tells h
  | file path =>
    obtain ⟨s, hs, rfl, rfl, rfl⟩ := stand?_eq_some_iff.mp h
    refine ⟨stand?_eq_some_iff.mpr ⟨{ s with file := path }, ?_, rfl, rfl, rfl⟩, ?_⟩
    · simp [apply, modifySession, Controller.note, hs]
    · exact (List.append_nil _).symm
  | lineNumber n =>
    obtain ⟨s, hs, rfl, rfl, rfl⟩ := stand?_eq_some_iff.mp h
    rw [apply_lineNumber hs]
    exact ⟨rfl, List.filter_append ..⟩
  | watch | localValue | globalValue | info => exact aside (apply_asides c rfl)

theorem advanceWatches_editor (c : Controller τ) : c.advanceWatches.editor = c.editor := by
  unfold advanceWatches sendScheduled
  split
  · rfl
  · rw [(transmit_editor _ _).1]

omit [Transport τ] in
theorem settleWatches_editor (c : Controller τ) : c.settleWatches.editor = c.editor := by
  unfold settleWatches
  split
  · split <;> rfl
  · rfl

omit [Transport τ] in
theorem scrolledTo?_stopped (c : Controller τ) (doc : DocId) :
    c.stopped.editor.scrolledTo? doc = c.editor.scrolledTo? doc := by
  cases hs : c.session with
  | none => simp [stopped, placeMarker, removeMarker, note, hs]
  | some s => rw [stopped_eq hs, Editor.scrolledTo?_putOn, Editor.scrolledTo?_takeOff]

theorem scrolledTo?_reachPrompt (c : Controller τ) (doc : DocId) :
    (c.note (.frame .prompt)).reachPrompt.editor.scrolledTo? doc = c.editor.scrolledTo? doc := by
  let sent := c.stopped.advanceWatches.settleWatches
  let p := { sent with breakpointSent := false }.advanceBreakpoints
  have hp : p.editor = c.stopped.editor := by
    rw [advanceBreakpoints_editor]
    exact (settleWatches_editor _).trans (advanceWatches_editor _)
  have he : (c.note (.frame .prompt)).reachPrompt = p.reportPause := rfl
  have hpause : p.reportPause.editor = p.editor := by
    unfold reportPause
    split <;> rfl
  rw [he, hpause, hp, scrolledTo?_stopped]

/-- Frames that reach no line scroll no document. -/
theorem scrolledTo?_apply {f : Frame} (h : f.reached? = none) (c : Controller τ) (doc : DocId) :
    (c.apply f).editor.scrolledTo? doc = c.editor.scrolledTo? doc := by
  cases f with
  | prompt => exact c.scrolledTo?_reachPrompt doc
  | lineNumber n => cases h
  | watch row name value =>
    unfold apply
    dsimp only
    split <;> rfl
  | file | localValue | globalValue | info => rfl

end Controller

end Debugline
