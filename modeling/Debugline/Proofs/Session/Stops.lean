import Debugline.Proofs.Session.Lifecycle
import Debugline.Proofs.Session.Marker

/-! The marker of the current line while the controller alone opens documents. It stands at the
pause that was reported last: lines that are reached since then do not move it, documents that
are opened since then do not hide it, and only a step takes it off, be it one that the transport
refuses. -/

namespace Debugline

namespace Session

/-- Where a pause is reported. -/
def Event.pause? : Event → Option (String × Nat)
  | .paused path line => some (path, line)
  | _ => none

/-- The pause reported last. -/
def lastPause (events : List Event) : Option (String × Nat) :=
  (events.filterMap Event.pause?).getLast?

theorem lastPause_append (events new : List Event) :
    lastPause (events ++ new) = (lastPause new).or (lastPause events) := by
  rw [lastPause, List.filterMap_append, List.getLast?_append]
  rfl

theorem lastPause_of_isAside {e : Event} (h : e.isAside) : lastPause [e] = none := by
  cases e <;> first | rfl | cases h

/-- Whether a command that sets the program going was refused since the prompt before. The
journal stands newest first. -/
def stepRefused : List Mark → Bool
  | [] => false
  | .frame .prompt :: _ => false
  | .sent _ _ (.command command) false :: past => command.resumes || stepRefused past
  | _ :: past => stepRefused past

theorem stepRefused_cons_of_isAside {m : Mark} (h : m.isAside) (past : List Mark) :
    stepRefused (m :: past) = stepRefused past := by
  cases m with
  | frame f => cases f <;> first | rfl | cases h
  | launched | sent => cases h
  | asked => rfl

theorem stepRefused_sent {what : Sent} (h : what.isAside) (state : State) (mode : Mode) (ok : Bool)
    (past : List Mark) : stepRefused (.sent state mode what ok :: past) = stepRefused past := by
  cases what with
  | input => rfl
  | command command =>
    cases ok with
    | true => rfl
    | false =>
      have hr : command.resumes = false := by simpa [Sent.isAside] using h
      rw [stepRefused, hr, Bool.false_or]

end Session

open Session Wire

/-- Changes of the host that open and close no document and leave the marker of the current line
alone. -/
def Editor.Change.isApart : Editor.Change → Bool
  | .openText _ _ | .openPath _ | .close _ => false
  | .addMarker _ _ kind | .removeMarker _ _ kind => kind != .currentLine
  | .scrollTo _ _ | .write _ _ => true

theorem Editor.Change.steady {change : Editor.Change} (h : change.isApart) (e : Editor) :
    e.Steady (e.change change) := by
  cases change with
  | openText | openPath | close => cases h
  | addMarker doc line kind =>
    have hk : kind ≠ .currentLine := by simpa [isApart] using h
    exact ⟨e.places_addMarker_of_ne hk doc line, fun hl => (Editor.locate?_addMarker ..).trans hl⟩
  | removeMarker doc line kind =>
    have hk : kind ≠ .currentLine := by simpa [isApart] using h
    exact ⟨e.places_removeMarker_of_ne hk doc line,
      fun hl => (Editor.locate?_removeMarker ..).trans hl⟩
  | scrollTo doc line =>
    exact ⟨e.places_scrollTo doc line, fun hl => (Editor.locate?_scrollTo ..).trans hl⟩
  | write path contents => exact ⟨rfl, fun hl => hl⟩

namespace Controller

variable {τ : Type} {c c' : Controller τ} {told : List Event}

/-- No pause is reported and no step refused. -/
structure Quiet (c c' : Controller τ) : Prop where
  journal : stepRefused c'.journal = stepRefused c.journal
  events : ∃ new, c'.events = c.events ++ new ∧ lastPause new = none

namespace Quiet

theorem of_eq (journal : c'.journal = c.journal) (events : c'.events = c.events) : Quiet c c' :=
  ⟨by rw [journal], [], by rw [events, List.append_nil], rfl⟩

theorem refl (c : Controller τ) : Quiet c c := .of_eq rfl rfl

theorem trans {c'' : Controller τ} (h : Quiet c c') (h' : Quiet c' c'') : Quiet c c'' := by
  obtain ⟨new, he, hn⟩ := h.events
  obtain ⟨new', he', hn'⟩ := h'.events
  refine ⟨h'.journal.trans h.journal, new ++ new', ?_, ?_⟩
  · rw [he', he, List.append_assoc]
  · rw [lastPause_append, hn, hn']
    rfl

end Quiet

/-- The current line is marked at a line of a path, if the path is known and no step was refused
there. -/
structure MarkedAt (c : Controller τ) (path : String) (line : Nat) : Prop where
  none : path = "" ∨ stepRefused c.journal → c.editor.places = ∅
  one : path ≠ "" → stepRefused c.journal = false →
    ∃ doc, c.editor.locate? path = some doc ∧ c.editor.places = {(doc, line)}

/-- The marker is tracked, and at a prompt it stands at the pause reported last. Events told
before are gone from the controller. -/
structure Marked (told : List Event) (c : Controller τ) : Prop where
  tracked : c.Tracked
  paused : c.state = .pausedAtPrompt →
    ∃ path line, lastPause (told ++ c.events) = some (path, line) ∧ c.MarkedAt path line

theorem MarkedAt.keep {path : String} {line : Nat} (h : c.MarkedAt path line) (hs : Steady c c')
    (hj : stepRefused c'.journal = stepRefused c.journal) : c'.MarkedAt path line where
  none hr := hs.editor.places.trans (h.none (hj ▸ hr))
  one hp hr := by
    obtain ⟨doc, hl, hpl⟩ := h.one hp (hj ▸ hr)
    exact ⟨doc, hs.editor.locate? hl, hs.editor.places.trans hpl⟩

theorem Marked.keep (h : c.Marked told) (hs : Steady c c') (hq : Quiet c c') : c'.Marked told where
  tracked := h.tracked.steady hs
  paused hp := by
    obtain ⟨path, line, hlast, hm⟩ := h.paused (hs.state ▸ hp)
    obtain ⟨new, he, hn⟩ := hq.events
    refine ⟨path, line, ?_, hm.keep hs hq.journal⟩
    rw [he, ← List.append_assoc, lastPause_append, hn]
    exact hlast

theorem Marked.of_going (h : c.Tracked) (hg : c.state ≠ .pausedAtPrompt) : c.Marked told :=
  ⟨h, fun hp => absurd hp hg⟩

/-! ### Deeds -/

theorem stopped_quiet {s : Session τ} (hs : c.session = some s) :
    c.stopped.events = c.events ∧ stepRefused c.stopped.journal = false := by
  rw [stopped_eq hs]
  exact ⟨rfl, rfl⟩

variable [Transport τ]

theorem transmit_quiet (c : Controller τ) {what : Sent} (h : what.isAside) :
    Quiet c (c.transmit what).1 := by
  refine ⟨?_, [], by rw [transmit_events, List.append_nil], rfl⟩
  unfold transmit
  split
  · rfl
  · exact stepRefused_sent h ..

/-- A refused step is on record. -/
theorem stepRefused_transmit {command : Command} {refusal : Refusal} (live : c.hasSession)
    (resumes : command.resumes) (refused : (c.transmit (.command command)).2 = .error refusal) :
    stepRefused (c.transmit (.command command)).1.journal := by
  unfold transmit at refused ⊢
  cases hs : c.session with
  | none => simp [hasSession, hs] at live
  | some s =>
    simp only [hs] at refused ⊢
    generalize (Transport.write s.transport (Sent.command command).bytes).2 = r at refused ⊢
    cases r with
    | ok => cases refused
    | error => simp [stepRefused, resumes, Except.isOk, Except.toBool]

theorem Aside.quiet (h : Aside c c') : Quiet c c' := by
  cases h with
  | report e h => exact ⟨rfl, [e], rfl, lastPause_of_isAside h⟩
  | note m h =>
    exact ⟨stepRefused_cons_of_isAside h _, [], (List.append_nil _).symm, rfl⟩
  | send what h => exact c.transmit_quiet h
  | edit | plan | ask | account => exact .of_eq rfl rfl

theorem Asides.quiet (h : Asides c c') : Quiet c c' := by
  induction h with
  | refl => exact .refl c
  | tail _ h ih => exact ih.trans h.quiet

/-- A prompt is reported where the current line is marked. -/
theorem Marked.prompt (h : c.Marked told) {p : Controller τ} {s : Session τ}
    (hs : p.session = some s) (due : Asides c.stopped p) :
    (p.push (.paused s.file s.line)).Marked told := by
  obtain ⟨before, hbefore, hfile, hline⟩ := exists_session_of_prompt hs due
  obtain ⟨hnone, hone⟩ := h.tracked.places_stopped hbefore
  have hstop : c.stopped.MarkedAt s.file s.line := by
    rw [← hfile, ← hline]
    refine ⟨fun hr => hnone (hr.resolve_right ?_), fun hp _ => hone hp⟩
    simp [(stopped_quiet hbefore).2]
  have hpush : Steady p (p.push (.paused s.file s.line)) := .of_eq rfl rfl rfl
  have hsteady := due.steady.trans hpush
  refine ⟨(h.tracked.stopped hbefore).steady hsteady, fun _ => ⟨s.file, s.line, ?_, ?_⟩⟩
  · rw [push, ← List.append_assoc, lastPause_append]
    rfl
  · exact hstop.keep hsteady due.quiet.journal

theorem Marked.framed (h : c.Marked told) (hf : Framed c c') : c'.Marked told := by
  cases hf with
  | aside ha => exact h.keep ha.steady ha.quiet
  | @locate s hs file line =>
    exact h.keep (.of_eq rfl (by simp [marker?, hs]) rfl) (.of_eq rfl rfl)
  | navigate file line => exact h.keep (.of_eq rfl rfl rfl) ⟨rfl, [.navigate file line], rfl, rfl⟩
  | prompt hs due => exact h.prompt hs due

/-- A step that the transport refuses leaves no marker at the pause. -/
theorem Marked.resumeFailed (h : c.Marked told) {command : Command} {refusal : Refusal}
    (paused : c.requirePaused = .ok ()) (resumes : command.resumes)
    (refused : (c.removeMarker.transmit (.command command)).2 = .error refusal) :
    (c.removeMarker.transmit (.command command)).1.Marked told := by
  have live : c.removeMarker.hasSession :=
    c.removeMarker_along.session.trans (requirePaused_ok paused).1
  have hsent : (c.removeMarker.transmit (.command command)).1.editor.places = ∅ :=
    (transmit_steady _ _).editor.places.trans h.tracked.places_removeMarker
  have hr := stepRefused_transmit live resumes refused
  refine ⟨.of_empty hsent, fun _ => ?_⟩
  obtain ⟨path, line, hlast, -⟩ := h.paused (requirePaused_ok paused).2
  refine ⟨path, line, ?_, fun _ => hsent, fun _ hn => by rw [hr] at hn; cases hn⟩
  rw [transmit_events, removeMarker_eq]
  exact hlast

theorem Marked.deed (h : c.Marked told) (hd : Deed c c') : c'.Marked told := by
  have ht := hd.tracked h.tracked
  cases hd with
  | framed hf => exact h.framed hf
  | listen hs => exact h.keep (.of_eq rfl (by simp [marker?, hs]) rfl) (.of_eq rfl rfl)
  | display text => exact h.keep (.of_eq rfl rfl rfl) ⟨rfl, [.terminal text], rfl, rfl⟩
  | resumeFailed paused resumes refused => exact h.resumeFailed paused resumes refused
  | start idle mode =>
    refine .of_going ht fun hp => ?_
    cases mode <;> cases hp
  | resume | finish | refuse => exact .of_going ht fun hp => by cases hp

theorem Marked.deeds (h : c.Marked told) (hd : Deeds c c') : c'.Marked told := by
  induction hd with
  | refl => exact h
  | tail _ hd ih => exact ih.deed hd

/-! ### Runs -/

/-- All that a run reports: the events that the host takes on the way, and those that wait at
the end. -/
def reported (c : Controller τ) : List (Happening τ) → List Event
  | [] => c.events
  | .call .takeEvents :: hs => c.events ++ c.takeEvents.1.reported hs
  | x :: hs => (c.after x).reported hs

/-- Each happening keeps the marker at the pause reported last; what the host takes is told. -/
theorem Marked.after (h : c.Marked told) {x : Happening τ}
    (apart : ∀ change, x = .edit change → change.isApart) (hs : List (Happening τ)) :
    ∃ told', told' ++ (c.after x).reported hs = told ++ c.reported (x :: hs) ∧
      (c.after x).Marked told' := by
  cases x with
  | edit change =>
    have he := Editor.Change.steady (apart change rfl) c.editor
    exact ⟨told, rfl, h.keep ⟨rfl, rfl, he⟩ (.of_eq rfl rfl)⟩
  | meanwhile f => exact ⟨told, rfl, h.keep (c.meanwhile_steady f) (.of_eq rfl rfl)⟩
  | call a =>
    by_cases ha : a = .takeEvents
    · -- what is taken goes from the controller to what is told
      subst ha
      refine ⟨told ++ c.events, by rw [reported, List.append_assoc]; rfl, ?_, fun hp => ?_⟩
      · exact h.tracked.steady (.of_eq rfl rfl rfl)
      · obtain ⟨path, line, hlast, hm⟩ := h.paused hp
        exact ⟨path, line, by simpa [Controller.after, Controller.call, takeEvents] using hlast,
          hm.keep (.of_eq rfl rfl rfl) rfl⟩
    · refine ⟨told, ?_, h.deeds (call_deeds c ha)⟩
      cases a <;> first | rfl | exact absurd rfl ha

theorem Marked.run (h : c.Marked told) {hs : List (Happening τ)}
    (apart : ∀ change, .edit change ∈ hs → change.isApart) :
    ∃ told', told' ++ (c.run hs).events = told ++ c.reported hs ∧ (c.run hs).Marked told' := by
  induction hs generalizing c told with
  | nil => exact ⟨told, rfl, h⟩
  | cons x hs ih =>
    obtain ⟨told₁, he₁, h₁⟩ := h.after (fun change hx => apart change (hx ▸ List.mem_cons_self)) hs
    obtain ⟨told₂, he₂, h₂⟩ := ih h₁ fun change hx => apart change (List.mem_cons_of_mem _ hx)
    exact ⟨told₂, he₂.trans he₁, h₂⟩

/-- While only the controller opens documents, none is closed and no other marks the current
line: it is marked nowhere unless the program is stopped. At a stop it is marked nowhere if no
file was known there or a step was refused since; else it is marked once, at the line of the pause
reported last, in the document that the path of that pause finds. -/
theorem run_marked_at_last_pause (config : Config) {editor : Editor} (fresh : editor.places = ∅)
    {hs : List (Happening τ)} (apart : ∀ change, .edit change ∈ hs → change.isApart) :
    let new := Controller.new config editor
    let c := new.run hs
    (c.state ≠ .pausedAtPrompt → c.editor.places = ∅) ∧
      (c.state = .pausedAtPrompt →
        ∃ path line, lastPause (new.reported hs) = some (path, line) ∧
          (path = "" ∨ stepRefused c.journal → c.editor.places = ∅) ∧
          (path ≠ "" → stepRefused c.journal = false →
            ∃ doc, c.editor.locate? path = some doc ∧ c.editor.places = {(doc, line)})) := by
  intro new c
  have hnew : new.Marked [] := .of_going (.of_empty fresh) nofun
  obtain ⟨told, he, h⟩ := hnew.run apart
  refine ⟨h.tracked.going, fun hp => ?_⟩
  obtain ⟨path, line, hlast, hm⟩ := h.paused hp
  exact ⟨path, line, by rwa [he] at hlast, hm.none, hm.one⟩

/-- A stop in a document that was open, and since then a file and a line of the debugger. -/
theorem run_marked_of_later_lines :
    let editor := ((Editor.new .empty).openText "/x/main.p" "").1
    let hs : List (Happening Script) := [.call (.launch .debug fun _ => .ok (.new true [])),
      .meanwhile (·.cue (.writes "\x1b]>filemain.p\n\x1b]>5\n\x1b]>dbg> ")), .call .poll,
      .call .takeEvents, .meanwhile (·.cue (.writes "\x1b]>fileother.p\n\x1b]>9\n")), .call .poll]
    let c := (Controller.new .standard editor).run hs
    editor.places = ∅ ∧ (∀ change, .edit change ∈ hs → change.isApart) ∧
      c.state = .pausedAtPrompt ∧
      lastPause ((Controller.new .standard editor).reported hs) = some ("main.p", 4) ∧
      ∃ doc, c.editor.locate? "main.p" = some doc ∧ c.editor.places = {(doc, 4)} := by
  intro editor hs c
  have fresh : editor.places = ∅ := by
    rw [Editor.places_openText, Editor.places_new]
  have apart : ∀ change, .edit change ∈ hs → change.isApart := by simp [hs]
  have paused : c.state = .pausedAtPrompt := by decide +kernel
  have hlast : lastPause ((Controller.new .standard editor).reported hs) = some ("main.p", 4) := by
    decide +kernel
  refine ⟨fresh, apart, paused, hlast, ?_⟩
  obtain ⟨path, line, hl, -, hone⟩ :=
    (run_marked_at_last_pause .standard fresh apart).2 paused
  cases hl.symm.trans hlast
  exact hone (by decide) (by decide +kernel)

end Controller

end Debugline
