import Debugline.Proofs.Editor.Places
import Debugline.Proofs.Session.Outline

/-! What a controller does, one thing after the other. A deed is one change of the whole
controller; the deeds that frames do, and those that go on beside the session's position and
its marker, are kept apart. Each call is a sequence of deeds, so what each deed keeps, a call
keeps. -/

namespace Debugline

open Session Wire

/-- What a controller does to documents, the marker of the current line left out. -/
inductive Editor.Aside : Editor → Editor → Prop
  | locate {e} (path : String) : Aside e (e.locateOrOpen path).1
  | scroll {e} (doc : DocId) (line : Nat) : Aside e (e.scrollTo doc line)
  | mark {e} (doc : DocId) (line : Nat) : Aside e (e.addMarker doc line .breakpoint)
  | unmark {e} (doc : DocId) (line : Nat) : Aside e (e.removeMarker doc line .breakpoint)

/-- Frames that tell neither a position nor a prompt. -/
def Wire.Frame.isAside : Frame → Bool
  | .file _ | .lineNumber _ | .prompt => false
  | _ => true

namespace Session

/-- Events that report no text, no position and no end. -/
def Event.isAside : Event → Bool
  | .terminal _ | .paused _ _ | .navigate _ _ | .terminated => false
  | _ => true

/-- Commands that set the program going are not sent aside. -/
def Sent.isAside : Sent → Bool
  | .command c => !c.resumes
  | .input _ => true

/-- What is noted beside launches, prompts and what is sent. -/
def Mark.isAside : Mark → Bool
  | .launched _ | .frame .prompt | .sent _ _ _ _ => false
  | _ => true

/-- Calls that do not begin or end a session, poll it, set its program going or take events. -/
def Call.isAside {τ : Type} : Call τ → Bool
  | .launch _ _ | .poll | .abort | .goOn | .stepInto | .stepOver | .stepOut | .runToLine _
  | .runToCursor _ _ | .takeEvents => false
  | _ => true

end Session

namespace Controller

variable {τ : Type} [Transport τ]

/-- What goes on beside a session's position and its marker. -/
inductive Aside : Controller τ → Controller τ → Prop
  | report {c} (e : Event) (h : e.isAside) : Aside c (c.push e)
  | note {c} (m : Mark) (h : m.isAside) : Aside c (c.note m)
  | plan {c} (breakpoints : Breakpoint.Schedule) (watches : Watch.Table) (breakpointSent : Bool) :
      Aside c { c with breakpoints, watches, breakpointSent }
  | send {c} (what : Sent) (h : what.isAside) : Aside c (c.transmit what).1
  | edit {c} (editor : Editor) (h : c.editor.Aside editor) : Aside c { c with editor }
  | ask {c} (hover : Option Hover) : Aside c { c with hover }
  | account {c} (traffic : List Traffic) : Aside c { c with traffic }

abbrev Asides : Controller τ → Controller τ → Prop := Relation.ReflTransGen Aside

/-- A prompt was reached and the current line is marked. -/
def stopped (c : Controller τ) : Controller τ :=
  { c.note (.frame .prompt) with state := .pausedAtPrompt }.placeMarker

/-- What frames do. -/
inductive Framed : Controller τ → Controller τ → Prop
  | aside {c c'} (h : Aside c c') : Framed c c'
  | locate {c} {s : Session τ} (hs : c.session = some s) (file : String) (line : Nat) :
      Framed c { c with session := some { s with file, line } }
  | navigate {c} (file : String) (line : Nat) : Framed c (c.push (.navigate file line))
  /-- A prompt: what is due is sent between the stop and its report. -/
  | prompt {c p} {s : Session τ} (hs : p.session = some s) (h : Asides c.stopped p) :
      Framed c (p.push (.paused s.file s.line))

abbrev Frameds : Controller τ → Controller τ → Prop := Relation.ReflTransGen Framed

/-- One thing that a controller does. -/
inductive Deed : Controller τ → Controller τ → Prop
  | framed {c c'} (h : Framed c c') : Deed c c'
  /-- The program is read, or its output is scanned. -/
  | listen {c} {s : Session τ} (hs : c.session = some s) (transport : τ) (scanner : Scanner) :
      Deed c { c with session := some { s with transport, scanner } }
  | display {c} (text : String) : Deed c (c.push (.terminal text))
  | resume {c} {command : Command} (paused : c.requirePaused = .ok ())
      (resumes : command.resumes)
      (accepted : (c.removeMarker.transmit (.command command)).2 = .ok ()) :
      Deed c { (c.removeMarker.transmit (.command command)).1 with state := .running }
  | resumeFailed {c} {command : Command} {refusal : Refusal} (paused : c.requirePaused = .ok ())
      (resumes : command.resumes)
      (refused : (c.removeMarker.transmit (.command command)).2 = .error refusal) :
      Deed c (c.removeMarker.transmit (.command command)).1
  | finish {c} : Deed c c.finish
  | start {c} (idle : c.session = none) (mode : Mode) (transport : τ) :
      Deed c (c.start mode transport)
  | refuse {c} (idle : c.session = none) : Deed c { c with state := .notRunning }

abbrev Deeds : Controller τ → Controller τ → Prop := Relation.ReflTransGen Deed

theorem Asides.frameds {c c' : Controller τ} (h : Asides c c') : Frameds c c' :=
  h.lift id fun _ _ => .aside

theorem Frameds.deeds {c c' : Controller τ} (h : Frameds c c') : Deeds c c' :=
  h.lift id fun _ _ => .framed

theorem Asides.deeds {c c' : Controller τ} (h : Asides c c') : Deeds c c' := h.frameds.deeds

/-! ### The session -/

end Controller

/-- A session without its transport. -/
def Session.bare {τ : Type} (s : Session τ) : Session Unit :=
  ⟨(), s.scanner, s.mode, s.file, s.line, s.marker⟩

namespace Controller

variable {τ : Type}

def bare (c : Controller τ) : Option (Session Unit) := c.session.map Session.bare

theorem bare_eq {c : Controller τ} {s : Session τ} (hs : c.session = some s) :
    c.bare = some s.bare := congrArg (Option.map Session.bare) hs

theorem bare_eq_some_iff {c : Controller τ} {b : Session Unit} :
    c.bare = some b ↔ ∃ s, c.session = some s ∧ s.bare = b := Option.map_eq_some_iff

/-! ### The marker -/

/-- Where the session put the marker of the current line. -/
def marker? (c : Controller τ) : Option (String × Nat) := c.session.bind (·.marker)

theorem marker?_eq (c : Controller τ) : c.marker? = c.bare.bind (·.marker) := by
  cases hs : c.session <;> simp [marker?, bare, hs, Session.bare]

theorem removeMarker_eq (c : Controller τ) : c.removeMarker = { c with
    session := c.session.map fun s => { s with marker := none }
    editor := c.editor.takeOff c.marker? } := by
  unfold removeMarker
  cases hs : c.session with
  | none =>
    simp only [marker?, hs]
    cases c
    simp_all [Editor.takeOff]
  | some s =>
    simp only [marker?, hs, Option.bind_some]
    cases hm : s.marker with
    | none =>
      obtain ⟨_, _, _, _, _, _⟩ := s
      cases c
      simp_all [Editor.takeOff]
    | some m =>
      dsimp only
      cases hl : c.editor.locate? m.1 <;> simp [modifySession, hs, Editor.takeOff, hl]

/-- The current line is marked, unless no file is known. -/
theorem placeMarker_eq {c : Controller τ} {s : Session τ} (hs : c.session = some s) :
    c.placeMarker = { c with
      session := some { s with marker := if s.file = "" then none else some (s.file, s.line) }
      editor := (c.editor.takeOff s.marker).putOn s.file s.line } := by
  unfold placeMarker
  rw [removeMarker_eq]
  simp only [marker?, hs, Option.map_some, Option.bind_some]
  by_cases hf : s.file = ""
  · simp [hf, Editor.locateOrOpen, Editor.putOn]
  · obtain ⟨doc, hdoc, -⟩ := Editor.locateOrOpen_of_ne (e := c.editor.takeOff s.marker) hf
    have ho : (c.editor.takeOff s.marker).locateOrOpen s.file =
        (((c.editor.takeOff s.marker).locateOrOpen s.file).1, some doc) := Prod.ext rfl hdoc
    rw [Editor.putOn, ho]
    simp only [if_neg hf]

theorem bare_withTransport {α : Type} (c : Controller τ) (absent : α) (f : τ → τ × α) :
    (c.withTransport absent f).1.bare = c.bare := by
  unfold withTransport
  cases hs : c.session <;> simp [bare, hs, Session.bare]

theorem withTransport_events {α : Type} (c : Controller τ) (absent : α) (f : τ → τ × α) :
    (c.withTransport absent f).1.events = c.events := by
  unfold withTransport
  split <;> rfl

theorem bare_meanwhile (c : Controller τ) (f : τ → τ) : (c.meanwhile f).bare = c.bare := by
  cases hs : c.session <;> simp [meanwhile, modifySession, bare, hs, Session.bare]

theorem start_launching (c : Controller τ) (mode : Mode) (transport : τ) :
    { c with state := .launching }.start mode transport = c.start mode transport := by
  cases mode <;> rfl

variable [Transport τ]

theorem bare_transmit (c : Controller τ) (what : Sent) : (c.transmit what).1.bare = c.bare := by
  unfold transmit
  cases hs : c.session <;> simp [bare, hs, Session.bare]

theorem transmit_events (c : Controller τ) (what : Sent) :
    (c.transmit what).1.events = c.events := by
  unfold transmit
  split <;> rfl

theorem Aside.bare {c c' : Controller τ} (h : Aside c c') : c'.bare = c.bare := by
  cases h with
  | send what _ => exact c.bare_transmit what
  | _ => rfl

theorem Asides.bare {c c' : Controller τ} (h : Asides c c') : c'.bare = c.bare := by
  induction h with
  | refl => rfl
  | tail _ h ih => exact h.bare.trans ih

/-! ### Schedules -/

omit [Transport τ] in
theorem resumes_of_breakpoint {s s' : Breakpoint.Schedule} {e : Editor} {command : Command}
    (h : s.next e = (s', some command)) : command.resumes = false := by
  rcases (Breakpoint.Schedule.next_cases h).2 with rfl | ⟨l, -, rfl⟩ <;> rfl

omit [Transport τ] in
theorem resumes_of_watch (t : Watch.Table) (row : Nat) : (t.commandFor row).resumes = false := by
  unfold Watch.Table.commandFor
  split <;> rfl

theorem advanceBreakpoints_asides (c : Controller τ) : Asides c c.advanceBreakpoints := by
  unfold advanceBreakpoints
  split
  · split
    · exact .single (.plan _ _ _)
    · next schedule command hn =>
      have hsend : (Sent.command command).isAside := by
        simp [Sent.isAside, resumes_of_breakpoint hn]
      exact (Relation.ReflTransGen.single (.plan _ _ _)).tail (.send _ hsend)
  · exact .refl

theorem advanceWatches_asides (c : Controller τ) : Asides c c.advanceWatches := by
  unfold advanceWatches Watch.Table.next
  split
  · exact .refl
  · next table command hn =>
    split at hn
    · cases hn
    · next row rest _ =>
      cases hn
      have hsend : (Sent.command (c.watches.commandFor row)).isAside := by
        simp [Sent.isAside, resumes_of_watch]
      exact (Relation.ReflTransGen.single (.plan _ _ _)).tail (.send _ hsend)

theorem settleWatches_asides (c : Controller τ) : Asides c c.settleWatches := by
  unfold settleWatches
  split
  · split
    · exact (Relation.ReflTransGen.single (.plan _ _ _)).tail (.report .watchTableChanged rfl)
    · exact .refl
  · exact .refl

/-! ### Frames -/

theorem reachLine_frameds (c : Controller τ) (line : Nat) : Frameds c (c.reachLine line) := by
  unfold reachLine
  split
  · exact .refl
  · next s hs =>
    have hline : Frameds c { c with session := some { s with line := line - 1 } } :=
      .single (.locate hs s.file (line - 1))
    dsimp only
    split
    · exact hline.tail (.navigate _ _)
    · next editor doc ho =>
      obtain rfl : (c.editor.locateOrOpen s.file).1 = editor := congrArg Prod.fst ho
      exact ((hline.tail (.aside (.edit _ (.locate s.file)))).tail
        (.aside (.edit _ (.scroll doc (line - 1))))).tail (.navigate _ _)

omit [Transport τ] in
theorem stopped_eq {c : Controller τ} {s : Session τ} (hs : c.session = some s) :
    c.stopped = { c with
      state := .pausedAtPrompt
      session := some { s with marker := if s.file = "" then none else some (s.file, s.line) }
      editor := (c.editor.takeOff s.marker).putOn s.file s.line
      journal := .frame .prompt :: c.journal } :=
  placeMarker_eq (c := { c.note (.frame .prompt) with state := .pausedAtPrompt }) hs

omit [Transport τ] in
theorem bare_stopped (c : Controller τ) : c.stopped.bare = c.bare.map fun s =>
    { s with marker := if s.file = "" then none else some (s.file, s.line) } := by
  cases hs : c.session with
  | none => simp [stopped, bare, placeMarker, removeMarker, note, hs]
  | some s =>
    rw [stopped_eq hs]
    simp [bare, hs, Session.bare]

/-- At a prompt what is due is sent, and then the pause is reported. -/
theorem reachPrompt_eq (c : Controller τ) : ∃ p, Asides c.stopped p ∧
    (c.note (.frame .prompt)).reachPrompt = p.reportPause := by
  let sent := c.stopped.advanceWatches.settleWatches
  let p := { sent with breakpointSent := false }.advanceBreakpoints
  have hw : Asides c.stopped sent := (advanceWatches_asides _).trans (settleWatches_asides _)
  have hp : Asides c.stopped p :=
    (hw.tail (.plan sent.breakpoints sent.watches false)).trans (advanceBreakpoints_asides _)
  exact ⟨p, hp, rfl⟩

theorem reachPrompt_frameds {c : Controller τ} (live : c.bare.isSome) :
    Frameds c (c.note (.frame .prompt)).reachPrompt := by
  obtain ⟨p, hp, he⟩ := c.reachPrompt_eq
  obtain ⟨s, hs⟩ : ∃ s, p.session = some s := by
    have hlive : p.bare.isSome := by rwa [hp.bare, bare_stopped, Option.isSome_map]
    exact Option.isSome_iff_exists.mp (by simpa [bare] using hlive)
  rw [he, reportPause, hs]
  exact .single (.prompt hs hp)

/-- Frames leave a session there. -/
theorem Framed.live {c c' : Controller τ} (h : Framed c c') : c'.bare.isSome = c.bare.isSome := by
  cases h with
  | aside h => rw [h.bare]
  | locate hs => simp [bare, hs]
  | navigate => rfl
  | prompt hs h =>
    have hb := h.bare
    rw [bare_stopped] at hb
    exact (congrArg Option.isSome hb).trans (by simp)

theorem Frameds.live {c c' : Controller τ} (h : Frameds c c') :
    c'.bare.isSome = c.bare.isSome := by
  induction h with
  | refl => rfl
  | tail _ h ih => exact h.live.trans ih

theorem reported_asides (c : Controller τ) {f : Frame} (hf : (Mark.frame f).isAside) {e : Event}
    (he : e.isAside) : Asides c ((c.note (.frame f)).push e) :=
  (Relation.ReflTransGen.single (.note _ hf)).tail (.report _ he)

/-- Values and information are shown aside. -/
theorem apply_asides (c : Controller τ) {f : Frame} (h : f.isAside) : Asides c (c.apply f) := by
  cases f with
  | file | lineNumber | prompt => cases h
  | watch row name value =>
    unfold apply
    dsimp only
    split
    · exact .refl
    · next table i _ =>
      have hn : Asides c (c.note (.frame (.watch row name value))) := .single (.note _ rfl)
      exact (hn.tail (.plan _ table _)).tail (.report (.watchUpdated i) rfl)
  | localValue text => exact reported_asides c (f := .localValue text) rfl rfl
  | globalValue text => exact reported_asides c (f := .globalValue text) rfl rfl
  | info text => exact reported_asides c (f := .info text) rfl rfl

theorem apply_frameds {c : Controller τ} (live : c.bare.isSome) (f : Frame) :
    Frameds c (c.apply f) := by
  cases f with
  | prompt => exact reachPrompt_frameds live
  | file path =>
    have hn : Frameds c (c.note (.frame (.file path))) := .single (.aside (.note _ rfl))
    unfold apply modifySession
    cases hs : c.session with
    | none => simp [bare, hs] at live
    | some s =>
      simp only [note, hs, Option.map_some]
      exact hn.tail (.locate (c := c.note (.frame (.file path))) hs path s.line)
  | lineNumber line =>
    have hn : Frameds c (c.note (.frame (.lineNumber line))) := .single (.aside (.note _ rfl))
    exact hn.trans (reachLine_frameds _ line)
  | watch | localValue | globalValue | info => exact (apply_asides c rfl).frameds

theorem dispatch_frameds {c : Controller τ} (live : c.bare.isSome) (body : String) :
    Frameds c (c.dispatch body) := by
  unfold dispatch
  split
  · exact apply_frameds live _
  · exact .refl

theorem dispatchAll_frameds {c : Controller τ} (live : c.bare.isSome) (bodies : List String) :
    Frameds c (bodies.foldl dispatch c) := by
  induction bodies generalizing c with
  | nil => exact .refl
  | cons body bodies ih =>
    have h := dispatch_frameds live body
    exact h.trans (ih (h.live.trans live))

/-! ### Output -/

omit [Transport τ] in
theorem pushText_eq (c : Controller τ) (text : List UInt8) :
    c.pushText text = c ∨ c.pushText text = c.push (.terminal (Text.decodeLossy text)) := by
  unfold pushText
  split
  · exact .inl rfl
  · exact .inr rfl

theorem pushText_deeds (c : Controller τ) (text : List UInt8) : Deeds c (c.pushText text) := by
  rcases c.pushText_eq text with h | h
  · rw [h]
  · rw [h]
    exact .single (.display _)

/-- A chunk is fed to the scanner, then the frames that end in it are applied and its text is shown. -/
theorem takeOutput_eq {c : Controller τ} {s : Session τ} (hs : c.session = some s)
    (bytes : List UInt8) : c.takeOutput bytes = ((s.scanner.feed bytes).2.frames.foldl dispatch
      { c with session := some { s with scanner := (s.scanner.feed bytes).1 } }).pushText
      (s.scanner.feed bytes).2.text := by
  simp only [takeOutput, hs]

theorem takeOutput_deeds (c : Controller τ) (bytes : List UInt8) :
    Deeds c (c.takeOutput bytes) := by
  unfold takeOutput
  split
  · exact .refl
  · next s hs =>
    let fed := { c with session := some { s with scanner := (s.scanner.feed bytes).1 } }
    have hfed : Deeds c fed := .single (.listen hs s.transport _)
    have hframes := dispatchAll_frameds (c := fed) rfl (s.scanner.feed bytes).2.frames
    exact (hfed.trans hframes.deeds).trans (pushText_deeds _ _)

theorem withTransport_deeds {α : Type} (c : Controller τ) (absent : α) (f : τ → τ × α) :
    Deeds c (c.withTransport absent f).1 := by
  unfold withTransport
  split
  · exact .refl
  · next s hs => exact .single (.listen hs _ s.scanner)

theorem readStreams_deeds (c : Controller τ) : Deeds c c.readStreams.1 :=
  (withTransport_deeds c (.ok []) Transport.readOutput).trans
    (withTransport_deeds _ (.ok []) Transport.readErrors)

theorem receive_deeds (c : Controller τ) : Deeds c c.receive :=
  (c.readStreams_deeds.trans (takeOutput_deeds _ _)).trans (pushText_deeds _ _)

/-! ### Calls -/

theorem poll_deeds (c : Controller τ) : Deeds c c.poll := by
  unfold poll
  split
  · have ha := (receive_deeds c).trans (withTransport_deeds c.receive false Transport.alive)
    dsimp only
    split
    · next h => rwa [h] at ha
    · next h =>
      rw [h] at ha
      exact (ha.trans (receive_deeds _)).tail .finish
  · exact .refl

theorem launch_deeds (c : Controller τ) (mode : Mode) (spawn : Unit → Except Failure τ) :
    Deeds c (c.launch mode spawn).1 := by
  unfold launch
  split
  · exact .refl
  · next h =>
    have idle : c.session = none := by simpa [hasSession] using h
    dsimp only
    split
    · next transport _ =>
      rw [start_launching]
      exact .single (.start idle mode transport)
    · exact (Relation.ReflTransGen.single (.refuse idle)).tail (.framed (.aside (.report _ rfl)))

theorem abort_deeds (c : Controller τ) : Deeds c c.abort.1 := by
  unfold abort
  split
  · have ht := withTransport_deeds c (.ok ()) Transport.terminate
    have hk := ht.trans (withTransport_deeds _ (.ok ()) Transport.kill)
    exact (hk.tail (.framed (.aside (.account _)))).tail .finish
  · exact .refl

theorem step_deeds (c : Controller τ) {command : Command} (resumes : command.resumes) :
    Deeds c (c.step command).1 := by
  unfold step
  split
  · exact .refl
  · next paused =>
    split
    · next h =>
      have hd := Deed.resumeFailed paused resumes (congrArg Prod.snd h)
      rw [h] at hd
      exact .single hd
    · next h =>
      have hd := Deed.resume paused resumes (congrArg Prod.snd h)
      rw [h] at hd
      exact .single hd

theorem evaluate_asides (c : Controller τ) (expr : String) (hover : Option Hover) :
    Asides c (c.evaluate expr hover).1 := by
  unfold evaluate
  split
  · exact .refl
  · exact (Relation.ReflTransGen.single (.ask hover)).tail (.send _ rfl)

theorem evaluateAt_asides (c : Controller τ) (doc : DocId) (position : Nat) :
    Asides c (c.evaluateAt doc position).1 := by
  unfold evaluateAt
  split
  · exact .refl
  · split
    · exact .refl
    · exact evaluate_asides c _ _

/-- Breakpoints that were changed are sent at once if they can be. -/
theorem changed_asides (c : Controller τ) (editor : Editor)
    (h : Relation.ReflTransGen Editor.Aside c.editor editor) (breakpoints : Breakpoint.Schedule) :
    Asides c { c with breakpoints, editor }.advanceBreakpoints := by
  have hedit : Asides c { c with editor } := by
    induction h with
    | refl => exact .refl
    | tail _ h ih => exact ih.tail (.edit _ h)
  exact (hedit.tail (.plan breakpoints _ _)).trans (advanceBreakpoints_asides _)

omit [Transport τ] in
theorem toggle_aside (s : Breakpoint.Schedule) (e : Editor) (doc : DocId) (line : Nat) :
    Editor.Aside e (s.toggle e doc line).2.1 := by
  unfold Breakpoint.Schedule.toggle
  split
  · exact .unmark doc line
  · exact .mark doc line

theorem toggleBreakpoint_asides (c : Controller τ) (doc : DocId) (line : Nat) :
    Asides c (c.toggleBreakpoint doc line).1 :=
  changed_asides c _ (.single (toggle_aside c.breakpoints c.editor doc line)) _

theorem toggleBreakpointAt_asides (c : Controller τ) (path : String) (line : Nat) :
    Asides c (c.toggleBreakpointAt path line).1 := by
  unfold toggleBreakpointAt
  split
  · exact .refl
  · next editor doc ho =>
    obtain rfl : (c.editor.locateOrOpen path).1 = editor := congrArg Prod.fst ho
    exact (Relation.ReflTransGen.single (.edit _ (.locate path))).trans
      (toggleBreakpoint_asides _ doc line)

omit [Transport τ] in
theorem clearAll_asides (s : Breakpoint.Schedule) (e : Editor) :
    Relation.ReflTransGen Editor.Aside e (s.clearAll e).2 := by
  have hunmark (lines : List Nat) (doc : DocId) (e : Editor) :
      Relation.ReflTransGen Editor.Aside e
        (lines.foldl (fun e line => e.removeMarker doc line .breakpoint) e) := by
    induction lines generalizing e with
    | nil => exact .refl
    | cons line lines ih => exact (Relation.ReflTransGen.single (.unmark doc line)).trans (ih _)
  unfold Breakpoint.Schedule.clearAll
  dsimp only
  generalize e.documents = docs
  induction docs generalizing e with
  | nil => exact .refl
  | cons doc docs ih => exact (hunmark _ doc e).trans (ih _)

theorem clearBreakpoints_asides (c : Controller τ) : Asides c c.clearBreakpoints :=
  changed_asides c _ (clearAll_asides c.breakpoints c.editor) _

theorem named_asides (c : Controller τ) (row : Nat) (name : String) (watches : Watch.Table) :
    Asides c ({ c.note (.asked row name) with watches }.push .watchTableChanged) :=
  ((Relation.ReflTransGen.single (.note _ rfl)).tail (.plan _ watches _)).tail (.report _ rfl)

theorem deleteWatch_asides (c : Controller τ) (row : Nat) : Asides c (c.deleteWatch row).1 := by
  unfold deleteWatch
  split
  · exact named_asides c _ _ _
  · exact .refl

/-- A step reports nothing by itself. -/
theorem step_events (c : Controller τ) (command : Wire.Command) :
    (c.step command).1.events = c.events := by
  have hsent : (c.removeMarker.transmit (.command command)).1.events = c.events := by
    rw [transmit_events, removeMarker_eq]
  unfold step
  split
  · rfl
  · split <;> next h => exact (congrArg (·.1.events) h).symm.trans hsent

theorem evaluate_events (c : Controller τ) (expr : String) (hover : Option Hover) :
    (c.evaluate expr hover).1.events = c.events := by
  unfold evaluate
  split
  · rfl
  · exact transmit_events _ _

/-- Calls that leave the session's position and its marker alone. -/
theorem call_asides (c : Controller τ) {a : Call τ} (h : a.isAside) : Asides c (c.call a) := by
  cases a with
  | evaluate expr hover => exact evaluate_asides c expr hover
  | evaluateAt doc position => exact evaluateAt_asides c doc position
  | sendInput text => exact .single (.send _ rfl)
  | toggleBreakpoint doc line => exact toggleBreakpoint_asides c doc line
  | toggleBreakpointAt path line => exact toggleBreakpointAt_asides c path line
  | clearBreakpoints => exact clearBreakpoints_asides c
  | documentsChanged | listBreakpoints => exact .single (.plan _ _ _)
  | addWatch name | editWatch row name => exact named_asides c _ _ _
  | deleteWatch row => exact deleteWatch_asides c row
  | takeTraffic => exact .single (.account _)
  | _ => cases h

/-- Each call but for the taking of events is a sequence of deeds. -/
theorem call_deeds (c : Controller τ) {a : Call τ} (ha : a ≠ .takeEvents) :
    Deeds c (c.call a) := by
  cases a with
  | launch mode spawn => exact launch_deeds c mode spawn
  | poll => exact poll_deeds c
  | abort => exact abort_deeds c
  | goOn | stepInto | stepOver | stepOut | runToLine line | runToCursor doc position =>
    exact step_deeds c rfl
  | takeEvents => exact absurd rfl ha
  | _ => exact (call_asides c rfl).deeds

/-! ### The configuration -/

theorem transmit_config (c : Controller τ) (what : Sent) :
    (c.transmit what).1.config = c.config := by
  unfold transmit
  split <;> rfl

theorem Asides.config {c c' : Controller τ} (h : Asides c c') : c'.config = c.config := by
  induction h with
  | refl => rfl
  | tail _ h ih =>
    rw [← ih]
    cases h with
    | send what _ => exact transmit_config _ what
    | _ => rfl

theorem Framed.config {c c' : Controller τ} (h : Framed c c') : c'.config = c.config := by
  cases h with
  | aside h => exact Asides.config (.single h)
  | locate | navigate => rfl
  | prompt _ h =>
    have hstopped : c.stopped.config = c.config := by
      cases hs : c.session with
      | none => simp [stopped, placeMarker, removeMarker, note, hs]
      | some s => rw [stopped_eq hs]
    exact h.config.trans hstopped

/-- No deed changes the configuration. -/
theorem Deeds.config {c c' : Controller τ} (h : Deeds c c') : c'.config = c.config := by
  induction h with
  | refl => rfl
  | @tail c _ _ h ih =>
    rw [← ih]
    have hsent (what : Sent) : (c.removeMarker.transmit what).1.config = c.config := by
      rw [transmit_config, removeMarker_eq]
    cases h with
    | framed h => exact h.config
    | resume => exact hsent _
    | resumeFailed => exact hsent _
    | finish => rw [finish, push, removeMarker_eq]
    | start _ mode => cases mode <;> rfl
    | listen | display | refuse => rfl

theorem after_config (c : Controller τ) (x : Happening τ) : (c.after x).config = c.config := by
  cases x with
  | edit | meanwhile => rfl
  | call a =>
    by_cases ha : a = .takeEvents
    · subst ha
      rfl
    · exact (call_deeds c ha).config

end Controller

end Debugline
