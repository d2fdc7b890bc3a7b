import Debugline.Proofs.Editor.Breakpoints
import Debugline.Proofs.Session.Outline

/-! What the controller does is a sequence of moves of its outline: each of its parts,
each call, and so each run. -/

namespace Debugline

/-- A scanner that is not enabled gives no frames. -/
theorem Wire.Scanner.frames_of_disabled {s : Scanner} (h : s.enabled = false) (chunk : List UInt8) :
    (s.feed chunk).2.frames = [] := by
  have hframes (p : Progress) : (chunk.foldl s.step p).frames = p.frames := by
    induction chunk generalizing p with
    | nil => rfl
    | cons b chunk ih =>
      rw [List.foldl_cons, ih]
      simp [step, h]
  simp [feed, scan, hframes]

namespace Controller

open Session Wire Outline

variable {τ : Type}

def outline (c : Controller τ) : Outline where
  state := c.state
  session := c.session.map fun s => (s.mode, s.scanner.enabled)
  breakpoints := c.breakpoints
  located := Breakpoint.ofEditor c.editor
  breakpointSent := c.breakpointSent
  watches := c.watches
  journal := c.journal

theorem outline_session {c : Controller τ} {s : Session τ} (hs : c.session = some s) :
    c.outline.session = some (s.mode, s.scanner.enabled) := by
  simp [outline, hs]

theorem outline_idle {c : Controller τ} (h : c.session = none) : c.outline.session = none := by
  simp [outline, h]

/-! ### Parts that the outline does not show -/

@[simp]
theorem outline_push (c : Controller τ) (e : Event) : (c.push e).outline = c.outline := rfl

theorem outline_modifySession (c : Controller τ) {f : Session τ → Session τ}
    (h : ∀ s, (f s).mode = s.mode ∧ (f s).scanner.enabled = s.scanner.enabled) :
    (c.modifySession f).outline = c.outline := by
  cases hs : c.session <;> simp [outline, modifySession, hs, h]

@[simp]
theorem outline_withTransport {α : Type} (c : Controller τ) (absent : α) (f : τ → τ × α) :
    (c.withTransport absent f).1.outline = c.outline := by
  cases hs : c.session <;> simp [withTransport, outline, hs]

@[simp]
theorem outline_removeMarker (c : Controller τ) : c.removeMarker.outline = c.outline := by
  unfold removeMarker
  split
  · rfl
  · split
    · rfl
    · have h := c.outline_modifySession (f := fun s => { s with marker := none })
        fun _ => ⟨rfl, rfl⟩
      dsimp only
      split
      · exact h
      · simpa [outline] using h

@[simp]
theorem outline_placeMarker (c : Controller τ) : c.placeMarker.outline = c.outline := by
  rw [← c.outline_removeMarker]
  unfold placeMarker
  dsimp only
  split
  · rfl
  · next s hs =>
    split
    · rfl
    · next editor doc hdoc =>
      simpa [outline, hs] using Breakpoint.ofEditor_of_locateOrOpen hdoc

@[simp]
theorem outline_reachLine (c : Controller τ) (line : Nat) :
    (c.reachLine line).outline = c.outline := by
  unfold reachLine
  split
  · rfl
  · next s hs =>
    dsimp only
    rw [outline_push]
    split
    · simp [outline, hs]
    · next editor doc hdoc =>
      simpa [outline, hs] using Breakpoint.ofEditor_of_locateOrOpen hdoc

@[simp]
theorem outline_reportPause (c : Controller τ) : c.reportPause.outline = c.outline := by
  unfold reportPause
  split <;> rfl

@[simp]
theorem outline_settleWatches (c : Controller τ) :
    c.settleWatches.outline = { c.outline with watches := c.watches.settle } := by
  unfold settleWatches Watch.Table.settle
  split
  · split
    · next table hn =>
      rw [outline_push, hn]
      rfl
    · next table hn =>
      rw [Watch.Table.normalize_unchanged (by rw [hn])]
      rfl
  · rfl

@[simp]
theorem outline_pushText (c : Controller τ) (text : List UInt8) :
    (c.pushText text).outline = c.outline := by
  unfold pushText
  split <;> rfl

@[simp]
theorem outline_takeErrors (c : Controller τ) (bytes : List UInt8) :
    (c.takeErrors bytes).outline = c.outline := c.outline_pushText bytes

theorem finish_move (c : Controller τ) : Move c.outline c.finish.outline := by
  have ho : c.finish.outline = { c.removeMarker.outline with
      state := .terminated, session := none, watches := c.watches.clearPending } := rfl
  rw [ho, outline_removeMarker]
  exact .finish

variable [Transport τ]

@[simp]
theorem outline_readStreams (c : Controller τ) : c.readStreams.1.outline = c.outline := by
  simp [readStreams]

/-! ### Sending -/

/-- What is handed to the transport is noted with the state and the mode. -/
theorem outline_transmit {c : Controller τ} {s : Session τ} (hs : c.session = some s)
    (what : Sent) :
    ∃ ok, (c.transmit what).1.outline = c.outline.note (.sent c.state s.mode what ok) ∧
      ((c.transmit what).2 = .ok () ↔ ok = true) := by
  unfold transmit
  rw [hs]
  refine ⟨(Transport.write s.transport what.bytes).2.isOk, by simp [outline, Outline.note, hs], ?_⟩
  cases hr : (Transport.write s.transport what.bytes).2 <;>
    simp [hr, Except.mapError, Except.isOk, Except.toBool]

theorem outline_transmit_waits {c : Controller τ} (h : c.outline.Waits) (what : Sent) :
    ∃ ok, (c.transmit what).1.outline = c.outline.note (.sent .pausedAtPrompt .debug what ok) ∧
      ((c.transmit what).2 = .ok () ↔ ok = true) := by
  obtain ⟨s, hs, hm⟩ := Option.map_eq_some_iff.mp h.session
  have ht := outline_transmit hs what
  rwa [show c.state = .pausedAtPrompt from h.state,
    show s.mode = .debug from congrArg Prod.fst hm] at ht

theorem outline_sendScheduled {c : Controller τ} (h : c.outline.Waits) (command : Command) :
    ∃ ok, (c.sendScheduled command).outline =
      c.outline.note (.sent .pausedAtPrompt .debug (.command command) ok) :=
  have ⟨ok, ho, _⟩ := outline_transmit_waits h (.command command)
  ⟨ok, ho⟩

/-- At a prompt where none was sent, the breakpoint command that is due is sent. -/
theorem outline_advanceBreakpoints {c : Controller τ} (h : c.outline.Waits)
    (hn : c.outline.breakpointSent = false) :
    (c.outline.breakpoints.dirty = true ∧ ∃ ok, c.advanceBreakpoints.outline = { c.outline.note
        (.sent .pausedAtPrompt .debug (.command .clearBreakpoints) ok) with
        breakpoints := ⟨some c.outline.known, 0, false⟩, breakpointSent := true }) ∨
      (∃ l ok, c.outline.breakpoints.dirty = false ∧
        c.outline.known[c.outline.breakpoints.sent]? = some l ∧
        c.advanceBreakpoints.outline = { c.outline.note
          (.sent .pausedAtPrompt .debug (.command l.command) ok) with
          breakpoints := ⟨some c.outline.known, c.outline.breakpoints.sent + 1, false⟩
          breakpointSent := true }) ∨
      (c.outline.breakpoints.dirty = false ∧
        c.outline.known[c.outline.breakpoints.sent]? = none ∧
        c.advanceBreakpoints.outline = { c.outline with
          breakpoints := { c.outline.breakpoints with known := some c.outline.known } }) := by
  have hunsent : c.breakpointSent = false := hn
  unfold advanceBreakpoints
  rw [if_pos ⟨h.state, by simp [hunsent]⟩]
  cases hd : c.breakpoints.dirty with
  | true =>
    rw [Breakpoint.Schedule.next_dirty hd]
    obtain ⟨ok, ho⟩ := outline_sendScheduled (c := { c with
      breakpoints := ⟨some (c.breakpoints.locations c.editor), 0, false⟩
      breakpointSent := true }) ⟨h.state, h.session⟩ .clearBreakpoints
    exact .inl ⟨hd, ok, ho⟩
  | false =>
    cases hl : (c.breakpoints.locations c.editor)[c.breakpoints.sent]? with
    | none =>
      rw [Breakpoint.Schedule.next_none hd hl]
      exact .inr (.inr ⟨hd, hl, rfl⟩)
    | some l =>
      rw [Breakpoint.Schedule.next_some hd hl]
      obtain ⟨ok, ho⟩ := outline_sendScheduled (c := { c with
        breakpoints := ⟨some (c.breakpoints.locations c.editor), c.breakpoints.sent + 1, false⟩
        breakpointSent := true }) ⟨h.state, h.session⟩ l.command
      exact .inr (.inl ⟨l, ok, hd, hl, ho⟩)

theorem advanceBreakpoints_within {c : Controller τ} (h : c.outline.Sound) :
    Within c.outline c.advanceBreakpoints.outline := by
  by_cases hp : c.state = .pausedAtPrompt ∧ !c.breakpointSent
  · have hw : c.outline.Waits := h.waits hp.1
    have hn : c.outline.breakpointSent = false := by simpa [outline] using hp.2
    obtain ⟨hd, ok, ho⟩ | ⟨l, ok, hd, hl, ho⟩ | ⟨-, -, ho⟩ := outline_advanceBreakpoints hw hn
    · exact ho ▸ .single (.clear hw hn hd ok) rfl
    · exact ho ▸ .single (.breakAt hw hn hd hl ok) rfl
    · exact ho ▸ .single .rebuild rfl
  · rw [advanceBreakpoints, if_neg hp]
    exact .refl _

/-! ### Frames -/

theorem outline_advanceWatches {c : Controller τ} (h : c.outline.Waits) :
    (c.watches.pending = [] ∧ c.advanceWatches.outline = c.outline) ∨
      ∃ row rest ok, c.watches.pending = row :: rest ∧
        c.advanceWatches.outline = { c.outline.note
          (.sent .pausedAtPrompt .debug (.command (c.watches.commandFor row)) ok) with
          watches := { c.watches with pending := rest } } := by
  unfold advanceWatches Watch.Table.next
  split
  · next hn =>
    left
    split at hn <;> simp_all
  · next table command hn =>
    right
    split at hn
    · simp at hn
    · next row rest hpending =>
      obtain ⟨rfl, rfl⟩ : { c.watches with pending := rest } = table ∧
          c.watches.commandFor row = command := by simpa using hn
      obtain ⟨ok, ho⟩ := outline_sendScheduled
        (c := { c with watches := { c.watches with pending := rest } })
        ⟨h.state, h.session⟩ (c.watches.commandFor row)
      exact ⟨row, rest, ok, hpending, ho⟩

/-- At a prompt, the watch command that is due is sent before the breakpoints. -/
theorem outline_prompt {c : Controller τ} (hs : c.outline.session = some (.debug, true)) :
    let paused := { c.note (.frame .prompt) with state := .pausedAtPrompt }
    let settled := { paused.placeMarker.advanceWatches.settleWatches with breakpointSent := false }
    (c.outline.watches.pending = [] ∧ settled.outline = { c.outline.note (.frame .prompt) with
        state := .pausedAtPrompt, breakpointSent := false
        watches := c.outline.watches.settle }) ∨
      ∃ row rest ok, c.outline.watches.pending = row :: rest ∧
        settled.outline = { (c.outline.note (.frame .prompt)).note
          (.sent .pausedAtPrompt .debug (.command (c.outline.watches.commandFor row)) ok) with
          state := .pausedAtPrompt, breakpointSent := false
          watches := { c.outline.watches with pending := rest }.settle } := by
  intro paused settled
  have hm : paused.placeMarker.outline =
      { c.outline.note (.frame .prompt) with state := .pausedAtPrompt } := by
    rw [outline_placeMarker]
    rfl
  have hwatches : paused.placeMarker.watches = c.outline.watches := congrArg Outline.watches hm
  have hw : paused.placeMarker.outline.Waits := by
    rw [hm]
    exact ⟨rfl, hs⟩
  let advanced := paused.placeMarker.advanceWatches
  have ho : settled.outline = { advanced.outline with
      breakpointSent := false, watches := advanced.outline.watches.settle } := by
    have hsettle := outline_settleWatches advanced
    exact congrArg (fun o : Outline => { o with breakpointSent := false }) hsettle
  obtain ⟨hp, ha⟩ | ⟨row, rest, ok, hp, ha⟩ := outline_advanceWatches hw
  · refine .inl ⟨hwatches ▸ hp, ?_⟩
    rw [ho, ha, hm]
    rfl
  · refine .inr ⟨row, rest, ok, hwatches ▸ hp, ?_⟩
    rw [ho, ha, hm, hwatches]
    rfl

/-- A prompt up to the breakpoints is one move. -/
theorem prompt_within {c : Controller τ} (hs : c.outline.session = some (.debug, true)) :
    let paused := { c.note (.frame .prompt) with state := .pausedAtPrompt }
    Within c.outline
      { paused.placeMarker.advanceWatches.settleWatches with breakpointSent := false }.outline := by
  intro paused
  obtain ⟨hp, ho⟩ | ⟨row, rest, ok, hp, ho⟩ := outline_prompt hs
  · exact ho ▸ .single (.promptIdle hs hp) rfl
  · exact ho ▸ .single (.promptWatch hs hp ok) rfl

theorem reachPrompt_within {c : Controller τ} (h : c.outline.Sound)
    (hs : c.outline.session = some (.debug, true)) :
    Within c.outline (c.note (.frame .prompt)).reachPrompt.outline := by
  have hw := prompt_within hs
  unfold reachPrompt
  rw [outline_reportPause]
  exact hw.trans (advanceBreakpoints_within (hw.moves.sound h))

theorem apply_within {c : Controller τ} (h : c.outline.Sound)
    (hs : c.outline.session = some (.debug, true)) (f : Frame) :
    Within c.outline (c.apply f).outline := by
  cases f with
  | watch row name value =>
    unfold apply
    dsimp only
    split
    · exact .refl _
    · next table i hu => exact .single (.report hs hu) rfl
  | prompt => exact reachPrompt_within h hs
  | file path =>
    have ho := (c.note (.frame (.file path))).outline_modifySession
      (f := fun s => { s with file := path }) fun _ => ⟨rfl, rfl⟩
    unfold apply
    rw [ho]
    exact .single (.frame _ hs nofun nofun) rfl
  | lineNumber line =>
    unfold apply
    rw [outline_reachLine]
    exact .single (.frame _ hs nofun nofun) rfl
  | localValue text | globalValue text | info text => exact .single (.frame _ hs nofun nofun) rfl

theorem dispatch_within {c : Controller τ} (h : c.outline.Sound)
    (hs : c.outline.session = some (.debug, true)) (body : String) :
    Within c.outline (c.dispatch body).outline := by
  unfold dispatch
  split
  · exact apply_within h hs _
  · exact .refl _

theorem dispatchAll_within {c : Controller τ} (h : c.outline.Sound)
    (hs : c.outline.session = some (.debug, true)) (bodies : List String) :
    Within c.outline (bodies.foldl dispatch c).outline := by
  induction bodies generalizing c with
  | nil => exact .refl _
  | cons body bodies ih =>
    have hw := dispatch_within h hs body
    exact hw.trans (ih (hw.moves.sound h) (hw.session.trans hs))

/-! ### Output -/

theorem takeOutput_within {c : Controller τ} (h : c.outline.Sound) (bytes : List UInt8) :
    Within c.outline (c.takeOutput bytes).outline := by
  unfold takeOutput
  split
  · exact .refl _
  · next s hs =>
    have hfed : { c with session := some { s with scanner := (s.scanner.feed bytes).1 } }.outline =
        c.outline := by
      simp [outline, hs, Scanner.feed]
    dsimp only
    rw [outline_pushText]
    cases he : s.scanner.enabled with
    | false =>
      rw [Scanner.frames_of_disabled he, List.foldl_nil, hfed]
      exact .refl _
    | true =>
      have hdebug : c.outline.session = some (.debug, true) := by
        have hm := h.searched _ _ (outline_session hs)
        rw [outline_session hs, he]
        simp_all
      have hw := dispatchAll_within (hfed.symm ▸ h) (hfed.symm ▸ hdebug)
        (s.scanner.feed bytes).2.frames
      rwa [hfed] at hw

theorem receive_within {c : Controller τ} (h : c.outline.Sound) :
    Within c.outline c.receive.outline := by
  unfold receive
  dsimp only
  rw [outline_takeErrors]
  have hread := c.outline_readStreams
  have hw := takeOutput_within (hread.symm ▸ h) c.readStreams.2.1
  rwa [hread] at hw

/-! ### Calls -/

theorem poll_moves {c : Controller τ} (h : c.outline.Sound) : Moves c.outline c.poll.outline := by
  unfold poll
  split
  case isFalse => exact .refl
  case isTrue hs =>
    have hm := (receive_within h).moves
    have ho := c.receive.outline_withTransport false Transport.alive
    dsimp only
    split
    · next c' ha =>
      rw [ha] at ho
      rwa [ho]
    · next c' ha =>
      rw [ha] at ho
      have hm' := (receive_within (ho.symm ▸ hm.sound h)).moves
      rw [ho] at hm'
      exact (hm.trans hm').tail c'.receive.finish_move

omit [Transport τ] in
theorem start_move {c : Controller τ} (hs : c.session = none) (mode : Mode) (transport : τ) :
    Move c.outline (c.start mode transport).outline := by
  cases mode with
  | run => exact .startRun (outline_idle hs)
  | debug => exact .startDebug (outline_idle hs)

omit [Transport τ] in
theorem launch_moves (c : Controller τ) (mode : Mode) (spawn : Unit → Except Failure τ) :
    Moves c.outline (c.launch mode spawn).1.outline := by
  unfold launch
  split
  case isTrue => exact .refl
  case isFalse h =>
    have hs : c.session = none := by simpa [hasSession] using h
    dsimp only
    split
    · next transport _ => exact .single (start_move hs mode transport)
    · exact .single (.refuse (outline_idle hs))

theorem abort_moves (c : Controller τ) : Moves c.outline c.abort.1.outline := by
  unfold abort
  split
  case isFalse => exact .refl
  case isTrue =>
    let killed :=
      ((c.withTransport (.ok ()) Transport.terminate).1.withTransport (.ok ()) Transport.kill).1
    have ho : killed.outline = c.outline := by simp [killed]
    have hm := finish_move { killed with traffic := killed.traffic ++ [.terminate, .kill] }
    have hk : Move killed.outline _ := hm
    rw [ho] at hk
    exact .single hk

omit [Transport τ] in
/-- A debugger that is found to wait does. -/
theorem waits_of_requirePaused {c : Controller τ} (h : c.outline.Sound) {u : Unit}
    (hr : c.requirePaused = .ok u) : c.outline.Waits := by
  unfold requirePaused at hr
  split at hr
  · cases hr
  · split at hr
    · cases hr
    · split at hr
      · cases hr
      · next hp => exact h.waits (not_not.mp hp)

theorem step_moves {c : Controller τ} (h : c.outline.Sound) {command : Command}
    (hc : command.resumes = true) : Moves c.outline (c.step command).1.outline := by
  unfold step
  split
  · exact .refl
  · next hr =>
    have hw := waits_of_requirePaused h hr
    have hm := c.outline_removeMarker
    obtain ⟨ok, ho, hok⟩ := outline_transmit_waits (hm.symm ▸ hw) (.command command)
    rw [hm] at ho
    split
    · next c' refusal ht =>
      rw [ht] at ho hok
      obtain rfl : ok = false := by simpa using hok
      exact ho ▸ .single (.resumeFailed hw hc)
    · next c' ht =>
      rw [ht] at ho hok
      obtain rfl : ok = true := by simpa using hok
      have hrun : { c' with state := .running }.outline =
          { c'.outline with state := .running } := rfl
      rw [hrun, ho]
      exact .single (.resume hw hc)

theorem evaluate_moves {c : Controller τ} (h : c.outline.Sound) (expr : String)
    (hover : Option Hover) : Moves c.outline (c.evaluate expr hover).1.outline := by
  unfold evaluate
  split
  · exact .refl
  · next hr =>
    have hw := waits_of_requirePaused h hr
    obtain ⟨ok, ho, _⟩ := outline_transmit_waits (c := { c with hover }) ⟨hw.state, hw.session⟩
      (.command (.evaluate (Text.trimmed expr)))
    rw [ho]
    exact .single (.evaluate _ hw ok)

theorem evaluateAt_moves {c : Controller τ} (h : c.outline.Sound) (doc : DocId) (position : Nat) :
    Moves c.outline (c.evaluateAt doc position).1.outline := by
  unfold evaluateAt
  split
  · exact .refl
  · split
    · exact .refl
    · exact evaluate_moves h _ _

theorem sendInput_moves (c : Controller τ) (text : String) :
    Moves c.outline (c.sendInput text).1.outline := by
  unfold sendInput
  cases hs : c.session with
  | none =>
    simp only [transmit, hs]
    exact .refl
  | some s =>
    obtain ⟨ok, ho, _⟩ := outline_transmit hs (.input text)
    rw [ho]
    exact .single (.input text (outline_session hs) ok)

/-- Breakpoints that were changed are sent at once if they can be. -/
theorem changed_moves {c : Controller τ} (h : c.outline.Sound) (editor : Editor) :
    Moves c.outline
      { c with breakpoints := c.breakpoints.invalidate, editor }.advanceBreakpoints.outline := by
  have hm : Move c.outline { c with breakpoints := c.breakpoints.invalidate, editor }.outline :=
    .invalidate _
  exact (Relation.ReflTransGen.single hm).trans (advanceBreakpoints_within (hm.sound h)).moves

theorem toggleBreakpoint_moves {c : Controller τ} (h : c.outline.Sound) (doc : DocId) (line : Nat) :
    Moves c.outline (c.toggleBreakpoint doc line).1.outline := by
  obtain ⟨editor, set, ht⟩ : ∃ editor set,
      c.breakpoints.toggle c.editor doc line = (c.breakpoints.invalidate, editor, set) := by
    unfold Breakpoint.Schedule.toggle
    split <;> exact ⟨_, _, rfl⟩
  unfold toggleBreakpoint
  rw [ht]
  exact changed_moves h editor

theorem toggleBreakpointAt_moves {c : Controller τ} (h : c.outline.Sound) (path : String)
    (line : Nat) : Moves c.outline (c.toggleBreakpointAt path line).1.outline := by
  unfold toggleBreakpointAt
  split
  · exact .refl
  · next editor doc hd =>
    have ho : { c with editor }.outline = c.outline := by
      simpa [outline] using Breakpoint.ofEditor_of_locateOrOpen hd
    have hm := toggleBreakpoint_moves (ho.symm ▸ h) doc line
    rwa [ho] at hm

theorem clearBreakpoints_moves {c : Controller τ} (h : c.outline.Sound) :
    Moves c.outline c.clearBreakpoints.outline := changed_moves h _

omit [Transport τ] in
theorem deleteWatch_moves (c : Controller τ) (row : Nat) :
    Moves c.outline (c.deleteWatch row).1.outline := by
  unfold deleteWatch
  split
  · next table hd =>
    have hrow : row < c.watches.rows.length := by
      by_contra hn
      simp [Watch.Table.delete, hn] at hd
    have ht : table = (c.watches.delete row).1 := by rw [hd]
    rw [ht]
    exact .single (.delete hrow)
  · exact .refl

/-- Whatever is asked of it, a controller makes moves. -/
theorem call_moves {c : Controller τ} (h : c.outline.Sound) (a : Call τ) :
    Moves c.outline (c.call a).outline := by
  cases a with
  | launch mode spawn => exact launch_moves c mode spawn
  | poll => exact poll_moves h
  | abort => exact abort_moves c
  | goOn | stepInto | stepOver | stepOut | runToLine line | runToCursor doc position =>
    exact step_moves h rfl
  | evaluate expr hover => exact evaluate_moves h expr hover
  | evaluateAt doc position => exact evaluateAt_moves h doc position
  | sendInput text => exact sendInput_moves c text
  | toggleBreakpoint doc line => exact toggleBreakpoint_moves h doc line
  | toggleBreakpointAt path line => exact toggleBreakpointAt_moves h path line
  | clearBreakpoints => exact clearBreakpoints_moves h
  | documentsChanged => exact .single (.invalidate _)
  | listBreakpoints => exact .single .rebuild
  | addWatch name => exact .single (.edit _ name)
  | editWatch row name => exact .single (.edit row name)
  | deleteWatch row => exact deleteWatch_moves c row
  | takeEvents | takeTraffic => exact .refl

/-! ### Runs -/

omit [Transport τ] in
@[simp]
theorem outline_meanwhile (c : Controller τ) (f : τ → τ) : (c.meanwhile f).outline = c.outline :=
  c.outline_modifySession fun _ => ⟨rfl, rfl⟩

omit [Transport τ] in
theorem sound_new (config : Config) (editor : Editor) :
    (Controller.new config editor : Controller τ).outline.Sound :=
  ⟨nofun, nofun⟩

/-- What moves keep, and changes of documents, holds at the end of every run. -/
theorem run_keep {P : Outline → Prop} (moves : ∀ {o o'}, o.Sound → P o → Move o o' → P o')
    (edit : ∀ {o} located, P o → P { o with located }) {c : Controller τ} (h : c.outline.Sound)
    (hp : P c.outline) (hs : List (Happening τ)) : P (c.run hs).outline := by
  induction hs generalizing c with
  | nil => exact hp
  | cons a hs ih =>
    cases a with
    | call a =>
      have hm := call_moves h a
      exact ih (hm.sound h) (hm.keep moves h hp)
    | edit change => exact ih (h.of_eq rfl rfl) (edit _ hp)
    | meanwhile f =>
      have ho := c.outline_meanwhile f
      exact ih (ho.symm ▸ h) (ho.symm ▸ hp)

end Controller

end Debugline
