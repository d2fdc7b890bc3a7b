import Debugline.Proofs.Session.Terminal

/-! Two controllers that go alike. They agree in all but the transports, what the scanners hold
and the events, which are tied by relations of their own. As long as writes keep the ties, all
that a controller does by itself or for its host keeps the two alike; what a poll reads is left to
those who know the ties. An effect says what one controller may do, and not that another does the
same; so the two are followed together here, through one function after the other. -/

namespace Debugline

open Session Wire

/-- Two sessions that agree but for what their transports and scanners are tied by. -/
structure Session.Twin {τ : Type} (Q : τ → Scanner → τ → Scanner → Prop) (s t : Session τ) :
    Prop where
  linked : Q s.transport s.scanner t.transport t.scanner
  mode : s.mode = t.mode
  file : s.file = t.file
  line : s.line = t.line
  marker : s.marker = t.marker

namespace Controller

variable {τ : Type}

/-- Two controllers that agree but for the ties of their sessions and of their events. -/
structure Twin (Q : τ → Scanner → τ → Scanner → Prop) (E : List Event → List Event → Prop)
    (c d : Controller τ) : Prop where
  config : c.config = d.config
  editor : c.editor = d.editor
  state : c.state = d.state
  session : Option.Rel (Session.Twin Q) c.session d.session
  breakpoints : c.breakpoints = d.breakpoints
  watches : c.watches = d.watches
  breakpointSent : c.breakpointSent = d.breakpointSent
  hover : c.hover = d.hover
  events : E c.events d.events
  traffic : c.traffic = d.traffic
  journal : c.journal = d.journal

variable [Transport τ]

/-- The ties bear it when both push an event and when both write. -/
structure Lockstep (Q : τ → Scanner → τ → Scanner → Prop) (E : List Event → List Event → Prop) :
    Prop where
  push {es fs : List Event} (e : Event) (h : E es fs) : E (es ++ [e]) (fs ++ [e])
  write {t u : τ} {s s' : Scanner} (h : Q t s u s') (bytes : List UInt8) :
    (Transport.write t bytes).2 = (Transport.write u bytes).2 ∧
      Q (Transport.write t bytes).1 s (Transport.write u bytes).1 s'

namespace Twin

variable {Q : τ → Scanner → τ → Scanner → Prop} {E : List Event → List Event → Prop}
  {c d : Controller τ}

omit [Transport τ] in
theorem sessions (h : Twin Q E c d) : (c.session = none ∧ d.session = none) ∨
    ∃ s t, c.session = some s ∧ d.session = some t ∧ s.Twin Q t := by
  have hr := h.session
  generalize c.session = x at hr
  generalize d.session = y at hr
  cases hr with
  | none => exact .inl ⟨rfl, rfl⟩
  | some hst => exact .inr ⟨_, _, rfl, rfl, hst⟩

omit [Transport τ] in
theorem hasSession (h : Twin Q E c d) : c.hasSession = d.hasSession := by
  rcases h.sessions with ⟨hc, hd⟩ | ⟨s, t, hc, hd, -⟩ <;> simp [Controller.hasSession, hc, hd]

omit [Transport τ] in
theorem marker? (h : Twin Q E c d) : c.marker? = d.marker? := by
  rcases h.sessions with ⟨hc, hd⟩ | ⟨s, t, hc, hd, hst⟩
  · simp [Controller.marker?, hc, hd]
  · simp [Controller.marker?, hc, hd, hst.marker]

omit [Transport τ] in
/-- Nothing is left to differ in. -/
theorem eq_of_session (h : Twin Q Eq c d) (same : c.session = d.session) : c = d := by
  obtain ⟨h₁, h₂, h₃, -, h₄, h₅, h₆, h₇, h₈, h₉, h₁₀⟩ := h
  cases c
  cases d
  simp_all

omit [Transport τ] in
theorem note (h : Twin Q E c d) (m : Mark) : Twin Q E (c.note m) (d.note m) :=
  { h with journal := congrArg (m :: ·) h.journal }

omit [Transport τ] in
theorem modifySession (h : Twin Q E c d) {f : Session τ → Session τ}
    (hf : ∀ {s t : Session τ}, s.Twin Q t → (f s).Twin Q (f t)) :
    Twin Q E (c.modifySession f) (d.modifySession f) := by
  refine { h with session := ?_ }
  rcases h.sessions with ⟨hc, hd⟩ | ⟨s, t, hc, hd, hst⟩ <;>
    simp only [Controller.modifySession, hc, hd, Option.map_none, Option.map_some]
  · exact .none
  · exact .some (hf hst)

omit [Transport τ] in
theorem removeMarker (h : Twin Q E c d) : Twin Q E c.removeMarker d.removeMarker := by
  have hm := h.modifySession (f := fun s => { s with marker := none }) fun hst =>
    { hst with marker := rfl }
  rw [removeMarker_eq, removeMarker_eq, h.editor, h.marker?]
  exact { hm with editor := rfl }

/-! ### What a controller does by itself -/

variable (lock : Lockstep Q E)
include lock

theorem push (h : Twin Q E c d) (e : Event) : Twin Q E (c.push e) (d.push e) :=
  { h with events := lock.push e h.events }

theorem transmit (h : Twin Q E c d) (what : Sent) :
    Twin Q E (c.transmit what).1 (d.transmit what).1 ∧
      (c.transmit what).2 = (d.transmit what).2 := by
  unfold Controller.transmit
  rcases h.sessions with ⟨hc, hd⟩ | ⟨s, t, hc, hd, hst⟩
  · rw [hc, hd]
    exact ⟨h, rfl⟩
  · obtain ⟨hr, hq⟩ := lock.write hst.linked what.bytes
    rw [hc, hd]
    dsimp only
    exact ⟨{ h with
      session := .some { hst with linked := hq }
      traffic := by rw [h.traffic, hr]
      journal := by rw [h.state, h.journal, hst.mode, hr] }, by rw [hr]⟩

theorem advanceBreakpoints (h : Twin Q E c d) :
    Twin Q E c.advanceBreakpoints d.advanceBreakpoints := by
  have hnext : c.breakpoints.next c.editor = d.breakpoints.next d.editor := by
    rw [h.breakpoints, h.editor]
  have hdue : c.state = .pausedAtPrompt ∧ !c.breakpointSent ↔
      d.state = .pausedAtPrompt ∧ !d.breakpointSent := by rw [h.state, h.breakpointSent]
  unfold Controller.advanceBreakpoints
  simp only [hnext, hdue]
  split
  · split
    · exact { h with breakpoints := rfl }
    · next schedule command _ =>
      have hn : Twin Q E { c with breakpoints := schedule, breakpointSent := true }
          { d with breakpoints := schedule, breakpointSent := true } :=
        { h with breakpoints := rfl, breakpointSent := rfl }
      exact (transmit lock hn _).1
  · exact h

theorem advanceWatches (h : Twin Q E c d) : Twin Q E c.advanceWatches d.advanceWatches := by
  have hnext : c.watches.next = d.watches.next := by rw [h.watches]
  unfold Controller.advanceWatches
  rw [hnext]
  split
  · exact h
  · next table command _ =>
    have hn : Twin Q E { c with watches := table } { d with watches := table } :=
      { h with watches := rfl }
    exact (transmit lock hn _).1

omit [Transport τ] lock in
theorem placeMarker (h : Twin Q E c d) : Twin Q E c.placeMarker d.placeMarker := by
  have hm := h.removeMarker
  unfold Controller.placeMarker
  rcases hm.sessions with ⟨hc, hd⟩ | ⟨s, t, hc, hd, hst⟩
  · simpa only [hc, hd] using hm
  · have hopen : c.removeMarker.editor.locateOrOpen s.file =
        d.removeMarker.editor.locateOrOpen t.file := by rw [hm.editor, hst.file]
    simp only [hc, hd, hopen]
    split
    · exact hm
    · exact { hm with
        editor := by rw [hst.line]
        session := .some { hst with marker := by rw [hst.file, hst.line] } }

theorem settleWatches (h : Twin Q E c d) : Twin Q E c.settleWatches d.settleWatches := by
  have hpending : c.watches.pending.isEmpty = d.watches.pending.isEmpty := by rw [h.watches]
  have hnormal : c.watches.normalize = d.watches.normalize := by rw [h.watches]
  unfold Controller.settleWatches
  rw [hpending, hnormal]
  split
  · split
    · next table _ =>
      have hn : Twin Q E { c with watches := table } { d with watches := table } :=
        { h with watches := rfl }
      exact push lock hn _
    · exact h
  · exact h

theorem reportPause (h : Twin Q E c d) : Twin Q E c.reportPause d.reportPause := by
  unfold Controller.reportPause
  rcases h.sessions with ⟨hc, hd⟩ | ⟨s, t, hc, hd, hst⟩
  · simpa only [hc, hd] using h
  · simp only [hc, hd, hst.file, hst.line]
    exact push lock h _

theorem reachLine (h : Twin Q E c d) (line : Nat) :
    Twin Q E (c.reachLine line) (d.reachLine line) := by
  unfold Controller.reachLine
  rcases h.sessions with ⟨hc, hd⟩ | ⟨s, t, hc, hd, hst⟩
  · simpa only [hc, hd] using h
  · have hopen : c.editor.locateOrOpen s.file = d.editor.locateOrOpen t.file := by
      rw [h.editor, hst.file]
    have hline : Twin Q E { c with session := some { s with line := line - 1 } }
        { d with session := some { t with line := line - 1 } } :=
      { h with session := .some { hst with line := rfl } }
    have hevent : Event.navigate s.file (line - 1) = .navigate t.file (line - 1) := by
      rw [hst.file]
    simp only [hc, hd, hopen, hevent]
    refine push lock ?_ _
    split
    · exact hline
    · exact { hline with editor := rfl }

theorem reachPrompt (h : Twin Q E c d) : Twin Q E c.reachPrompt d.reachPrompt := by
  have hp : Twin Q E { c with state := .pausedAtPrompt } { d with state := .pausedAtPrompt } :=
    { h with state := rfl }
  have hw := settleWatches lock (advanceWatches lock hp.placeMarker)
  exact reportPause lock (advanceBreakpoints lock { hw with breakpointSent := rfl })

theorem apply (h : Twin Q E c d) (f : Frame) : Twin Q E (c.apply f) (d.apply f) := by
  have hn := h.note (.frame f)
  cases f with
  | file path => exact hn.modifySession fun hst => { hst with file := rfl }
  | watch row name value =>
    have hupdate : c.watches.update row name value = d.watches.update row name value := by
      rw [h.watches]
    unfold Controller.apply
    simp only [hupdate]
    split
    · exact h
    · next table i _ =>
      have ht : Twin Q E { c.note (.frame (.watch row name value)) with watches := table }
          { d.note (.frame (.watch row name value)) with watches := table } :=
        { hn with watches := rfl }
      exact push lock ht _
  | localValue text | globalValue text =>
    unfold Controller.apply Controller.showValue
    rw [hn.hover]
    exact push lock hn _
  | info text => exact push lock hn _
  | lineNumber line => exact reachLine lock hn line
  | prompt => exact reachPrompt lock hn

theorem dispatch (h : Twin Q E c d) (body : String) :
    Twin Q E (c.dispatch body) (d.dispatch body) := by
  unfold Controller.dispatch
  rw [h.config]
  split
  · exact apply lock h _
  · exact h

theorem dispatchAll (h : Twin Q E c d) (bodies : List String) :
    Twin Q E (bodies.foldl Controller.dispatch c) (bodies.foldl Controller.dispatch d) := by
  induction bodies generalizing c d with
  | nil => exact h
  | cons body bodies ih => exact ih (dispatch lock h body)

theorem pushText (h : Twin Q E c d) (text : List UInt8) :
    Twin Q E (c.pushText text) (d.pushText text) := by
  unfold Controller.pushText
  split
  · exact h
  · exact push lock h _

theorem finish (h : Twin Q E c d) : Twin Q E c.finish d.finish := by
  have hm := h.removeMarker
  have hw : c.watches.clearPending = d.watches.clearPending := by rw [h.watches]
  have hend : Twin Q E
      { c.removeMarker with
        session := none, state := .terminated, hover := none, watches := c.watches.clearPending }
      { d.removeMarker with
        session := none, state := .terminated, hover := none, watches := d.watches.clearPending } :=
    { hm with session := .none, state := rfl, hover := rfl, watches := hw }
  exact push lock hend .terminated

/-! ### Calls -/

omit [Transport τ] lock in
theorem requirePaused (h : Twin Q E c d) : c.requirePaused = d.requirePaused := by
  unfold Controller.requirePaused
  rcases h.sessions with ⟨hc, hd⟩ | ⟨s, t, hc, hd, hst⟩
  · rw [hc, hd]
  · simp only [hc, hd, hst.mode, h.state]

theorem step (h : Twin Q E c d) (command : Command) :
    Twin Q E (c.step command).1 (d.step command).1 := by
  obtain ⟨ht, hr⟩ := transmit lock h.removeMarker (.command command)
  unfold Controller.step
  rw [h.requirePaused]
  rcases hc : c.removeMarker.transmit (.command command) with ⟨c', r⟩
  rcases hd : d.removeMarker.transmit (.command command) with ⟨d', r'⟩
  rw [hc, hd] at ht hr
  obtain rfl : r = r' := hr
  split
  · exact h
  · cases r with
    | error refusal => exact ht
    | ok => exact { ht with state := rfl }

theorem evaluate (h : Twin Q E c d) (expr : String) (hover : Option Hover) :
    Twin Q E (c.evaluate expr hover).1 (d.evaluate expr hover).1 := by
  unfold Controller.evaluate
  rw [h.requirePaused]
  split
  · exact h
  · have hh : Twin Q E { c with hover } { d with hover } := { h with hover := rfl }
    exact (transmit lock hh _).1

theorem evaluateAt (h : Twin Q E c d) (doc : DocId) (position : Nat) :
    Twin Q E (c.evaluateAt doc position).1 (d.evaluateAt doc position).1 := by
  unfold Controller.evaluateAt
  rw [h.requirePaused, h.editor]
  split
  · exact h
  · split
    · exact h
    · exact evaluate lock h _ _

theorem toggleBreakpoint (h : Twin Q E c d) (doc : DocId) (line : Nat) :
    Twin Q E (c.toggleBreakpoint doc line).1 (d.toggleBreakpoint doc line).1 := by
  have ht : c.breakpoints.toggle c.editor doc line = d.breakpoints.toggle d.editor doc line := by
    rw [h.breakpoints, h.editor]
  unfold Controller.toggleBreakpoint
  rw [ht]
  exact advanceBreakpoints lock { h with breakpoints := rfl, editor := rfl }

theorem toggleBreakpointAt (h : Twin Q E c d) (path : String) (line : Nat) :
    Twin Q E (c.toggleBreakpointAt path line).1 (d.toggleBreakpointAt path line).1 := by
  have hopen : c.editor.locateOrOpen path = d.editor.locateOrOpen path := by rw [h.editor]
  unfold Controller.toggleBreakpointAt
  rw [hopen]
  split
  · exact h
  · next editor doc _ =>
    have he : Twin Q E { c with editor } { d with editor } := { h with editor := rfl }
    exact toggleBreakpoint lock he doc line

theorem clearBreakpoints (h : Twin Q E c d) : Twin Q E c.clearBreakpoints d.clearBreakpoints := by
  have hclear : c.breakpoints.clearAll c.editor = d.breakpoints.clearAll d.editor := by
    rw [h.breakpoints, h.editor]
  unfold Controller.clearBreakpoints
  rw [hclear]
  exact advanceBreakpoints lock { h with breakpoints := rfl, editor := rfl }

/-- An expression is given to a row. -/
theorem ask (h : Twin Q E c d) (row : Nat) (name : String) (watches : Watch.Table) :
    Twin Q E ({ c.note (.asked row name) with watches }.push .watchTableChanged)
      ({ d.note (.asked row name) with watches }.push .watchTableChanged) := by
  have hw : Twin Q E { c.note (.asked row name) with watches }
      { d.note (.asked row name) with watches } :=
    { h.note (.asked row name) with watches := rfl }
  exact push lock hw _

theorem addWatch (h : Twin Q E c d) (name : String) :
    Twin Q E (c.addWatch name).1 (d.addWatch name).1 := by
  unfold Controller.addWatch
  rw [h.watches]
  exact ask lock h _ _ _

theorem editWatch (h : Twin Q E c d) (row : Nat) (name : String) :
    Twin Q E (c.editWatch row name) (d.editWatch row name) := by
  unfold Controller.editWatch
  rw [h.watches]
  exact ask lock h _ _ _

theorem deleteWatch (h : Twin Q E c d) (row : Nat) :
    Twin Q E (c.deleteWatch row).1 (d.deleteWatch row).1 := by
  unfold Controller.deleteWatch
  rw [h.watches]
  split
  · exact ask lock h _ _ _
  · exact h

/-- What the host asks for beside the polls keeps the two alike. -/
theorem call (h : Twin Q E c d) {a : Call τ} (ha : (Happening.call a).isBeside) :
    Twin Q E (c.call a) (d.call a) := by
  cases a with
  | launch | poll | abort | takeEvents => cases ha
  | goOn | stepInto | stepOver | stepOut | runToLine line => exact step lock h _
  | runToCursor doc position =>
    unfold Controller.call Controller.runToCursor
    rw [h.editor]
    exact step lock h _
  | evaluate expr hover => exact evaluate lock h expr hover
  | evaluateAt doc position => exact evaluateAt lock h doc position
  | sendInput text => exact (transmit lock h _).1
  | toggleBreakpoint doc line => exact toggleBreakpoint lock h doc line
  | toggleBreakpointAt path line => exact toggleBreakpointAt lock h path line
  | clearBreakpoints => exact clearBreakpoints lock h
  | documentsChanged => exact { h with breakpoints := rfl }
  | listBreakpoints =>
    have hl : c.breakpoints.list c.editor = d.breakpoints.list d.editor := by
      rw [h.breakpoints, h.editor]
    exact { h with breakpoints := congrArg Prod.fst hl }
  | addWatch name => exact addWatch lock h name
  | editWatch row name => exact editWatch lock h row name
  | deleteWatch row => exact deleteWatch lock h row
  | takeTraffic => exact { h with traffic := rfl }

omit [Transport τ] lock in
/-- What is done to both transports may change the tie. -/
theorem withTransport {α : Type} {R : τ → Scanner → τ → Scanner → Prop} (h : Twin Q E c d)
    (absent : α) {f g : τ → τ × α}
    (hq : ∀ {t u : τ} {s s' : Scanner}, Q t s u s' → R (f t).1 s (g u).1 s') :
    Twin R E (c.withTransport absent f).1 (d.withTransport absent g).1 := by
  unfold Controller.withTransport
  rcases h.sessions with ⟨hc, hd⟩ | ⟨s, t, hc, hd, hst⟩
  · simp only [hc, hd]
    exact { h with session := by rw [hc, hd]; exact .none }
  · simp only [hc, hd]
    exact { h with session := .some { hst with linked := hq hst.linked } }

omit [Transport τ] lock in
theorem withTransport_answer {α : Type} (h : Twin Q E c d) (absent : α) {f g : τ → τ × α}
    (hq : ∀ {t u : τ} {s s' : Scanner}, Q t s u s' → (f t).2 = (g u).2) :
    (c.withTransport absent f).2 = (d.withTransport absent g).2 := by
  unfold Controller.withTransport
  rcases h.sessions with ⟨hc, hd⟩ | ⟨s, t, hc, hd, hst⟩
  · rw [hc, hd]
  · simpa only [hc, hd] using hq hst.linked

omit [Transport τ] lock in
/-- Both programs go on by themselves. -/
theorem meanwhile (h : Twin Q E c d) {f g : τ → τ}
    (hq : ∀ {t u : τ} {s s' : Scanner}, Q t s u s' → Q (f t) s (g u) s') :
    Twin Q E (c.meanwhile f) (d.meanwhile g) := by
  refine { h with session := ?_ }
  rcases h.sessions with ⟨hc, hd⟩ | ⟨s, t, hc, hd, hst⟩ <;>
    simp only [Controller.meanwhile, Controller.modifySession, hc, hd, Option.map_none,
      Option.map_some]
  · exact .none
  · exact .some { hst with linked := hq hst.linked }

omit [Transport τ] lock in
/-- A session starts in both. -/
theorem start (h : Twin Q E c d) (mode : Mode) {t u : τ}
    (hq : Q t (.new c.config (mode = .debug)) u (.new c.config (mode = .debug))) :
    Twin Q E (c.start mode t) (d.start mode u) := by
  have hsession : Option.Rel (Session.Twin Q)
      (some ⟨t, Scanner.new c.config (mode = .debug), mode, "", 0, none⟩)
      (some ⟨u, Scanner.new d.config (mode = .debug), mode, "", 0, none⟩) :=
    .some ⟨h.config ▸ hq, rfl, rfl, rfl, rfl⟩
  have hjournal : Mark.launched mode :: c.journal = .launched mode :: d.journal := by
    rw [h.journal]
  cases mode with
  | run => exact { h with
      state := rfl, session := hsession, breakpointSent := rfl, hover := rfl, journal := hjournal }
  | debug => exact { h with
      state := rfl, session := hsession, breakpointSent := rfl, hover := rfl, journal := hjournal
      breakpoints := congrArg Breakpoint.Schedule.invalidate h.breakpoints
      watches := congrArg (fun t : Watch.Table => t.clearValues.rearm) h.watches }

theorem launch (h : Twin Q E c d) (mode : Mode) {spawn spawn' : Unit → Except Failure τ}
    (hq : (∃ t u, spawn () = .ok t ∧ spawn' () = .ok u ∧
        Q t (.new c.config (mode = .debug)) u (.new c.config (mode = .debug))) ∨
      ∃ cause, spawn () = .error cause ∧ spawn' () = .error cause) :
    Twin Q E (c.launch mode spawn).1 (d.launch mode spawn').1 := by
  unfold Controller.launch
  rw [h.hasSession]
  split
  · exact h
  · rcases hq with ⟨t, u, ht, hu, hq⟩ | ⟨cause, ht, hu⟩
    · have hl : Twin Q E { c with state := .launching } { d with state := .launching } :=
        { h with state := rfl }
      simp only [ht, hu]
      exact hl.start mode hq
    · have hn : Twin Q E { c with state := .notRunning } { d with state := .notRunning } :=
        { h with state := rfl }
      simp only [ht, hu]
      exact push lock hn _

theorem abort (h : Twin Q E c d)
    (terminate : ∀ {t u : τ} {s s' : Scanner}, Q t s u s' →
      Q (Transport.terminate t).1 s (Transport.terminate u).1 s')
    (kill : ∀ {t u : τ} {s s' : Scanner}, Q t s u s' →
      Q (Transport.kill t).1 s (Transport.kill u).1 s') :
    Twin Q E c.abort.1 d.abort.1 := by
  unfold Controller.abort
  rw [h.hasSession]
  split
  · have hk := (h.withTransport (.ok ()) terminate).withTransport (.ok ()) kill
    exact finish lock { hk with traffic := by rw [hk.traffic] }
  · exact h

end Twin

end Controller

end Debugline
