import Debugline.Proofs.Session.Moves
import Debugline.Transport.Script

/-! The life of sessions. There is a session just while the state says so, the state turns for
six causes and no other, and each end of a session is reported once and last. -/

namespace Debugline

open Session Wire

namespace Controller

variable {τ : Type}

/-! ### Within a session -/

/-- Events are added, and none of them reports an end. -/
def Adds (c c' : Controller τ) : Prop := ∃ new, c'.events = c.events ++ new ∧ .terminated ∉ new

theorem Adds.refl (c : Controller τ) : c.Adds c := ⟨[], by simp, by simp⟩

theorem Adds.trans {c c' c'' : Controller τ} (h : c.Adds c') (h' : c'.Adds c'') : c.Adds c'' := by
  obtain ⟨new, he, hn⟩ := h
  obtain ⟨new', he', hn'⟩ := h'
  exact ⟨new ++ new', by rw [he', he, List.append_assoc], by simp [hn, hn']⟩

theorem Adds.of_eq {c c' : Controller τ} (h : c'.events = c.events) : c.Adds c' :=
  ⟨[], by simpa using h, by simp⟩

/-- What goes on while no session starts or ends and no command sets the program going. The
flag says whether a prompt was reached. -/
structure Along (prompted : Bool) (c c' : Controller τ) : Prop where
  session : c'.hasSession = c.hasSession
  state : c'.state = if prompted then .pausedAtPrompt else c.state
  hover : c'.hover.isSome → c.hover.isSome ∨ c.hasSession
  journal : ∃ new, c'.journal = new ++ c.journal ∧ (.frame .prompt ∈ new ↔ prompted)
  events : c.Adds c'

namespace Along

variable {prompted : Bool} {c c' c'' : Controller τ}

theorem refl (c : Controller τ) : Along false c c :=
  ⟨rfl, rfl, .inl, ⟨[], by simp, by simp⟩, .refl c⟩

theorem trans {later : Bool} (a : Along prompted c c') (b : Along later c' c'') :
    Along (later || prompted) c c'' := by
  obtain ⟨new, hj, hn⟩ := a.journal
  obtain ⟨new', hj', hn'⟩ := b.journal
  refine ⟨b.session.trans a.session, ?_, fun hh => ?_, ⟨new' ++ new, ?_, ?_⟩,
    a.events.trans b.events⟩
  · rw [b.state, a.state]
    cases later <;> rfl
  · rcases b.hover hh with hh | hs
    · exact a.hover hh
    · exact .inr (a.session ▸ hs)
  · rw [hj', hj, List.append_assoc]
  · rw [List.mem_append, hn, hn', Bool.or_eq_true]

theorem still (session : c'.hasSession = c.hasSession) (state : c'.state = c.state)
    (hover : c'.hover = c.hover) (journal : c'.journal = c.journal) (events : c.Adds c') :
    Along false c c' :=
  ⟨session, state, fun hh => .inl (hover ▸ hh), ⟨[], journal, by simp⟩, events⟩

/-- Parts change that do not count here. -/
theorem keep (a : Along prompted c c') (session : c''.hasSession = c'.hasSession)
    (state : c''.state = c'.state) (hover : c''.hover = c'.hover)
    (journal : c''.journal = c'.journal) (events : c''.events = c'.events) :
    Along prompted c c'' :=
  a.trans (still session state hover journal (.of_eq events))

theorem of_outline (ho : c'.outline = c.outline) (hover : c'.hover = c.hover)
    (events : c.Adds c') : Along false c c' := by
  have hsession : c'.outline.session.isSome = c.outline.session.isSome := by rw [ho]
  exact still (by simpa [outline, hasSession] using hsession) (congrArg Outline.state ho) hover
    (congrArg Outline.journal ho) events

end Along

theorem push_along (c : Controller τ) (e : Event) (h : e ≠ .terminated) :
    Along false c (c.push e) :=
  .of_outline rfl rfl ⟨[e], rfl, by simpa using h.symm⟩

theorem note_along (c : Controller τ) (m : Mark) (h : m ≠ .frame .prompt) :
    Along false c (c.note m) :=
  ⟨rfl, rfl, .inl, ⟨[m], rfl, by simpa using h.symm⟩, .of_eq rfl⟩

theorem removeMarker_along (c : Controller τ) : Along false c c.removeMarker := by
  refine .of_outline c.outline_removeMarker ?_ (.of_eq ?_) <;>
  · unfold removeMarker
    split
    · rfl
    · split
      · rfl
      · dsimp only
        split <;> rfl

theorem placeMarker_along (c : Controller τ) : Along false c c.placeMarker := by
  have hm := c.removeMarker_along
  unfold placeMarker
  dsimp only
  split
  · exact hm
  · next s hs =>
    split
    · exact hm
    · exact hm.keep (by simp [hasSession, hs]) rfl rfl rfl rfl

theorem settleWatches_along (c : Controller τ) : Along false c c.settleWatches := by
  unfold settleWatches
  split
  · split
    · next table _ =>
      have hw : Along false c { c with watches := table } := .still rfl rfl rfl rfl (.refl c)
      exact hw.trans (push_along _ .watchTableChanged nofun)
    · exact .refl c
  · exact .refl c

theorem reportPause_along (c : Controller τ) : Along false c c.reportPause := by
  unfold reportPause
  split
  · exact .refl c
  · exact push_along c (.paused _ _) nofun

theorem reachLine_along (c : Controller τ) (line : Nat) : Along false c (c.reachLine line) := by
  unfold reachLine
  split
  · exact .refl c
  · next s hs =>
    dsimp only
    refine .trans ?_ (push_along _ (.navigate s.file (line - 1)) nofun)
    split <;> exact .still (by simp [hasSession, hs]) rfl rfl rfl (.refl c)

theorem pushText_along (c : Controller τ) (text : List UInt8) :
    Along false c (c.pushText text) := by
  unfold pushText
  split
  · exact .refl c
  · exact push_along c (.terminal _) nofun

theorem withTransport_along {α : Type} (c : Controller τ) (absent : α) (f : τ → τ × α) :
    Along false c (c.withTransport absent f).1 := by
  refine .of_outline (c.outline_withTransport absent f) ?_ (.of_eq ?_) <;>
    cases hs : c.session <;> simp [withTransport, hs]

variable [Transport τ]

theorem transmit_along (c : Controller τ) (what : Sent) : Along false c (c.transmit what).1 := by
  unfold transmit
  split
  · exact .refl c
  · next s hs =>
    exact ⟨by simp [hasSession, hs], rfl, .inl, ⟨[_], rfl, by simp⟩, .of_eq rfl⟩

theorem advanceBreakpoints_along (c : Controller τ) : Along false c c.advanceBreakpoints := by
  unfold advanceBreakpoints
  split
  · split
    · exact .still rfl rfl rfl rfl (.of_eq rfl)
    · next schedule command _ =>
      have hb : Along false c { c with breakpoints := schedule, breakpointSent := true } :=
        .still rfl rfl rfl rfl (.of_eq rfl)
      exact hb.trans (transmit_along _ (.command command))
  · exact .refl c

theorem advanceWatches_along (c : Controller τ) : Along false c c.advanceWatches := by
  unfold advanceWatches
  split
  · exact .refl c
  · next table command _ =>
    have hw : Along false c { c with watches := table } := .still rfl rfl rfl rfl (.of_eq rfl)
    exact hw.trans (transmit_along _ (.command command))

/-! ### Output -/

theorem reachPrompt_along (c : Controller τ) :
    Along true c (c.note (.frame .prompt)).reachPrompt := by
  let paused := { c.note (.frame .prompt) with state := .pausedAtPrompt }
  have hp : Along true c paused := ⟨rfl, rfl, .inl, ⟨[.frame .prompt], rfl, by simp⟩, .of_eq rfl⟩
  have hm := hp.trans paused.placeMarker_along
  have hw := (hm.trans (advanceWatches_along _)).trans (settleWatches_along _)
  have hs : Along true c
      { paused.placeMarker.advanceWatches.settleWatches with breakpointSent := false } :=
    hw.keep rfl rfl rfl rfl rfl
  exact (hs.trans (advanceBreakpoints_along _)).trans (reportPause_along _)

theorem apply_along (c : Controller τ) (f : Frame) : Along (f = .prompt) c (c.apply f) := by
  by_cases hp : f = .prompt
  · obtain rfl := hp
    exact c.reachPrompt_along
  have hn := c.note_along (.frame f) (by simpa using hp)
  simp only [hp, decide_false]
  cases f with
  | prompt => exact absurd rfl hp
  | watch row name value =>
    unfold apply
    dsimp only
    split
    · exact .refl c
    · next table i _ =>
      have hw : Along false c
          { c.note (.frame (.watch row name value)) with watches := table } :=
        hn.keep rfl rfl rfl rfl rfl
      exact hw.trans (push_along _ (.watchUpdated i) (by simp))
  | file path => exact hn.keep (by simp [apply, hasSession, modifySession]) rfl rfl rfl rfl
  | lineNumber line => exact hn.trans (reachLine_along _ line)
  | localValue text => exact hn.trans (push_along _ (.valuePopup .local text c.hover) (by simp))
  | globalValue text => exact hn.trans (push_along _ (.valuePopup .global text c.hover) (by simp))
  | info text => exact hn.trans (push_along _ (.status text) (by simp))

theorem dispatch_along (c : Controller τ) (body : String) : ∃ p, Along p c (c.dispatch body) := by
  unfold dispatch
  split
  · next f _ => exact ⟨_, c.apply_along f⟩
  · exact ⟨_, .refl c⟩

theorem dispatchAll_along (c : Controller τ) (bodies : List String) :
    ∃ p, Along p c (bodies.foldl dispatch c) := by
  induction bodies generalizing c with
  | nil => exact ⟨_, .refl c⟩
  | cons body bodies ih =>
    obtain ⟨_, h⟩ := c.dispatch_along body
    obtain ⟨_, h'⟩ := ih (c.dispatch body)
    exact ⟨_, h.trans h'⟩

theorem takeOutput_along (c : Controller τ) (bytes : List UInt8) :
    ∃ p, Along p c (c.takeOutput bytes) := by
  unfold takeOutput
  split
  · exact ⟨_, .refl c⟩
  · next s hs =>
    let fed := { c with session := some { s with scanner := (s.scanner.feed bytes).1 } }
    have hfed : Along false c fed := .still (by simp [fed, hasSession, hs]) rfl rfl rfl (.of_eq rfl)
    obtain ⟨_, h⟩ := fed.dispatchAll_along (s.scanner.feed bytes).2.frames
    exact ⟨_, (hfed.trans h).trans (pushText_along _ _)⟩

theorem readStreams_along (c : Controller τ) : Along false c c.readStreams.1 := by
  unfold readStreams
  exact (withTransport_along c _ _).trans (withTransport_along _ _ _)

theorem receive_along (c : Controller τ) : ∃ p, Along p c c.receive := by
  obtain ⟨_, h⟩ := c.readStreams.1.takeOutput_along c.readStreams.2.1
  exact ⟨_, (c.readStreams_along.trans h).trans (pushText_along _ _)⟩

/-! ### Calls -/

/-- Whether the program is found alive by a poll. -/
def foundAlive (c : Controller τ) : Bool := (c.receive.withTransport false Transport.alive).2

/-- A session ended: nothing is left to be sent, and its end is reported last and once. -/
structure Ended (c c' : Controller τ) : Prop where
  session : c'.hasSession = false
  pending : c'.watches.pending = []
  events : ∃ new, c'.events = c.events ++ new ++ [.terminated] ∧ .terminated ∉ new

omit [Transport τ] in
theorem Along.ended {p : Bool} {c c' : Controller τ} (a : Along p c c') : Ended c c'.finish := by
  obtain ⟨new, he, hn⟩ := (a.trans c'.removeMarker_along).events
  have hf : c'.finish.events = c'.removeMarker.events ++ [.terminated] := rfl
  exact ⟨rfl, rfl, new, by rw [hf, he], hn⟩

theorem poll_eq_of_alive {c : Controller τ} (live : c.hasSession) (alive : c.foundAlive) :
    c.poll = (c.receive.withTransport false Transport.alive).1 := by
  unfold poll
  rw [if_pos live]
  dsimp only
  split
  · next h => rw [h]
  · next h =>
    rw [foundAlive, h] at alive
    cases alive

theorem poll_alive {c : Controller τ} (live : c.hasSession) (alive : c.foundAlive) :
    ∃ p, Along p c c.poll := by
  obtain ⟨p, h⟩ := c.receive_along
  have ha := h.trans (c.receive.withTransport_along false Transport.alive)
  exact ⟨_, poll_eq_of_alive live alive ▸ ha⟩

theorem poll_dead {c : Controller τ} (live : c.hasSession) (dead : c.foundAlive = false) :
    ∃ p c', Along p c c' ∧ c.poll = c'.finish := by
  obtain ⟨p, h⟩ := c.receive_along
  have ha := h.trans (c.receive.withTransport_along false Transport.alive)
  obtain ⟨q, hr⟩ := (c.receive.withTransport false Transport.alive).1.receive_along
  refine ⟨_, _, ha.trans hr, ?_⟩
  unfold poll
  rw [if_pos live]
  dsimp only
  split
  · next h =>
    rw [foundAlive, h] at dead
    cases dead
  · next h => rw [h]

theorem abort_live {c : Controller τ} (live : c.hasSession) :
    ∃ c', Along false c c' ∧ c.abort.1 = c'.finish := by
  have ht := c.withTransport_along (.ok ()) Transport.terminate
  let killed :=
    ((c.withTransport (.ok ()) Transport.terminate).1.withTransport (.ok ()) Transport.kill).1
  have hk : Along false c killed := ht.trans (withTransport_along _ _ _)
  have hn : Along false c { killed with traffic := killed.traffic ++ [.terminate, .kill] } :=
    hk.keep rfl rfl rfl rfl rfl
  refine ⟨_, hn, ?_⟩
  rw [abort, if_pos live]

omit [Transport τ] in
theorem requirePaused_ok {c : Controller τ} {u : Unit} (h : c.requirePaused = .ok u) :
    c.hasSession ∧ c.state = .pausedAtPrompt := by
  unfold requirePaused at h
  split at h
  · cases h
  · next s hs =>
    split_ifs at h with hm hp
    exact ⟨by simp [hasSession, hs], not_not.mp hp⟩

/-- A step that is carried out sets the program going; any other leaves the state. -/
theorem step_along (c : Controller τ) (command : Command) :
    ∃ c', Along false c c' ∧
      (c.state = .pausedAtPrompt ∧ c.step command = ({ c' with state := .running }, .ok ()) ∧
          c.hasSession ∨
        ∃ refusal, c.step command = (c', .error refusal)) := by
  have ht := c.removeMarker_along.trans (transmit_along _ (.command command))
  unfold step
  split
  · exact ⟨c, .refl c, .inr ⟨_, rfl⟩⟩
  · next hr =>
    obtain ⟨hlive, hp⟩ := requirePaused_ok hr
    refine ⟨_, ht, ?_⟩
    split
    · next h => exact .inr ⟨_, by rw [h]⟩
    · next h => exact .inl ⟨hp, by rw [h], hlive⟩

theorem evaluate_along (c : Controller τ) (expr : String) (hover : Option Hover) :
    Along false c (c.evaluate expr hover).1 := by
  unfold evaluate
  split
  · exact .refl c
  · next hr =>
    have hh : Along false c { c with hover } :=
      ⟨rfl, rfl, fun _ => .inr (requirePaused_ok hr).1, ⟨[], rfl, by simp⟩, .of_eq rfl⟩
    exact hh.trans (transmit_along _ _)

theorem evaluateAt_along (c : Controller τ) (doc : DocId) (position : Nat) :
    Along false c (c.evaluateAt doc position).1 := by
  unfold evaluateAt
  split
  · exact .refl c
  · split
    · exact .refl c
    · exact evaluate_along c _ _

/-- Breakpoints that were changed are sent at once if they can be. -/
theorem changed_along (c : Controller τ) (breakpoints : Breakpoint.Schedule) (editor : Editor) :
    Along false c { c with breakpoints, editor }.advanceBreakpoints := by
  have hm : Along false c { c with breakpoints, editor } := .still rfl rfl rfl rfl (.of_eq rfl)
  exact hm.trans (advanceBreakpoints_along _)

theorem toggleBreakpoint_along (c : Controller τ) (doc : DocId) (line : Nat) :
    Along false c (c.toggleBreakpoint doc line).1 := by
  unfold toggleBreakpoint
  exact changed_along c _ _

theorem toggleBreakpointAt_along (c : Controller τ) (path : String) (line : Nat) :
    Along false c (c.toggleBreakpointAt path line).1 := by
  unfold toggleBreakpointAt
  split
  · exact .refl c
  · next editor doc _ =>
    have he : Along false c { c with editor } := .still rfl rfl rfl rfl (.of_eq rfl)
    exact he.trans (toggleBreakpoint_along _ doc line)

theorem clearBreakpoints_along (c : Controller τ) : Along false c c.clearBreakpoints := by
  unfold clearBreakpoints
  exact changed_along c _ _

omit [Transport τ] in
theorem asked_along (c : Controller τ) (row : Nat) (name : String) (watches : Watch.Table) :
    Along false c ({ c.note (.asked row name) with watches }.push .watchTableChanged) := by
  have hw : Along false c { c.note (.asked row name) with watches } :=
    (c.note_along (.asked row name) nofun).keep rfl rfl rfl rfl rfl
  exact hw.trans (push_along _ .watchTableChanged nofun)

omit [Transport τ] in
theorem deleteWatch_along (c : Controller τ) (row : Nat) :
    Along false c (c.deleteWatch row).1 := by
  unfold deleteWatch
  split
  · exact asked_along c _ _ _
  · exact .refl c

/-! ### Turns of the state -/

/-- The command of a call that is to set the program going. -/
def resuming? (c : Controller τ) : Call τ → Option Command
  | .goOn => some .go
  | .stepInto => some .stepInto
  | .stepOver => some .stepOver
  | .stepOut => some .stepOut
  | .runToLine line => some (.runToLine line)
  | .runToCursor doc position => some (.runToLine (c.editor.lineAt doc position + 1))
  | _ => none

/-- What turns the state, and to which state. -/
inductive Turn (c : Controller τ) : Happening τ → State → Prop
  | start {mode : Mode} {spawn : Unit → Except Failure τ} {transport : τ}
      (idle : c.hasSession = false) (spawned : spawn () = .ok transport) :
      Turn c (.call (.launch mode spawn)) .running
  | refuse {mode : Mode} {spawn : Unit → Except Failure τ} {cause : Failure}
      (idle : c.hasSession = false) (failed : spawn () = .error cause) :
      Turn c (.call (.launch mode spawn)) .notRunning
  /-- A prompt is reached while the program lives on. -/
  | prompt (live : c.hasSession) (alive : c.foundAlive)
      (reached : ∃ new, c.poll.journal = new ++ c.journal ∧ .frame .prompt ∈ new) :
      Turn c (.call .poll) .pausedAtPrompt
  | resume {a : Call τ} {command : Command} (paused : c.state = .pausedAtPrompt)
      (asked : c.resuming? a = some command) (accepted : (c.step command).2 = .ok ()) :
      Turn c (.call a) .running
  | death (live : c.hasSession) (dead : c.foundAlive = false) : Turn c (.call .poll) .terminated
  | abort (live : c.hasSession) : Turn c (.call .abort) .terminated

omit [Transport τ] in
theorem launch_live {c : Controller τ} (live : c.hasSession) (mode : Mode)
    (spawn : Unit → Except Failure τ) : c.launch mode spawn = (c, .error .alreadyRunning) := by
  rw [launch, if_pos live]

omit [Transport τ] in
/-- A launch that succeeds starts a session with the program that it spawned. -/
theorem start_of_launch {before c : Controller τ} {mode : Mode}
    {spawn : Unit → Except Failure τ} (h : before.launch mode spawn = (c, .ok ())) :
    ∃ transport, spawn () = .ok transport ∧
      c = { before with state := .launching }.start mode transport := by
  unfold launch at h
  split at h
  · cases h
  · dsimp only at h
    split at h
    · next transport spawned => exact ⟨transport, spawned, (congrArg Prod.fst h).symm⟩
    · cases h

theorem call_eq_step {c : Controller τ} {a : Call τ} {command : Command}
    (h : c.resuming? a = some command) : c.call a = (c.step command).1 := by
  cases a with
  | goOn | stepInto | stepOver | stepOut | runToLine line | runToCursor doc position =>
    obtain rfl := Option.some.inj h
    rfl
  | _ => cases h

theorem turn_or_along_of_resuming {c : Controller τ} {a : Call τ} {command : Command}
    (h : c.resuming? a = some command) :
    (∃ s, Turn c (.call a) s) ∨ Along false c (c.call a) := by
  rw [call_eq_step h]
  obtain ⟨c', ha, ⟨hp, he, -⟩ | ⟨refusal, he⟩⟩ := c.step_along command
  · exact .inl ⟨_, .resume hp h (by rw [he])⟩
  · exact .inr (by rwa [he])

theorem turn_of_idle {c : Controller τ} (idle : c.hasSession = false) (mode : Mode)
    (spawn : Unit → Except Failure τ) : ∃ s, Turn c (.call (.launch mode spawn)) s := by
  cases hs : spawn () with
  | ok transport => exact ⟨_, .start idle hs⟩
  | error cause => exact ⟨_, .refuse idle hs⟩

theorem turn_or_along_of_live {c : Controller τ} (live : c.hasSession) :
    (∃ s, Turn c (.call .poll) s) ∨ Along false c c.poll := by
  cases alive : c.foundAlive with
  | false => exact .inl ⟨_, .death live alive⟩
  | true =>
    obtain ⟨p, ha⟩ := poll_alive live alive
    cases p with
    | false => exact .inr ha
    | true =>
      obtain ⟨new, hj, hn⟩ := ha.journal
      exact .inl ⟨_, .prompt live alive ⟨new, hj, hn.mpr rfl⟩⟩

/-- What does not turn the state leaves it and ends nothing. -/
theorem turn_or_along (c : Controller τ) {x : Happening τ} (hx : x ≠ .call .takeEvents) :
    (∃ s, Turn c x s) ∨ Along false c (c.after x) := by
  cases x with
  | edit change => exact .inr (.still rfl rfl rfl rfl (.of_eq rfl))
  | meanwhile f => exact .inr (.of_outline (c.outline_meanwhile f) rfl (.of_eq rfl))
  | call a =>
    by_cases hr : ∃ command, c.resuming? a = some command
    · obtain ⟨command, hr⟩ := hr
      exact turn_or_along_of_resuming hr
    cases a with
    | launch mode spawn =>
      cases live : c.hasSession with
      | true => exact .inr (by rw [after, call, launch_live live]; exact .refl c)
      | false => exact .inl (turn_of_idle live mode spawn)
    | poll =>
      cases live : c.hasSession with
      | true => exact turn_or_along_of_live live
      | false => exact .inr (by simpa [after, call, poll, live] using Along.refl c)
    | abort =>
      cases live : c.hasSession with
      | true => exact .inl ⟨_, .abort live⟩
      | false => exact .inr (by simpa [after, call, abort, live] using Along.refl c)
    | goOn | stepInto | stepOver | stepOut | runToLine line | runToCursor doc position =>
      exact absurd ⟨_, rfl⟩ hr
    | evaluate expr hover => exact .inr (evaluate_along c expr hover)
    | evaluateAt doc position => exact .inr (evaluateAt_along c doc position)
    | sendInput text => exact .inr (transmit_along c (.input text))
    | toggleBreakpoint doc line => exact .inr (toggleBreakpoint_along c doc line)
    | toggleBreakpointAt path line => exact .inr (toggleBreakpointAt_along c path line)
    | clearBreakpoints => exact .inr (clearBreakpoints_along c)
    | documentsChanged | listBreakpoints | takeTraffic =>
      exact .inr (.still rfl rfl rfl rfl (.of_eq rfl))
    | addWatch name | editWatch row name => exact .inr (asked_along c _ _ _)
    | deleteWatch row => exact .inr (deleteWatch_along c row)
    | takeEvents => exact absurd rfl hx

/-- What a turn of the state goes with. -/
structure Turned (c : Controller τ) (s : State) (c' : Controller τ) : Prop where
  state : c'.state = s
  hover : c'.hover.isSome → c'.hasSession
  ended : s = .terminated → Ended c c'
  adds : s ≠ .terminated → c.Adds c'

omit [Transport τ] in
theorem Ended.turned {c c' : Controller τ} (h : Ended c c'.finish) :
    Turned c .terminated c'.finish :=
  ⟨rfl, nofun, fun _ => h, fun hn => absurd rfl hn⟩

theorem Turn.turned {c : Controller τ} {x : Happening τ} {s : State} (t : Turn c x s)
    (hover : c.hover.isSome → c.hasSession) : Turned c s (c.after x) := by
  cases t with
  | @start mode spawn transport idle spawned =>
    simp only [after, call, launch, idle, spawned]
    cases mode <;> exact ⟨rfl, nofun, nofun, fun _ => .of_eq rfl⟩
  | @refuse mode spawn cause idle failed =>
    simp only [after, call, launch, idle, failed]
    refine ⟨rfl, hover, nofun, fun _ => ⟨_, rfl, by simp⟩⟩
  | prompt live alive reached =>
    obtain ⟨p, ha⟩ := poll_alive live alive
    have hp : p := by
      obtain ⟨new, hj, hn⟩ := reached
      obtain ⟨new', hj', hn'⟩ := ha.journal
      obtain rfl : new = new' := List.append_cancel_right (hj.symm.trans hj')
      exact hn'.mp hn
    exact ⟨by rw [after, call, ha.state, if_pos hp], fun _ => ha.session ▸ live, nofun,
      fun _ => ha.events⟩
  | resume paused asked accepted =>
    obtain ⟨c', ha, ⟨-, he, live⟩ | ⟨refusal, he⟩⟩ := c.step_along _
    · rw [after, call_eq_step asked, he]
      exact ⟨rfl, fun _ => ha.session ▸ live, nofun, fun _ => ha.events⟩
    · rw [he] at accepted
      cases accepted
  | death live dead =>
    obtain ⟨p, c', ha, he⟩ := poll_dead live dead
    simp only [after, call, he]
    exact ha.ended.turned
  | abort live =>
    obtain ⟨c', ha, he⟩ := abort_live live
    simp only [after, call, he]
    exact ha.ended.turned

theorem Turn.live {c : Controller τ} {x : Happening τ} (t : Turn c x .terminated) :
    c.hasSession := by
  cases t <;> assumption

/-- What turns the state of a session, but not to that of one, ends it. -/
theorem Turn.terminated {c : Controller τ} {x : Happening τ} {s : State} (t : Turn c x s)
    (live : c.hasSession) (gone : ¬(s = .running ∨ s = .pausedAtPrompt)) : s = .terminated := by
  cases t with
  | start idle | refuse idle => cases idle.symm.trans live
  | prompt | resume => simp at gone
  | death | abort => rfl

/-! ### Runs -/

/-- There is a session just while the state says so, only a debugger waits at a prompt, and
a place is asked about only in a session. -/
structure Coherent (c : Controller τ) : Prop where
  live : c.hasSession ↔ c.state = .running ∨ c.state = .pausedAtPrompt
  settled : c.state ≠ .launching
  paused : c.state = .pausedAtPrompt → c.session.map (·.mode) = some .debug
  hover : c.hover.isSome → c.hasSession

end Controller

namespace Outline

/-- The part of coherence that is in the outline. -/
structure Lively (o : Outline) : Prop where
  live : o.session.isSome ↔ o.state = .running ∨ o.state = .pausedAtPrompt
  settled : o.state ≠ .launching

theorem Move.lively {o o' : Outline} (m : Move o o') (h : o.Lively) : o'.Lively := by
  cases m with
  | refuse idle => exact ⟨by simp [idle], by simp⟩
  | startRun idle | startDebug idle => exact ⟨by simp, by simp⟩
  | finish => exact ⟨by simp, by simp⟩
  | promptIdle session | promptWatch session => exact ⟨by simp [note, session], by simp⟩
  | resume waits => exact ⟨by simp [note, waits.session], by simp⟩
  | _ => exact ⟨h.live, h.settled⟩

end Outline

namespace Controller

variable {τ : Type} [Transport τ]

theorem hover_after {c : Controller τ} (h : c.hover.isSome → c.hasSession) (x : Happening τ) :
    (c.after x).hover.isSome → (c.after x).hasSession := by
  by_cases hx : x = .call .takeEvents
  · rwa [hx]
  rcases c.turn_or_along hx with ⟨s, t⟩ | ha
  · exact (t.turned h).hover
  · intro hh
    rw [ha.session]
    exact (ha.hover hh).elim h id

theorem hover_run {c : Controller τ} (h : c.hover.isSome → c.hasSession) (hs : List (Happening τ)) :
    (c.run hs).hover.isSome → (c.run hs).hasSession := by
  induction hs generalizing c with
  | nil => exact h
  | cons x hs ih => exact ih (hover_after h x)

theorem run_coherent (config : Config) (editor : Editor) (hs : List (Happening τ)) :
    ((Controller.new config editor).run hs).Coherent := by
  have hnew : (Controller.new config editor : Controller τ).outline.Sound :=
    sound_new config editor
  have hsound : ((Controller.new config editor).run hs).outline.Sound :=
    run_keep (fun h _ m => m.sound h) (fun _ h => h.of_eq rfl rfl) hnew hnew hs
  have hlively : ((Controller.new config editor).run hs).outline.Lively :=
    run_keep (fun _ h m => m.lively h) (fun _ h => ⟨h.live, h.settled⟩) hnew
      ⟨by simp [outline, new], nofun⟩ hs
  refine ⟨?_, hlively.settled, fun hp => ?_, hover_run (by simp [new]) hs⟩
  · simpa [outline, hasSession] using hlively.live
  · have hs := hsound.paused hp
    simp only [outline, Option.map_eq_some_iff, Prod.mk.injEq] at hs ⊢
    obtain ⟨s, hs, hm, -⟩ := hs
    exact ⟨s, hs, hm⟩

/-- The state turns for its six causes and no other, and each end of a session is reported
once and last. -/
theorem run_lifecycle (config : Config) (editor : Editor) (hs : List (Happening τ)) :
    let c : Controller τ := (Controller.new config editor).run hs
    c.Coherent ∧
      (c.hasSession → ∀ mode spawn, c.launch mode spawn = (c, .error .alreadyRunning)) ∧
      ∀ x, (∀ s, Turn c x s → (c.after x).state = s) ∧
        ((c.after x).state ≠ c.state → Turn c x (c.after x).state) ∧
        (c.hasSession → (c.after x).hasSession = false → Ended c (c.after x)) ∧
        (x ≠ .call .takeEvents → ¬(c.hasSession ∧ (c.after x).hasSession = false) →
          c.Adds (c.after x)) := by
  intro c
  have hc : c.Coherent := run_coherent config editor hs
  refine ⟨hc, launch_live, fun x => ?_⟩
  have hc' : (c.after x).Coherent := by
    simpa [c, run] using run_coherent config editor (hs ++ [x])
  have honly : (c.after x).state ≠ c.state → Turn c x (c.after x).state := by
    intro hne
    have hx : x ≠ .call .takeEvents := fun he => hne (he ▸ rfl)
    rcases c.turn_or_along hx with ⟨s, t⟩ | ha
    · rwa [(t.turned hc.hover).state]
    · exact absurd ha.state hne
  refine ⟨fun s t => (t.turned hc.hover).state, honly, fun live gone => ?_, fun hx hstay => ?_⟩
  · have hgone := mt hc'.live.mpr (by simp [gone])
    have t := honly fun he => hgone (he ▸ hc.live.mp live)
    exact (t.turned hc.hover).ended (t.terminated live hgone)
  · rcases c.turn_or_along hx with ⟨s, t⟩ | ha
    · refine (t.turned hc.hover).adds fun he => hstay ?_
      obtain rfl := he
      exact ⟨t.live, ((t.turned hc.hover).ended rfl).session⟩
    · exact ha.events

/-- A program that cannot be started, and one that reaches a prompt, goes on and dies. -/
example :
    let hs : List (Happening Script) := [.call (.launch .debug fun _ => .error .inputClosed),
      .call (.launch .debug fun _ => .ok (.new true [])),
      .meanwhile (·.cue (.writes "\x1b]>dbg> ")), .call .poll, .call .stepOver,
      .meanwhile (fun p => { p with dead := true }), .call .poll]
    (hs.inits.map fun past => ((Controller.new .standard (.new .empty)).run past).state) =
      [.notRunning, .notRunning, .running, .running, .pausedAtPrompt, .running, .running,
        .terminated] := by
  decide +kernel

end Controller

end Debugline
