import Debugline.Proofs.Session.Convergence
import Debugline.Proofs.Session.Reported
import Debugline.Proofs.Wire.Backspaces

/-! A program that runs without a debugger. What it writes is passed on, and what the user types;
whatever else the user asks for, and whatever older sessions left to be sent, comes to nothing. -/

namespace Debugline

open Session Wire

namespace Session

/-- What was handed to the transport. -/
def Mark.sent? : Mark → Option Sent
  | .sent _ _ what _ => some what
  | _ => none

/-- What the user types. -/
def Happening.input? {τ : Type} : Happening τ → Option Sent
  | .call (.sendInput text) => some (.input text)
  | _ => none

/-- Calls that neither read the program, nor end it, nor give it input. -/
def Call.isIdle {τ : Type} : Call τ → Bool
  | .poll | .abort | .sendInput _ => false
  | _ => true

end Session

namespace Controller

variable {τ : Type} {c c' : Controller τ}

/-- A program runs without a debugger. -/
structure Plain (c : Controller τ) (s : Session τ) : Prop where
  session : c.session = some s
  mode : s.mode = .run
  enabled : s.scanner.enabled = false
  marker : s.marker = none
  state : c.state = .running

namespace Plain

variable {s : Session τ}

theorem hasSession (h : Plain c s) : c.hasSession := by simp [Controller.hasSession, h.session]

theorem requirePaused (h : Plain c s) : c.requirePaused = .error .notDebugging := by
  simp [Controller.requirePaused, h.session, h.mode]

end Plain

variable [Transport τ]

/-- A poll passes on what it reads, its backspaces settled, and changes nothing else. If it finds
the program dead, it reads once more and ends the session. -/
inductive PassesOn (c : Controller τ) : Controller τ → Prop
  | alive {s : Session τ} (hs : c.session = some s) {t : τ} {output errors kept : List UInt8}
      (listen : Transport.listen s.transport = (t, output, errors)) (settles : Settles output kept)
      (alive : (Transport.alive t).2 = true) :
      PassesOn c { c with
        session := some { s with transport := (Transport.alive t).1 }
        events := c.events ++ shown kept ++ shown errors }
  | dead {s : Session τ} (hs : c.session = some s) {t t' : τ}
      {output errors kept output' errors' kept' : List UInt8}
      (listen : Transport.listen s.transport = (t, output, errors)) (settles : Settles output kept)
      (dead : (Transport.alive t).2 = false)
      (listen' : Transport.listen (Transport.alive t).1 = (t', output', errors'))
      (settles' : Settles output' kept') :
      PassesOn c { c with
        session := none
        state := .terminated
        hover := none
        watches := c.watches.clearPending
        events := c.events ++ shown kept ++ shown errors ++ shown kept' ++ shown errors' ++
          [.terminated] }

/-! ### Polls -/

theorem Plain.receive {s : Session τ} (h : Plain c s) {t : τ} {output errors : List UInt8}
    (listen : Transport.listen s.transport = (t, output, errors)) :
    ∃ kept, Settles output kept ∧ c.receive = { c with
      session := some { s with transport := t }
      events := c.events ++ shown kept ++ shown errors } ∧
      Plain c.receive { s with transport := t } := by
  obtain ⟨kept, hk, hfeed⟩ := Scanner.feed_of_disabled h.enabled output
  have hreceive : c.receive = { c with
      session := some { s with transport := t }
      events := c.events ++ shown kept ++ shown errors } := by
    rw [receive_of_listen h.session listen]
    simp only [takeOutput, takeErrors, hfeed, List.foldl_nil, pushText_eq_shown]
  refine ⟨kept, hk, hreceive, ?_⟩
  rw [hreceive]
  exact ⟨rfl, h.mode, h.enabled, h.marker, h.state⟩

omit [Transport τ] in
theorem Plain.finish {s : Session τ} (h : Plain c s) : c.finish = { c with
    session := none
    state := .terminated
    hover := none
    watches := c.watches.clearPending
    events := c.events ++ [.terminated] } := by
  rw [Controller.finish, removeMarker_eq, marker?, h.session, Option.bind_some, h.marker]
  rfl

theorem Plain.poll {s : Session τ} (h : Plain c s) : PassesOn c c.poll := by
  obtain ⟨kept, hk, hreceive, -⟩ := h.receive (t := (Transport.listen s.transport).1) rfl
  have hasked : c.asked = { c with
      session := some
        { s with transport := (Transport.alive (Transport.listen s.transport).1).1 }
      events := c.events ++ shown kept ++ shown (Transport.listen s.transport).2.2 } := by
    rw [asked, withTransport, hreceive]
    rfl
  have halive : c.foundAlive = (Transport.alive (Transport.listen s.transport).1).2 := by
    rw [foundAlive, withTransport, hreceive]
  cases ha : (Transport.alive (Transport.listen s.transport).1).2 with
  | true =>
    have hpoll : c.poll = c.asked := poll_eq_of_alive h.hasSession (halive.trans ha)
    rw [hpoll, hasked]
    exact .alive h.session rfl hk ha
  | false =>
    have hplain : Plain c.asked
        { s with transport := (Transport.alive (Transport.listen s.transport).1).1 } := by
      rw [hasked]
      exact ⟨rfl, h.mode, h.enabled, h.marker, h.state⟩
    obtain ⟨kept', hk', hreceive', hplain'⟩ := hplain.receive rfl
    rw [poll_eq_of_dead h.hasSession (halive.trans ha), hplain'.finish, hreceive', hasked]
    exact .dead h.session rfl hk ha rfl hk'

/-! ### Other calls -/

/-- Nothing is done to the session, and nothing is sent. -/
structure Untouched (c c' : Controller τ) : Prop where
  session : c'.session = c.session
  state : c'.state = c.state
  journal : ∃ new, c'.journal = new ++ c.journal ∧ new.filterMap Mark.sent? = []

omit [Transport τ] in
theorem Untouched.of_eq (session : c'.session = c.session) (state : c'.state = c.state)
    (journal : c'.journal = c.journal) : Untouched c c' :=
  ⟨session, state, [], journal, rfl⟩

/-- No breakpoint is sent to a program that is not at a prompt. -/
theorem advanceBreakpoints_of_running (h : c.state = .running) : c.advanceBreakpoints = c := by
  rw [advanceBreakpoints, if_neg (by simp [h])]

theorem changed_untouched (h : c.state = .running) (breakpoints : Breakpoint.Schedule)
    (editor : Editor) : Untouched c { c with breakpoints, editor }.advanceBreakpoints := by
  rw [advanceBreakpoints_of_running (c := { c with breakpoints, editor }) h]
  exact .of_eq rfl rfl rfl

omit [Transport τ] in
theorem asked_untouched (c : Controller τ) (row : Nat) (name : String) (watches : Watch.Table) :
    Untouched c ({ c.note (.asked row name) with watches }.push .watchTableChanged) :=
  ⟨rfl, rfl, [.asked row name], rfl, rfl⟩

theorem toggleBreakpointAt_untouched (h : c.state = .running) (path : String) (line : Nat) :
    Untouched c (c.toggleBreakpointAt path line).1 := by
  unfold toggleBreakpointAt
  split
  · exact .of_eq rfl rfl rfl
  · next editor doc _ =>
    have ht := changed_untouched (c := { c with editor }) h
      (c.breakpoints.toggle editor doc line).1 (c.breakpoints.toggle editor doc line).2.1
    exact ⟨ht.session, ht.state, ht.journal⟩

omit [Transport τ] in
theorem deleteWatch_untouched (c : Controller τ) (row : Nat) :
    Untouched c (c.deleteWatch row).1 := by
  unfold deleteWatch
  split
  · exact asked_untouched c _ _ _
  · exact .of_eq rfl rfl rfl

/-- What is neither a poll nor an abort nor input does nothing to a plain run. -/
theorem Plain.call {s : Session τ} (h : Plain c s) {a : Call τ} (ha : a.isIdle) :
    Untouched c (c.call a) := by
  have hsame : Untouched c c := .of_eq rfl rfl rfl
  cases a with
  | poll | abort | sendInput text => cases ha
  | launch mode spawn => simpa only [Controller.call, launch_live h.hasSession] using hsame
  | goOn | stepInto | stepOver | stepOut | runToLine line | runToCursor doc position =>
    have hstep (command : Command) : Untouched c (c.step command).1 := by
      simpa only [step, h.requirePaused] using hsame
    exact hstep _
  | evaluate expr hover => simpa only [Controller.call, evaluate, h.requirePaused] using hsame
  | evaluateAt doc position =>
    simpa only [Controller.call, evaluateAt, h.requirePaused] using hsame
  | toggleBreakpoint doc line => exact changed_untouched h.state _ _
  | toggleBreakpointAt path line => exact toggleBreakpointAt_untouched h.state path line
  | clearBreakpoints => exact changed_untouched h.state _ _
  | documentsChanged | listBreakpoints | takeEvents | takeTraffic =>
    exact ⟨rfl, rfl, [], rfl, rfl⟩
  | addWatch name | editWatch row name => exact asked_untouched c _ _ _
  | deleteWatch row => exact deleteWatch_untouched c row

/-! ### Runs -/

/-- Only input is sent, and as long as the session lives the run stays plain. -/
structure PlainStep (c c' : Controller τ) (sent : List Sent) : Prop where
  plain : c'.hasSession → ∃ s, Plain c' s
  journal : ∃ new, c'.journal = new ++ c.journal ∧ new.reverse.filterMap Mark.sent? = sent

omit [Transport τ] in
theorem Untouched.step {s : Session τ} (h : Plain c s) (u : Untouched c c') :
    PlainStep c c' [] := by
  obtain ⟨new, hj, hn⟩ := u.journal
  exact ⟨fun _ => ⟨s, u.session.trans h.session, h.mode, h.enabled, h.marker,
    u.state.trans h.state⟩, new, hj, by rw [List.filterMap_reverse, hn]; rfl⟩

theorem PassesOn.step {s : Session τ} (h : Plain c s) (p : PassesOn c c') :
    PlainStep c c' [] := by
  cases p with
  | alive hs =>
    obtain rfl := Option.some.inj (hs.symm.trans h.session)
    exact ⟨fun _ => ⟨_, rfl, h.mode, h.enabled, h.marker, h.state⟩, [], rfl, rfl⟩
  | dead => exact ⟨nofun, [], rfl, rfl⟩

theorem Plain.abort {s : Session τ} (h : Plain c s) : PlainStep c c.abort.1 [] := by
  let killed : τ := (Transport.kill (Transport.terminate s.transport).1).1
  let c' := { c with
    session := some { s with transport := killed }
    traffic := c.traffic ++ [Traffic.terminate, Traffic.kill] }
  have hplain : Plain c' { s with transport := killed } :=
    ⟨rfl, h.mode, h.enabled, h.marker, h.state⟩
  have habort : c.abort.1 = c'.finish := by
    rw [Controller.abort, if_pos h.hasSession]
    simp only [withTransport, h.session]
    rfl
  rw [habort, hplain.finish]
  exact ⟨(by cases ·), [], rfl, rfl⟩

theorem Plain.sendInput {s : Session τ} (h : Plain c s) (text : String) :
    PlainStep c (c.sendInput text).1 [.input text] := by
  simp only [Controller.sendInput, transmit, h.session]
  exact ⟨fun _ => ⟨_, rfl, h.mode, h.enabled, h.marker, h.state⟩, [_], rfl, rfl⟩

theorem Plain.after {s : Session τ} (h : Plain c s) (x : Happening τ) :
    PlainStep c (c.after x) x.input?.toList := by
  cases x with
  | edit change =>
    have hu : Untouched c (c.edit change) := .of_eq rfl rfl rfl
    exact hu.step h
  | meanwhile f =>
    refine ⟨fun _ => ⟨{ s with transport := f s.transport }, ?_, h.mode, h.enabled, h.marker,
      h.state⟩, [], rfl, rfl⟩
    simp [Controller.after, meanwhile, modifySession, h.session]
  | call a =>
    by_cases ha : a.isIdle
    · have hu := (h.call ha).step h
      cases a <;> first | exact hu | cases ha
    cases a with
    | poll => exact h.poll.step h
    | abort => exact h.abort
    | sendInput text => exact h.sendInput text
    | _ => exact absurd rfl ha

omit [Transport τ] in
theorem PlainStep.trans {c'' : Controller τ} {sent sent' : List Sent} (h : PlainStep c c' sent)
    (h' : PlainStep c' c'' sent') : PlainStep c c'' (sent ++ sent') := by
  obtain ⟨new, hj, hn⟩ := h.journal
  obtain ⟨new', hj', hn'⟩ := h'.journal
  refine ⟨h'.plain, new' ++ new, by rw [hj', hj, List.append_assoc], ?_⟩
  rw [List.reverse_append, List.filterMap_append, hn, hn']

theorem Plain.run {s : Session τ} (h : Plain c s) {hs : List (Happening τ)}
    (live : ∀ n < hs.length, (c.run (hs.take n)).hasSession) :
    PlainStep c (c.run hs) (hs.filterMap Happening.input?) := by
  induction hs generalizing c s with
  | nil => exact ⟨fun _ => ⟨s, h⟩, [], rfl, rfl⟩
  | cons x hs ih =>
    have hx := h.after x
    have hinput : (x :: hs).filterMap Happening.input? =
        x.input?.toList ++ hs.filterMap Happening.input? := by
      cases hi : x.input? <;> simp [hi]
    rw [hinput]
    cases hs with
    | nil =>
      rw [List.filterMap_nil, List.append_nil]
      exact hx
    | cons y hs =>
      obtain ⟨s', hs'⟩ := hx.plain (live 1 (by simp))
      exact hx.trans (ih hs' fun n hn => live (n + 1) (by simpa using hn))

/-- What a program that runs without a debugger writes is passed on, and nothing else comes of it:
whatever it writes and the host asks for, and whatever was left of older sessions, until the end
the state is that of a program that runs, and a poll changes only the events. All that the
program is sent is what the user types. -/
theorem plain_run_passes_on {before : Controller τ} {spawn : Unit → Except Failure τ}
    (launched : before.launch .run spawn = (c, .ok ())) {hs : List (Happening τ)}
    (live : ∀ n < hs.length, (c.run (hs.take n)).hasSession) :
    (∃ new, (c.run hs).journal = new ++ c.journal ∧
      new.reverse.filterMap Mark.sent? = hs.filterMap Happening.input?) ∧
    ((c.run hs).hasSession → (c.run hs).state = .running ∧ PassesOn (c.run hs) (c.run hs).poll ∧
      ∀ a : Call τ, a.isIdle → ((c.run hs).call a).session = (c.run hs).session) := by
  obtain ⟨s, hplain⟩ : ∃ s, Plain c s := by
    obtain ⟨transport, -, rfl⟩ := start_of_launch launched
    exact ⟨_, rfl, rfl, rfl, rfl, rfl⟩
  have hrun := hplain.run live
  refine ⟨hrun.journal, fun hlive => ?_⟩
  obtain ⟨s', hs'⟩ := hrun.plain hlive
  exact ⟨hs'.state, hs'.poll, fun a ha => (hs'.call ha).session⟩

/-- A breakpoint and a watch wait to be sent, and the program writes a prompt: it is shown as it
stands, and nothing is sent but a line of input. -/
theorem plain_run_passes_on_prompt :
    let before : Controller Script := (Controller.new .standard (.new .empty)).run
      [.edit (.openText "a" "one\ntwo\n"), .call (.toggleBreakpoint 0 1), .call (.addWatch "x")]
    let c := (before.launch .run fun _ => .ok (.new true [])).1
    let hs : List (Happening Script) := [.meanwhile (·.cue (.writes "\x1b]>dbg> a\x08b")),
      .call .poll, .call .goOn, .call .clearBreakpoints, .call (.sendInput "y"),
      .meanwhile fun p => { p with dead := true }]
    before.launch .run (fun _ => .ok (.new true [])) = (c, .ok ()) ∧
      (∀ n < hs.length, (c.run (hs.take n)).hasSession) ∧
      (c.run hs).events = before.events ++ [.terminal "\x1b]>dbg> b"] ∧
      (∃ new, (c.run hs).journal = new ++ c.journal ∧
        new.reverse.filterMap Mark.sent? = [.input "y"]) ∧
      (c.run hs).state = .running ∧ PassesOn (c.run hs) (c.run hs).poll := by
  intro before c hs
  have launched : before.launch .run (fun _ => .ok (.new true [])) = (c, .ok ()) := rfl
  have live : ∀ n < hs.length, (c.run (hs.take n)).hasSession := by decide +kernel
  obtain ⟨hsent, hlive⟩ := plain_run_passes_on launched live
  obtain ⟨hstate, hpoll, -⟩ := hlive (by decide +kernel)
  exact ⟨launched, live, by decide +kernel, hsent, hstate, hpoll⟩

end Controller

end Debugline
