import Debugline.Proofs.Session.Backlog
import Debugline.Proofs.Session.Terminal
import Debugline.Proofs.Wire.Chunks

/-! Prompts catch the debugger up. While a host only waits, each prompt in the output sends the
watch and the breakpoint that are due, however the output is cut into polls, and after as many
prompts as the longer of the two lists has commands nothing is left to be sent. -/

namespace Debugline

open Session Wire Outline

namespace Session

/-- Happenings that ask for nothing: the program goes on, and the host reads what it did. -/
def Happening.isWaiting {τ : Type} : Happening τ → Bool
  | .call .poll | .call .takeEvents | .call .takeTraffic | .meanwhile _ => true
  | _ => false

end Session

namespace Outline

/-- The outline after the end of a session. -/
def finished (o : Outline) : Outline :=
  { o with state := .terminated, session := none, watches := o.watches.clearPending }

end Outline

namespace Controller

variable {τ : Type} [Transport τ]

/-! ### Prompts -/

theorem reachPrompt_progress {c : Controller τ} (hs : c.outline.session = some (.debug, true)) :
    Progress 1 c.outline (c.note (.frame .prompt)).reachPrompt.outline := by
  have hp := prompted hs
  unfold reachPrompt
  rw [outline_reportPause]
  exact hp.progress (advanced hp.waits hp.unsent) hs

theorem dispatch_progress {c : Controller τ} (hs : c.outline.session = some (.debug, true)) :
    Progress 1 c.outline (c.dispatch c.config.prompt).outline := by
  have hparse : Frame.parse c.config.prompt c.config.prompt = .ok .prompt := if_pos rfl
  unfold dispatch
  rw [hparse]
  exact reachPrompt_progress hs

theorem dispatchAll_progress {c : Controller τ} (hs : c.outline.session = some (.debug, true))
    (k : Nat) :
    Progress k c.outline ((List.replicate k c.config.prompt).foldl dispatch c).outline := by
  induction k generalizing c with
  | zero => exact .refl _
  | succ k ih =>
    have hlive : c.bare.isSome := by
      obtain ⟨s, hsession, -⟩ := Option.map_eq_some_iff.mp hs
      rw [bare_eq hsession]
      rfl
    have hp := dispatch_progress hs
    have hrest := ih (hp.session.trans hs)
    rw [(dispatch_frameds hlive c.config.prompt).deeds.config] at hrest
    rw [Nat.add_comm, List.replicate_add]
    exact hp.trans hrest

/-! ### Polls -/

theorem takeOutput_progress {c : Controller τ} {s : Scanner} (hc : c.scanner? = some s)
    (hs : c.outline.session = some (.debug, true)) {bytes : List UInt8} {k : Nat}
    (prompts : (s.feed bytes).2.frames = List.replicate k c.config.prompt) :
    Progress k c.outline (c.takeOutput bytes).outline := by
  obtain ⟨session, hsession, rfl⟩ := Option.map_eq_some_iff.mp hc
  let fed := { c with session := some { session with scanner := (session.scanner.feed bytes).1 } }
  have hfed : fed.outline = c.outline := by simp [fed, outline, hsession, Scanner.feed]
  rw [takeOutput_eq hsession, outline_pushText, prompts, ← hfed]
  exact dispatchAll_progress (hfed.symm ▸ hs) k

/-- Prompts have gone by, and the scanner has gone on. -/
structure Passes (k : Nat) (s' : Scanner) (c c' : Controller τ) : Prop where
  progress : Progress k c.outline c'.outline
  scanner : c'.scanner? = some s'
  config : c'.config = c.config

omit [Transport τ] in
theorem Passes.trans {k k' : Nat} {s s' : Scanner} {c c' c'' : Controller τ}
    (p : Passes k s c c') (p' : Passes k' s' c' c'') : Passes (k + k') s' c c'' :=
  ⟨p.progress.trans p'.progress, p'.scanner, p'.config.trans p.config⟩

theorem receive_passes {c : Controller τ} {s : Scanner} (hc : c.scanner? = some s)
    (hs : c.outline.session = some (.debug, true)) {k : Nat}
    (prompts : (s.feed c.readStreams.2.1).2.frames = List.replicate k c.config.prompt) :
    Passes k (s.feed c.readStreams.2.1).1 c c.receive := by
  have hscanner := c.readStreams_beside.silent.scanner.trans hc
  have hprogress := takeOutput_progress hscanner (c.outline_readStreams ▸ hs)
    (c.readStreams_deeds.config.symm ▸ prompts)
  rw [outline_readStreams] at hprogress
  refine ⟨?_, ?_, (receive_deeds c).config⟩
  · rw [receive, outline_takeErrors]
    exact hprogress
  · exact (scanner?_pushText _ _).trans (text_takeOutput hscanner _).2

theorem withTransport_passes {c : Controller τ} {s : Scanner} (hc : c.scanner? = some s)
    {α : Type} (absent : α) (f : τ → τ × α) : Passes 0 s c (c.withTransport absent f).1 where
  progress := by
    rw [outline_withTransport]
    exact .refl _
  scanner := (c.withTransport_beside absent f).silent.scanner.trans hc
  config := (withTransport_deeds c absent f).config

/-- A poll that has read once, and has asked whether the program lives. -/
def asked (c : Controller τ) : Controller τ := (c.receive.withTransport false Transport.alive).1

theorem asked_deeds (c : Controller τ) : Deeds c c.asked :=
  c.receive_deeds.trans (withTransport_deeds c.receive false Transport.alive)

theorem asked_live {c : Controller τ} (live : c.hasSession) : c.asked.hasSession := by
  obtain ⟨_, hr⟩ := c.receive_along
  exact ((c.receive.withTransport_along false Transport.alive).session.trans hr.session).trans live

theorem asked_passes {c : Controller τ} {s : Scanner} (hc : c.scanner? = some s)
    (hs : c.outline.session = some (.debug, true)) {k : Nat}
    (prompts : (s.feed c.readStreams.2.1).2.frames = List.replicate k c.config.prompt) :
    Passes k (s.feed c.readStreams.2.1).1 c c.asked := by
  have hp := receive_passes hc hs prompts
  exact hp.trans (withTransport_passes hp.scanner false Transport.alive)

theorem poll_eq_of_dead {c : Controller τ} (live : c.hasSession) (dead : c.foundAlive = false) :
    c.poll = c.asked.receive.finish := by
  unfold poll asked
  rw [if_pos live]
  dsimp only
  split
  · next h =>
    rw [foundAlive, h] at dead
    cases dead
  · next h => rw [h]

/-- What a poll reads of the output. If it finds the program dead, it reads once more. -/
def polled (c : Controller τ) : List UInt8 :=
  if !c.hasSession then []
  else if c.foundAlive then c.readStreams.2.1
  else c.readStreams.2.1 ++ c.asked.readStreams.2.1

theorem poll_of_idle {c : Controller τ} (idle : c.hasSession = false) :
    c.poll = c ∧ c.polled = [] := by
  simp [poll, polled, idle]

theorem polled_of_alive {c : Controller τ} (live : c.hasSession) (alive : c.foundAlive) :
    c.polled = c.readStreams.2.1 := by
  simp [polled, live, alive]

theorem polled_of_dead {c : Controller τ} (live : c.hasSession) (dead : c.foundAlive = false) :
    c.polled = c.readStreams.2.1 ++ c.asked.readStreams.2.1 := by
  simp [polled, live, dead]

/-- What a run reads of the output. -/
def reads (c : Controller τ) : List (Happening τ) → List UInt8
  | [] => []
  | .call .poll :: hs => c.polled ++ c.poll.reads hs
  | x :: hs => (c.after x).reads hs

omit [Transport τ] in
theorem outline_finish (c : Controller τ) : c.finish.outline = c.outline.finished := by
  have ho : c.finish.outline = { c.removeMarker.outline with
      state := .terminated, session := none, watches := c.watches.clearPending } := rfl
  rw [ho, outline_removeMarker]
  rfl

/-- Waiting is polling, and else does nothing to what is due and reads nothing. -/
theorem after_waiting (c : Controller τ) {x : Happening τ} (hx : x.isWaiting) :
    x = .call .poll ∨
      (∀ s, c.scanner? = some s → Passes 0 s c (c.after x)) ∧
        (c.after x).outline = c.outline ∧ ∀ hs, c.reads (x :: hs) = (c.after x).reads hs := by
  cases x with
  | edit change => cases hx
  | meanwhile f =>
    have ho : (c.after (.meanwhile f)).outline = c.outline := c.outline_meanwhile f
    have hs := (c.meanwhile_beside f).silent.scanner
    refine .inr ⟨fun s hc => ⟨?_, hs.trans hc, rfl⟩, ho, fun _ => rfl⟩
    rw [ho]
    exact .refl _
  | call a =>
    cases a with
    | poll => exact .inl rfl
    | takeEvents | takeTraffic =>
      exact .inr ⟨fun s hc => ⟨.refl _, hc, rfl⟩, rfl, fun _ => rfl⟩
    | _ => cases hx

/-- A host that waits for a program that ended waits for nothing. -/
theorem run_idle {c : Controller τ} (idle : c.outline.session = none) {hs : List (Happening τ)}
    (waiting : ∀ x ∈ hs, x.isWaiting) : (c.run hs).outline = c.outline ∧ c.reads hs = [] := by
  induction hs generalizing c with
  | nil => exact ⟨rfl, rfl⟩
  | cons x hs ih =>
    obtain ⟨hx, hrest⟩ := List.forall_mem_cons.mp waiting
    obtain rfl | ⟨-, ho, hreads⟩ := c.after_waiting hx
    · have hnone : c.hasSession = false := by simpa [outline, hasSession] using idle
      obtain ⟨hpoll, hpolled⟩ := poll_of_idle hnone
      have h := ih idle hrest
      refine ⟨?_, ?_⟩
      · rw [run, List.foldl_cons, show c.after (.call .poll) = c from hpoll]
        exact h.1
      · rw [reads, hpoll, hpolled, h.2, List.append_nil]
    · have h := ih (ho ▸ idle) hrest
      exact ⟨h.1.trans ho, (hreads hs).trans h.2⟩

/-- While a host waits, the prompts that are read go by, until the session ends or for good. -/
theorem run_progress {c : Controller τ} {s : Scanner} (hc : c.scanner? = some s)
    (hs : c.outline.session = some (.debug, true)) {xs : List (Happening τ)} {k : Nat}
    (waiting : ∀ x ∈ xs, x.isWaiting)
    (prompts : (s.feed (c.reads xs)).2.frames = List.replicate k c.config.prompt) :
    ∃ o, Progress k c.outline o ∧ ((c.run xs).outline = o ∨ (c.run xs).outline = o.finished) := by
  induction xs generalizing c s k with
  | nil =>
    obtain rfl : k = 0 := by simpa [reads, Scanner.feed, Scanner.scan] using prompts.symm
    exact ⟨c.outline, .refl _, .inl rfl⟩
  | cons x xs ih =>
    obtain ⟨hx, hrest⟩ := List.forall_mem_cons.mp waiting
    obtain rfl | ⟨hpasses, -, hreads⟩ := c.after_waiting hx
    -- The prompts part into those of this poll and those of later ones.
    · have live : c.hasSession := by
        obtain ⟨session, hsession, -⟩ := Option.map_eq_some_iff.mp hs
        simp [hasSession, hsession]
      rw [reads, Scanner.feed_append_frames, List.append_eq_replicate_iff] at prompts
      obtain ⟨rfl, hnow, hlater⟩ := prompts
      by_cases alive : c.foundAlive
      · have hpoll : c.poll = c.asked := poll_eq_of_alive live alive
        have hpolled := polled_of_alive live alive
        rw [hpoll] at hlater ⊢
        rw [hpolled] at hnow hlater ⊢
        have hp := asked_passes hc hs hnow
        obtain ⟨o, hprogress, hend⟩ := ih hp.scanner (hp.progress.session.trans hs) hrest
          (hp.config.symm ▸ hlater)
        refine ⟨o, hp.progress.trans hprogress, ?_⟩
        rwa [run, List.foldl_cons, show c.after (.call .poll) = c.asked from hpoll]
      -- The poll reads twice and then ends the session, so it is the last that reads.
      · have dead : c.foundAlive = false := by simpa using alive
        have hpoll := poll_eq_of_dead live dead
        have hpolled := polled_of_dead live dead
        obtain ⟨hrun, hreads⟩ := run_idle (c := c.poll) (by rw [hpoll, outline_finish]; rfl) hrest
        rw [hpolled, Scanner.feed_append_frames, List.append_eq_replicate_iff] at hnow
        obtain ⟨hlength, hfirst, hsecond⟩ := hnow
        have hp := asked_passes hc hs hfirst
        have hq := receive_passes hp.scanner (hp.progress.session.trans hs)
          (hp.config.symm ▸ hsecond)
        refine ⟨c.asked.receive.outline, ?_, .inr ?_⟩
        · rw [hreads, show ∀ s : Scanner, (s.feed []).2.frames = [] from fun _ => rfl,
            List.length_nil, Nat.add_zero, hpolled, Scanner.feed_append_frames, List.length_append]
          exact hp.progress.trans hq.progress
        · rw [run, List.foldl_cons, ← outline_finish, ← hpoll]
          exact hrun
    · have hp := hpasses s hc
      rw [hreads] at prompts
      obtain ⟨o, hprogress, hend⟩ := ih hp.scanner (hp.progress.session.trans hs) hrest
        (hp.config.symm ▸ prompts)
      exact ⟨o, Nat.zero_add k ▸ hp.progress.trans hprogress, hend⟩

/-! ### Convergence -/

omit [Transport τ] in
/-- A debugger that was just started is to be told of all breakpoints. -/
theorem dirty_of_launch {before c : Controller τ} {spawn : Unit → Except Failure τ}
    (h : before.launch .debug spawn = (c, .ok ())) : c.breakpoints.dirty = true := by
  obtain ⟨_, -, rfl⟩ := start_of_launch h
  rfl

/-- The watch and the breakpoint commands that a session starts out to send at a prompt, counted
from 0: the watches that are pending one by one, and one command to clear all breakpoints and then
one for each marker. -/
def agenda (c : Controller τ) (i : Nat) : List Command :=
  (c.watches.pending[i]?.map c.watches.commandFor).toList ++
    ((.clearBreakpoints :: (Breakpoint.ofEditor c.editor).map (·.command))[i]?).toList

omit [Transport τ] in
theorem agenda_eq_nil_iff (c : Controller τ) (i : Nat) :
    c.agenda i = [] ↔
      max c.watches.pending.length ((Breakpoint.ofEditor c.editor).length + 1) ≤ i := by
  simp [agenda]

omit [Transport τ] in
theorem breakpointsDue_eq {c : Controller τ} (fresh : c.outline.Fresh Eq)
    (dirty : c.breakpoints.dirty = true) : c.outline.breakpointsDue =
      .clearBreakpoints :: (Breakpoint.ofEditor c.editor).map (·.command) := by
  rw [Outline.breakpointsDue_of_dirty dirty, fresh.known fun _ => rfl]
  rfl

omit [Transport τ] in
theorem marksAt_eq_agenda {c : Controller τ} (fresh : c.outline.Fresh Eq)
    (dirty : c.breakpoints.dirty = true) :
    c.outline.marksAt = fun i => .frame .prompt :: (c.agenda i).map .taken := by
  funext i
  rw [Outline.marksAt, Outline.dueAt, breakpointsDue_eq fresh dirty, Outline.watchesDue,
    List.getElem?_map]
  rfl

/-- While the host waits for a debugger that is to be told of all breakpoints, each prompt that is
read sends what is next on the agenda and nothing else, however the output is cut. As many prompts
are needed as watches are pending, or one more than there are markers, whichever is more; then
nothing is left to be sent. Once no watch is pending the table ends in one blank row. -/
theorem prompts_send_agenda {c : Controller τ} {s : Session τ} {xs : List (Happening τ)} {k : Nat}
    (announced : Announced Eq true c) (session : c.session = some s) (mode : s.mode = .debug)
    (dirty : c.breakpoints.dirty = true) (waiting : ∀ x ∈ xs, x.isWaiting)
    (prompts : (s.scanner.feed (c.reads xs)).2.frames = List.replicate k c.config.prompt) :
    let after := c.run xs
    let needed := max c.watches.pending.length ((Breakpoint.ofEditor c.editor).length + 1)
    (∃ new, after.journal = new ++ c.journal ∧ (Accepted new →
        new.reverse = (List.range k).flatMap fun i => .frame .prompt :: (c.agenda i).map .taken)) ∧
      (∀ i, c.agenda i = [] ↔ needed ≤ i) ∧
      (after.hasSession →
        (after.watches.pending = [] ∧ (after.breakpoints.hasPending after.editor).2 = false ↔
          needed ≤ k)) ∧
      (max 1 c.watches.pending.length ≤ k → after.watches.EndsInOneBlank) := by
  intro after needed
  have hs : c.outline.session = some (.debug, true) := by
    have hsearched := announced.sound.searched _ _ (outline_session session)
    rw [outline_session session, mode]
    simp_all
  have fresh := announced.fresh eq_equivalence rfl
  obtain ⟨o, p, hend⟩ := run_progress (by simp [scanner?, session]) hs waiting prompts
  have hpending : o.watches.pending = [] ↔ c.watches.pending.length ≤ k := p.pending_eq_nil_iff
  refine ⟨?_, c.agenda_eq_nil_iff, fun live => ?_, fun hk => ?_⟩
  · have hjournal : after.journal = o.journal := by
      rcases hend with h | h <;> exact congrArg Outline.journal h
    rw [hjournal, ← marksAt_eq_agenda fresh dirty]
    exact p.journal
  · have ho : after.outline = o := by
      refine hend.resolve_right fun h => ?_
      have hnone : after.outline.session = none := congrArg Outline.session h
      simp_all [outline, hasSession]
    have hfinal : after.watches = o.watches := congrArg Outline.watches ho
    rw [hasPending_eq_false_iff, ho, hfinal, hpending, p.breakpoints,
      breakpointsDue_eq fresh dirty, List.drop_eq_nil_iff]
    simp [needed]
  · have hblank := p.tidy (.inl (by omega)) (hpending.mpr (by omega))
    rcases hend with h | h
    · have hfinal : after.watches = o.watches := congrArg Outline.watches h
      rwa [hfinal]
    · have hfinal : after.watches = o.watches.clearPending := congrArg Outline.watches h
      rw [hfinal]
      exact hblank

/-- A session with a row that is pending twice and three markers in two documents, and five prompts,
one more than it takes, with text between them and a cut inside a prompt. -/
theorem prompts_send_agenda_of_three_markers :
    let marked : Controller Script := ((((((Controller.new .standard (.new .empty)).edit
      (.openText "b.p" "")).edit (.openText "a.p" "")).edit (.addMarker 1 4 .breakpoint)).edit
      (.addMarker 0 9 .breakpoint)).edit (.addMarker 0 2 .breakpoint)).call .documentsChanged
    let c := (((marked.call (.addWatch "x")).call
      (.launch .debug fun _ => .ok (.new true []))).call (.editWatch 0 "y")).call (.addWatch "z")
    let xs : List (Happening Script) := [.meanwhile (·.cue (.writes "\x1b]>dbg> hi\x1b]>d")),
      .call .poll, .meanwhile (·.cue (.writes "bg> \x1b]>dbg> ")), .call .poll, .call .takeEvents,
      .meanwhile (·.cue (.writes "\x1b]>dbg> \x1b]>dbg> ")), .call .poll]
    Announced Eq true c ∧ c.breakpoints.dirty = true ∧ (∀ x ∈ xs, x.isWaiting) ∧
      c.session.map (fun s => (s.mode, (s.scanner.feed (c.reads xs)).2.frames)) =
        some (.debug, List.replicate 5 c.config.prompt) ∧
      (List.range 5).map c.agenda = [[.setWatch 1 "y", .clearBreakpoints],
        [.setWatch 1 "y", .breakAt "b.p" 3], [.setWatch 2 "z", .breakAt "b.p" 10],
        [.breakAt "a.p" 5], []] ∧
      (∃ new, (c.run xs).journal = new ++ c.journal ∧ (Accepted new → new.reverse =
        (List.range 5).flatMap fun i => .frame .prompt :: (c.agenda i).map .taken)) ∧
      (c.run xs).watches.EndsInOneBlank := by
  intro marked c xs
  have hmarked : Announced Eq true marked :=
    .announce (.editBreakpoints _ (.editBreakpoints _ (.editBreakpoints _
      (.edit _ rfl (.edit _ rfl (.new _ _))))))
  have hc : Announced Eq true c := .call _ (.call _ (.call _ (.call _ hmarked)))
  have hdirty : c.breakpoints.dirty = true := by decide +kernel
  have hwaiting : ∀ x ∈ xs, x.isWaiting := by simp [xs, Happening.isWaiting]
  have hsession : c.session.map (fun s => (s.mode, (s.scanner.feed (c.reads xs)).2.frames)) =
      some (.debug, List.replicate 5 c.config.prompt) := by decide +kernel
  obtain ⟨s, hs, he⟩ := Option.map_eq_some_iff.mp hsession
  obtain ⟨hmode, hprompts⟩ := Prod.mk.inj he
  have h := prompts_send_agenda hc hs hmode hdirty hwaiting hprompts
  exact ⟨hc, hdirty, hwaiting, hsession, by decide +kernel, h.1, h.2.2.2 (by decide +kernel)⟩

end Controller

end Debugline
