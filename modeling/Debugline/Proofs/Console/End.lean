import Debugline.Proofs.Console.Printed
import Debugline.Proofs.Session.Supply

/-! The console comes to an end. A poll uses up some of what there is to read, prints what waited,
ends the session, or is one more in a row without events, and the rows are short; so each pump ends.
A line is typed for each pump but the last, and whoever leaves ends the session. -/

namespace Debugline

open Session

namespace Controller

variable {τ : Type} [Transport τ]

theorem abort_gone {c : Controller τ} (live : c.hasSession) : c.abort.1.hasSession = false := by
  obtain ⟨c', -, h⟩ := abort_live live
  rw [h]
  rfl

end Controller

namespace Console

variable {τ : Type} [Transport τ]

namespace Host

theorem tick_events (h : Host τ) : h.tick.2 = !h.controller.poll.events.isEmpty := rfl

end Host

namespace Moment

/-! ### The end of the session -/

/-- Whoever leaves ends the session. -/
theorem does_of_ask_left {m : Moment τ} (live : m.host.controller.hasSession)
    (asking : m.stage = .asking) (left : m.ask.stage = .ended .left) : m.does = leaving := by
  unfold does
  rw [if_pos live, asking]
  dsimp only
  split
  · next text rest htyped =>
    rcases (ask_ended_iff live asking).mp left with hr | ⟨hnone, -⟩
    · have hquit := m.endingOf_eq_left_iff.mp hr
      rw [if_neg (live_of_request hquit).2, hquit]
      rfl
    · exact absurd htyped (hnone text rest)
  · rfl

/-- The session is over once the user has left; after a crash it is still there. -/
theorem next_gone_iff {m : Moment τ} {ending : Ending}
    (h : m.stage = .ended ending → (m.host.controller.hasSession = false ↔ ending = .left))
    (ended : m.next.stage = .ended ending) :
    m.next.host.controller.hasSession = false ↔ ending = .left := by
  rcases m.next_cases with ⟨-, quiet, -, hn⟩ | ⟨live, ha, hn⟩ | ⟨-, hhost, hs⟩
  · rw [hn, pump] at ended
    split_ifs at ended
  · rw [next_controller]
    cases ending with
    | left =>
      rw [hn] at ended
      rw [does_of_ask_left live ha ended]
      exact iff_of_true (Controller.abort_gone live) rfl
    | crashed =>
      have hpast : m.ListsPastEnd := (m.next_crashed_iff.mp ended).resolve_left (by simp [ha])
      rw [does_of_listsPastEnd hpast]
      have still : (m.host.controller.run []).hasSession := live
      exact iff_of_false (by simp [still]) (by simp)
  · rw [hhost]
    rcases hs with ⟨_, -, hn⟩ | ⟨gone, hstage⟩
    · exact h (hn ▸ ended)
    · rcases hstage with ha | hl
      · cases ha.symm.trans ended
      · exact iff_of_true gone (Stage.ended.inj (ended.symm.trans hl))

theorem after_gone_iff {m : Moment τ} {quiet : Nat} (start : m.stage = .pumping quiet) {n : Nat}
    {ending : Ending} (ended : (m.after n).stage = .ended ending) :
    (m.after n).host.controller.hasSession = false ↔ ending = .left := by
  induction n with
  | zero => cases start.symm.trans ended
  | succ n ih => exact next_gone_iff ih ended

/-! ### Silence -/

/-- The last moments before the `i`-th, this many of them, were polls without events. -/
structure Silent (m : Moment τ) (i polls : Nat) : Prop where
  le : polls ≤ i
  quiet : ∀ k < i, i ≤ k + polls → (∃ quiet, (m.after k).stage = .pumping quiet) ∧
    (m.after k).host.controller.hasSession ∧ (m.after k).host.controller.poll.events = []

theorem Silent.zero (m : Moment τ) (i : Nat) : m.Silent i 0 :=
  ⟨Nat.zero_le i, fun _ hk hi => absurd hi (by omega)⟩

theorem Silent.mono {m : Moment τ} {i p q : Nat} (h : m.Silent i p) (hq : q ≤ p) :
    m.Silent i q :=
  ⟨hq.trans h.le, fun k hk hi => h.quiet k hk (by omega)⟩

/-- Events break the silence; a poll without them makes it longer. -/
theorem Silent.pump {m : Moment τ} {i quiet : Nat} (h : m.Silent i quiet)
    (pumping : (m.after i).stage = .pumping quiet) (live : (m.after i).host.controller.hasSession) :
    m.Silent (i + 1) ((m.after i).host.silence quiet) := by
  unfold Host.silence
  split_ifs with hevents
  · exact .zero m _
  · have hnone : (m.after i).host.controller.poll.events = [] := by
      simpa [Host.tick_events] using hevents
    refine ⟨Nat.succ_le_succ h.le, fun k hk hi => ?_⟩
    rcases Nat.lt_succ_iff_lt_or_eq.mp hk with hk | rfl
    · exact h.quiet k hk (by omega)
    · exact ⟨⟨quiet, pumping⟩, live, hnone⟩

/-- A line is asked for once nothing came for as many polls as patience lasts, or the session is
over. -/
theorem silent_of_stage {m : Moment τ} (start : m.stage = .pumping 0) (i : Nat) :
    (∀ quiet, (m.after i).stage = .pumping quiet → m.Silent i quiet) ∧
      ((m.after i).stage = .asking → (m.after i).host.controller.hasSession = false ∨
        m.Silent i (Host.patience (m.after i).host.controller)) := by
  induction i with
  | zero =>
    refine ⟨fun quiet hq => ?_, fun ha => absurd (start.symm.trans ha) (by simp)⟩
    obtain rfl : 0 = quiet := Stage.pumping.inj (start.symm.trans hq)
    exact .zero m 0
  | succ i ih =>
    rw [after]
    rcases (m.after i).next_cases with ⟨live, quiet, hq, hn⟩ | ⟨-, -, hn⟩ | ⟨-, hhost, hs⟩
    · have hsilent := (ih.1 quiet hq).pump hq live
      rw [hn, pump]
      split_ifs with hp
      · exact ⟨by simp, fun _ => .inr (hsilent.mono hp)⟩
      · exact ⟨fun quiet' h => Stage.pumping.inj h ▸ hsilent, by simp⟩
    · rw [hn]
      rcases (m.after i).ask_cases with ⟨_, hover⟩ | ⟨hp, -⟩
      · simp [hover]
      · refine ⟨fun quiet h => ?_, fun h => absurd (hp.symm.trans h) (by simp)⟩
        obtain rfl : 0 = quiet := Stage.pumping.inj (hp.symm.trans h)
        exact .zero m _
    · rw [hhost]
      rcases hs with ⟨_, hover, hn⟩ | ⟨gone, hstage⟩
      · simp [hn, hover]
      · exact ⟨fun _ h => by simp [h] at hstage, fun _ => .inl gone⟩

end Moment

/-! ### Polls that are enough -/

namespace Host

variable {work : τ → Nat}

omit [Transport τ] in
theorem patience_le (c : Controller τ) : patience c ≤ 25 := by
  unfold patience
  split <;> decide

theorem pause_supply (x : Transport.Exhausts work) (h : Host τ) :
    h.pause.controller.supply work ≤ h.controller.supply work := by
  unfold pause Controller.modifySession Controller.supply
  cases h.controller.session with
  | none => exact Nat.le_refl _
  | some s => exact x.wait s.transport h.interval

@[simp]
theorem pause_hasSession (h : Host τ) :
    h.pause.controller.hasSession = h.controller.hasSession := Option.isSome_map

/-- The polls that a pump may still take. -/
def endurance (work : τ → Nat) (h : Host τ) (quiet : Nat) : Nat :=
  if h.controller.hasSession then
    26 * (h.controller.supply work + if h.controller.events = [] then 0 else 1) + (25 - quiet)
  else 0

/-- A poll shortens the rest of a pump. -/
theorem pause_endurance (x : Transport.Exhausts work) {h : Host τ} {quiet : Nat}
    (live : h.controller.hasSession) (short : quiet < 25)
    (on : ¬ patience h.tick.1.controller ≤ h.silence quiet) :
    h.silence quiet < 25 ∧
      h.tick.1.pause.endurance work (h.silence quiet) < h.endurance work quiet := by
  have hshort : h.silence quiet < 25 :=
    (Nat.lt_of_not_le on).trans_le (patience_le _)
  refine ⟨hshort, ?_⟩
  have hbefore : h.endurance work quiet =
      26 * (h.controller.supply work + if h.controller.events = [] then 0 else 1) +
        (25 - quiet) := if_pos live
  rw [hbefore]
  have htick : h.tick.1.pause.controller.hasSession = h.controller.poll.hasSession :=
    h.tick.1.pause_hasSession
  by_cases still : h.controller.poll.hasSession
  · have hpause : h.tick.1.pause.controller.supply work ≤ h.controller.poll.supply work :=
      pause_supply x h.tick.1
    have hafter : h.tick.1.pause.endurance work (h.silence quiet) =
        26 * h.tick.1.pause.controller.supply work + (25 - h.silence quiet) := by
      rw [endurance, if_pos (htick.trans still)]
      rfl
    have hsilence : h.silence quiet = if h.controller.poll.events = [] then quiet + 1 else 0 := by
      rw [silence, tick_events]
      cases h.controller.poll.events <;> rfl
    rcases Controller.poll_supply x live still with hless | ⟨hle, he⟩
    · omega
    · rw [he] at hsilence
      split_ifs at hsilence ⊢ <;> omega
  · rw [endurance, if_neg (htick ▸ still)]
    omega

theorem pumpUntilIdle_isSome (x : Transport.Exhausts work) {fuel quiet : Nat} {h : Host τ}
    (short : quiet < 25) (enough : h.endurance work quiet < fuel) :
    (h.pumpUntilIdle fuel quiet).isSome := by
  induction fuel generalizing quiet h with
  | zero => exact absurd enough (Nat.not_lt_zero _)
  | succ fuel ih =>
    by_cases live : h.controller.hasSession
    · rw [pumpUntilIdle_live live]
      split_ifs with hp
      · rfl
      · obtain ⟨hshort, hless⟩ := pause_endurance x live short hp
        exact ih hshort (by omega)
    · rw [pumpUntilIdle, if_neg live]
      rfl

/-- Polls that are enough for a pump, whatever waits. -/
def ample (work : τ → Nat) (c : Controller τ) : Nat :=
  match c.session with
  | none => 1
  | some s => 26 * (work s.transport + 2)

omit [Transport τ] in
theorem endurance_lt_ample (work : τ → Nat) (h : Host τ) :
    h.endurance work 0 < ample work h.controller := by
  unfold endurance ample Controller.supply
  cases hs : h.controller.session with
  | none => simp [Controller.hasSession, hs]
  | some s =>
    simp only [Controller.hasSession, hs, Option.isSome_some, if_true, Option.map_some,
      Option.getD_some]
    split_ifs <;> omega

theorem converse_isSome (x : Transport.Exhausts work) {budget : Controller τ → Nat}
    (enough : ∀ c, ample work c ≤ budget c) (typed : List Typed) (h : Host τ) :
    (converse budget typed h).isSome := by
  induction hlength : typed.length using Nat.strong_induction_on generalizing typed h with
  | h length ih =>
    obtain ⟨idle, hidle⟩ := Option.isSome_iff_exists.mp
      (pumpUntilIdle_isSome x (by decide) ((h.endurance_lt_ample work).trans_le (enough _)))
    rw [converse_eq, hidle, Option.bind_some]
    by_cases live : idle.controller.hasSession
    · simp only [if_pos live]
      rcases (Moment.mk .asking typed idle).ask_cases with ⟨_, hover⟩ | ⟨hpumping, text, htyped⟩
      · simp only [hover]
        rfl
      · simp only [hpumping]
        refine ih _ ?_ _ _ rfl
        change typed = _ at htyped
        rw [← hlength, congrArg List.length htyped]
        exact Nat.lt_succ_self _
    · simp only [if_neg live]
      rfl

end Host

/-- Each pump of a run that comes to an end is over by then. -/
theorem Moment.pumped_of_ended {work : τ → Nat} (x : Transport.Exhausts work)
    {budget : Controller τ → Nat} (enough : ∀ c, Host.ample work c ≤ budget c) {m : Moment τ}
    {n i : Nat} {ending : Ending} (ended : (m.after n).stage = .ended ending)
    (pumping : (m.after i).stage = .pumping 0) :
    ∃ j ≤ n, (m.after j).stage = .asking ∧
      (m.after i).host.pumpUntilIdle (budget (m.after i).host.controller) 0 =
        some (m.after j).host := by
  obtain ⟨idle, hidle⟩ := Option.isSome_iff_exists.mp (Host.pumpUntilIdle_isSome x
    (by decide) (((m.after i).host.endurance_lt_ample work).trans_le (enough _)))
  obtain ⟨k, hk⟩ := Host.moments_of_pumpUntilIdle hidle (m.after i).typed
  have hj : m.after (i + k) = ⟨.asking, (m.after i).typed, idle⟩ := by
    rw [after_add, ← hk, ← pumping]
  have hle : i + k ≤ n := by
    by_contra hgt
    obtain ⟨d, hd⟩ := Nat.exists_eq_add_of_le (Nat.le_of_not_le hgt)
    rw [hd, after_ended ended] at hj
    rw [hj] at ended
    cases ended
  exact ⟨i + k, hle, by rw [hj], by rw [hj, hidle]⟩

/-! ### Runs that are over -/

/-- The console is over at its `n`-th moment. -/
structure Moment.Over (budget : Controller τ → Nat) (m : Moment τ) (n : Nat) (ending : Ending) :
    Prop where
  stage : (m.after n).stage = .ended ending
  /-- Each pump ends. -/
  pumped : ∀ i ≤ n, (m.after i).stage = .pumping 0 → ∃ j ≤ n, (m.after j).stage = .asking ∧
    (m.after i).host.pumpUntilIdle (budget (m.after i).host.controller) 0 = some (m.after j).host
  /-- It ends with the session, or in silence: three polls at a prompt of the debugger, and
  twenty-five otherwise. -/
  silent : ∀ i ≤ n, (m.after i).stage = .asking → (m.after i).host.controller.session = none ∨
    m.Silent i (if (m.after i).host.controller.state = .pausedAtPrompt then 3 else 25)
  empty : (m.after n).host.controller.events = []
  /-- What waited and what was queued was taken, in order. -/
  handed : m.host.controller.handed (m.doings n) =
    m.host.controller.events ++ m.host.controller.queued (m.doings n)
  /-- It was printed. -/
  shown : m.host.Shows (m.after n).host (m.host.controller.handed (m.doings n))

/-- Whatever is typed, the console comes to an end if the program has only so much to be read, and
nothing that was queued is left out, printed twice or out of order. No session is left behind just
while nobody has a line listed that stands next to the last one that a word counts: such a listing
is a crash, and the session is still there. -/
theorem repl_over {work : τ → Nat} (x : Transport.Exhausts work) {budget : Controller τ → Nat}
    (enough : ∀ c, Host.ample work c ≤ budget c) (typed : List Typed) {h : Host τ}
    (live : h.controller.hasSession) :
    let m := Moment.first typed h
    ∃ n ending, h.repl budget typed = some ((m.after n).host, ending) ∧ m.Over budget n ending ∧
      ((m.after n).host.controller.session = none ↔ ending = .left) ∧
      (ending = .left ↔ ∀ i < n, ¬ (m.after i).ListsPastEnd) := by
  intro m
  obtain ⟨⟨h', ending⟩, done⟩ := Option.isSome_iff_exists.mp
    (Host.converse_isSome x enough typed (h.out greeting))
  obtain ⟨n, ended, rfl⟩ := Host.moments_of_repl (h := h) done
  have hstart : m.stage = .pumping 0 := rfl
  have hsettled : m.Settled := .inr ⟨live, 0, hstart⟩
  have hgone : (m.after n).host.controller.session = none ↔ ending = .left := by
    rw [← Moment.after_gone_iff hstart ended]
    simp [Controller.hasSession, m]
  have hcrash : ending = .left ↔ ∀ i < n, ¬ (m.after i).ListsPastEnd := by
    have hc := Moment.after_crashed_iff hstart n
    rw [show (m.after n).stage = .ended ending from ended] at hc
    cases ending <;> simpa using hc
  have hempty : (m.after n).host.controller.events = [] := by
    cases n with
    | zero => cases ended
    | succ n => exact Moment.after_events hsettled n
  refine ⟨n, ending, done, ⟨ended, fun i hi hpumping => ?_, fun i _ ha => ?_, hempty, ?_,
    m.after_shows n⟩, hgone, hcrash⟩
  · exact Moment.pumped_of_ended x enough ended hpumping
  · refine ((m.silent_of_stage hstart i).2 ha).imp_left fun hn => ?_
    simpa [Controller.hasSession] using hn
  · have hq := m.host.controller.events_queued (m.doings n)
    rw [← Moment.after_controller, hempty, List.append_nil] at hq
    exact hq.symm

/-- The session of a debugger that stops at the last line of all is left behind. -/
theorem session_left_behind :
    (stoppedAt "18446744073709551615").controller.hasSession ∧
      ((stoppedAt "18446744073709551615").replScripted [.line "list"]).map
        (fun (h, ending) => (h.controller.hasSession, ending)) = some (true, .crashed) := by
  decide +kernel

theorem ample_le_enough (c : Controller Script) : Host.ample Script.work c ≤ Host.enough c := by
  unfold Host.ample Host.enough
  cases c.session with
  | none => exact Nat.le_refl _
  | some s =>
    dsimp only
    omega

/-- A program at a prompt that says something once it goes on, and a user who has it go on. -/
theorem repl_over_of_script :
    let c : Controller Script := (Controller.new .standard (.new .empty)).run
      [.call (.launch .debug fun _ => .ok (.new true [.writes "", .writes "done"])),
        .meanwhile (·.cue (.writes "\x1b]>dbg> "))]
    let typed : List Typed := [.line "continue", .line "yes", .ended]
    let m := Moment.first typed ⟨c, 0, []⟩
    Transport.Exhausts Script.work ∧ (∀ c, Host.ample Script.work c ≤ Host.enough c) ∧
      c.hasSession ∧
      ∃ n ending, Host.replScripted typed ⟨c, 0, []⟩ = some ((m.after n).host, ending) ∧
        m.Over Host.enough n ending ∧
        ((m.after n).host.controller.session = none ↔ ending = .left) ∧
        (ending = .left ↔ ∀ i < n, ¬ (m.after i).ListsPastEnd) := by
  intro c typed m
  have live : c.hasSession := by decide +kernel
  exact ⟨Script.exhausts, ample_le_enough, live,
    repl_over Script.exhausts ample_le_enough typed (h := ⟨c, 0, []⟩) live⟩

end Console

end Debugline
