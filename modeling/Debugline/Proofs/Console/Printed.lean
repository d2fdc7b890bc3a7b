import Debugline.Proofs.Console.Moments
import Mathlib.Data.List.Forall2

/-! What the console prints. The events that it takes in a moment are printed in it, in order; a
request that is refused leaves none behind, so nothing waits from one moment to the next. -/

namespace Debugline

open Session

namespace Controller

variable {τ : Type} [Transport τ]

theorem abort_ok {c : Controller τ} (live : c.hasSession) : c.abort.2 = .ok () := by
  rw [abort, if_pos live]

theorem handed_append (c : Controller τ) (xs ys : List (Happening τ)) :
    c.handed (xs ++ ys) = c.handed xs ++ (c.run xs).handed ys := by
  induction xs generalizing c with
  | nil => rfl
  | cons x xs ih =>
    rw [List.cons_append, handed, ih, handed, List.append_assoc]
    rfl

end Controller

namespace Console

variable {τ : Type} [Transport τ]

theorem handed_controlled (c : Controller τ) {a : Call τ} (h : a ≠ .takeEvents) :
    c.handed (controlled a) = [] := by
  have hx : Happening.call a ≠ .call .takeEvents := fun he => h (Happening.call.inj he)
  change c.taken (.call a) ++ [] = []
  rw [c.taken_of_ne hx, List.append_nil]

theorem handed_leaving (c : Controller τ) : c.handed leaving = c.abort.1.events := by
  have habort : c.handed (controlled .abort) = [] := handed_controlled _ nofun
  rw [leaving, Controller.handed_append, habort]
  exact List.append_nil _

theorem handed_polled (c : Controller τ) {later : List (Happening τ)}
    (h : later = [] ∨ ∃ f, later = [.meanwhile f]) :
    c.handed (controlled .poll ++ .call .takeEvents :: later) = c.poll.events := by
  have hpoll : c.handed (controlled .poll) = [] := handed_controlled _ nofun
  rw [Controller.handed_append, hpoll]
  rcases h with rfl | ⟨f, rfl⟩ <;> exact List.append_nil _

omit [Transport τ] in
theorem Request.call?_ne_takeEvents {r : Request} {a : Call τ} (h : r.call? = some a) :
    a ≠ .takeEvents := by
  rintro rfl
  cases r with
  | unwatch row => cases row <;> cases h
  | _ => cases h

namespace Host

/-! ### Events of a request -/

/-- A request that is refused reports nothing. -/
theorem perform_refused {h : Host τ} {r : Request} (refused : (h.perform r).2 ≠ .ok ()) :
    (h.perform r).1.controller.events = h.controller.events := by
  cases r with
  | go | step | next | finish | «until» => exact h.controller.step_events _
  | print expr => exact h.controller.evaluate_events expr none
  | input text => exact h.controller.transmit_events (.input text)
  | kill =>
    by_cases live : h.controller.hasSession
    · have hok := congrArg (Except.mapError Fault.refused) (Controller.abort_ok live)
      exact absurd hok refused
    · have habort : h.controller.abort.1 = h.controller := by rw [Controller.abort, if_neg live]
      change h.controller.abort.1.events = _
      rw [habort]
  | unwatch row =>
    cases row with
    | zero => exact absurd rfl refused
    | succ row =>
      unfold perform at refused
      dsimp only at refused
      split at refused <;> exact absurd rfl refused
  | list =>
    unfold perform
    dsimp only
    split <;> rfl
  | _ => exact absurd rfl refused

theorem requested_events (h : Host τ) (r : Request) :
    (h.controller.run (h.requested r)).events =
      if (h.perform r).2 = .ok () then [] else h.controller.events := by
  unfold requested Controller.run
  rw [List.foldl_append]
  change (List.foldl _ (h.controller.run _) _).events = _
  rw [← perform_controller]
  split_ifs with hr
  · rfl
  · exact perform_refused hr

/-- A request prints what waits once it is carried out. -/
theorem handed_requested (h : Host τ) (r : Request) : h.controller.handed (h.requested r) =
    if (h.perform r).2 = .ok () then (h.perform r).1.controller.events else [] := by
  have hcall : h.controller.handed ((r.call?.map controlled).getD []) = [] := by
    cases ha : r.call? with
    | none => rfl
    | some a => exact handed_controlled _ (Request.call?_ne_takeEvents ha)
  unfold requested
  rw [Controller.handed_append, hcall, ← perform_controller]
  split_ifs
  · exact List.append_nil _
  · rfl

/-! ### The log -/

/-- The log has grown, and the events are printed on what it has grown by, in order. -/
def Shows (h h' : Host τ) (events : List Event) : Prop :=
  ∃ entries, h'.log = h.log ++ entries ∧ ∃ texts,
    List.Forall₂ (fun e text => ∃ c : Controller τ, text = describe c e) events texts ∧
      (texts.map Entry.out).Sublist entries

omit [Transport τ] in
theorem Shows.refl (h : Host τ) : h.Shows h [] :=
  ⟨[], (List.append_nil _).symm, [], .nil, .slnil⟩

omit [Transport τ] in
theorem Shows.trans {h h' h'' : Host τ} {es es' : List Event} (s : h.Shows h' es)
    (s' : h'.Shows h'' es') : h.Shows h'' (es ++ es') := by
  obtain ⟨entries, hlog, texts, htexts, hsub⟩ := s
  obtain ⟨entries', hlog', texts', htexts', hsub'⟩ := s'
  refine ⟨entries ++ entries', by rw [hlog', hlog, List.append_assoc], texts ++ texts',
    List.rel_append htexts htexts', ?_⟩
  rw [List.map_append]
  exact hsub.append hsub'

omit [Transport τ] in
theorem shows_write (h : Host τ) (e : Entry) : h.Shows (h.write e) [] :=
  ⟨[e], rfl, [], .nil, List.nil_sublist _⟩

omit [Transport τ] in
theorem shows_control {α : Type} (h : Host τ) (f : Controller τ → Controller τ × α) :
    h.Shows (h.control f).1 [] := ⟨_, rfl, [], .nil, List.nil_sublist _⟩

omit [Transport τ] in
theorem shows_attempt (h : Host τ) (f : Controller τ → Controller τ × Except Refusal Unit) :
    h.Shows (h.attempt f).1 [] := h.shows_control f

omit [Transport τ] in
theorem shows_printEvents (h : Host τ) : h.Shows h.printEvents.1 h.controller.events := by
  refine ⟨_, rfl, h.controller.events.map (describe h.controller.takeEvents.1), ?_, ?_⟩
  · exact List.forall₂_map_right_iff.mpr (List.forall₂_same.mpr fun e _ => ⟨_, rfl⟩)
  · rw [List.map_map]
    exact List.Sublist.refl _

theorem shows_pause (h : Host τ) : h.Shows h.pause [] :=
  ⟨[], (List.append_nil _).symm, [], .nil, .slnil⟩

theorem shows_perform (h : Host τ) (r : Request) : h.Shows (h.perform r).1 [] := by
  cases r with
  | go | step | next | finish | «until» | print | input | kill => exact shows_attempt _ _
  | breakAt | delete | breakpoints | watch =>
    unfold perform
    dsimp only
    exact (shows_control h _).trans (shows_write _ _)
  | unwatch row =>
    cases row with
    | zero => exact shows_write _ _
    | succ row =>
      have hc := shows_control h fun c => c.deleteWatch row
      unfold perform
      dsimp only
      split <;> next hd =>
        rw [hd] at hc
        first
          | exact hc
          | exact hc.trans (shows_write _ _)
  | list =>
    unfold perform
    dsimp only
    split
    · exact shows_write _ _
    · exact .refl h
  | watches | help => exact shows_write _ _
  | quit => exact .refl h

theorem shows_handle (h : Host τ) (r : Request) :
    h.Shows (h.handle r).1 (h.controller.handed (h.requested r)) := by
  have hp := h.shows_perform r
  rw [handed_requested]
  unfold handle
  split <;> next hd =>
    rw [hd] at hp ⊢
    first
      | exact hp.trans (shows_printEvents _)
      | exact hp.trans (shows_write _ _)
      | exact hp

theorem shows_abortIfRunning {h : Host τ} (live : h.controller.hasSession) :
    h.Shows h.abortIfRunning (h.controller.handed leaving) := by
  have hc := shows_control h Controller.abort
  have hhanded : h.controller.handed leaving = (h.control Controller.abort).1.controller.events :=
    handed_leaving _
  have hok : (h.control Controller.abort).2 = .ok () := Controller.abort_ok live
  rw [hhanded]
  unfold abortIfRunning
  rw [if_pos live]
  split
  · next hd =>
    rw [hd] at hc ⊢
    exact hc.trans (shows_printEvents _)
  · next hd =>
    rw [hd] at hok
    cases hok

theorem shows_answer {h : Host τ} (live : h.controller.hasSession) (text : String) :
    h.Shows (h.answer text).1
      (h.controller.handed (h.answered (Request.parse (Text.trimmed text)))) := by
  unfold answer
  dsimp only
  split_ifs with he
  · rw [String.isEmpty_iff.mp he]
    exact .refl h
  · let remembered := h.write (.history (Text.trimmed text))
    have hw : h.Shows remembered [] := h.shows_write _
    cases Request.parse (Text.trimmed text) with
    | none => exact hw.trans (remembered.shows_write _)
    | some r =>
      have hr := remembered.shows_handle r
      rw [requested_write] at hr
      cases r with
      | quit => exact hw.trans (shows_abortIfRunning (h := remembered) live)
      | _ => exact hw.trans hr

end Host

namespace Moment

/-! ### Events of a moment -/

/-- The events that a moment prints are those of its poll, of the end of the session, or of a
request. -/
theorem handed_does (m : Moment τ) :
    let printed := m.host.controller.handed m.does
    printed = [] ∨ printed = m.host.controller.poll.events ∨
      printed = m.host.controller.abort.1.events ∨
      ∃ r, m.request? = some r ∧ printed = (m.host.perform r).1.controller.events := by
  intro printed
  rcases m.does_cases with ⟨later, hd, hlater⟩ | ⟨-, hd | hd | ⟨text, hd⟩ | ⟨r, hr, hd⟩⟩ <;>
    simp only [printed, hd]
  · exact .inr (.inl (handed_polled _ (hlater.imp_right fun h => ⟨_, h⟩)))
  · exact .inl rfl
  · exact .inr (.inr (.inl (handed_leaving _)))
  · exact .inl (handed_controlled _ nofun)
  · rw [Host.handed_requested]
    split_ifs
    · exact .inr (.inr (.inr ⟨r, hr, rfl⟩))
    · exact .inl rfl

theorem pump_shows (m : Moment τ) {quiet : Nat} (live : m.host.controller.hasSession)
    (pumping : m.stage = .pumping quiet) :
    m.host.Shows (m.pump quiet).host (m.host.controller.handed m.does) := by
  have htick : m.host.Shows m.host.tick.1 m.host.controller.poll.events :=
    (Host.shows_control m.host _).trans (Host.shows_printEvents _)
  unfold pump does
  rw [if_pos live, pumping]
  dsimp only
  split_ifs
  · rw [handed_polled _ (.inl rfl)]
    exact htick
  · rw [handed_polled _ (.inr ⟨_, rfl⟩)]
    exact List.append_nil m.host.controller.poll.events ▸ htick.trans (Host.shows_pause _)

theorem ask_shows (m : Moment τ) (live : m.host.controller.hasSession)
    (asking : m.stage = .asking) :
    m.host.Shows m.ask.host (m.host.controller.handed m.does) := by
  obtain ⟨stage, typed, h⟩ := m
  obtain rfl : stage = .asking := asking
  -- a prompt, a message, and the end of the session
  have hleaving (e e' : Entry) : h.Shows ((h.write e).write e').abortIfRunning
      (h.controller.handed leaving) :=
    ((h.shows_write e).trans (Host.shows_write _ e')).trans
      (Host.shows_abortIfRunning (h := (h.write e).write e') live)
  unfold does
  rw [if_pos live]
  rcases typed with _ | ⟨t, rest⟩
  · exact hleaving _ _
  cases t with
  | line text =>
    by_cases running : h.controller.state = .running
    · have hinput : h.controller.handed (controlled (.sendInput text)) = [] :=
        handed_controlled _ nofun
      simp only [ask, running, if_true, hinput]
      exact (h.shows_write _).trans (Host.shows_control _ _)
    · have hw := h.shows_write (.prompt (Host.promptText false))
      have ha := Host.shows_answer (h := h.write (.prompt (Host.promptText false))) live text
      have hr : request? ⟨.asking, .line text :: rest, h⟩ = Request.parse (Text.trimmed text) :=
        if_pos ⟨live, running⟩
      have hboth := hw.trans ha
      rw [List.nil_append, Host.answered_write] at hboth
      simp only [ask, running, if_false, hr, decide_false]
      generalize (h.write (.prompt (Host.promptText false))).answer text = answer at hboth ⊢
      obtain ⟨h', last⟩ := answer
      cases last <;> exact hboth
  | interrupted | failed | ended => exact hleaving _ _

/-- A moment prints the events that are taken in it. -/
theorem next_shows (m : Moment τ) :
    m.host.Shows m.next.host (m.host.controller.handed m.does) := by
  rcases m.next_cases with ⟨live, quiet, hq, hn⟩ | ⟨live, ha, hn⟩ | ⟨hdoes, hhost, -⟩
  · rw [hn]
    exact m.pump_shows live hq
  · rw [hn]
    exact m.ask_shows live ha
  · rw [hhost, hdoes]
    exact .refl _

theorem after_shows (m : Moment τ) (n : Nat) :
    m.host.Shows (m.after n).host (m.host.controller.handed (m.doings n)) := by
  induction n with
  | zero => exact .refl _
  | succ n ih =>
    rw [doings, Controller.handed_append, ← after_controller]
    exact ih.trans (m.after n).next_shows

/-- Nothing waits, or a poll is about to print it. -/
def Settled (m : Moment τ) : Prop := m.host.controller.events = [] ∨ m.Polls

theorem next_events {m : Moment τ} (h : m.Settled) : m.next.host.controller.events = [] := by
  rw [next_controller]
  rcases m.does_cases with ⟨later, hd, hlater⟩ | ⟨hp, hd⟩
  · rw [hd]
    rcases hlater with rfl | rfl <;> rfl
  · have hnone : m.host.controller.events = [] := h.resolve_right hp
    rcases hd with hd | hd | ⟨text, hd⟩ | ⟨r, -, hd⟩ <;> rw [hd]
    · exact hnone
    · rfl
    · exact (Controller.transmit_events _ _).trans hnone
    · rw [Host.requested_events]
      split_ifs
      · rfl
      · exact hnone

theorem after_events {m : Moment τ} (h : m.Settled) (n : Nat) :
    (m.after (n + 1)).host.controller.events = [] := by
  induction n with
  | zero => exact next_events h
  | succ n ih => exact next_events (.inl ih)

end Moment

end Console

end Debugline
