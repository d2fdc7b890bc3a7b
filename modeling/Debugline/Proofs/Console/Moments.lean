import Debugline.Console.Scripted
import Debugline.Proofs.Session.Effects
import Debugline.Proofs.Session.Reported

/-! The console, one thing after the other. A moment is a poll, or a line that is asked for and
answered; a run of the console is a sequence of moments, and it goes on for ever if the program
never falls silent. What a moment does to the controller is a list of happenings. -/

namespace Debugline.Console

open Session

/-- What comes next: a poll, after some without events; a line; or nothing. -/
inductive Stage
  | pumping (quiet : Nat)
  | asking
  | ended (ending : Ending)
  deriving DecidableEq, Repr

structure Moment (τ : Type) where
  stage : Stage
  /-- What will be typed. -/
  typed : List Typed
  host : Host τ

/-- The polls without events after another poll. -/
def Host.silence {τ : Type} [Transport τ] (h : Host τ) (quiet : Nat) : Nat :=
  if h.tick.2 then 0 else quiet + 1

namespace Moment

variable {τ : Type} [Transport τ]

/-- A poll, and the time until the next if there is one. -/
def pump (m : Moment τ) (quiet : Nat) : Moment τ :=
  if Host.patience m.host.tick.1.controller ≤ m.host.silence quiet then
    ⟨.asking, m.typed, m.host.tick.1⟩
  else ⟨.pumping (m.host.silence quiet), m.typed, m.host.tick.1.pause⟩

/-- A line is asked for and answered. -/
def ask (m : Moment τ) : Moment τ :=
  let running := m.host.controller.state = .running
  let h := m.host.write (.prompt (Host.promptText running))
  match m.typed with
  | .line text :: rest =>
    if running then ⟨.pumping 0, rest, h.sendInput text⟩
    else
      match h.answer text with
      | (h, some ending) => ⟨.ended ending, rest, h⟩
      | (h, none) => ⟨.pumping 0, rest, h⟩
  | .interrupted :: rest => ⟨.ended .left, rest, (h.outLine "CTRL-C").abortIfRunning⟩
  | .failed cause :: rest =>
    ⟨.ended .left, rest, (h.write (.err ("Error: " ++ cause ++ "\n"))).abortIfRunning⟩
  | .ended :: _ | [] => ⟨.ended .left, m.typed, (h.outLine "CTRL-D").abortIfRunning⟩

def next (m : Moment τ) : Moment τ :=
  match m.stage with
  | .pumping quiet =>
    if m.host.controller.hasSession then m.pump quiet else ⟨.asking, m.typed, m.host⟩
  | .asking => if m.host.controller.hasSession then m.ask else ⟨.ended .left, m.typed, m.host⟩
  | .ended _ => m

def after (m : Moment τ) : Nat → Moment τ
  | 0 => m
  | n + 1 => (m.after n).next

omit [Transport τ] in
/-- The first moment of a console. -/
def first (typed : List Typed) (h : Host τ) : Moment τ := ⟨.pumping 0, typed, h.out greeting⟩

theorem after_succ' (m : Moment τ) (n : Nat) : m.after (n + 1) = m.next.after n := by
  induction n with
  | zero => rfl
  | succ n ih => exact congrArg next ih

theorem after_add (m : Moment τ) (k n : Nat) : m.after (k + n) = (m.after k).after n := by
  induction n with
  | zero => rfl
  | succ n ih => exact congrArg next ih

theorem next_ended {m : Moment τ} {ending : Ending} (ended : m.stage = .ended ending) :
    m.next = m := by
  rw [next, ended]

/-- Nothing happens once the console is over. -/
theorem after_ended {m : Moment τ} {n : Nat} {ending : Ending}
    (ended : (m.after n).stage = .ended ending) (k : Nat) : m.after (n + k) = m.after n := by
  induction k with
  | zero => rfl
  | succ k ih =>
    change (m.after (n + k)).next = _
    rw [ih, next_ended ended]

/-- A line is typed for each moment that asks, but for the last. -/
theorem ask_cases (m : Moment τ) : (∃ ending, m.ask.stage = .ended ending) ∨
    m.ask.stage = .pumping 0 ∧ ∃ text, m.typed = .line text :: m.ask.typed := by
  obtain ⟨stage, typed, h⟩ := m
  rcases typed with _ | ⟨t, rest⟩
  · exact .inl ⟨_, rfl⟩
  cases t with
  | line text =>
    by_cases running : h.controller.state = .running
    · exact .inr (by simp [ask, running])
    · simp only [ask, running, if_false]
      generalize (h.write (.prompt (Host.promptText _))).answer text = answered
      obtain ⟨h, ending | ending⟩ := answered
      · exact .inr ⟨rfl, text, rfl⟩
      · exact .inl ⟨ending, rfl⟩
  | _ => exact .inl ⟨_, rfl⟩

end Moment

namespace Host

variable {τ : Type} [Transport τ]

theorem pumpUntilIdle_live {fuel quiet : Nat} {h : Host τ} (live : h.controller.hasSession) :
    h.pumpUntilIdle (fuel + 1) quiet =
      if patience h.tick.1.controller ≤ h.silence quiet then some h.tick.1
      else h.tick.1.pause.pumpUntilIdle fuel (h.silence quiet) := by
  rw [pumpUntilIdle, if_pos live]
  rfl

/-- A pump is a stretch of moments. -/
theorem moments_of_pumpUntilIdle {fuel quiet : Nat} {h h' : Host τ}
    (pumped : h.pumpUntilIdle fuel quiet = some h') (typed : List Typed) :
    ∃ n, (Moment.mk (.pumping quiet) typed h).after n = ⟨.asking, typed, h'⟩ := by
  induction fuel generalizing quiet h with
  | zero => cases pumped
  | succ fuel ih =>
    by_cases live : h.controller.hasSession
    · rw [pumpUntilIdle_live live] at pumped
      have hnext : (Moment.mk (.pumping quiet) typed h).next =
          (Moment.mk (.pumping quiet) typed h).pump quiet := if_pos live
      split_ifs at pumped with hp
      · obtain rfl := Option.some.inj pumped
        exact ⟨1, hnext.trans (if_pos hp)⟩
      · obtain ⟨n, hn⟩ := ih pumped
        refine ⟨n + 1, ?_⟩
        rw [Moment.after_succ', hnext, Moment.pump, if_neg hp, hn]
    · rw [pumpUntilIdle, if_neg live] at pumped
      obtain rfl := Option.some.inj pumped
      exact ⟨1, if_neg live⟩

/-- A conversation is a pump, a line that is answered, and the rest of the conversation. -/
theorem converse_eq (budget : Controller τ → Nat) (typed : List Typed) (h : Host τ) :
    converse budget typed h = (h.pumpUntilIdle (budget h.controller) 0).bind fun idle =>
      if idle.controller.hasSession then
        let m := (Moment.mk .asking typed idle).ask
        match m.stage with
        | .ended ending => some (m.host, ending)
        | _ => converse budget m.typed m.host
      else some (idle, .left) := by
  rw [converse.eq_def]
  dsimp only
  rw [Option.bind_eq_bind]
  refine congrArg _ (funext fun idle => ?_)
  by_cases live : idle.controller.hasSession
  · simp only [if_pos live]
    cases typed with
    | nil => rfl
    | cons t rest =>
      cases t with
      | line text =>
        by_cases running : idle.controller.state = .running
        · simp [Moment.ask, running]
        · simp only [Moment.ask, running, if_false]
          generalize (idle.write (.prompt (promptText _))).answer text = answered
          obtain ⟨h, ending | ending⟩ := answered <;> simp
      | _ => rfl
  · simp only [if_neg live]

/-- A conversation is a stretch of moments, up to one at which it is over. -/
theorem moments_of_converse {budget : Controller τ → Nat} {typed : List Typed} {h h' : Host τ}
    {ending : Ending} (done : converse budget typed h = some (h', ending)) :
    ∃ n, ((Moment.mk (.pumping 0) typed h).after n).stage = .ended ending ∧
      ((Moment.mk (.pumping 0) typed h).after n).host = h' := by
  induction hlength : typed.length using Nat.strong_induction_on generalizing typed h with
  | h length ih =>
    rw [converse_eq, Option.bind_eq_some_iff] at done
    obtain ⟨idle, pumped, done⟩ := done
    obtain ⟨k, hk⟩ := moments_of_pumpUntilIdle pumped typed
    let m : Moment τ := ⟨.asking, typed, idle⟩
    by_cases live : idle.controller.hasSession
    · rw [if_pos live] at done
      have hnext : m.next = m.ask := if_pos live
      rcases m.ask_cases with ⟨ending', hover⟩ | ⟨hpumping, text, htyped⟩
      · simp only [m, hover] at done
        obtain ⟨hhost, rfl⟩ := Prod.mk.inj (Option.some.inj done)
        refine ⟨k + 1, ?_⟩
        rw [Moment.after, hk, hnext]
        exact ⟨hover, hhost⟩
      · simp only [m, hpumping] at done
        have hshorter : m.ask.typed.length < length := by
          rw [← hlength, show typed = .line text :: m.ask.typed from htyped]
          exact Nat.lt_succ_self _
        obtain ⟨n, hn⟩ := ih _ hshorter done rfl
        have hm : m.ask = ⟨.pumping 0, m.ask.typed, m.ask.host⟩ := by rw [← hpumping]
        refine ⟨k + (n + 1), ?_⟩
        rw [Moment.after_add, hk, Moment.after_succ', hnext, hm]
        exact hn
    · rw [if_neg live] at done
      obtain ⟨hhost, rfl⟩ := Prod.mk.inj (Option.some.inj done)
      refine ⟨k + 1, ?_⟩
      rw [Moment.after, hk, show m.next = ⟨.ended .left, typed, idle⟩ from if_neg live]
      exact ⟨rfl, hhost⟩

/-- A run of the console that comes to an end is a stretch of its moments. -/
theorem moments_of_repl {budget : Controller τ → Nat} {typed : List Typed} {h h' : Host τ}
    {ending : Ending} (done : h.repl budget typed = some (h', ending)) :
    ∃ n, ((Moment.first typed h).after n).stage = .ended ending ∧
      ((Moment.first typed h).after n).host = h' :=
  moments_of_converse done

end Host

/-! ### What a moment does to the controller -/

/-- The call that carries a request out. -/
def Request.call? {τ : Type} : Request → Option (Call τ)
  | .go => some .goOn
  | .step => some .stepInto
  | .next => some .stepOver
  | .finish => some .stepOut
  | .until line => some (.runToLine line)
  | .breakAt file line => some (.toggleBreakpointAt file (line - 1))
  | .delete => some .clearBreakpoints
  | .breakpoints => some .listBreakpoints
  | .watch expr => some (.addWatch expr)
  | .unwatch (row + 1) => some (.deleteWatch row)
  | .print expr => some (.evaluate expr none)
  | .input text => some (.sendInput text)
  | .kill => some .abort
  | .unwatch 0 | .watches | .list | .help | .quit => none

/-- A call by which the host has the controller do something. -/
def controlled {τ : Type} (a : Call τ) : List (Happening τ) := [.call a, .call .takeTraffic]

/-- The end of the session that a user leaves. -/
def leaving {τ : Type} : List (Happening τ) := controlled .abort ++ [.call .takeEvents]

namespace Host

variable {τ : Type} [Transport τ]

/-- What a request has the controller do. -/
def requested (h : Host τ) (r : Request) : List (Happening τ) :=
  (r.call?.map controlled).getD [] ++
    if (h.perform r).2 = .ok () then [.call .takeEvents] else []

/-- What the answer to a line has the controller do. -/
def answered (h : Host τ) : Option Request → List (Happening τ)
  | some .quit => leaving
  | some r => h.requested r
  | none => []

theorem answered_of_ne (h : Host τ) {r : Request} (hq : r ≠ .quit) :
    h.answered (some r) = h.requested r := by
  cases r with
  | quit => exact absurd rfl hq
  | _ => rfl

theorem answered_cases (h : Host τ) (r? : Option Request) : h.answered r? = [] ∨
    h.answered r? = leaving ∨ ∃ r, r? = some r ∧ h.answered r? = h.requested r := by
  cases r? with
  | none => exact .inl rfl
  | some r =>
    by_cases hq : r = .quit
    · exact .inr (.inl (by rw [hq]; rfl))
    · exact .inr (.inr ⟨r, rfl, h.answered_of_ne hq⟩)

theorem perform_controller (h : Host τ) (r : Request) : (h.perform r).1.controller =
    h.controller.run ((r.call?.map controlled).getD []) := by
  cases r with
  | unwatch row =>
    cases row with
    | zero => rfl
    | succ row =>
      unfold perform
      dsimp only
      split <;> next hd => exact (congrArg (·.1.controller) hd).symm
  | list =>
    unfold perform
    dsimp only
    split <;> rfl
  | _ => rfl

/-- The answer to a request is a matter of the controller alone. -/
theorem perform_answer (h : Host τ) (e : Entry) (r : Request) :
    ((h.write e).perform r).2 = (h.perform r).2 := by
  cases r with
  | unwatch row =>
    cases row with
    | zero => rfl
    | succ row =>
      unfold perform
      dsimp only
      split <;> split <;> simp_all
  | list =>
    have hl : (h.write e).listing = h.listing := rfl
    unfold perform
    dsimp only
    rw [hl]
    split <;> rfl
  | _ => rfl

@[simp]
theorem requested_write (h : Host τ) (e : Entry) (r : Request) :
    (h.write e).requested r = h.requested r := by
  simp only [requested, perform_answer]

@[simp]
theorem answered_write (h : Host τ) (e : Entry) (r? : Option Request) :
    (h.write e).answered r? = h.answered r? := by
  cases r? with
  | none => rfl
  | some r =>
    cases r with
    | quit => rfl
    | _ => exact requested_write h e _

theorem handle_controller (h : Host τ) (r : Request) :
    (h.handle r).1.controller = h.controller.run (h.requested r) := by
  have hp := h.perform_controller r
  unfold handle requested Controller.run
  rw [List.foldl_append]
  change _ = List.foldl _ (h.controller.run _) _
  rw [← hp]
  split <;> next hd => rw [hd]; rfl

theorem abortIfRunning_controller {h : Host τ} (live : h.controller.hasSession) :
    h.abortIfRunning.controller = h.controller.run leaving := by
  unfold abortIfRunning
  rw [if_pos live]
  split <;> next hd => exact congrArg (·.1.controller.takeEvents.1) hd.symm

/-- A line that is answered is a request that is carried out, or nothing. -/
theorem answer_controller {h : Host τ} (live : h.controller.hasSession) (text : String) :
    (h.answer text).1.controller =
      h.controller.run (h.answered (Request.parse (Text.trimmed text))) := by
  unfold answer
  dsimp only
  split_ifs with he
  · rw [String.isEmpty_iff.mp he]
    rfl
  · let remembered := h.write (.history (Text.trimmed text))
    cases Request.parse (Text.trimmed text) with
    | none => rfl
    | some r =>
      have hr := remembered.handle_controller r
      rw [requested_write] at hr
      cases r with
      | quit => exact abortIfRunning_controller (h := remembered) live
      | _ => exact hr

end Host

/-! ### How an answer ends the console -/

namespace Host

variable {τ : Type} [Transport τ]

omit [Transport τ] in
theorem listing_eq_none_iff (h : Host τ) : h.listing = none ↔ ∃ s doc,
    h.controller.session = some s ∧ h.controller.editor.locate? s.file = some doc ∧
      Text.wordLimit ≤ s.line + listContext := by
  unfold listing
  cases hs : h.controller.session with
  | none => simp
  | some s =>
    cases hdoc : h.controller.editor.locate? s.file with
    | none => simp [hdoc]
    | some doc => simp [hdoc, listWindow, Text.bounded]

/-- How the answer to a line ends the console. -/
def endingOf (h : Host τ) : Option Request → Option Ending
  | some .quit => some .left
  | some .list => if h.listing = none then some .crashed else none
  | _ => none

omit [Transport τ] in
theorem attempt_ne_overflow (h : Host τ) (f : Controller τ → Controller τ × Except Refusal Unit) :
    (h.attempt f).2 ≠ .error .overflow := by
  unfold attempt
  dsimp only
  cases (h.control f).2 <;> nofun

theorem perform_overflow_iff (h : Host τ) (r : Request) :
    (h.perform r).2 = .error .overflow ↔ r = .list ∧ h.listing = none := by
  cases r with
  | go | step | next | finish | «until» | print | input | kill =>
    exact iff_of_false (attempt_ne_overflow h _) nofun
  | unwatch row =>
    cases row with
    | zero => simp [perform]
    | succ row =>
      unfold perform
      dsimp only
      split <;> simp
  | list =>
    unfold perform
    dsimp only
    split <;> simp_all
  | _ => simp [perform]

theorem handle_ending (h : Host τ) {r : Request} (hq : r ≠ .quit) :
    (h.handle r).2 = h.endingOf (some r) := by
  have ho := h.perform_overflow_iff r
  have hending : h.endingOf (some r) =
      if r = .list ∧ h.listing = none then some .crashed else none := by
    cases r with
    | quit => exact absurd rfl hq
    | _ => simp [endingOf]
  rw [hending]
  unfold handle
  split <;> next hd =>
    rw [hd] at ho
    simp [← ho]

theorem answer_ending (h : Host τ) (text : String) :
    (h.answer text).2 = h.endingOf (Request.parse (Text.trimmed text)) := by
  unfold answer
  dsimp only
  split_ifs with he
  · rw [String.isEmpty_iff.mp he]
    rfl
  · cases Request.parse (Text.trimmed text) with
    | none => rfl
    | some r =>
      have hr {r : Request} := handle_ending (h.write (.history (Text.trimmed text))) (r := r)
      cases r with
      | quit => rfl
      | _ => exact hr nofun

end Host

namespace Moment

variable {τ : Type} [Transport τ]

/-- The request that is answered at a prompt of the debugger. -/
def request? (m : Moment τ) : Option Request :=
  match m.stage, m.typed with
  | .asking, .line text :: _ =>
    if m.host.controller.hasSession ∧ m.host.controller.state ≠ .running then
      Request.parse (Text.trimmed text)
    else none
  | _, _ => none

/-- What a moment does to the controller. -/
def does (m : Moment τ) : List (Happening τ) :=
  if m.host.controller.hasSession then
    match m.stage with
    | .pumping quiet => controlled .poll ++ .call .takeEvents ::
        if Host.patience m.host.tick.1.controller ≤ m.host.silence quiet then []
        else [.meanwhile (Transport.wait · m.host.interval)]
    | .asking =>
      match m.typed with
      | .line text :: _ =>
        if m.host.controller.state = .running then controlled (.sendInput text)
        else m.host.answered m.request?
      | _ => leaving
    | .ended _ => []
  else []

/-- The program is polled. -/
def Polls (m : Moment τ) : Prop :=
  m.host.controller.hasSession ∧ ∃ quiet, m.stage = .pumping quiet

theorem does_cases (m : Moment τ) :
    (∃ later, m.does = controlled .poll ++ .call .takeEvents :: later ∧
      (later = [] ∨ later = [.meanwhile (Transport.wait · m.host.interval)])) ∨
      ¬ m.Polls ∧ (m.does = [] ∨ m.does = leaving ∨
        (∃ text, m.does = controlled (.sendInput text)) ∨
        ∃ r, m.request? = some r ∧ m.does = m.host.requested r) := by
  unfold does
  by_cases live : m.host.controller.hasSession
  · rw [if_pos live]
    split
    · refine .inl ⟨_, rfl, ?_⟩
      split_ifs
      · exact .inl rfl
      · exact .inr rfl
    · next ha =>
      refine .inr ⟨fun ⟨_, _, hq⟩ => absurd (ha.symm.trans hq) nofun, ?_⟩
      split
      · split_ifs
        · exact .inr (.inr (.inl ⟨_, rfl⟩))
        · exact (m.host.answered_cases m.request?).imp_right (.imp_right .inr)
      · exact .inr (.inl rfl)
    · next hl => exact .inr ⟨fun ⟨_, _, hq⟩ => absurd (hl.symm.trans hq) nofun, .inl rfl⟩
  · rw [if_neg live]
    exact .inr ⟨fun h => live h.1, .inl rfl⟩

theorem pump_controller (m : Moment τ) {quiet : Nat} (live : m.host.controller.hasSession)
    (pumping : m.stage = .pumping quiet) :
    (m.pump quiet).host.controller = m.host.controller.run m.does := by
  unfold pump does
  rw [if_pos live, pumping]
  dsimp only
  split_ifs <;> rfl

theorem ask_controller (m : Moment τ) (live : m.host.controller.hasSession)
    (asking : m.stage = .asking) : m.ask.host.controller = m.host.controller.run m.does := by
  obtain ⟨stage, typed, h⟩ := m
  obtain rfl : stage = .asking := asking
  unfold does
  rw [if_pos live]
  rcases typed with _ | ⟨t, rest⟩
  · exact Host.abortIfRunning_controller (h := (h.write _).outLine "CTRL-D") live
  cases t with
  | line text =>
    by_cases running : h.controller.state = .running
    · simp only [ask, running, if_true]
      rfl
    · have ha := Host.answer_controller (h := h.write (.prompt (Host.promptText false))) live text
      have hr : request? ⟨.asking, .line text :: rest, h⟩ = Request.parse (Text.trimmed text) :=
        if_pos ⟨live, running⟩
      simp only [ask, running, if_false, hr, decide_false]
      generalize (h.write (.prompt (Host.promptText false))).answer text = answer at ha ⊢
      obtain ⟨h', last⟩ := answer
      rw [Host.answered_write] at ha
      cases last <;> exact ha
  | interrupted => exact Host.abortIfRunning_controller (h := (h.write _).outLine "CTRL-C") live
  | failed cause => exact Host.abortIfRunning_controller (h := (h.write _).write _) live
  | ended => exact Host.abortIfRunning_controller (h := (h.write _).outLine "CTRL-D") live

/-- A moment is a poll or a line that is answered, or nothing is done in it: then the console or
the session is over. -/
theorem next_cases (m : Moment τ) :
    (m.host.controller.hasSession ∧ ∃ quiet, m.stage = .pumping quiet ∧ m.next = m.pump quiet) ∨
      (m.host.controller.hasSession ∧ m.stage = .asking ∧ m.next = m.ask) ∨
      (m.does = [] ∧ m.next.host = m.host ∧ ((∃ ending, m.stage = .ended ending ∧ m.next = m) ∨
        m.host.controller.hasSession = false ∧ (m.next.stage = .asking ∨
          m.next.stage = .ended .left))) := by
  obtain ⟨stage, typed, h⟩ := m
  cases live : h.controller.hasSession with
  | true =>
    cases stage with
    | pumping quiet => exact .inl ⟨rfl, quiet, rfl, if_pos live⟩
    | asking => exact .inr (.inl ⟨rfl, rfl, if_pos live⟩)
    | ended ending => exact .inr (.inr ⟨if_pos live, rfl, .inl ⟨ending, rfl, rfl⟩⟩)
  | false =>
    have hdoes (stage : Stage) : does ⟨stage, typed, h⟩ = [] := if_neg (by simp [live])
    refine .inr (.inr ⟨hdoes stage, ?_⟩)
    cases stage <;> simp [next, live]

theorem next_controller (m : Moment τ) :
    m.next.host.controller = m.host.controller.run m.does := by
  rcases m.next_cases with ⟨live, quiet, hq, hn⟩ | ⟨live, ha, hn⟩ | ⟨hdoes, hhost, -⟩
  · rw [hn, m.pump_controller live hq]
  · rw [hn, m.ask_controller live ha]
  · rw [hhost, hdoes]
    rfl

/-- What the moments before the `n`-th do to the controller. -/
def doings (m : Moment τ) : (n : Nat) → List (Happening τ)
  | 0 => []
  | n + 1 => m.doings n ++ (m.after n).does

theorem after_controller (m : Moment τ) (n : Nat) :
    (m.after n).host.controller = m.host.controller.run (m.doings n) := by
  induction n with
  | zero => rfl
  | succ n ih =>
    rw [after, next_controller, ih, doings, Controller.run, Controller.run, Controller.run,
      List.foldl_append]

/-! ### Requests that are answered -/

omit [Transport τ] in
theorem live_of_request {m : Moment τ} {r : Request} (h : m.request? = some r) :
    m.host.controller.hasSession ∧ m.host.controller.state ≠ .running := by
  unfold request? at h
  split at h
  · split_ifs at h with hlive
    exact hlive
  · cases h

omit [Transport τ] in
theorem asking_of_request {m : Moment τ} {r : Request} (h : m.request? = some r) :
    m.stage = .asking ∧ ∃ text rest, m.typed = .line text :: rest ∧
      Request.parse (Text.trimmed text) = some r := by
  unfold request? at h
  split at h
  · next text rest hstage htyped =>
    split_ifs at h
    exact ⟨hstage, text, rest, htyped, h⟩
  · cases h

theorem does_of_request {m : Moment τ} {r : Request} (h : m.request? = some r) (hq : r ≠ .quit) :
    m.does = m.host.requested r := by
  obtain ⟨live, still⟩ := live_of_request h
  obtain ⟨hstage, text, rest, htyped, -⟩ := asking_of_request h
  unfold does
  rw [if_pos live, hstage, htyped]
  dsimp only
  rw [if_neg still, h, Host.answered_of_ne _ hq]

/-- How a line that is asked for ends the console: one that is answered as the answer says, one that
the program gets not at all, and with none the user leaves. -/
theorem ask_ended_iff {m : Moment τ} (live : m.host.controller.hasSession)
    (asking : m.stage = .asking) {ending : Ending} : m.ask.stage = .ended ending ↔
      m.host.endingOf m.request? = some ending ∨
        (∀ text rest, m.typed ≠ .line text :: rest) ∧ ending = .left := by
  obtain ⟨stage, typed, h⟩ := m
  obtain rfl : stage = .asking := asking
  have hleft : Stage.ended .left = .ended ending ↔ ending = .left :=
    ⟨fun h => (Stage.ended.inj h).symm, fun h => congrArg Stage.ended h.symm⟩
  rcases typed with _ | ⟨t, rest⟩
  · exact hleft.trans (by simp [request?, Host.endingOf])
  cases t with
  | line text =>
    by_cases running : h.controller.state = .running
    · simp [ask, request?, running, Host.endingOf]
    · have ha := Host.answer_ending (h.write (.prompt (Host.promptText false))) text
      have hr : request? ⟨.asking, .line text :: rest, h⟩ = Request.parse (Text.trimmed text) :=
        if_pos ⟨live, running⟩
      have hw (r? : Option Request) :
          (h.write (.prompt (Host.promptText false))).endingOf r? = h.endingOf r? := by
        cases r? with
        | none => rfl
        | some r => cases r <;> rfl
      simp only [ask, running, if_false, hr, decide_false]
      rw [hw] at ha
      rw [← ha]
      generalize (h.write (.prompt (Host.promptText false))).answer text = answer
      obtain ⟨h', ending' | ending'⟩ := answer <;> simp
  | interrupted | failed | ended => exact hleft.trans (by simp [request?, Host.endingOf])

/-! ### Crashes -/

omit [Transport τ] in
/-- A listing is asked for, and its window has no end in a word. -/
def ListsPastEnd (m : Moment τ) : Prop :=
  m.request? = some .list ∧ ∃ s doc, m.host.controller.session = some s ∧
    m.host.controller.editor.locate? s.file = some doc ∧ Text.wordLimit ≤ s.line + listContext

omit [Transport τ] in
theorem endingOf_eq_left_iff (m : Moment τ) :
    m.host.endingOf m.request? = some .left ↔ m.request? = some .quit := by
  cases hr : m.request? with
  | none => simp [Host.endingOf]
  | some r => cases r <;> simp [Host.endingOf]

omit [Transport τ] in
theorem endingOf_eq_crashed_iff (m : Moment τ) :
    m.host.endingOf m.request? = some .crashed ↔ m.ListsPastEnd := by
  rw [ListsPastEnd, ← Host.listing_eq_none_iff]
  cases hr : m.request? with
  | none => simp [Host.endingOf]
  | some r => cases r <;> simp [Host.endingOf]

/-- The console crashes just at such a listing. -/
theorem next_crashed_iff (m : Moment τ) :
    m.next.stage = .ended .crashed ↔ m.stage = .ended .crashed ∨ m.ListsPastEnd := by
  have hasks (h : m.ListsPastEnd) : m.stage = .asking := (asking_of_request h.1).1
  rcases m.next_cases with ⟨live, quiet, hq, hn⟩ | ⟨live, ha, hn⟩ | ⟨-, -, hs⟩
  · have hpump : m.next.stage ≠ .ended .crashed := by
      rw [hn, pump]
      split_ifs <;> nofun
    have hstage : ¬ (m.stage = .ended .crashed ∨ m.ListsPastEnd) := by
      rintro (h | h)
      · cases hq.symm.trans h
      · cases hq.symm.trans (hasks h)
    exact iff_of_false hpump hstage
  · rw [hn, ask_ended_iff live ha, endingOf_eq_crashed_iff]
    simp [ha]
  · have hno (h : m.ListsPastEnd) : m.host.controller.hasSession := (live_of_request h.1).1
    rcases hs with ⟨ending, hover, hn⟩ | ⟨gone, hstage⟩
    · rw [hn]
      refine ⟨.inl, fun h => h.elim id fun h => ?_⟩
      cases hover.symm.trans (hasks h)
    · have hnext : m.next.stage ≠ .ended .crashed := by
        rcases hstage with h | h <;> simp [h]
      refine iff_of_false hnext ?_
      rintro (h | h)
      · exact hnext (by rw [next_ended h, h])
      · simp [hno h] at gone

theorem after_crashed_iff {m : Moment τ} {quiet : Nat} (start : m.stage = .pumping quiet) (n : Nat) :
    (m.after n).stage = .ended .crashed ↔ ∃ i < n, (m.after i).ListsPastEnd := by
  induction n with
  | zero => simp [after, start]
  | succ n ih =>
    rw [after, next_crashed_iff, ih]
    simp only [Nat.lt_succ_iff_lt_or_eq, or_and_right, exists_or, exists_eq_left]

/-- The controller is left as it is. -/
theorem does_of_listsPastEnd {m : Moment τ} (h : m.ListsPastEnd) : m.does = [] := by
  have hfault := (m.host.perform_overflow_iff .list).mpr ⟨rfl, m.host.listing_eq_none_iff.mpr h.2⟩
  rw [does_of_request h.1 nofun, Host.requested, hfault]
  rfl

end Moment

/-- A debugger that stops at a line of a document. -/
def stoppedAt (line : String) : Host Script :=
  let script : Script := { Script.new true [] with
    output := [.ok (Text.encode ("\x1b]>filemain.p\n\x1b]>" ++ line ++ "\n\x1b]>dbg> "))] }
  let opened : Controller Script := (Controller.new .standard (.new .empty)).run
    ([("main.p", "a\nb\n")].map fun d => .edit (.openText d.1 d.2))
  ⟨(opened.launch .debug fun _ => .ok script).1, 0, []⟩

/-- A user who has the lines around it listed. -/
def listedAt (line : String) : Moment Script := .first [.line "list"] (stoppedAt line)

example : ((listedAt "18446744073709551611").after 5).stage = .pumping 0 ∧
    ((listedAt "18446744073709551612").after 5).stage = .ended .crashed := by decide +kernel

end Debugline.Console
