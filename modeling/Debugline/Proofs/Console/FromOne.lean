import Debugline.Proofs.Console.Moments
import Debugline.Proofs.Console.Requests
import Debugline.Proofs.Session.Numbers

/-! Lines and rows on the wire are counted from 1. The console keeps to it but for one request: the
line that the program is made to run to is sent as it was typed, and 0 can be typed. -/

namespace Debugline

open Session Wire

namespace Console

/-! ### Requests -/

/-- The numbers of a request can be typed. -/
def Request.Told : Request → Prop
  | .until line => line < Text.wordLimit
  | .breakAt _ line => 1 ≤ line ∧ line < Text.wordLimit
  | .unwatch row => row < Text.wordLimit
  | _ => True

theorem Request.told_of_parse {line : String} {r : Request} (h : parse line = some r) :
    r.Told := by
  obtain ⟨_, rest, _, _, htakes⟩ := parse_eq_some_iff.mp h
  cases r with
  | «until» | unwatch => exact Text.lt_of_unsigned? (unsigned?_eq_some_iff.mpr htakes)
  | breakAt => exact ⟨htakes.positive, htakes.small⟩
  | _ => trivial

end Console

namespace Controller

variable {τ : Type} [Transport τ] {c c' : Controller τ}

open Console

/-! ### Calls -/

/-- The number of a command of a request fits in a word. It is none of 0, unless the program is to
run to line 0. -/
def Requested (r : Request) (command : Command) : Prop :=
  ∀ k, command.number? = some k →
    (k = 0 → r = .until 0 ∧ command = .runToLine 0) ∧ k < Text.wordLimit

/-- At most one command of a request, and then what is due of breakpoints. -/
def Carries (r : Request) (c c' : Controller τ) : Prop :=
  ∃ b, Issues (Requested r) c b ∧
    (c.Fitting → c.watches.rows.length + 1 < Text.wordLimit → b.Fitting) ∧ Courses b c'

theorem Courses.carries {r : Request} (h : Courses c c') : Carries r c c' :=
  ⟨c, .of_eq rfl, fun hf _ => hf, h⟩

omit [Transport τ] in
theorem toggled_fitting (h : c.Fitting) (doc : DocId) {line : Nat}
    (told : line + 1 < Text.wordLimit) :
    ({ c with
        breakpoints := (c.breakpoints.toggle c.editor doc line).1
        editor := (c.breakpoints.toggle c.editor doc line).2.1 } : Controller τ).Fitting := by
  have hb : (c.breakpoints.toggle c.editor doc line).1 = c.breakpoints.invalidate := by
    unfold Breakpoint.Schedule.toggle
    split <;> rfl
  refine ⟨h.line, h.row, fun doc' line' hm => ?_, fun known hk => ?_, h.printed⟩
  · unfold Breakpoint.Schedule.toggle at hm
    dsimp only at hm
    split at hm
    · exact h.located doc' line' (Editor.hasMarker_removeMarker_iff.mp hm).1
    · rcases Editor.hasMarker_addMarker_iff.mp hm with hm | ⟨⟨-, rfl, -⟩, -⟩
      · exact h.located doc' line' hm
      · exact told
  · rw [hb] at hk
    cases hk

theorem Carries.trans {r : Request} {c'' : Controller τ} (h : Carries r c c')
    (h' : Courses c' c'') : Carries r c c'' := by
  obtain ⟨b, hi, hf, hb⟩ := h
  exact ⟨b, hi, hf, hb.trans h'⟩

theorem Carries.issues {r : Request} (h : Carries r c c') : Issues (fun command =>
    ∀ k, command.number? = some k → (k = 0 → r = .until 0 ∧ command = .runToLine 0) ∧
      (c.Fitting → c.watches.rows.length + 1 < Text.wordLimit → k < Text.wordLimit)) c c' := by
  obtain ⟨b, hi, hf, hb⟩ := h
  refine .trans (hi.mono fun command hr k hk => ?_) (hb.issues.mono fun command hr k hk => ?_)
  · exact ⟨(hr k hk).1, fun _ _ => (hr k hk).2⟩
  · obtain ⟨hpos, hlt⟩ := hr k hk
    exact ⟨fun h0 => absurd h0 (Nat.ne_of_gt hpos), fun hc hs => hlt (hf hc hs)⟩

theorem Carries.fitting {r : Request} (h : Carries r c c') (hc : c.Fitting)
    (small : c.watches.rows.length + 1 < Text.wordLimit) : c'.Fitting := by
  obtain ⟨b, -, hf, hb⟩ := h
  exact hb.fitting (hf hc small)

theorem step_carries (c : Controller τ) {r : Request} {command : Command}
    (h : Requested r command) : Carries r c (c.step command).1 := by
  rcases c.step_cases command with he | ⟨-, hs⟩
  · rw [he]
    exact Courses.carries .refl
  · have hj : c.removeMarker.journal = c.journal := by rw [removeMarker_eq]
    have hsent : Issues (Requested r) c.removeMarker
        (c.removeMarker.transmit (.command command)).1 :=
      .transmit _ fun issued hi => Sent.command.inj hi ▸ h
    refine ⟨_, .trans (.of_eq hj) hsent, fun hf _ => ?_, hs.courses⟩
    exact transmit_fitting (c.removeMarker_effects.courses.fitting hf) _

theorem evaluate_carries (c : Controller τ) {r : Request} (expr : String) (hover : Option Hover) :
    Carries r c (c.evaluate expr hover).1 := by
  unfold evaluate
  split
  · exact Courses.carries .refl
  · let b := { c with hover }
    have hsent : Issues (Requested r) b (b.transmit (.command (.evaluate (Text.trimmed expr)))).1 :=
      .transmit b fun issued hi k hk => by cases Sent.command.inj hi; cases hk
    have hb (hf : c.Fitting) : b.Fitting := hf.of_eq rfl rfl rfl rfl rfl
    exact ⟨_, .trans (.of_eq rfl) hsent, fun hf _ => transmit_fitting (hb hf) _, .refl⟩

theorem toggleBreakpointAt_carries (c : Controller τ) {r : Request} (file : String) {line : Nat}
    (told : line + 1 < Text.wordLimit) : Carries r c (c.toggleBreakpointAt file line).1 := by
  rcases c.toggleBreakpointAt_cases file line with he | ⟨editor, doc, hi, -, he⟩
  · rw [he]
    exact Courses.carries .refl
  · rw [he]
    let b : Controller τ := { c with
      breakpoints := (c.breakpoints.toggle editor doc line).1
      editor := (c.breakpoints.toggle editor doc line).2.1 }
    refine ⟨b, .of_eq rfl, fun hf _ => ?_, b.advanceBreakpoints_effects.courses⟩
    have hopen : ({ c with editor } : Controller τ).Fitting := by
      refine ⟨hf.line, hf.row, fun doc' line' hm => hf.located doc' line' ?_, hf.known, hf.printed⟩
      rwa [Editor.hasMarker, hi.markers (by simp)] at hm
    exact toggled_fitting hopen doc told

theorem clearBreakpoints_carries (c : Controller τ) {r : Request} :
    Carries r c c.clearBreakpoints := by
  let b : Controller τ := { c with
    breakpoints := (c.breakpoints.clearAll c.editor).1
    editor := (c.breakpoints.clearAll c.editor).2 }
  refine ⟨b, .of_eq rfl, fun hf _ => ?_, b.advanceBreakpoints_effects.courses⟩
  refine ⟨hf.line, hf.row, fun doc line hm => ?_, nofun, hf.printed⟩
  rw [Breakpoint.Schedule.hasMarker_clearAll] at hm
  cases hm

/-- A row that the user names or blanks is one of the table, or the next. -/
theorem asked_carries (c : Controller τ) {r : Request} {row : Nat} (name : String)
    {watches : Watch.Table} (hpending : watches.pending = c.watches.pending ++ [row])
    (hrow : row ≤ c.watches.rows.length) :
    Carries r c ({ c.note (.asked row name) with watches }.push .watchTableChanged) := by
  let b := { c with watches }
  have hnote : Courses b (b.note (.asked row name)) := .single (.effect (.note _ rfl))
  refine ⟨b, .of_eq rfl, fun hf small => ?_, hnote.tail (.effect (.report .watchTableChanged rfl))⟩
  refine ⟨hf.line, fun row' hr => ?_, hf.located, hf.known, hf.printed⟩
  rw [hpending, List.mem_append, List.mem_singleton] at hr
  rcases hr with hr | rfl
  · exact hf.row row' hr
  · omega

omit [Transport τ] in
theorem nextFree_le (t : Watch.Table) : t.nextFree ≤ t.rows.length := by
  unfold Watch.Table.nextFree
  split
  · split <;> omega
  · omega

theorem deleteWatch_carries (c : Controller τ) {r : Request} (row : Nat) :
    Carries r c (c.deleteWatch row).1 := by
  unfold deleteWatch Watch.Table.delete
  by_cases hrow : row < c.watches.rows.length
  · simp only [if_pos hrow]
    exact asked_carries c "" rfl hrow.le
  · simp only [if_neg hrow]
    exact Courses.carries .refl

theorem step_journal {c : Controller τ} (h : c.requirePaused = .ok ()) (command : Command) :
    ∃ state mode ok,
      (c.step command).1.journal = .sent state mode (.command command) ok :: c.journal := by
  have hj : c.removeMarker.journal = c.journal := by rw [removeMarker_eq]
  have hlive : c.removeMarker.hasSession :=
    c.removeMarker_along.session.trans (requirePaused_ok h).1
  obtain ⟨s, hs⟩ := Option.isSome_iff_exists.mp hlive
  have hsent : (c.removeMarker.transmit (.command command)).1.journal =
      .sent c.removeMarker.state s.mode (.command command)
        (Transport.write s.transport (Sent.command command).bytes).2.isOk :: c.journal := by
    rw [transmit, hs, ← hj]
  have hstep : (c.step command).1.journal =
      (c.removeMarker.transmit (.command command)).1.journal := by
    unfold step
    rw [h]
    dsimp only
    split <;> next hd => rw [hd]
  exact ⟨_, _, _, hstep.trans hsent⟩

omit [Transport τ] in
/-- A debugger that is live and does not run waits for a command. -/
theorem Coherent.requirePaused (h : c.Coherent) (live : c.hasSession) (still : c.state ≠ .running) :
    c.requirePaused = .ok () := by
  have paused : c.state = .pausedAtPrompt := (h.live.mp live).resolve_left still
  obtain ⟨s, hs, hm⟩ := Option.map_eq_some_iff.mp (h.paused paused)
  simp [Controller.requirePaused, hs, hm, paused]

/-- What a request has the controller do. -/
theorem call_carries (c : Controller τ) {r : Request} (told : r.Told) {a : Call τ}
    (ha : r.call? = some a) : Carries r c (c.call a) := by
  cases r with
  | go | step | next | finish =>
    obtain rfl := Option.some.inj ha
    exact c.step_carries fun k hk => by cases hk
  | «until» line =>
    obtain rfl := Option.some.inj ha
    refine c.step_carries fun k hk => ?_
    obtain rfl := Option.some.inj hk
    exact ⟨fun h0 => by rw [h0]; exact ⟨rfl, rfl⟩, told⟩
  | breakAt file line =>
    obtain rfl := Option.some.inj ha
    exact c.toggleBreakpointAt_carries file (by have := told; simp only [Request.Told] at this; omega)
  | delete =>
    obtain rfl := Option.some.inj ha
    exact c.clearBreakpoints_carries
  | breakpoints =>
    obtain rfl := Option.some.inj ha
    exact Courses.carries (.single (.effect .rebuild))
  | watch expr =>
    obtain rfl := Option.some.inj ha
    exact c.asked_carries _ rfl (nextFree_le _)
  | unwatch row =>
    cases row with
    | zero => cases ha
    | succ row =>
      obtain rfl := Option.some.inj ha
      exact c.deleteWatch_carries row
  | print expr =>
    obtain rfl := Option.some.inj ha
    exact c.evaluate_carries expr none
  | input text =>
    obtain rfl := Option.some.inj ha
    exact Courses.carries (.single (.effect (.input text)))
  | kill =>
    obtain rfl := Option.some.inj ha
    exact c.abort_courses.carries
  | watches | list | help | quit => cases ha

end Controller

/-! ### Moments -/

namespace Console

open Controller

variable {τ : Type} [Transport τ]

theorem controlled_courses {c c' : Controller τ} (h : Courses c c') : Courses c c'.takeTraffic.1 :=
  h.tail (.effect (.turn _ _ _ []))

theorem leaving_courses (c : Controller τ) : Courses c (c.run leaving) :=
  (controlled_courses c.abort_courses).tail .take

/-- A request is carried out, and its events are taken unless it was refused. -/
theorem requested_carries (h : Host τ) {r : Request} (told : r.Told) :
    Carries r h.controller (h.controller.run (h.requested r)) := by
  have htake (c : Controller τ) :
      Courses c (c.run (if (h.perform r).2 = .ok () then [.call .takeEvents] else [])) := by
    split_ifs
    · exact .single .take
    · exact .refl
  unfold Host.requested
  rw [Controller.run, List.foldl_append]
  refine Carries.trans ?_ (htake _)
  cases ha : r.call? with
  | none => exact Courses.carries .refl
  | some a => exact (h.controller.call_carries told ha).trans (controlled_courses .refl)

namespace Moment

omit [Transport τ] in
theorem told_of_request {m : Moment τ} {r : Request} (h : m.request? = some r) : r.Told := by
  unfold request? at h
  split at h
  · split_ifs at h
    exact Request.told_of_parse h
  · cases h

/-- A moment carries a request out, or does what frames do. -/
theorem next_carries (m : Moment τ) :
    (∃ r, m.request? = some r ∧ Carries r m.host.controller m.next.host.controller) ∨
      Courses m.host.controller m.next.host.controller := by
  rw [next_controller]
  rcases m.does_cases with ⟨later, hd, hlater⟩ | ⟨-, hd | hd | ⟨text, hd⟩ | ⟨r, hr, hd⟩⟩ <;> rw [hd]
  · have hpoll := (controlled_courses m.host.controller.poll_courses).tail .take
    right
    rcases hlater with rfl | rfl
    · exact hpoll
    · exact hpoll.trans (meanwhile_courses _ (Transport.wait · m.host.interval))
  · exact .inr .refl
  · exact .inr (leaving_courses _)
  · exact .inr (controlled_courses (.single (.effect (.input _))))
  · exact .inl ⟨r, hr, requested_carries _ (told_of_request hr)⟩

/-- The table of watches can be counted. -/
def Small (m : Moment τ) : Prop := m.host.controller.watches.rows.length + 1 < Text.wordLimit

/-- A number that a moment sends is none of 0, but for a request to run to line 0. -/
theorem next_issues (m : Moment τ) : Issues (fun command => ∀ k, command.number? = some k →
      (k = 0 → m.request? = some (.until 0) ∧ command = .runToLine 0) ∧
        (m.host.controller.Fitting → m.Small → k < Text.wordLimit))
    m.host.controller m.next.host.controller := by
  rcases m.next_carries with ⟨r, hr, h⟩ | h
  · refine h.issues.mono fun command hc k hk => ⟨fun h0 => ?_, (hc k hk).2⟩
    obtain ⟨rfl, hcommand⟩ := (hc k hk).1 h0
    exact ⟨hr, hcommand⟩
  · refine h.issues.mono fun command hc k hk => ⟨fun h0 => ?_, fun hf _ => (hc k hk).2 hf⟩
    exact absurd h0 (Nat.ne_of_gt (hc k hk).1)

theorem next_fitting (m : Moment τ) (h : m.host.controller.Fitting) (small : m.Small) :
    m.next.host.controller.Fitting := by
  rcases m.next_carries with ⟨r, -, hc⟩ | hc
  · exact hc.fitting h small
  · exact hc.fitting h

/-! ### Line 0 -/

theorem after_issues (m : Moment τ) (n : Nat) :
    Issues (fun command => command.number? = some 0 →
        command = .runToLine 0 ∧ ∃ i < n, (m.after i).request? = some (.until 0))
      m.host.controller (m.after n).host.controller := by
  induction n with
  | zero => exact .of_eq rfl
  | succ n ih =>
    refine (ih.mono fun command hc h0 => ?_).trans
      ((m.after n).next_issues.mono fun command hc h0 => ?_)
    · obtain ⟨hcommand, i, hi, hr⟩ := hc h0
      exact ⟨hcommand, i, Nat.lt_succ_of_lt hi, hr⟩
    · obtain ⟨hr, hcommand⟩ := (hc 0 h0).1 rfl
      exact ⟨hcommand, n, Nat.lt_succ_self n, hr⟩

/-- A request to run to a line is carried out. -/
theorem next_journal {m : Moment τ} (hc : m.host.controller.Coherent) {line : Nat}
    (hr : m.request? = some (.until line)) : ∃ state mode ok, m.next.host.controller.journal =
      .sent state mode (.command (.runToLine line)) ok :: m.host.controller.journal := by
  obtain ⟨live, still⟩ := live_of_request hr
  obtain ⟨state, mode, ok, hj⟩ := step_journal (hc.requirePaused live still) (.runToLine line)
  refine ⟨state, mode, ok, ?_⟩
  rw [next_controller, does_of_request hr nofun, ← hj]
  unfold Host.requested
  split_ifs <;> rfl

theorem journal_suffix (m : Moment τ) (n : Nat) :
    m.host.controller.journal <:+ (m.after n).host.controller.journal := by
  obtain ⟨new, hj, -⟩ := m.after_issues n
  exact ⟨new, hj.symm⟩

/-- Whoever asks for line 0 has it sent. -/
theorem zero_sent {m : Moment τ} (hc : ∀ i, (m.after i).host.controller.Coherent) {i n : Nat}
    (hi : i < n) (hr : (m.after i).request? = some (.until 0)) {marks : List Mark}
    (hj : (m.after n).host.controller.journal = marks ++ m.host.controller.journal) :
    .runToLine 0 ∈ marks.filterMap Mark.command? := by
  obtain ⟨state, mode, ok, hsent⟩ := next_journal (hc i) hr
  obtain ⟨before, hbefore⟩ := m.journal_suffix i
  obtain ⟨later, hlater⟩ : (m.after (i + 1)).host.controller.journal <:+
      (m.after n).host.controller.journal := by
    obtain ⟨k, rfl⟩ := Nat.exists_eq_add_of_le hi
    have hk := (m.after (i + 1)).journal_suffix k
    rwa [← after_add] at hk
  have hmarks : marks = later ++ .sent state mode (.command (.runToLine 0)) ok :: before := by
    refine (List.append_left_inj m.host.controller.journal).mp ?_
    rw [← hj, ← hlater, after, hsent, ← hbefore]
    simp
  rw [hmarks]
  exact List.mem_filterMap.mpr ⟨_, List.mem_append_right _ List.mem_cons_self, rfl⟩

end Moment

/-- Whatever is typed and whatever the program does, the console sends lines and rows from 1 on,
just while nobody asks at its prompt to run to line 0; and a command with a 0 is sent only for
that. The moments of a console are all of its run, if that comes to an end. -/
theorem sent_from_one_iff (config : Config) (editor : Editor) (past : List (Happening τ))
    (interval : Nat) (log : List Entry) (typed : List Typed) :
    let h : Host τ := ⟨(Controller.new config editor).run past, interval, log⟩
    let m := Moment.first typed h
    (∀ n, ∃ marks, (m.after n).host.controller.journal = marks ++ h.controller.journal ∧
        ((∀ command ∈ marks.filterMap Mark.command?, ∀ k, command.number? = some k → 1 ≤ k) ↔
          ∀ i < n, (m.after i).request? ≠ some (.until 0)) ∧
        ∀ command ∈ marks.filterMap Mark.command?, command.number? = some 0 →
          command = .runToLine 0) ∧
      ∀ budget h' ending, h.repl budget typed = some (h', ending) →
        ∃ n, (m.after n).stage = .ended ending ∧ (m.after n).host = h' := by
  intro h m
  have hcoherent : ∀ i, (m.after i).host.controller.Coherent := by
    intro i
    have hm : m.host.controller = (Controller.new config editor).run past := rfl
    rw [Moment.after_controller, hm, Controller.run, Controller.run, ← List.foldl_append]
    exact run_coherent config editor _
  refine ⟨fun n => ?_, fun budget h' ending => Host.moments_of_repl⟩
  obtain ⟨marks, hj, hmarks⟩ := m.after_issues n
  refine ⟨marks, hj, ⟨fun hpos i hi hr => ?_, fun hnone command hc k hk => ?_⟩, fun command hc h0 =>
    (hmarks command hc h0).1⟩
  · exact absurd (hpos _ (Moment.zero_sent hcoherent hi hr hj) 0 rfl) (by decide)
  · refine Nat.pos_of_ne_zero fun h0 => ?_
    obtain ⟨-, i, hi, hr⟩ := hmarks command hc (h0 ▸ hk)
    exact hnone i hi hr

/-- Line 0 is typed at the first prompt, and sent. -/
theorem zero_sent_of_until_zero :
    let c : Controller Script := (Controller.new .standard (.new .empty)).run
      [.call (.launch .debug fun _ => .ok (.new true [])), .meanwhile (·.cue (.writes "\x1b]>dbg> "))]
    let sent := (Host.replScripted [.line "until 0"] ⟨c, 0, []⟩).map
      fun (h, _) => h.controller.journal.reverse.filterMap Mark.command?
    sent = some [.clearBreakpoints, .runToLine 0] ∧ (Command.runToLine 0).number? = some 0 := by
  decide +kernel

end Console

end Debugline
