import Debugline.Proofs.Console.FromOne
import Debugline.Proofs.Console.Printed

/-! Sums of lines, rows and indices. The debugger and the user count from 1, the controller counts
from 0, so the console adds and takes away 1 all the time. Each result is a number that fits in a
word, but for one: the end of the window that is listed around the current line, if the debugger
says that this is one of the last lines that a word can count. There the console crashes. -/

namespace Debugline

open Session Wire

namespace Outline

/-- No more breakpoints are sent than are known. -/
def Counted (o : Outline) : Prop := o.breakpoints.sent ≤ (o.breakpoints.known.getD []).length

theorem Move.counted {o o' : Outline} (m : Move o o') (h : o.Counted) : o'.Counted := by
  cases m with
  | startDebug | invalidate | clear => exact Nat.zero_le _
  | breakAt _ _ _ due => exact (List.getElem?_eq_some_iff.mp due).1
  | rebuild =>
    unfold Counted at h ⊢
    cases hk : o.breakpoints.known with
    | none =>
      rw [hk] at h
      exact h.trans (Nat.zero_le _)
    | some sendable => simpa [known, hk] using h
  | _ => exact h

end Outline

namespace Controller

variable {τ : Type}

/-- The commands that are sent between two states of a controller. -/
def issued (c c' : Controller τ) : List Command :=
  (c'.journal.take (c'.journal.length - c.journal.length)).filterMap Mark.command?

theorem Issues.issued {P : Command → Prop} {c c' : Controller τ} (h : Issues P c c') :
    ∀ command ∈ c.issued c', P command := by
  obtain ⟨new, hj, hn⟩ := h
  have htake : c'.journal.take (c'.journal.length - c.journal.length) = new := by
    rw [hj, List.length_append, Nat.add_sub_cancel, List.take_left]
  rwa [Controller.issued, htake]

end Controller

namespace Console

variable {τ : Type} [Transport τ]

/-! ### Sums -/

/-- The sums of a listing: the end of its window, and the numbers of the lines that it shows. -/
def Host.listingSums (h : Host τ) : List Int :=
  match h.controller.session with
  | none => []
  | some s =>
    match h.controller.editor.locate? s.file with
    | none => []
    | some doc => ((s.line : Int) + listContext) ::
      match listWindow s.line with
      | none => []
      | some window => (h.linesOf doc window).map fun (l, _) => (l : Int) + 1

/-- The sums and differences of a request. What it sends and what it prints afterwards is left
out. -/
def Host.sums (h : Host τ) : Request → List Int
  | .breakAt _ line => [(line : Int) - 1]
  | .unwatch (row + 1) => [((row + 1 : Nat) : Int) - 1]
  | .watch _ =>
    let t := h.controller.watches
    (if t.rows.getLast?.any (·.isBlank) then [(t.rows.length : Int) - 1] else []) ++
      [(t.nextFree : Int) + 1]
  | .watches => (h.controller.watches.rows.zipIdx.filter fun (e, _) => !e.isBlank).map
      fun (_, i) => (i : Int) + 1
  | .breakpoints => (h.controller.breakpoints.locations h.controller.editor).zipIdx.flatMap
      fun (l, i) => [(i : Int) + 1, (l.line : Int) + 1]
  | .list => h.listingSums
  | _ => []

namespace Moment

/-- The sums and differences of a moment: the numbers of the commands that it sends, how far it
comes with sending breakpoints, the lines and rows of the events that it prints, and what it answers
a request with. -/
def sums (m : Moment τ) : List Int :=
  ((m.host.controller.issued m.next.host.controller).filterMap Command.number?).map Int.ofNat ++
    [(m.next.host.controller.breakpoints.sent : Int)] ++
    ((m.host.controller.handed m.does).filterMap Event.number?).map (fun n : Nat => (n : Int) + 1) ++
    (m.request?.map m.host.sums).getD []

/-- Tables and documents are not beyond what a machine can hold. -/
structure Sized (m : Moment τ) : Prop where
  rows : m.host.controller.watches.rows.length < 2 ^ 63
  breakpoints :
    (m.host.controller.breakpoints.locations m.host.controller.editor).length < 2 ^ 63
  lines : ∀ doc d, m.host.controller.editor.doc? doc = some d → d.lines.length < 2 ^ 63

instance (m : Moment τ) : Decidable m.Sized :=
  decidable_of_iff (m.host.controller.watches.rows.length < 2 ^ 63 ∧
      (m.host.controller.breakpoints.locations m.host.controller.editor).length < 2 ^ 63 ∧
      ∀ slot ∈ m.host.controller.editor.slots, ∀ d ∈ slot, d.lines.length < 2 ^ 63) <| by
    constructor
    · rintro ⟨rows, breakpoints, lines⟩
      refine ⟨rows, breakpoints, fun doc d hd => ?_⟩
      have hslot : m.host.controller.editor.slots[doc]? = some (some d) :=
        Option.join_eq_some_iff.mp hd
      exact lines _ (List.mem_of_getElem? hslot) d rfl
    · rintro ⟨rows, breakpoints, lines⟩
      refine ⟨rows, breakpoints, fun slot hslot d hd => ?_⟩
      obtain ⟨doc, hdoc⟩ := List.getElem?_of_mem hslot
      exact lines doc d (Option.join_eq_some_iff.mpr (hd ▸ hdoc))

omit [Transport τ] in
theorem Sized.small {m : Moment τ} (h : m.Sized) : m.Small := by
  have hlimit : Text.wordLimit = 2 ^ 64 := rfl
  have hrows := h.rows
  unfold Small
  omega

/-! ### What is sent and printed -/

theorem sent_fit {m : Moment τ} (h : m.host.controller.Fitting) (sized : m.Sized) :
    ∀ k ∈ (m.host.controller.issued m.next.host.controller).filterMap Command.number?,
      k < Text.wordLimit := by
  intro k hk
  obtain ⟨command, hc, hn⟩ := List.mem_filterMap.mp hk
  exact (m.next_issues.issued command hc k hn).2 h sized.small

theorem printed_fit {m : Moment τ} (h : m.host.controller.Fitting) (sized : m.Sized) :
    ∀ n ∈ (m.host.controller.handed m.does).filterMap Event.number?, n + 1 < Text.wordLimit := by
  have fits {c : Controller τ} (hc : c.Fitting) :
      ∀ n ∈ c.events.filterMap Event.number?, n + 1 < Text.wordLimit := by
    intro n hn
    obtain ⟨e, he, hen⟩ := List.mem_filterMap.mp hn
    exact hc.printed e he n hen
  rcases m.handed_does with hp | hp | hp | ⟨r, hr, hp⟩ <;> rw [hp]
  · exact nofun
  · exact fits (m.host.controller.poll_courses.fitting h)
  · exact fits (m.host.controller.abort_courses.fitting h)
  · refine fits ?_
    rw [Host.perform_controller]
    cases ha : r.call? with
    | none => exact h
    | some a =>
      have hcall := m.host.controller.call_carries (told_of_request hr) ha
      exact (controlled_courses .refl).fitting (hcall.fitting h sized.small)

/-! ### Requests -/

omit [Transport τ] in
/-- The sums of a listing fit, but for the end of its window. -/
theorem listing_fit {m : Moment τ} (sized : m.Sized) : ∀ x ∈ m.host.listingSums,
    0 ≤ x ∧ x < Text.wordLimit ∨ ∃ s doc, m.host.controller.session = some s ∧
      m.host.controller.editor.locate? s.file = some doc ∧ x = s.line + listContext := by
  intro x hx
  have hlimit : Text.wordLimit = 2 ^ 64 := rfl
  unfold Host.listingSums at hx
  split at hx
  · cases hx
  · next s hs =>
    split at hx
    · cases hx
    · next doc hdoc =>
      rcases List.mem_cons.mp hx with rfl | hx
      · exact .inr ⟨s, doc, hs, hdoc, rfl⟩
      split at hx
      · cases hx
      · -- a line that is shown is one of the document
        obtain ⟨p, hp, rfl⟩ := List.mem_map.mp hx
        have hshown := List.mem_takeWhile_imp hp
        obtain ⟨l, -, rfl⟩ := List.mem_map.mp ((List.takeWhile_sublist _).subset hp)
        unfold Editor.lineText? at hshown
        cases hd : m.host.controller.editor.doc? doc with
        | none => simp [hd] at hshown
        | some d =>
          have hlt : l < d.lines.length := by simpa [hd] using hshown
          have hlines := sized.lines doc d hd
          left
          dsimp only
          omega

omit [Transport τ] in
/-- The sums of a request fit, but for the end of a listing. -/
theorem request_fit {m : Moment τ} {r : Request} (hr : m.request? = some r)
    (h : m.host.controller.Fitting) (sized : m.Sized) : ∀ x ∈ m.host.sums r,
      0 ≤ x ∧ x < Text.wordLimit ∨ r = .list ∧ ∃ s doc, m.host.controller.session = some s ∧
        m.host.controller.editor.locate? s.file = some doc ∧ x = s.line + listContext := by
  intro x hx
  have hlimit : Text.wordLimit = 2 ^ 64 := rfl
  have told := told_of_request hr
  cases r with
  | breakAt file line =>
    obtain rfl := List.mem_singleton.mp hx
    simp only [Request.Told] at told
    omega
  | unwatch row =>
    cases row with
    | zero => cases hx
    | succ row =>
      obtain rfl := List.mem_singleton.mp hx
      simp only [Request.Told] at told
      omega
  | watch expr =>
    have hfree := Controller.nextFree_le m.host.controller.watches
    have hrows := sized.rows
    simp only [Host.sums, List.mem_append, List.mem_ite_nil_right, List.mem_singleton] at hx
    rcases hx with ⟨hlast, rfl⟩ | rfl
    · have hpos : 0 < m.host.controller.watches.rows.length := by
        refine List.length_pos_iff.mpr fun hnil => ?_
        simp [hnil] at hlast
      omega
    · omega
  | watches =>
    obtain ⟨⟨e, i⟩, hi, rfl⟩ := List.mem_map.mp hx
    have hlt := List.snd_lt_of_mem_zipIdx (List.mem_of_mem_filter hi)
    have hrows := sized.rows
    simp only at hlt ⊢
    omega
  | breakpoints =>
    obtain ⟨⟨l, i⟩, hi, hx⟩ := List.mem_flatMap.mp hx
    have hlt := List.snd_lt_of_mem_zipIdx hi
    have hline := h.locations l (List.fst_mem_of_mem_zipIdx hi)
    have hlength := sized.breakpoints
    simp only [List.mem_cons, List.not_mem_nil, or_false] at hx hlt
    rcases hx with rfl | rfl <;> omega
  | list => exact (listing_fit sized x hx).imp_right fun hl => ⟨rfl, hl⟩
  | _ => cases hx

omit [Transport τ] in
theorem sent_count_fit {m : Moment τ} (counted : m.host.controller.outline.Counted)
    (sized : m.Sized) : m.host.controller.breakpoints.sent < 2 ^ 63 := by
  refine Nat.lt_of_le_of_lt (Nat.le_trans counted ?_) sized.breakpoints
  change (m.host.controller.breakpoints.known.getD []).length ≤ _
  unfold Breakpoint.Schedule.locations
  cases m.host.controller.breakpoints.known with
  | none => exact Nat.zero_le _
  | some known => exact Nat.le_refl _

theorem sums_fit {m : Moment τ} (h : m.host.controller.Fitting) (sized : m.Sized)
    (counted : m.next.host.controller.outline.Counted) (later : m.next.Sized) :
    (∀ x ∈ m.sums, 0 ≤ x ∧ x < Text.wordLimit) ↔ ¬ m.ListsPastEnd := by
  have hlimit : Text.wordLimit = 2 ^ 64 := rfl
  constructor
  · rintro hfit ⟨hr, s, doc, hs, hdoc, hpast⟩
    have hmem : (s.line : Int) + listContext ∈ m.sums := by
      refine List.mem_append_right _ ?_
      rw [hr]
      change _ ∈ m.host.listingSums
      unfold Host.listingSums
      simp only [hs, hdoc]
      exact List.mem_cons_self
    have hlt := (hfit _ hmem).2
    omega
  · intro hno x hx
    simp only [sums, List.append_assoc, List.mem_append, List.mem_singleton] at hx
    rcases hx with hx | rfl | hx | hx
    · obtain ⟨k, hk, rfl⟩ := List.mem_map.mp hx
      have hlt := sent_fit h sized k hk
      simp only [Int.ofNat_eq_natCast]
      omega
    · have hlt := sent_count_fit counted later
      omega
    · obtain ⟨n, hn, rfl⟩ := List.mem_map.mp hx
      have hlt := printed_fit h sized n hn
      omega
    · cases hr : m.request? with
      | none =>
        rw [hr] at hx
        cases hx
      | some r =>
        rw [hr] at hx
        rcases request_fit hr h sized x hx with hfit | ⟨rfl, s, doc, hs, hdoc, rfl⟩
        · exact hfit
        · have hlt : s.line + listContext < Text.wordLimit :=
            Nat.lt_of_not_le fun hpast => hno ⟨hr, s, doc, hs, hdoc, hpast⟩
          omega

/-! ### Runs -/

theorem after_fitting {m : Moment τ} (h : m.host.controller.Fitting)
    (sized : ∀ i, (m.after i).Sized) (n : Nat) : (m.after n).host.controller.Fitting := by
  induction n with
  | zero => exact h
  | succ n ih => exact (m.after n).next_fitting ih (sized n).small

/-- What is so until the console is over is always so. -/
theorem always_of_ended {P : Moment τ → Prop} {m : Moment τ} {n : Nat} {ending : Ending}
    (ended : (m.after n).stage = .ended ending) (h : ∀ i ≤ n, P (m.after i)) (i : Nat) :
    P (m.after i) := by
  by_cases hi : i ≤ n
  · exact h i hi
  · obtain ⟨k, rfl⟩ := Nat.exists_eq_add_of_le (Nat.le_of_not_le hi)
    rw [after_ended ended]
    exact h n (Nat.le_refl n)

end Moment

end Console

namespace Controller

variable {τ : Type} [Transport τ]

/-- Documents that were opened before have no breakpoints. -/
theorem opened_fitting (config : Config) (disk : Disk) (texts : List (String × String)) :
    let c : Controller τ := (Controller.new config (.new disk)).run
      (texts.map fun d => .edit (.openText d.1 d.2))
    c.Fitting ∧ c.watches = .new := by
  have hopen (c : Controller τ) (h : c.Fitting) : (c.run
      (texts.map fun d => .edit (.openText d.1 d.2))).Fitting ∧
      (c.run (texts.map fun d => .edit (.openText d.1 d.2))).watches = c.watches := by
    induction texts generalizing c with
    | nil => exact ⟨h, rfl⟩
    | cons d texts ih =>
      refine ih _ ⟨h.line, h.row, fun doc line hm => h.located doc line ?_, h.known, h.printed⟩
      have hi : Editor.Intact [.breakpoint] c.editor (c.editor.openText d.1 d.2).1 := .openText _ _ _
      change (c.editor.openText d.1 d.2).1.hasMarker doc line .breakpoint at hm
      rwa [Editor.hasMarker, hi.markers (by simp)] at hm
  refine hopen _ ⟨fun s hs => ?_, fun row hr => ?_, fun doc line hm => ?_, fun known hk => ?_,
    fun e he => ?_⟩
  · cases hs
  · cases hr
  · cases hm
  · cases hk
  · cases he

omit [Transport τ] in
theorem launch_fitting {c : Controller τ} (h : c.Fitting)
    (small : c.watches.rows.length + 1 < Text.wordLimit) (mode : Mode)
    (spawn : Unit → Except Failure τ) : (c.launch mode spawn).1.Fitting := by
  have hstart (transport : τ) : (c.start mode transport).Fitting := by
    have hline (s : Session τ) (hs : (c.start mode transport).session = some s) :
        s.line + 1 < Text.wordLimit := by
      have hfirst : (1 : Nat) < Text.wordLimit := by decide
      cases mode <;> cases hs <;> exact hfirst
    cases mode with
    | run => exact ⟨hline, h.row, h.located, h.known, h.printed⟩
    | debug =>
      refine ⟨hline, fun row hr => ?_, h.located, fun known hk => (by cases hk), h.printed⟩
      -- the rows that have a name are rows of the table
      obtain ⟨⟨e, i⟩, hi, he⟩ := List.mem_filterMap.mp hr
      have hlt : i < c.watches.rows.length := by
        simpa [Watch.Table.clearValues] using List.snd_lt_of_mem_zipIdx hi
      dsimp only at he
      split_ifs at he
      obtain rfl := Option.some.inj he
      omega
  unfold launch
  split_ifs
  · exact h
  · dsimp only
    split
    · next transport _ =>
      rw [start_launching]
      exact hstart transport
    · have hidle : ({ c with state := .notRunning } : Controller τ).Fitting :=
        h.of_eq rfl rfl rfl rfl rfl
      exact hidle.push fun n hn => by cases hn

end Controller

namespace Console

variable {τ : Type} [Transport τ]

/-- Whatever documents are open, whatever is typed and whatever the program does, each sum of lines,
rows and indices that the console makes is a number that fits in a word, just while nobody has a
line listed that stands next to the last one that a word counts, and for this the console crashes;
tables and documents are taken to be of a size that a machine can hold. The moments of a console are
all of its run, if that comes to an end. -/
theorem sums_fit_iff (config : Config) (disk : Disk) (texts : List (String × String)) (mode : Mode)
    (spawn : Unit → Except Failure τ) (interval : Nat) (log : List Entry) (typed : List Typed) :
    let opened : Controller τ := (Controller.new config (.new disk)).run
      (texts.map fun d => .edit (.openText d.1 d.2))
    let h : Host τ := ⟨(opened.launch mode spawn).1, interval, log⟩
    let m := Moment.first typed h
    (∀ n, (m.after n).Sized) →
      (∀ n, (∀ x ∈ (m.after n).sums, 0 ≤ x ∧ x < Text.wordLimit) ↔ ¬ (m.after n).ListsPastEnd) ∧
        (∀ n, (m.after n).stage = .ended .crashed ↔ ∃ i < n, (m.after i).ListsPastEnd) ∧
        ∀ budget h' ending, h.repl budget typed = some (h', ending) →
          ∃ n, (m.after n).stage = .ended ending ∧ (m.after n).host = h' := by
  intro opened h m sized
  obtain ⟨hopened, hwatches⟩ := Controller.opened_fitting (τ := τ) config disk texts
  have hlaunched : m.host.controller.Fitting := by
    refine Controller.launch_fitting hopened ?_ mode spawn
    rw [hwatches]
    decide
  have hcounted (n : Nat) : (m.after n).host.controller.outline.Counted := by
    have hm : m.host.controller = ((Controller.new config (.new disk)).run
        (texts.map fun d => .edit (.openText d.1 d.2))).run [.call (.launch mode spawn)] := rfl
    rw [Moment.after_controller, hm, Controller.run, Controller.run, Controller.run,
      ← List.foldl_append, ← List.foldl_append]
    exact Controller.run_keep (fun _ hc move => move.counted hc) (fun _ hc => hc)
      (Controller.sound_new config _) (Nat.zero_le _) _
  have hstart : m.stage = .pumping 0 := rfl
  exact ⟨fun n => Moment.sums_fit (Moment.after_fitting hlaunched sized n) (sized n)
      (hcounted (n + 1)) (sized (n + 1)),
    Moment.after_crashed_iff hstart, fun budget h' ending => Host.moments_of_repl⟩

/-- The second line is listed, and no sum is too large. -/
theorem sums_fit_at_second_line : (∀ n, ((listedAt "2").after n).Sized) ∧
    ((listedAt "2").after 4).request? = some .list ∧
      ∀ x ∈ ((listedAt "2").after 4).sums, 0 ≤ x ∧ x < Text.wordLimit := by
  have ended : ((listedAt "2").after 9).stage = .ended .left := by decide +kernel
  have sized := Moment.always_of_ended (P := Moment.Sized) ended (by decide +kernel)
  have line : ((listedAt "2").after 4).host.controller.session.map Session.line = some 1 := by
    decide +kernel
  refine ⟨sized, by decide +kernel, ?_⟩
  refine ((sums_fit_iff .standard .empty [("main.p", "a\nb\n")] .debug _ 0 [] [.line "list"]
    sized).1 4).mpr ?_
  rintro ⟨-, s, doc, hs, -, hpast⟩
  have hline : some s.line = some 1 := (congrArg (Option.map Session.line) hs).symm.trans line
  rw [Option.some.inj hline] at hpast
  exact absurd hpast (by decide)

/-- The last line that a word counts. -/
theorem sum_past_end : (∀ n, ((listedAt "18446744073709551615").after n).Sized) ∧
    (∃ x ∈ ((listedAt "18446744073709551615").after 4).sums, ¬ x < Text.wordLimit) ∧
    ((listedAt "18446744073709551615").after 5).stage = .ended .crashed := by
  have ended : ((listedAt "18446744073709551615").after 5).stage = .ended .crashed := by
    decide +kernel
  have sized := Moment.always_of_ended (P := Moment.Sized) ended (by decide +kernel)
  exact ⟨sized, by decide +kernel, ended⟩

end Console

end Debugline
