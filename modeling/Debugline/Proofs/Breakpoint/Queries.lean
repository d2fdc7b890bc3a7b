import Debugline.Proofs.Editor.Intact
import Debugline.Proofs.Session.Outline
import Mathlib.Data.List.Forall2

/-! Asking about breakpoints. A question has the schedule derive the breakpoints, which it then goes
by. As long as it is told of changes this makes no difference to the commands that are taken: a run
takes the same commands if its questions are left out. -/

namespace Debugline

/-! ### The breakpoints that are listed -/

namespace Editor

variable {e : Editor}

theorem path?_of_mem_opened {p : DocId × Document} (h : p ∈ e.opened) :
    e.path? p.1 = some p.2.path := by
  rw [path?, mem_opened.mp h, Option.map_some]

theorem pairwise_opened (e : Editor) : e.opened.Pairwise (·.1 < ·.1) := by
  have hplaces : e.slots.zipIdx.Pairwise (·.2 < ·.2) := by
    have hmap : (e.slots.zipIdx.map Prod.snd).Pairwise (· < ·) := by simp [List.pairwise_lt_range']
    exact List.pairwise_map.mp hmap
  refine List.Pairwise.filterMap _ (fun p q hpq o ho o' ho' => ?_) hplaces
  obtain ⟨d, -, rfl⟩ := Option.map_eq_some_iff.mp ho
  obtain ⟨d', -, rfl⟩ := Option.map_eq_some_iff.mp ho'
  exact hpq

end Editor

namespace Breakpoint

/-- The breakpoint markers of the open documents: the documents in the order they were opened, the
lines of each ascending. -/
def Lists (e : Editor) (ls : List Location) : Prop :=
  ∃ places : List (DocId × Nat),
    places.Pairwise (fun p q => p.1 < q.1 ∨ p.1 = q.1 ∧ p.2 < q.2) ∧
    (∀ doc line, (doc, line) ∈ places ↔ e.hasMarker doc line .breakpoint) ∧
    List.Forall₂ (fun p l => e.path? p.1 = some l.file ∧ p.2 = l.line) places ls

theorem lists_ofEditor (e : Editor) : Lists e (ofEditor e) := by
  refine ⟨e.opened.flatMap fun p => p.2.breakpoints.toList.map (p.1, ·), ?_, ?_, ?_⟩
  · refine List.pairwise_flatMap.mpr ⟨fun p _ => ?_, e.pairwise_opened.imp fun hlt p hp q hq => ?_⟩
    · exact p.2.breakpoints.ascending.map _ fun _ _ hlt => .inr ⟨rfl, hlt⟩
    · obtain ⟨_, -, rfl⟩ := List.mem_map.mp hp
      obtain ⟨_, -, rfl⟩ := List.mem_map.mp hq
      exact .inl hlt
  · intro doc line
    simp only [List.mem_flatMap, List.mem_map, Editor.hasMarker_iff_doc?]
    constructor
    · rintro ⟨⟨_, d⟩, hd, line, hline, ⟨rfl, rfl⟩⟩
      exact ⟨d, Editor.mem_opened.mp hd, hline⟩
    · rintro ⟨d, hd, hline⟩
      exact ⟨(doc, d), Editor.mem_opened.mpr hd, line, hline, rfl⟩
  · have hpath : ∀ p ∈ e.opened, e.path? p.1 = some p.2.path :=
      fun _ => Editor.path?_of_mem_opened
    unfold ofEditor
    -- The induction is on the documents; each lists its own lines.
    generalize e.opened = opened at hpath
    induction opened with
    | nil => exact .nil
    | cons p opened ih =>
      refine List.rel_append ?_ (ih fun q hq => hpath q (List.mem_cons_of_mem p hq))
      rw [List.forall₂_map_left_iff, List.forall₂_map_right_iff]
      exact List.forall₂_same.mpr fun line _ => ⟨hpath p List.mem_cons_self, rfl⟩

/-! ### Runs of calls -/

open Wire

/-- A schedule, and the documents that it goes by. -/
structure Desk where
  schedule : Schedule
  editor : Editor

/-- A call of a schedule. -/
inductive Call
  | toggle (doc : DocId) (line : Nat)
  | clearAll
  | invalidate
  | next
  | rebuild
  | list
  | hasPending

namespace Call

/-- Calls that only ask. -/
def isQuery : Call → Bool
  | .rebuild | .list | .hasPending => true
  | .toggle _ _ | .clearAll | .invalidate | .next => false

/-- Calls after which the schedule starts over. -/
def startsOver : Call → Bool
  | .toggle _ _ | .clearAll | .invalidate => true
  | .next | .rebuild | .list | .hasPending => false

theorem eq_next_or_startsOver {c : Call} (h : c.isQuery = false) : c = .next ∨ c.startsOver := by
  cases c <;> first | exact .inl rfl | exact .inr rfl | cases h

end Call

inductive Act
  | call (c : Call)
  /-- The documents are changed otherwise. -/
  | edit (change : Editor.Change)

def Act.isQuery : Act → Bool
  | .call c => c.isQuery
  | .edit _ => false

namespace Desk

def call (d : Desk) : Call → Desk
  | .toggle doc line =>
    let (schedule, editor, _) := d.schedule.toggle d.editor doc line
    ⟨schedule, editor⟩
  | .clearAll =>
    let (schedule, editor) := d.schedule.clearAll d.editor
    ⟨schedule, editor⟩
  | .invalidate => { d with schedule := d.schedule.invalidate }
  | .next => { d with schedule := (d.schedule.next d.editor).1 }
  | .rebuild => { d with schedule := d.schedule.rebuild d.editor }
  | .list => { d with schedule := (d.schedule.list d.editor).1 }
  | .hasPending => { d with schedule := (d.schedule.hasPending d.editor).1 }

def after (d : Desk) : Act → Desk
  | .call c => d.call c
  | .edit change => { d with editor := d.editor.change change }

def run (d : Desk) (acts : List Act) : Desk := acts.foldl after d

/-- What the schedule gives each time that it is asked for the next command. -/
def commands (d : Desk) : List Act → List (Option Command)
  | [] => []
  | .call .next :: acts => (d.schedule.next d.editor).2 :: commands (d.call .next) acts
  | a :: acts => commands (d.after a) acts

/-- Runs in which the schedule starts over after each change of breakpoints that others make, before
a command is taken. Questions may be asked at any time. The flags say whether it knows of all
changes, before the run and after it. -/
inductive Announced : Bool → Desk → List Act → Bool → Prop
  | done {told d} : Announced told d [] told
  | next {last d acts} (h : Announced true (d.call .next) acts last) :
      Announced true d (.call .next :: acts) last
  | startOver {told last d c acts} (starts : c.startsOver)
      (h : Announced true (d.call c) acts last) : Announced told d (.call c :: acts) last
  | ask {told last d c acts} (query : c.isQuery) (h : Announced told (d.call c) acts last) :
      Announced told d (.call c :: acts) last
  /-- A change of something else, such as of another marker. -/
  | edit {told last d change acts} (same : ofEditor (d.editor.change change) = ofEditor d.editor)
      (h : Announced told (d.after (.edit change)) acts last) :
      Announced told d (.edit change :: acts) last
  | editBreakpoints {told last d change acts}
      (h : Announced false (d.after (.edit change)) acts last) :
      Announced told d (.edit change :: acts) last

end Desk

/-! ### Schedules that go alike -/

namespace Schedule

/-- Two schedules go alike by the same documents, though one may have derived the breakpoints and
the other not. -/
structure Alike (e : Editor) (s s' : Schedule) : Prop where
  locations : s'.locations e = s.locations e
  sent : s'.sent = s.sent
  dirty : s'.dirty = s.dirty

variable {s s' : Schedule} {e e' : Editor}

theorem Alike.refl (e : Editor) (s : Schedule) : Alike e s s := ⟨rfl, rfl, rfl⟩

theorem Alike.rebuild (h : Alike e s s') : Alike e (s.rebuild e) s' :=
  ⟨h.locations, h.sent, h.dirty⟩

theorem locations_congr (h : ofEditor e' = ofEditor e) (s : Schedule) :
    s.locations e' = s.locations e := by
  rw [locations, h]
  rfl

theorem Alike.congr (h : Alike e s s') (same : ofEditor e' = ofEditor e) : Alike e' s s' := by
  refine ⟨?_, h.sent, h.dirty⟩
  rw [locations_congr same, locations_congr same, h.locations]

/-- Schedules that go alike give the same command, and are the same afterwards. -/
theorem Alike.next (h : Alike e s s') : s'.next e = s.next e := by
  simp only [Schedule.next, h.locations, h.sent, h.dirty, Schedule.rebuild]

/-- Once breakpoints are derived, the documents are not looked at. -/
theorem next_rebuild (s : Schedule) (e e' : Editor) :
    (s.rebuild e).next e' = s.next e := rfl

/-- A command is left exactly if one is given. -/
theorem hasPending_iff (s : Schedule) (e : Editor) :
    (s.hasPending e).2 = true ↔ ∃ c, (s.next e).2 = some c := by
  have hpending : (s.hasPending e).2 = true ↔
      s.dirty = true ∨ s.sent < (s.locations e).length := by simp [hasPending]
  rw [hpending]
  cases hd : s.dirty with
  | true => simp [next_dirty hd]
  | false =>
    cases hl : (s.locations e)[s.sent]? with
    | none => simpa [next_none hd hl] using List.getElem?_eq_none_iff.mp hl
    | some l => simpa [next_some hd hl] using (List.getElem?_eq_some_iff.mp hl).1

end Schedule

namespace Desk

variable {d d' : Desk}

/-! ### Questions -/

theorem call_query (d : Desk) {c : Call} (h : c.isQuery) :
    d.call c = { d with schedule := d.schedule.rebuild d.editor } := by
  cases c <;> first | rfl | cases h

/-- A call after which the schedule starts over does not read it. -/
theorem call_startsOver (he : d'.editor = d.editor) {c : Call} (h : c.startsOver) :
    d'.call c = d.call c := by
  obtain ⟨s, e⟩ := d
  obtain ⟨s', e'⟩ := d'
  obtain rfl : e' = e := he
  cases c <;> first | rfl | cases h

theorem commands_call (d : Desk) {c : Call} (h : c ≠ .next) (acts : List Act) :
    d.commands (.call c :: acts) = (d.call c).commands acts := by
  cases c <;> first | rfl | exact absurd rfl h

theorem Announced.of_next {told last : Bool} {acts : List Act}
    (h : Announced told d (.call .next :: acts) last) :
    told = true ∧ Announced true (d.call .next) acts last := by
  cases h with
  | next h => exact ⟨rfl, h⟩
  | startOver starts | ask query => contradiction

theorem Announced.of_startsOver {told last : Bool} {c : Call} {acts : List Act} (hc : c.startsOver)
    (h : Announced told d (.call c :: acts) last) : Announced true (d.call c) acts last := by
  cases h with
  | next => cases hc
  | startOver _ h => exact h
  | ask query => cases c <;> contradiction

/-- One of two desks is asked questions in between: as long as the schedules know of all changes
they go alike, and else they start over before the next command. -/
theorem commands_of_alike {told last : Bool} {acts : List Act} (he : d'.editor = d.editor)
    (alike : told = true → d.schedule.Alike d.editor d'.schedule)
    (h : Announced told d' (acts.filter fun a => !a.isQuery) last) :
    d.commands acts = d'.commands (acts.filter fun a => !a.isQuery) := by
  induction acts generalizing told d d' with
  | nil => rfl
  | cons a acts ih =>
    cases a with
    | edit change =>
      rw [List.filter_cons_of_pos rfl] at h ⊢
      have he' : (d'.after (.edit change)).editor = (d.after (.edit change)).editor :=
        congrArg (Editor.change · change) he
      cases h with
      | edit same h =>
        rw [he] at same
        exact ih he' (fun ht => (alike ht).congr same) h
      | editBreakpoints h =>
        have untold : false = true → (d.after (.edit change)).schedule.Alike
            (d.after (.edit change)).editor (d'.after (.edit change)).schedule := nofun
        exact ih he' untold h
    | call c =>
      cases hq : c.isQuery with
      | true =>
        rw [List.filter_cons_of_neg (by simp [Act.isQuery, hq])] at h ⊢
        have hn : c ≠ .next := fun hc => by simp [hc, Call.isQuery] at hq
        rw [commands_call d hn, call_query d hq]
        exact ih he (fun ht => (alike ht).rebuild) h
      | false =>
        rw [List.filter_cons_of_pos (by simp [Act.isQuery, hq])] at h ⊢
        rcases Call.eq_next_or_startsOver hq with rfl | hs
        · obtain ⟨ht, h⟩ := h.of_next
          have hnext : d'.schedule.next d.editor = d.schedule.next d.editor := (alike ht).next
          have hafter : d'.call .next = d.call .next := by simp only [call, he, hnext]
          have hlater := ih (congrArg editor hafter) (fun _ => hafter ▸ .refl _ _) h
          simp only [commands, he, hnext, hlater]
        · have hn : c ≠ .next := fun hc => by simp [hc, Call.startsOver] at hs
          have hcall := call_startsOver he hs
          rw [commands_call d hn, commands_call d' hn]
          refine ih (congrArg editor hcall) (fun _ => ?_) (h.of_startsOver hs)
          rw [hcall]
          exact .refl _ _

/-- Once breakpoints are derived, questions and changes of documents leave the schedule as it is. -/
theorem schedule_run_of_known {known : List Location} (hk : d.schedule.known = some known)
    {acts : List Act} (ask : ∀ c, .call c ∈ acts → c.isQuery) :
    (d.run acts).schedule = d.schedule := by
  induction acts generalizing d with
  | nil => rfl
  | cons a acts ih =>
    have hstep : (d.after a).schedule = d.schedule := by
      cases a with
      | edit change => rfl
      | call c =>
        have hrebuild : (d.call c).schedule = d.schedule.rebuild d.editor :=
          congrArg schedule (d.call_query (ask c List.mem_cons_self))
        refine hrebuild.trans ?_
        rw [Schedule.rebuild, Schedule.locations, hk, Option.getD_some, ← hk]
    rw [run, List.foldl_cons]
    refine (ih (hstep ▸ hk) fun c hc => ask c (List.mem_cons_of_mem a hc)).trans hstep

/-- The breakpoints that the schedule has derived are those of the documents. -/
def Current (d : Desk) : Prop :=
  ∀ known, d.schedule.known = some known → known = ofEditor d.editor

theorem Current.locations (h : d.Current) : d.schedule.locations d.editor = ofEditor d.editor := by
  unfold Schedule.locations
  cases hk : d.schedule.known with
  | none => rfl
  | some known => exact h known hk

theorem Current.of_known (h : d.Current) {s : Schedule}
    (hs : s.known = some (d.schedule.locations d.editor)) : Current { d with schedule := s } := by
  intro known hk
  rw [← h.locations]
  exact Option.some.inj (hk.symm.trans hs)

theorem current_call_startsOver {c : Call} (h : c.startsOver) : (d.call c).Current := by
  have hknown : (d.call c).schedule.known = none := by
    cases c with
    | toggle doc line =>
      simp only [call, Schedule.toggle]
      split <;> rfl
    | clearAll | invalidate => rfl
    | next | rebuild | list | hasPending => cases h
  intro known hk
  cases hknown.symm.trans hk

theorem Current.call_next (h : d.Current) : (d.call .next).Current := by
  refine h.of_known ?_
  cases hd : d.schedule.dirty with
  | true => rw [Schedule.next_dirty hd]
  | false =>
    cases hl : (d.schedule.locations d.editor)[d.schedule.sent]? with
    | none => rw [Schedule.next_none hd hl]; rfl
    | some l => rw [Schedule.next_some hd hl]

theorem Current.call_query (h : d.Current) {c : Call} (hc : c.isQuery) : (d.call c).Current := by
  rw [Desk.call_query d hc]
  exact h.of_known rfl

theorem Announced.current {told last : Bool} {acts : List Act} (ha : Announced told d acts last)
    (h : told = true → d.Current) : last = true → (d.run acts).Current := by
  induction ha with
  | done => exact h
  | next _ ih => exact ih fun _ => (h rfl).call_next
  | startOver starts _ ih => exact ih fun _ => current_call_startsOver starts
  | ask query _ ih => exact ih fun ht => (h ht).call_query query
  | edit same _ ih => exact ih fun ht known hk => (h ht known hk).trans same.symm
  | editBreakpoints _ ih => exact ih nofun

/-- Questions leave the commands that are taken as they are, as long as the schedule is told of
changes without them. A command is left exactly if the next one that is taken is one, whatever is
asked and changed in between. What is listed are the breakpoint markers. -/
theorem queries_leave_commands (e : Editor) (acts : List Act) :
    let d : Desk := ⟨.new, e⟩
    (∀ last, Announced true d (acts.filter fun a => !a.isQuery) last →
      d.commands acts = d.commands (acts.filter fun a => !a.isQuery)) ∧
    (∀ between, (∀ c, .call c ∈ between → c.isQuery) →
      ∃ command,
        (((d.run acts).call .hasPending).run between).commands [.call .next] = [command] ∧
        (((d.run acts).schedule.hasPending (d.run acts).editor).2 = true ↔ command.isSome)) ∧
    (Announced true d acts true →
      Lists (d.run acts).editor ((d.run acts).schedule.list (d.run acts).editor).2) := by
  intro d
  refine ⟨fun _ h => commands_of_alike rfl (fun _ => .refl _ _) h, fun between ask => ?_,
    fun h => ?_⟩
  · let asked := ((d.run acts).call .hasPending).run between
    have hschedule : asked.schedule = (d.run acts).schedule.rebuild (d.run acts).editor :=
      schedule_run_of_known rfl ask
    have hnext : asked.schedule.next asked.editor =
        (d.run acts).schedule.next (d.run acts).editor := by
      rw [hschedule, Schedule.next_rebuild]
    refine ⟨(asked.schedule.next asked.editor).2, rfl, ?_⟩
    rw [hnext, Option.isSome_iff_exists]
    exact Schedule.hasPending_iff _ _
  · have hcurrent : (d.run acts).Current := h.current (fun _ => nofun) rfl
    show Lists _ ((d.run acts).schedule.locations (d.run acts).editor)
    rw [hcurrent.locations]
    exact lists_ofEditor _

/-- Two breakpoints, one of which is set otherwise; a question is asked before it is told of. -/
theorem queries_leave_commands_of_two_breakpoints :
    let d : Desk := ⟨.new, .new .empty⟩
    let acts : List Act := [.edit (.openText "a.p" ""), .call (.toggle 0 2), .call .next,
      .call .hasPending, .edit (.addMarker 0 0 .breakpoint), .call .list, .call .invalidate,
      .call .rebuild, .call .next, .call .next]
    Announced true d (acts.filter fun a => !a.isQuery) true ∧ Announced true d acts true ∧
      d.commands acts = d.commands (acts.filter fun a => !a.isQuery) ∧
      d.commands acts =
        [some .clearBreakpoints, some .clearBreakpoints, some (.breakAt "a.p" 1)] ∧
      (((d.run acts).schedule.hasPending (d.run acts).editor).2 = true ↔
        (some (Command.breakAt "a.p" 3)).isSome) ∧
      Lists (d.run acts).editor ((d.run acts).schedule.list (d.run acts).editor).2 := by
  intro d acts
  have halone : Announced true d (acts.filter fun a => !a.isQuery) true :=
    .edit (by decide) (.startOver rfl (.next (.editBreakpoints (.startOver rfl
      (.next (.next .done))))))
  have hasked : Announced true d acts true :=
    .edit (by decide) (.startOver rfl (.next (.ask rfl (.editBreakpoints (.ask rfl
      (.startOver rfl (.ask rfl (.next (.next .done)))))))))
  obtain ⟨hcommands, hpending, hlist⟩ := queries_leave_commands (.new .empty) acts
  obtain ⟨command, hcommand, hiff⟩ := hpending [.call .list] (by simp [Call.isQuery])
  have hlast : (((d.run acts).call .hasPending).run [.call .list]).commands [.call .next] =
      [some (.breakAt "a.p" 3)] := by decide +kernel
  obtain rfl : command = some (.breakAt "a.p" 3) :=
    List.singleton_inj.mp (hcommand.symm.trans hlast)
  exact ⟨halone, hasked, hcommands true halone, by decide +kernel, hiff, hlist hasked⟩

end Desk

end Breakpoint

end Debugline
