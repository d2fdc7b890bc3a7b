import Debugline.Proofs.Breakpoint.Agreement
import Debugline.Proofs.Watch.Naming

/-! The watches that the debugger has are the named rows of the table, but for those that are
still to be sent. What it has is told from the journal: a debugger starts with none, and sets
and clears them by command. It may tell of those that it has, at any time. -/

namespace Debugline

open Session Wire

/-- The watches of a debugger after a command. -/
def Wire.Command.watches (c : Command) (watched : Nat → Option String) : Nat → Option String :=
  match c with
  | .setWatch row name => Function.update watched row (some name)
  | .clearWatch row => Function.update watched row none
  | _ => watched

theorem Wire.Command.watches_of_resumes {c : Command} (h : c.resumes = true)
    (watched : Nat → Option String) : c.watches watched = watched := by
  cases c <;> first | rfl | cases h

namespace Watch.Table

variable {t : Table}

/-- The name of a row that has one. -/
def named? (t : Table) (row : Nat) : Option String :=
  if (t.nameOf row).isEmpty then none else some (t.nameOf row)

theorem named?_congr {t' : Table} {row : Nat} (h : t'.nameOf row = t.nameOf row) :
    t'.named? row = t.named? row := by
  rw [named?, named?, h]

theorem nameOf_of_named? {row : Nat} {name : String} (h : t.named? row = some name) :
    t.nameOf row = name := by
  unfold named? at h
  split_ifs at h
  exact Option.some.inj h

theorem named?_eq_some_iff {row : Nat} {name : String} :
    t.named? row = some name ↔ ∃ e, t.rows[row]? = some e ∧ e.name = name ∧ name ≠ "" := by
  unfold named? nameOf
  cases t.rows[row]? with
  | none => simp
  | some e =>
    simp only [Option.map_some, Option.getD_some, String.isEmpty_iff, Option.some.injEq,
      exists_eq_left']
    split_ifs with he
    · simp [he]
    · refine ⟨fun h => ?_, fun h => congrArg some h.1⟩
      obtain rfl := Option.some.inj h
      exact ⟨rfl, he⟩

theorem watches_commandFor (t : Table) (row : Nat) (watched : Nat → Option String) :
    (t.commandFor row).watches watched = Function.update watched (row + 1) (t.named? row) := by
  unfold commandFor named?
  split <;> rfl

theorem pending_update (t : Table) (row : Nat) (name value : String) :
    (t.update row name value).1.pending = t.pending := by
  unfold update
  split
  · rfl
  · split_ifs <;> rfl

theorem pending_settle (t : Table) : t.settle.pending = t.pending := by
  unfold settle normalize
  split
  · dsimp only
    split <;> rfl
  · rfl

/-- A row that is not rearmed has no name. -/
theorem named?_of_not_mem_rearm {row : Nat} (h : row ∉ t.rearm.pending) :
    t.rearm.named? row = none := by
  cases he : t.rows[row]? with
  | none => simp [named?, nameOf, rearm, he]
  | some e =>
    have hblank : e.isBlank := by
      by_contra hn
      exact h (List.mem_filterMap.mpr ⟨(e, row), List.mem_zipIdx_iff_getElem?.mpr he, if_neg hn⟩)
    simpa [named?, nameOf, rearm, he, Entry.isBlank] using hblank

end Watch.Table

namespace Session

def Mark.watches (m : Mark) (watched : Nat → Option String) : Nat → Option String :=
  match m with
  | .launched .debug => fun _ => none
  | .sent _ _ (.command c) true => c.watches watched
  | _ => watched

/-- The watches of the debugger at the end of a journal, with rows counted from 1. -/
def watched (journal : List Mark) : Nat → Option String :=
  journal.foldr Mark.watches fun _ => none

/-- A watch that the debugger tells of is one that it has, by that name and with any value. -/
def Mark.honest (past : List Mark) : Mark → Bool
  | .frame (.watch row name _) => watched past row = some name
  | _ => true

def Honest : List Mark → Prop
  | [] => True
  | m :: past => m.honest past ∧ Honest past

instance decidableHonest : DecidablePred Honest
  | [] => inferInstanceAs (Decidable True)
  | m :: past =>
    have := decidableHonest past
    inferInstanceAs (Decidable (m.honest past ∧ Honest past))

/-- Commands reach the debugger, and it tells of watches only as it has them. -/
structure Fair (journal : List Mark) : Prop where
  accepted : Accepted journal
  honest : Honest journal

theorem Fair.past {m : Mark} {journal : List Mark} (h : Fair (m :: journal)) : Fair journal :=
  ⟨h.accepted.past, h.honest.2⟩

/-- A command about no watch, accepted or not. -/
theorem watched_command {c : Command} (h : ∀ watched, c.watches watched = watched) (state : State)
    (mode : Mode) (ok : Bool) (journal : List Mark) :
    watched (.sent state mode (.command c) ok :: journal) = watched journal := by
  cases ok with
  | false => rfl
  | true => exact h _

end Session

namespace Outline

/-- The debugger has each row as the table names it, unless the row is still to be sent. -/
structure Agreed (o : Outline) : Prop where
  rows : ∀ searched, o.session = some (.debug, searched) → ∀ row ∉ o.watches.pending,
    watched o.journal (row + 1) = o.watches.named? row
  /-- Rows are counted from 1. -/
  zero : watched o.journal 0 = none

variable {o o' : Outline}

/-- What tells the debugger nothing, and names no row but such as are to be sent. -/
theorem Agreed.quiet (h : o.Agreed) (hj : watched o'.journal = watched o.journal)
    (hs : o'.session = o.session)
    (hw : ∀ row ∉ o'.watches.pending, row ∉ o.watches.pending ∧
      o'.watches.nameOf row = o.watches.nameOf row) : o'.Agreed := by
  refine ⟨fun searched hsession row hrow => ?_, hj ▸ h.zero⟩
  obtain ⟨hn, hname⟩ := hw row hrow
  rw [hj, h.rows searched (hs ▸ hsession) row hn, Watch.Table.named?_congr hname]

/-- The debugger is told nothing, and the table is as it was. -/
theorem Agreed.same (h : o.Agreed) (hj : watched o'.journal = watched o.journal)
    (hs : o'.session = o.session) (hw : o'.watches = o.watches) : o'.Agreed :=
  h.quiet hj hs fun _ hrow => hw ▸ ⟨hw ▸ hrow, rfl⟩

theorem Move.agreed (m : Move o o') (h : Fair o.journal → o.Agreed) (hf : Fair o'.journal) :
    o'.Agreed := by
  cases m with
  | refuse | rebuild | invalidate => exact (h hf).same rfl rfl rfl
  | finish => exact ⟨nofun, (h hf).zero⟩
  | startRun => exact ⟨nofun, (h hf.past).zero⟩
  | frame => exact (h hf.past).same rfl rfl rfl
  | startDebug =>
    refine ⟨fun _ _ _ hrow => ?_, rfl⟩
    exact (Watch.Table.named?_of_not_mem_rearm hrow).symm
  | @report told i name value table session update =>
    have ha := h hf.past
    have hhonest : watched o.journal told = some name := by
      simpa [Mark.honest] using hf.honest.1
    refine ha.quiet rfl rfl fun row hrow => ?_
    replace hrow : row ∉ o.watches.pending := by
      have hpending := o.watches.pending_update told name value
      rw [update] at hpending
      rwa [hpending] at hrow
    refine ⟨hrow, ?_⟩
    rw [Watch.Table.nameOf_update update]
    split_ifs with hr
    · -- What the debugger tells of the row is what the row was called already.
      have hnamed : o.watches.named? row = some name := by
        rw [← ha.rows true session row hrow, ← hr, hhonest]
      exact (Watch.Table.nameOf_of_named? hnamed).symm
    · rfl
  | promptIdle =>
    refine (h hf.past).quiet rfl rfl fun row hrow => ⟨?_, ?_⟩
    · rwa [Watch.Table.pending_settle] at hrow
    · exact Watch.Table.nameOf_settle _ row
  | @promptWatch row rest session due ok =>
    have ha := h hf.past.past
    obtain rfl : ok = true := hf.accepted.command
    have hj : watched (.sent .pausedAtPrompt .debug (.command (o.watches.commandFor row)) true ::
        .frame .prompt :: o.journal) =
        Function.update (watched o.journal) (row + 1) (o.watches.named? row) :=
      Watch.Table.watches_commandFor _ _ _
    refine ⟨fun searched hs row' hrow => ?_, ?_⟩
    · have hn : row' ∉ rest := by rwa [Watch.Table.pending_settle] at hrow
      have hnamed : ({ o.watches with pending := rest }.settle).named? row' =
          o.watches.named? row' := Watch.Table.named?_congr (Watch.Table.nameOf_settle _ row')
      refine (congrFun hj _).trans (Eq.trans ?_ hnamed.symm)
      by_cases hr : row' = row
      · rw [hr, Function.update_self]
      · rw [Function.update_of_ne (by omega)]
        exact ha.rows searched hs row' (by simp [due, hr, hn])
    · refine (congrFun hj 0).trans ?_
      rw [Function.update_of_ne (by omega)]
      exact ha.zero
  | clear | breakAt | evaluate =>
    exact (h hf.past).same (watched_command (fun _ => rfl) _ _ _ _) rfl rfl
  | resume waits resumes | resumeFailed waits resumes =>
    exact (h hf.past).same
      (watched_command (Command.watches_of_resumes resumes) _ _ _ _) rfl rfl
  | input text session ok => exact (h hf.past).same (by cases ok <;> rfl) rfl rfl
  | edit row name =>
    refine (h hf.past).quiet rfl rfl fun row' hrow => ?_
    obtain ⟨hn, hr⟩ : row' ∉ o.watches.pending ∧ row' ≠ row := by
      simpa [Watch.Table.edit] using hrow
    exact ⟨hn, by rw [Watch.Table.nameOf_edit, if_neg (Ne.symm hr)]⟩
  | @delete row there =>
    refine (h hf.past).quiet rfl rfl fun row' hrow => ?_
    obtain ⟨hn, hr⟩ : row' ∉ o.watches.pending ∧ row' ≠ row := by
      simpa [Watch.Table.delete, there] using hrow
    exact ⟨hn, by rw [Watch.Table.nameOf_delete there, if_neg (Ne.symm hr)]⟩

end Outline

namespace Controller

variable {τ : Type} [Transport τ]

theorem run_agreed (config : Config) (editor : Editor) (hs : List (Happening τ))
    (fair : Fair ((Controller.new config editor).run hs).journal) :
    ((Controller.new config editor).run hs).outline.Agreed := by
  have hnew : (Controller.new config editor : Controller τ).outline.Agreed := ⟨nofun, rfl⟩
  exact run_keep (P := fun o => Fair o.journal → o.Agreed) (fun _ h m => m.agreed h)
    (fun _ h hf => (h hf).same rfl rfl rfl) (sound_new config editor) (fun _ => hnew) hs fair

/-- As long as commands are accepted and the debugger tells only of watches that it has, it
has each row that is not to be sent just as the table names it; and once nothing is to be
sent, the named rows and no other watches. -/
theorem watched_iff_named (config : Config) (editor : Editor) (hs : List (Happening τ))
    {c : Controller τ} {s : Session τ} (reached : (Controller.new config editor).run hs = c)
    (accepted : Accepted c.journal) (honest : Honest c.journal) (session : c.session = some s)
    (mode : s.mode = .debug) :
    (∀ row ∉ c.watches.pending, ∀ name, watched c.journal (row + 1) = some name ↔
        ∃ e, c.watches.rows[row]? = some e ∧ e.name = name ∧ name ≠ "") ∧
      (c.watches.pending = [] → ∀ wireRow name, watched c.journal wireRow = some name ↔
        ∃ row e, wireRow = row + 1 ∧ c.watches.rows[row]? = some e ∧ e.name = name ∧
          name ≠ "") := by
  obtain rfl := reached
  set c := (Controller.new config editor).run hs
  have ha : c.outline.Agreed := run_agreed config editor hs ⟨accepted, honest⟩
  have hsession : c.outline.session = some (.debug, s.scanner.enabled) := by
    rw [outline_session session, mode]
  have hrows : ∀ row ∉ c.watches.pending, ∀ name, watched c.journal (row + 1) = some name ↔
      ∃ e, c.watches.rows[row]? = some e ∧ e.name = name ∧ name ≠ "" := by
    intro row hrow name
    rw [← Watch.Table.named?_eq_some_iff]
    exact Eq.congr_left (ha.rows _ hsession row hrow)
  refine ⟨hrows, fun hempty wireRow name => ?_⟩
  cases wireRow with
  | zero =>
    have hzero : watched c.journal 0 = none := ha.zero
    simp [hzero]
  | succ row =>
    rw [hrows row (by simp [hempty])]
    simp

/-- A row that was named before the launch is renamed, told of by its old name, and renamed
again before it was sent. -/
theorem watched_iff_named_of_renamed :
    let hs : List (Happening Script) := [.call (.addWatch "x"), .call (.addWatch "y"),
      .call (.deleteWatch 0), .call (.launch .debug fun _ => .ok (.new true [])),
      .meanwhile (·.cue (.writes "\x1b]>dbg> ")), .call .poll, .call (.editWatch 1 "z"),
      .meanwhile (·.cue (.writes "\x1b]>watch2 y 5\n")), .call .poll, .call (.editWatch 1 "z"),
      .meanwhile (·.cue (.writes "\x1b]>dbg> \x1b]>watch2 z 5\n\x1b]>dbg> ")), .call .poll]
    let c : Controller Script := (Controller.new .standard (.new .empty)).run hs
    Accepted c.journal ∧ Honest c.journal ∧ c.session.map (·.mode) = some .debug ∧
      c.watches.pending = [] ∧ watched c.journal 2 = some "z" ∧
      ∀ wireRow name, watched c.journal wireRow = some name ↔
        ∃ row e, wireRow = row + 1 ∧ c.watches.rows[row]? = some e ∧ e.name = name ∧
          name ≠ "" := by
  intro hs c
  have ha : Accepted c.journal := by decide +kernel
  have hh : Honest c.journal := by decide +kernel
  have hm : c.session.map (·.mode) = some .debug := by decide +kernel
  have hp : c.watches.pending = [] := by decide +kernel
  have hw : watched c.journal 2 = some "z" := by decide +kernel
  obtain ⟨s, hsession, hmode⟩ := Option.map_eq_some_iff.mp hm
  have hiff := watched_iff_named .standard (.new .empty) hs rfl ha hh hsession hmode
  exact ⟨ha, hh, hm, hp, hw, hiff.2 hp⟩

end Controller

end Debugline
