import Debugline.Proofs.Session.Moves
import Debugline.Transport.Script
import Mathlib.Data.List.DropRight
import Mathlib.Tactic.SplitIfs

/-! Which expression is sent for a watch. User and debugger both name rows, and a row is
sent with the name it has at the prompt: the one last given to it by either. -/

namespace Debugline

open Session Wire

namespace Watch.Table

variable {t : Table}

theorem nameOf_append_blank {rows blanks : List Entry} {pending : List Nat}
    (h : ∀ e ∈ blanks, e.isBlank) (row : Nat) :
    nameOf ⟨rows ++ blanks, pending⟩ row = nameOf ⟨rows, pending⟩ row := by
  simp only [nameOf, List.getElem?_append]
  split_ifs with hr
  · rfl
  · rw [List.getElem?_eq_none (Nat.le_of_not_lt hr)]
    cases hb : blanks[row - rows.length]? with
    | none => rfl
    | some e =>
      have he := h e (List.mem_of_getElem? hb)
      simpa [Entry.isBlank] using he

theorem nameOf_set {rows : List Entry} {pending : List Nat} {row : Nat} (hr : row < rows.length)
    (e : Entry) (row' : Nat) :
    nameOf ⟨rows.set row e, pending⟩ row' =
      if row = row' then e.name else nameOf ⟨rows, pending⟩ row' := by
  simp only [nameOf, List.getElem?_set]
  split_ifs <;> simp_all

theorem nameOf_concat (rows : List Entry) (pending : List Nat) (e : Entry) (row : Nat) :
    nameOf ⟨rows ++ [e], pending⟩ row =
      if rows.length = row then e.name else nameOf ⟨rows, pending⟩ row := by
  simp only [nameOf, List.getElem?_append]
  split_ifs with hlt heq heq
  · omega
  · rfl
  · simp [heq]
  · rw [List.getElem?_eq_none (by simp; omega), List.getElem?_eq_none (by omega)]

theorem nameOf_edit (t : Table) (row : Nat) (name : String) (row' : Nat) :
    (t.edit row name).nameOf row' = if row = row' then Text.trimmed name else t.nameOf row' := by
  have hlength : row < (padded t.rows row).length := by
    simp only [padded, List.length_append, List.length_replicate]
    omega
  have hblank : ∀ e ∈ List.replicate (row + 1 - t.rows.length) Entry.blank, e.isBlank := by
    intro e he
    rw [List.eq_of_mem_replicate he]
    rfl
  rw [edit, nameOf_set hlength, padded, nameOf_append_blank hblank]
  rfl

theorem nameOf_delete {row : Nat} (hr : row < t.rows.length) (row' : Nat) :
    (t.delete row).1.nameOf row' = if row = row' then "" else t.nameOf row' := by
  rw [delete, if_pos hr]
  exact nameOf_set hr .blank row'

/-- The debugger names a row of the table, or the one after it. -/
theorem nameOf_update {row i : Nat} {name value : String} {table : Table}
    (h : t.update row name value = (table, some i)) (row' : Nat) :
    table.nameOf row' = if row = row' + 1 then name else t.nameOf row' := by
  cases row with
  | zero => simp [update] at h
  | succ index =>
    simp only [update] at h
    split_ifs at h with hlt heq
    · obtain rfl : _ = table := congrArg Prod.fst h
      rw [nameOf_set hlt]
      simp only [Nat.add_right_cancel_iff]
    · obtain rfl : _ = table := congrArg Prod.fst h
      rw [nameOf_concat, heq]
      simp only [Nat.add_right_cancel_iff]
    · cases h

/-- The rows of a table up to the last named one, and the blank ones behind them. -/
structure Parts (rows named blanks : List Entry) : Prop where
  rows : rows = named ++ blanks
  blank : ∀ e ∈ blanks, e.isBlank
  last : ∀ e, named.getLast? = some e → e.isBlank = false

theorem exists_parts (rows : List Entry) : ∃ named blanks, Parts rows named blanks := by
  refine ⟨rows.rdropWhile Entry.isBlank, rows.rtakeWhile Entry.isBlank, ?_, fun e he => ?_,
    fun e he => ?_⟩
  · exact (List.rdropWhile_append_rtakeWhile (p := Entry.isBlank) (l := rows)).symm
  · exact List.mem_rtakeWhile_imp he
  · have hne : rows.rdropWhile Entry.isBlank ≠ [] := by
      intro hnil
      rw [hnil] at he
      cases he
    have hlast := List.rdropWhile_last_not Entry.isBlank rows hne
    rw [List.getLast?_eq_some_getLast hne] at he
    obtain rfl := Option.some.inj he
    simpa using hlast

/-- A table is parted in one way. -/
theorem Parts.named_eq {rows named blanks : List Entry} (h : Parts rows named blanks) :
    (rows.reverse.dropWhile Entry.isBlank).reverse = named := by
  have hnamed : named.reverse.dropWhile Entry.isBlank = named.reverse := by
    cases hr : named.reverse with
    | nil => rfl
    | cons e rest =>
      have he : named.getLast? = some e := by rw [← List.head?_reverse, hr]; rfl
      exact List.dropWhile_cons_of_neg (by simp [h.last e he])
  rw [h.rows, List.reverse_append, List.dropWhile_append_of_pos (by simpa using h.blank), hnamed,
    List.reverse_reverse]

/-- Of the blank rows at the end the first is left, or one is added. -/
theorem Parts.normalize {t : Table} {named blanks : List Entry} (h : Parts t.rows named blanks) :
    t.normalize = match blanks with
      | [] => (⟨named ++ [.blank], t.pending⟩, true)
      | [_] => (t, false)
      | blank :: _ :: _ => (⟨named ++ [blank], t.pending⟩, true) := by
  have hdrop : t.rows.drop named.length = blanks := by rw [h.rows, List.drop_left]
  unfold Table.normalize
  dsimp only
  rw [h.named_eq, hdrop]
  rcases blanks with _ | ⟨blank, _ | ⟨blank', blanks⟩⟩ <;> rfl

/-- One blank row stands behind the named ones, the first that stood there. -/
theorem Parts.rows_normalize {t : Table} {named blanks : List Entry}
    (h : Parts t.rows named blanks) :
    Parts t.normalize.1.rows named [blanks.headD .blank] := by
  have hrows : t.normalize.1.rows = named ++ [blanks.headD .blank] := by
    rw [h.normalize]
    rcases blanks with _ | ⟨blank, _ | ⟨blank', blanks⟩⟩
    · rfl
    · exact h.rows
    · rfl
  refine ⟨hrows, fun e he => ?_, h.last⟩
  obtain rfl := List.mem_singleton.mp he
  cases blanks with
  | nil => rfl
  | cons blank blanks => exact h.blank blank List.mem_cons_self

theorem Parts.nameOf {t : Table} {named blanks : List Entry} (h : Parts t.rows named blanks)
    (row : Nat) : t.nameOf row = Table.nameOf ⟨named, []⟩ row := by
  have hrows : t.nameOf row = Table.nameOf ⟨t.rows, []⟩ row := rfl
  rw [hrows, h.rows, nameOf_append_blank h.blank]

theorem nameOf_normalize (t : Table) (row : Nat) : t.normalize.1.nameOf row = t.nameOf row := by
  obtain ⟨named, blanks, h⟩ := exists_parts t.rows
  rw [h.nameOf, h.rows_normalize.nameOf]

theorem nameOf_settle (t : Table) (row : Nat) : t.settle.nameOf row = t.nameOf row := by
  unfold settle
  split
  · exact t.nameOf_normalize row
  · rfl

theorem nameOf_clearValues (t : Table) (row : Nat) : t.clearValues.nameOf row = t.nameOf row := by
  cases h : t.rows[row]? <;> simp [nameOf, clearValues, h]

end Watch.Table

namespace Wire.Command

/-- The command that gives a row, counted from 0, a name. -/
def ofWatch (row : Nat) (name : String) : Command :=
  if name.isEmpty then .clearWatch (row + 1) else .setWatch (row + 1) name

theorem ofWatch_inj {row : Nat} {name name' : String} :
    ofWatch row name = ofWatch row name' ↔ name = name' := by
  refine ⟨fun h => ?_, fun h => h ▸ rfl⟩
  unfold ofWatch at h
  split_ifs at h with hn hn' hn'
  · rw [String.isEmpty_iff.mp hn, String.isEmpty_iff.mp hn']
  · cases h; rfl

/-- The row, counted from 1, of a watch command. -/
def watchRow? : Command → Option Nat
  | .setWatch row _ | .clearWatch row => some row
  | _ => none

theorem watchRow?_of_resumes {c : Command} (h : c.resumes = true) : c.watchRow? = none := by
  cases c <;> first | rfl | cases h

theorem watchRow?_ofWatch (row : Nat) (name : String) :
    (ofWatch row name).watchRow? = some (row + 1) := by
  unfold ofWatch
  split <;> rfl

end Wire.Command

namespace Session

/-- The name that the debugger gives a row. -/
def Mark.told? (row : Nat) : Mark → Option String
  | .frame (.watch row' name _) => if row' = row + 1 then some name else none
  | _ => none

/-- The name that the user or the debugger gives a row. -/
def Mark.named? (row : Nat) : Mark → Option String
  | .asked row' name => if row' = row then some name else none
  | m => m.told? row

/-- The name last given to a row. -/
def latest (row : Nat) (journal : List Mark) : String :=
  (journal.findSome? (Mark.named? row)).getD ""

theorem latest_cons_some {m : Mark} {row : Nat} {name : String} (h : m.named? row = some name)
    (journal : List Mark) : latest row (m :: journal) = name := by
  simp [latest, h]

theorem latest_cons_none {m : Mark} {row : Nat} (h : m.named? row = none) (journal : List Mark) :
    latest row (m :: journal) = latest row journal := by
  simp [latest, h]

theorem Mark.named?_eq_told? {m : Mark} {row : Nat} (h : ∀ name, .asked row name ≠ m) :
    m.named? row = m.told? row := by
  cases m with
  | asked row' name =>
    have hrow : row' ≠ row := fun he => h name (he ▸ rfl)
    simp [named?, told?, hrow]
  | _ => rfl

/-- After the user named a row, the debugger decides. -/
theorem latest_append_asked {row : Nat} {name : String} {between before : List Mark}
    (last : ∀ name', .asked row name' ∉ between) :
    latest row (between ++ .asked row name :: before) =
      (between.findSome? (Mark.told? row)).getD name := by
  induction between with
  | nil => simp [latest, Mark.named?]
  | cons m between ih =>
    simp only [List.mem_cons, not_or] at last
    have hm : m.named? row = m.told? row := Mark.named?_eq_told? fun name => (last name).1
    rw [List.cons_append, List.findSome?_cons]
    cases ht : m.told? row with
    | none =>
      rw [latest_cons_none (hm.trans ht)]
      exact ih fun name => (last name).2
    | some told => exact latest_cons_some (hm.trans ht) _

/-- Each watch command gives its row the name that the row had. -/
def Faithful (journal : List Mark) : Prop :=
  ∀ state mode command ok past row, .sent state mode (.command command) ok :: past <:+ journal →
    command.watchRow? = some (row + 1) → command = .ofWatch row (latest row past)

theorem Faithful.cons {m : Mark} {journal : List Mark} (h : Faithful journal)
    (hm : ∀ state mode command ok row, m = .sent state mode (.command command) ok →
      command.watchRow? = some (row + 1) → command = .ofWatch row (latest row journal)) :
    Faithful (m :: journal) := by
  intro state mode command ok past row hp hrow
  rcases List.suffix_cons_iff.mp hp with he | hp
  · obtain ⟨rfl, rfl⟩ := List.cons.inj he
    exact hm _ _ _ _ _ rfl hrow
  · exact h _ _ _ _ _ _ hp hrow

end Session

namespace Outline

/-- Rows have the names last given to them, and are sent by those. -/
structure Named (o : Outline) : Prop where
  table : ∀ row, o.watches.nameOf row = latest row o.journal
  sent : Faithful o.journal

variable {o o' : Outline}

/-- What names no row and sends none. -/
theorem Named.still (h : o.Named) (hj : o'.journal = o.journal)
    (hw : ∀ row, o'.watches.nameOf row = o.watches.nameOf row) : o'.Named := by
  refine ⟨fun row => ?_, hj ▸ h.sent⟩
  rw [hw, hj, h.table]

/-- A mark that sends no row. -/
theorem Named.quiet (h : o.Named) {m : Mark} (hj : o'.journal = m :: o.journal)
    (hm : m.command?.bind Command.watchRow? = none)
    (hw : ∀ row, o'.watches.nameOf row = (m.named? row).getD (o.watches.nameOf row)) :
    o'.Named := by
  refine ⟨fun row => ?_, ?_⟩
  · rw [hj, hw, h.table]
    cases hn : m.named? row with
    | none => rw [latest_cons_none hn]; rfl
    | some name => rw [latest_cons_some hn]; rfl
  · rw [hj]
    refine h.sent.cons fun state mode command ok row he hrow => ?_
    rw [he] at hm
    cases hm.symm.trans hrow

theorem Move.named (m : Move o o') (h : o.Named) : o'.Named := by
  cases m with
  | refuse | rebuild | invalidate => exact h.still rfl fun _ => rfl
  | finish => exact h.still rfl fun _ => rfl
  | startRun => exact h.quiet rfl rfl fun _ => rfl
  | startDebug => exact h.quiet rfl rfl fun row => o.watches.nameOf_clearValues row
  | frame f session other =>
    cases f with
    | watch row name value => exact absurd rfl (other row name value)
    | _ => exact h.quiet rfl rfl fun _ => rfl
  | report session update =>
    refine h.quiet rfl rfl fun row => ?_
    rw [Watch.Table.nameOf_update update row]
    simp only [Mark.named?, Mark.told?]
    split <;> rfl
  | promptIdle => exact h.quiet rfl rfl fun row => o.watches.nameOf_settle row
  | @promptWatch row rest session due ok =>
    have hsend : o.watches.commandFor row = .ofWatch row (o.watches.nameOf row) := rfl
    have hprompt : Faithful (.frame .prompt :: o.journal) :=
      h.sent.cons fun _ _ _ _ _ he => by cases he
    refine ⟨fun row' => ?_, hprompt.cons fun _ _ command _ row' he hrow => ?_⟩
    · exact (Watch.Table.nameOf_settle _ row').trans (h.table row')
    · obtain rfl : o.watches.commandFor row = command := by cases he; rfl
      rw [hsend, Command.watchRow?_ofWatch] at hrow
      obtain rfl : row = row' := by simpa using hrow
      rw [hsend, h.table]
      rfl
  | clear | breakAt | evaluate =>
    exact h.quiet rfl rfl fun _ => rfl
  | resume waits resumes | resumeFailed waits resumes =>
    exact h.quiet rfl (Command.watchRow?_of_resumes resumes) fun _ => rfl
  | input => exact h.quiet rfl rfl fun _ => rfl
  | edit row name =>
    refine h.quiet rfl rfl fun row' => ?_
    rw [Watch.Table.nameOf_edit]
    simp only [Mark.named?]
    split <;> rfl
  | delete there =>
    refine h.quiet rfl rfl fun row' => ?_
    rw [Watch.Table.nameOf_delete there]
    simp only [Mark.named?]
    split <;> rfl

end Outline

namespace Controller

variable {τ : Type} [Transport τ]

theorem run_named (config : Config) (editor : Editor) (hs : List (Happening τ)) :
    ((Controller.new config editor).run hs).outline.Named := by
  have hnew : (Controller.new config editor : Controller τ).outline.Named := by
    refine ⟨fun row => ?_, fun _ _ _ _ _ _ hp => ?_⟩
    · cases row <;> rfl
    · cases List.suffix_nil.mp hp
  exact run_keep (fun _ hp m => m.named hp) (fun _ hp => hp.still rfl fun _ => rfl)
    (sound_new config editor) hnew hs

/-- A row is sent as the user last named it just when the debugger has not since given it
another name. A row that was deleted has the empty name. -/
theorem watch_sent_as_asked_iff (config : Config) (editor : Editor) (hs : List (Happening τ))
    {later between before : List Mark} {state : State} {mode : Mode} {command : Command}
    {ok : Bool} {row : Nat} {name : String}
    (journal : ((Controller.new config editor).run hs).journal =
      later ++ .sent state mode (.command command) ok :: (between ++ .asked row name :: before))
    (about : command.watchRow? = some (row + 1)) (last : ∀ name', .asked row name' ∉ between) :
    command = .ofWatch row name ↔
      ∀ told, between.findSome? (Mark.told? row) = some told → told = name := by
  have hsent : command = .ofWatch row (latest row (between ++ .asked row name :: before)) :=
    (run_named config editor hs).sent state mode command ok _ row ⟨later, journal.symm⟩ about
  rw [hsent, Command.ofWatch_inj, latest_append_asked last]
  cases between.findSome? (Mark.told? row) <;> simp

/-- The debugger answers with the name that it is about to be sent. -/
theorem watch_sent_as_asked_of_echo :
    let hs : List (Happening Script) := [.call (.launch .debug fun _ => .ok (.new true [])),
      .call (.addWatch "x"), .meanwhile (·.cue (.writes "\x1b]>watch1 x 5\n\x1b]>dbg> ")),
      .call .poll]
    let later : List Mark := [.sent .pausedAtPrompt .debug (.command .clearBreakpoints) true]
    let between : List Mark := [.frame .prompt, .frame (.watch 1 "x" "5")]
    ((Controller.new .standard (.new .empty)).run hs).journal = later ++
        .sent .pausedAtPrompt .debug (.command (.setWatch 1 "x")) true ::
          (between ++ .asked 0 "x" :: [.launched .debug]) ∧
      (Command.setWatch 1 "x").watchRow? = some (0 + 1) ∧
      (∀ name, .asked 0 name ∉ between) ∧ Command.setWatch 1 "x" = .ofWatch 0 "x" := by
  intro hs later between
  have hj : ((Controller.new .standard (.new .empty)).run hs).journal = later ++
      .sent .pausedAtPrompt .debug (.command (.setWatch 1 "x")) true ::
        (between ++ .asked 0 "x" :: [.launched .debug]) := by decide +kernel
  have hlast : ∀ name, .asked 0 name ∉ between := by simp [between]
  have hecho : between.findSome? (Mark.told? 0) = some "x" := by decide
  have htold : ∀ told, between.findSome? (Mark.told? 0) = some told → told = "x" :=
    fun _ ht => (Option.some.inj (hecho.symm.trans ht)).symm
  have hiff := watch_sent_as_asked_iff .standard (.new .empty) hs hj rfl hlast
  exact ⟨hj, rfl, hlast, hiff.mpr htold⟩

/-- A row that was deleted is set again: before the prompt, the debugger told of it once
more. -/
theorem watch_not_sent_as_asked :
    ¬ ∀ (hs : List (Happening Script)) (later between before : List Mark) (state : State)
      (mode : Mode) (command : Command) (ok : Bool) (row : Nat) (name : String),
      ((Controller.new .standard (.new .empty)).run hs).journal =
        later ++ .sent state mode (.command command) ok :: (between ++ .asked row name :: before) →
      command.watchRow? = some (row + 1) → (∀ name', .asked row name' ∉ between) →
      command = .ofWatch row name := by
  intro h
  let hs : List (Happening Script) := [.call (.launch .debug fun _ => .ok (.new true [])),
    .call (.addWatch "x"), .meanwhile (·.cue (.writes "\x1b]>dbg> ")), .call .poll,
    .call (.deleteWatch 0), .meanwhile (·.cue (.writes "\x1b]>watch1 x 5\n\x1b]>dbg> ")),
    .call .poll]
  have hj : ((Controller.new .standard (.new .empty)).run hs).journal =
      [] ++ .sent .pausedAtPrompt .debug (.command (.setWatch 1 "x")) true ::
        ([.frame .prompt, .frame (.watch 1 "x" "5")] ++ .asked 0 "" ::
          [.sent .pausedAtPrompt .debug (.command .clearBreakpoints) true,
            .sent .pausedAtPrompt .debug (.command (.setWatch 1 "x")) true, .frame .prompt,
            .asked 0 "x", .launched .debug]) := by decide +kernel
  have hc : Command.setWatch 1 "x" = .ofWatch 0 "" :=
    h hs _ _ _ _ _ _ _ 0 "" hj rfl (by simp)
  exact absurd hc (by decide)

end Controller

end Debugline
