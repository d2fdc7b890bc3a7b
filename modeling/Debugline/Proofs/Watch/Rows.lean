import Debugline.Proofs.Session.UnusableFrames

/-! Rows keep their places. A row is known by its number, to the debugger too, so no operation may
move a named row to another number or drop it: its name changes by an operation on that row alone.
Rows are taken off the end only when they are blank and none is to be sent, and so what is to be
sent is always a row of the table. -/

namespace Debugline

open Session Wire

namespace Watch

/-- An operation on a table. -/
inductive Op
  | edit (row : Nat) (name : String)
  | add (name : String)
  | delete (row : Nat)
  | update (row : Nat) (name value : String)
  | next
  | normalize
  | rearm
  | clearPending
  | clearValues

/-- The row that an operation is about. The debugger counts rows from 1. -/
def Op.target? (t : Table) : Op → Option Nat
  | .edit row _ | .delete row | .update (row + 1) _ _ => some row
  | .add _ => some t.nextFree
  | _ => none

namespace Table

variable {t : Table} {row : Nat}

def after (t : Table) : Op → Table
  | .edit row name => t.edit row name
  | .add name => (t.add name).1
  | .delete row => (t.delete row).1
  | .update row name value => (t.update row name value).1
  | .next => t.next.1
  | .normalize => t.normalize.1
  | .rearm => t.rearm
  | .clearPending => t.clearPending
  | .clearValues => t.clearValues

def run (t : Table) (ops : List Op) : Table := ops.foldl after t

/-! ### Names -/

theorem next_fst (t : Table) : t.next.1 = { t with pending := t.pending.tail } := by
  obtain ⟨rows, _ | ⟨row, rest⟩⟩ := t <;> rfl

theorem nameOf_after {op : Op} (h : op.target? t ≠ some row) :
    (t.after op).nameOf row = t.nameOf row := by
  cases op with
  | edit row' name =>
    have hne : row' ≠ row := fun he => h (congrArg some he)
    exact (nameOf_edit t row' name row).trans (if_neg hne)
  | add name =>
    have hne : t.nextFree ≠ row := fun he => h (congrArg some he)
    exact (nameOf_edit t t.nextFree name row).trans (if_neg hne)
  | delete row' =>
    have hne : row' ≠ row := fun he => h (congrArg some he)
    by_cases hr : row' < t.rows.length
    · exact (nameOf_delete hr row).trans (if_neg hne)
    · simp only [after, delete, if_neg hr]
  | update row' name value =>
    cases hu : t.update row' name value with
    | mk table known =>
      cases known with
      | none => rw [after, hu, eq_of_update_none hu]
      | some i =>
        have hne : row' ≠ row + 1 := by
          rintro rfl
          exact h rfl
        rw [after, hu, nameOf_update hu, if_neg hne]
  | next =>
    rw [after, next_fst]
    rfl
  | normalize => exact nameOf_normalize t row
  | rearm | clearPending => rfl
  | clearValues => exact nameOf_clearValues t row

/-- A row that no operation is about, at its moment, keeps its name. -/
theorem nameOf_run {ops : List Op}
    (h : ∀ early op late, ops = early ++ op :: late → op.target? (t.run early) ≠ some row) :
    (t.run ops).nameOf row = t.nameOf row := by
  induction ops generalizing t with
  | nil => rfl
  | cons op ops ih =>
    have hrest : ((t.after op).run ops).nameOf row = (t.after op).nameOf row :=
      ih fun early op' late he => h (op :: early) op' late (congrArg (op :: ·) he)
    exact hrest.trans (nameOf_after (h [] op ops rfl))

/-- A new expression takes a row without a name. -/
theorem nameOf_nextFree (t : Table) : t.nameOf t.nextFree = "" := by
  unfold nextFree
  split
  · next last hl =>
    split_ifs with hb
    · have hlast : t.rows[t.rows.length - 1]? = some last := by
        rw [← List.getLast?_eq_getElem?]
        exact hl
      simpa [nameOf, hlast, Entry.isBlank] using hb
    · simp [nameOf]
  · next hl =>
    rw [List.getLast?_eq_none_iff] at hl
    simp [nameOf, hl]

/-! ### The blank row at the end -/

theorem pending_normalize (t : Table) : t.normalize.1.pending = t.pending := by
  obtain ⟨named, blanks, h⟩ := exists_parts t.rows
  rw [h.normalize]
  rcases blanks with _ | ⟨_, _ | ⟨_, _⟩⟩ <;> rfl

/-- The names without the empty ones at their end, and one empty name. -/
theorem names_normalize (t : Table) : t.normalize.1.rows.map (·.name) =
    (t.rows.map (·.name)).rdropWhile String.isEmpty ++ [""] := by
  obtain ⟨named, blanks, h⟩ := exists_parts t.rows
  have hafter := h.rows_normalize
  have hblank : (blanks.headD .blank).name = "" := by
    simpa [Entry.isBlank] using hafter.blank _ List.mem_cons_self
  have hnames : (t.rows.map (·.name)).rdropWhile String.isEmpty = named.map (·.name) := by
    rw [← h.named_eq, List.rdropWhile, ← List.map_reverse, List.dropWhile_map, ← List.map_reverse]
    rfl
  rw [hafter.rows, hnames, List.map_append, List.map_singleton, hblank]

/-- A row that is there before and after is the same. -/
theorem getElem?_normalize (before : row < t.rows.length)
    (left : row < t.normalize.1.rows.length) : t.normalize.1.rows[row]? = t.rows[row]? := by
  obtain ⟨named, blanks, h⟩ := exists_parts t.rows
  rw [h.rows] at before ⊢
  rw [h.rows_normalize.rows] at left ⊢
  rw [List.length_append] at before left
  by_cases hr : row < named.length
  · rw [List.getElem?_append_left hr, List.getElem?_append_left hr]
  · obtain rfl : row = named.length := by
      rw [List.length_singleton] at left
      omega
    cases blanks with
    | nil => simp at before
    | cons blank blanks => simp

theorem normalize_snd_iff (t : Table) : t.normalize.2 = true ↔ t.normalize.1 ≠ t := by
  obtain ⟨named, blanks, h⟩ := exists_parts t.rows
  have hlength : t.rows.length = named.length + blanks.length := by rw [h.rows, List.length_append]
  have hshorter : ∀ blank, blanks.length ≠ 1 →
      (⟨named ++ [blank], t.pending⟩ : Table) ≠ t := by
    intro blank hne he
    have hrows := congrArg (fun t : Table => t.rows.length) he
    simp only [List.length_append, List.length_singleton] at hrows
    omega
  rw [h.normalize]
  rcases blanks with _ | ⟨blank, _ | ⟨blank', blanks⟩⟩
  · simp [hshorter]
  · simp
  · simp [hshorter]

theorem normalize_normalize (t : Table) :
    t.normalize.1.normalize = (t.normalize.1, false) := by
  obtain ⟨named, blanks, h⟩ := exists_parts t.rows
  exact h.rows_normalize.normalize

/-! ### Rows to be sent -/

/-- What is to be sent is a row of the table. -/
def InRange (t : Table) : Prop := ∀ row ∈ t.pending, row < t.rows.length

theorem InRange.mono {t' : Table} (h : t.InRange) (pending : t'.pending ⊆ t.pending)
    (rows : t.rows.length ≤ t'.rows.length) : t'.InRange :=
  fun row hr => Nat.lt_of_lt_of_le (h row (pending hr)) rows

theorem inRange_edit (h : t.InRange) (row : Nat) (name : String) : (t.edit row name).InRange := by
  have hlength : (t.edit row name).rows.length = t.rows.length + (row + 1 - t.rows.length) := by
    simp [edit, padded]
  intro row' hr
  rw [hlength]
  rcases List.mem_append.mp hr with hr | hr
  · have := h row' hr
    omega
  · obtain rfl := List.mem_singleton.mp hr
    omega

theorem length_le_update (t : Table) (row : Nat) (name value : String) :
    t.rows.length ≤ (t.update row name value).1.rows.length := by
  unfold update
  split
  · exact Nat.le_refl _
  · split_ifs <;> simp

theorem rearm_inRange (t : Table) : t.rearm.InRange := by
  intro row hr
  obtain ⟨⟨e, i⟩, hmem, he⟩ := List.mem_filterMap.mp hr
  have hi := (List.mem_zipIdx' hmem).1
  dsimp only at he
  split_ifs at he
  obtain rfl := Option.some.inj he
  exact hi

/-- Only a row that is taken off the end could go out of range. -/
theorem InRange.after (h : t.InRange) (op : Op) (idle : op = .normalize → t.pending = []) :
    (t.after op).InRange := by
  cases op with
  | edit row name => exact inRange_edit h row name
  | add name => exact inRange_edit h t.nextFree name
  | delete row =>
    by_cases hr : row < t.rows.length
    · intro row' hr'
      simp only [Table.after, delete, if_pos hr, List.length_set] at hr' ⊢
      rcases List.mem_append.mp hr' with hr' | hr'
      · exact h row' hr'
      · exact List.mem_singleton.mp hr' ▸ hr
    · simpa only [Table.after, delete, if_neg hr] using h
  | update row name value =>
    have hpending := t.pending_update row name value
    exact h.mono (hpending ▸ List.Subset.refl _) (t.length_le_update row name value)
  | next =>
    rw [Table.after, next_fst]
    exact h.mono (List.tail_subset _) (Nat.le_refl _)
  | normalize =>
    intro row hr
    rw [Table.after, pending_normalize, idle rfl] at hr
    cases hr
  | rearm => exact rearm_inRange t
  | clearPending =>
    intro row hr
    cases hr
  | clearValues => exact h.mono (List.Subset.refl _) (by simp [Table.after, clearValues])

theorem InRange.settle (h : t.InRange) : t.settle.InRange := by
  unfold Table.settle
  split_ifs with hp
  · exact h.after .normalize fun _ => List.isEmpty_iff.mp hp
  · exact h

end Table

end Watch

/-! ### Runs -/

/-- What happens to a table in a run is done by operations, and it is put in order only when no
row is to be sent. -/
theorem Outline.Move.inRange {o o' : Outline} (m : Move o o') (h : o.watches.InRange) :
    o'.watches.InRange := by
  cases m with
  | startDebug => exact (h.after .clearValues nofun).after .rearm nofun
  | finish => exact h.after .clearPending nofun
  | @report row i name value table session update =>
    have htable : o.watches.after (.update row name value) = table := congrArg Prod.fst update
    exact htable ▸ h.after (.update row name value) nofun
  | promptIdle => exact h.settle
  | @promptWatch row rest session due ok =>
    have hnext : o.watches.after .next = { o.watches with pending := rest } := by
      rw [Watch.Table.after, Watch.Table.next_fst, due]
      rfl
    exact (hnext ▸ h.after .next nofun : Watch.Table.InRange _).settle
  | edit row name => exact h.after (.edit row name) nofun
  | @delete row there => exact h.after (.delete row) nofun
  | refuse | startRun | frame | clear | breakAt | rebuild | resume | resumeFailed | evaluate | input
    | invalidate => exact h

namespace Controller

variable {τ : Type} [Transport τ]

theorem run_inRange (config : Config) (editor : Editor) (hs : List (Happening τ)) :
    ((Controller.new config editor).run hs).watches.InRange :=
  run_keep (P := fun o => o.watches.InRange) (fun _ hp m => m.inRange hp) (fun _ hp => hp)
    (sound_new config editor) (by exact nofun) hs

/-- After a prompt the table is in order, unless a row is still to be sent. -/
theorem endsInOneBlank_of_prompt {c : Controller τ} (h : (c.apply .prompt).watches.pending = []) :
    (c.apply .prompt).watches.EndsInOneBlank := by
  have hprompt : (c.apply .prompt).watches = c.watches.next.1.settle := reachPrompt_watches _
  rw [hprompt, Watch.Table.pending_settle] at h
  exact hprompt ▸ Watch.Table.settle_endsInOneBlank h

/-- Rows keep their places. Over any operations, a name changes only by one that is about its row,
and a new expression takes a row without a name. Putting the table in order leaves the names
without the empty ones at their end, and one empty name; it changes no other row, says whether it
changed the table, and done again it changes nothing. In a session all rows to be sent are rows of
the table, and a prompt after which none is to be sent leaves one blank row at the end. -/
theorem watch_rows_keep_places :
    (∀ (t : Watch.Table) (ops : List Watch.Op) (row : Nat),
      (∀ early op late, ops = early ++ op :: late → op.target? (t.run early) ≠ some row) →
        (t.run ops).nameOf row = t.nameOf row) ∧
    (∀ t : Watch.Table, t.nameOf t.nextFree = "") ∧
    (∀ t : Watch.Table,
      t.normalize.1.rows.map (·.name) =
        (t.rows.map (·.name)).rdropWhile String.isEmpty ++ [""] ∧
      (∀ row < t.rows.length, row < t.normalize.1.rows.length →
        t.normalize.1.rows[row]? = t.rows[row]?) ∧
      t.normalize.1.pending = t.pending ∧
      (t.normalize.2 = true ↔ t.normalize.1 ≠ t) ∧
      t.normalize.1.normalize = (t.normalize.1, false)) ∧
    (∀ (config : Config) (editor : Editor) (hs : List (Happening τ)),
      ∀ row ∈ ((Controller.new config editor).run hs).watches.pending,
        row < ((Controller.new config editor).run hs).watches.rows.length) ∧
    ∀ c : Controller τ, (c.apply .prompt).watches.pending = [] →
      (c.apply .prompt).watches.EndsInOneBlank := by
  refine ⟨fun t ops row h => Watch.Table.nameOf_run h, Watch.Table.nameOf_nextFree, fun t => ?_,
    fun config editor hs => run_inRange config editor hs, fun c h => endsInOneBlank_of_prompt h⟩
  exact ⟨t.names_normalize, fun row hr hl => Watch.Table.getElem?_normalize hr hl,
    t.pending_normalize, t.normalize_snd_iff, t.normalize_normalize⟩

end Controller

end Debugline
