import Debugline.Editor.Basic
import Mathlib.Order.Monotone.Basic

/-! Which line holds a position. A line is at or before the line of a position just when it begins
at or before the position. So a line holds the positions from its beginning to the one behind its
characters, and the last line holds all that follow. -/

namespace Debugline

namespace Document

variable {ls : List String} {line position : Nat} {text : String}

/-- The next line begins behind the line feed, which stands behind the characters. -/
theorem lineStart_succ (h : ls[line]? = some text) :
    lineStart ls (line + 1) = lineStart ls line + text.length + 1 := by
  induction ls generalizing line with
  | nil => simp at h
  | cons first ls ih =>
    cases line with
    | zero =>
      obtain rfl : first = text := by simpa using h
      cases ls <;> simp [lineStart]
    | succ line =>
      have hrest := ih (by simpa using h)
      simp only [lineStart]
      omega

theorem lineAt_lt (h : ls ≠ []) (position : Nat) : lineAt ls position < ls.length := by
  fun_induction lineAt ls position with
  | case1 => exact absurd rfl h
  | case2 => simp
  | case3 => simp
  | case4 position first ls hne hlong ih =>
    have hrest := ih hne
    simp only [List.length_cons]
    omega

/-- A line that begins at or before a position is not behind the line of the position, and the other
way round. -/
theorem le_lineAt_iff (h : line < ls.length) :
    line ≤ lineAt ls position ↔ lineStart ls line ≤ position := by
  fun_induction lineAt ls position generalizing line with
  | case1 => simp at h
  | case2 position first =>
    obtain rfl : line = 0 := by simpa using h
    simp [lineStart]
  | case3 position first ls hne hshort =>
    cases line with
    | zero => simp [lineStart]
    | succ line =>
      simp only [lineStart]
      omega
  | case4 position first ls hne hlong ih =>
    cases line with
    | zero => simp [lineStart]
    | succ line =>
      have hrest := @ih line (by simpa using h)
      simp only [lineStart]
      omega

theorem lt_length_of_getElem? (h : ls[line]? = some text) : line < ls.length :=
  (List.getElem?_eq_some_iff.mp h).1

theorem lineAt_lineStart_add (h : ls[line]? = some text) {column : Nat}
    (hc : column ≤ text.length) : lineAt ls (lineStart ls line + column) = line := by
  have hlt := lt_length_of_getElem? h
  have hne : ls ≠ [] := List.ne_nil_of_length_pos (Nat.zero_lt_of_lt hlt)
  refine Nat.le_antisymm ?_ ((le_lineAt_iff hlt).mpr (Nat.le_add_right _ _))
  by_contra hn
  have hnext : line + 1 < ls.length :=
    Nat.lt_of_le_of_lt (Nat.lt_of_not_le hn) (lineAt_lt hne _)
  have hstart := (le_lineAt_iff hnext).mp (Nat.lt_of_not_le hn)
  rw [lineStart_succ h] at hstart
  omega

theorem lineAt_mono (ls : List String) : Monotone (lineAt ls) := by
  intro p q hpq
  by_cases hne : ls = []
  · simp [hne, lineAt]
  · have hlt := lineAt_lt hne p
    exact (le_lineAt_iff hlt).mpr (((le_lineAt_iff hlt).mp (Nat.le_refl _)).trans hpq)

/-- The line of a position holds it, if the position is not behind all lines. -/
theorem lineAt_bounds {last : String} (hlast : ls[ls.length - 1]? = some last)
    (h : position ≤ lineStart ls (ls.length - 1) + last.length) :
    ∃ text, ls[lineAt ls position]? = some text ∧ lineStart ls (lineAt ls position) ≤ position ∧
      position ≤ lineStart ls (lineAt ls position) + text.length := by
  have hne : ls ≠ [] := by
    rintro rfl
    simp at hlast
  have hlt := lineAt_lt hne position
  obtain ⟨text, htext⟩ : ∃ text, ls[lineAt ls position]? = some text :=
    ⟨_, List.getElem?_eq_getElem hlt⟩
  refine ⟨text, htext, (le_lineAt_iff hlt).mp (Nat.le_refl _), ?_⟩
  by_cases hnext : lineAt ls position + 1 < ls.length
  · have hstart := mt (le_lineAt_iff hnext).mpr (Nat.not_succ_le_self _)
    rw [lineStart_succ htext] at hstart
    omega
  · have he : lineAt ls position = ls.length - 1 := by omega
    rw [he] at htext ⊢
    obtain rfl : last = text := Option.some.inj (hlast.symm.trans htext)
    exact h

theorem lineAt_of_behind (hne : ls ≠ []) (h : lineStart ls (ls.length - 1) ≤ position) :
    lineAt ls position = ls.length - 1 := by
  have hlt := lineAt_lt hne position
  have hle := (le_lineAt_iff (by omega)).mpr h
  omega

end Document

namespace Editor

variable {e : Editor} {doc : DocId} {d : Document}

theorem lineAt_of_doc? (h : e.doc? doc = some d) : e.lineAt doc = Document.lineAt d.lines := by
  funext position
  simp [lineAt, h]

theorem lineStart_of_doc? (h : e.doc? doc = some d) :
    e.lineStart doc = Document.lineStart d.lines := by
  funext line
  simp [lineStart, h]

theorem lineText?_of_doc? (h : e.doc? doc = some d) (line : Nat) :
    e.lineText? doc line = d.lines[line]? := by
  simp [lineText?, h]

/-- A line that is there belongs to an open document. -/
theorem exists_doc?_of_lineText? {line : Nat} {text : String}
    (h : e.lineText? doc line = some text) :
    ∃ d, e.doc? doc = some d ∧ d.lines[line]? = some text := by
  simpa [lineText?, Option.bind_eq_some_iff] using h

theorem lineAt_lineStart_add {line column : Nat} {text : String}
    (h : e.lineText? doc line = some text) (hc : column ≤ text.length) :
    e.lineAt doc (e.lineStart doc line + column) = line := by
  obtain ⟨d, hd, hline⟩ := exists_doc?_of_lineText? h
  rw [lineAt_of_doc? hd, lineStart_of_doc? hd]
  exact Document.lineAt_lineStart_add hline hc

/-- The positions of a document with `n` lines. -/
structure Lined (e : Editor) (doc : DocId) (n : Nat) : Prop where
  /-- The positions of a line, from its beginning to its end, are in this line. -/
  inside : ∀ line text column, e.lineText? doc line = some text → column ≤ text.length →
    e.lineAt doc (e.lineStart doc line + column) = line
  /-- A position up to the end of the last line is between the ends of its line. -/
  around : ∀ last position, e.lineText? doc (n - 1) = some last →
    position ≤ e.lineStart doc (n - 1) + last.length →
    ∃ text, e.lineText? doc (e.lineAt doc position) = some text ∧
      e.lineStart doc (e.lineAt doc position) ≤ position ∧
      position ≤ e.lineStart doc (e.lineAt doc position) + text.length
  mono : Monotone (e.lineAt doc)
  behind : ∀ last position, e.lineText? doc (n - 1) = some last →
    e.lineStart doc (n - 1) + last.length < position → e.lineAt doc position = n - 1

theorem lined (h : e.doc? doc = some d) (hne : d.lines ≠ []) : e.Lined doc d.lines.length where
  inside _ _ _ := lineAt_lineStart_add
  around last position hlast hp := by
    simp only [lineText?_of_doc? h, lineAt_of_doc? h, lineStart_of_doc? h] at hlast hp ⊢
    exact Document.lineAt_bounds hlast hp
  mono := lineAt_of_doc? h ▸ Document.lineAt_mono d.lines
  behind last position _ hp := by
    rw [lineStart_of_doc? h] at hp
    rw [lineAt_of_doc? h]
    exact Document.lineAt_of_behind hne (by omega)

end Editor

end Debugline
