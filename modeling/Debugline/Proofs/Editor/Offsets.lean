import Debugline.Proofs.Editor.Intact
import Debugline.Proofs.Editor.Lines
import Debugline.Proofs.Text.Lines
import Debugline.Session.Run

/-! Positions as offsets of characters. The positions of a document count one character for the end
of each line. So they are the offsets of the text that was opened with its line ends as single line
feeds, and those of the text itself unless a line before the last ends with a carriage return
too. -/

namespace Debugline

open Text

/-! ### Documents laid out in lines -/

namespace Text.Laid

variable {ls : List (List Char)} {t : List Char}

theorem beginsLine (h : Laid ls t) {k : Nat} (hk : k < ls.length) :
    BeginsLine t k (Document.lineStart (ls.map .ofList) k) := by
  induction h generalizing k with
  | nil => simp at hk
  | last l h ht =>
    obtain rfl : k = 0 := by simpa using hk
    exact beginsLine_zero _
  | @line l t ls h hne ht ih =>
    cases k with
    | zero => exact beginsLine_zero _
    | succ k =>
      have hrest := (ih (by simpa using hk)).line h
      rwa [← String.length_ofList (l := l)] at hrest

/-- The line of a character is the number of line feeds before it. -/
theorem lineAt_eq (h : Laid ls t) {p : Nat} (hp : p < t.length) :
    Document.lineAt (ls.map .ofList) p = (t.take p).count '\n' := by
  have hcount := h.count_lt hp
  have hne : ls.map String.ofList ≠ [] := by
    rintro he
    simp [List.map_eq_nil_iff.mp he] at hcount
  have hlt := Document.lineAt_lt hne p
  have hlt' : Document.lineAt (ls.map String.ofList) p < ls.length := by simpa using hlt
  refine Nat.le_antisymm ?_ ?_
  · exact ((h.beginsLine hlt').le_count_iff p).mpr ((Document.le_lineAt_iff hlt).mp (Nat.le_refl _))
  · refine (Document.le_lineAt_iff (by simpa using hcount)).mpr ?_
    exact ((h.beginsLine hcount).le_count_iff p).mp (Nat.le_refl _)

end Text.Laid

namespace Editor

variable {e : Editor} {doc : DocId} {d : Document}

/-- The positions of a document are the offsets of the characters of a text. -/
structure Offsets (e : Editor) (doc : DocId) (t : List Char) : Prop where
  /-- As many line feeds stand before a character as lines before its line. -/
  line : ∀ p < t.length, e.lineAt doc p = (t.take p).count '\n'
  /-- A line begins behind the line feed of the line before it. -/
  start : ∀ k text, e.lineText? doc k = some text → BeginsLine t k (e.lineStart doc k)

theorem offsets_of_laid (hd : e.doc? doc = some d) {ls : List (List Char)} {t : List Char}
    (hlines : d.lines = ls.map .ofList) (h : Laid ls t) : e.Offsets doc t where
  line p hp := by
    rw [lineAt_of_doc? hd, hlines]
    exact h.lineAt_eq hp
  start k text hk := by
    rw [lineText?_of_doc? hd, hlines] at hk
    rw [lineStart_of_doc? hd, hlines]
    exact h.beginsLine (by simpa using Document.lt_length_of_getElem? hk)

/-- No line but the last ends with a carriage return before its line feed. -/
theorem eq_nil_of_offsets (hd : e.doc? doc = some d) {t : List Char}
    (hlines : d.lines = (lines t).map .ofList) (h : e.Offsets doc t) (a b : List Char)
    (ht : t = a ++ '\r' :: '\n' :: b) : b = [] := by
  by_contra hb
  have hlaid := laid_unreturned t
  have hplain : unreturned t = unreturned a ++ '\n' :: unreturned b := by
    rw [ht, unreturned_append_return]
  have hbehind : BeginsLine (unreturned t) (a.count '\n' + 1) ((unreturned a).length + 1) := by
    rw [hplain, ← count_unreturned]
    exact beginsLine_append _ _
  have hk : a.count '\n' + 1 < (lines t).length := by
    have hlt : (unreturned a).length + 1 < (unreturned t).length := by
      have hpos := List.length_pos_iff.mpr (unreturned_ne_nil hb)
      simp only [hplain, List.length_append, List.length_cons]
      omega
    exact hbehind.feeds ▸ hlaid.count_lt hlt
  obtain ⟨text, htext⟩ : ∃ text, e.lineText? doc (a.count '\n' + 1) = some text := by
    rw [lineText?_of_doc? hd, hlines]
    exact ⟨_, List.getElem?_eq_getElem (by simpa using hk)⟩
  have hfirst := ((offsets_of_laid hd hlines hlaid).start _ _ htext).unique hbehind
  have hreturn : BeginsLine t (a.count '\n' + 1) (a.length + 1 + 1) := by
    have hbegins := beginsLine_append (a ++ ['\r']) b
    simpa [ht, List.count_append] using hbegins
  have hsecond := (h.start _ _ htext).unique hreturn
  have hle := length_unreturned_le a
  omega

/-! ### Documents that stay open -/

/-- A document that is not closed keeps its lines. -/
theorem lines_change (hd : e.doc? doc = some d) {change : Change} (hc : change ≠ .close doc) :
    ∃ d', (e.change change).doc? doc = some d' ∧ d'.lines = d.lines := by
  have hintact : ∀ {e'}, Intact [] e e' → ∃ d', e'.doc? doc = some d' ∧ d'.lines = d.lines :=
    fun h => (h.stays doc d hd).imp fun _ hd' => ⟨hd'.1, hd'.2.lines⟩
  cases change with
  | openText path text => exact hintact (.openText e path text)
  | openPath path =>
    unfold change openPath
    dsimp only
    split
    · exact ⟨d, hd, rfl⟩
    · exact hintact (.openText e path _)
  | close other =>
    have hne : other ≠ doc := fun he => hc (he ▸ rfl)
    refine ⟨d, ?_, rfl⟩
    rw [doc?_eq_some_iff] at hd ⊢
    simp [Editor.change, Editor.close, hne, hd]
  | addMarker marked line kind => exact hintact (.addMarker e (by simp) marked line)
  | removeMarker marked line kind => exact hintact (.removeMarker e (by simp) marked line)
  | scrollTo scrolled line => exact hintact (.scrollTo e scrolled line)
  | write path contents => exact ⟨d, hd, rfl⟩

theorem lines_changes {changes : List Change} (hd : e.doc? doc = some d)
    (stays : .close doc ∉ changes) :
    ∃ d', (changes.foldl Editor.change e).doc? doc = some d' ∧ d'.lines = d.lines := by
  induction changes generalizing e d with
  | nil => exact ⟨d, hd, rfl⟩
  | cons change changes ih =>
    obtain ⟨d', hd', hl⟩ := lines_change hd fun he => stays (he ▸ List.mem_cons_self)
    obtain ⟨d'', hd'', hl'⟩ := ih hd' fun hm => stays (List.mem_cons_of_mem _ hm)
    exact ⟨d'', hd'', hl'.trans hl⟩

/-- As long as a document is open, its positions are the offsets of the text that it was opened
with, with the ends of lines as line feeds; and those of the text as it is just when no line but the last
ends with a carriage return and a line feed. -/
theorem offsets_iff_unreturned (e : Editor) (path text : String) {changes : List Change}
    (stays : .close (e.openText path text).2 ∉ changes) :
    let later := changes.foldl Editor.change (e.openText path text).1
    let doc := (e.openText path text).2
    later.Offsets doc (unreturned text.toList) ∧
      (later.Offsets doc text.toList ↔
        ∀ a b, text.toList = a ++ '\r' :: '\n' :: b → b = []) := by
  intro later doc
  have hopened : (e.openText path text).1.doc? doc = some (.new path text) := by
    rw [doc?_openText]
    exact if_pos rfl
  obtain ⟨d, hd, hlines⟩ := lines_changes hopened stays
  exact ⟨offsets_of_laid hd hlines (laid_unreturned _), eq_nil_of_offsets hd hlines,
    fun h => offsets_of_laid hd hlines (laid_of_unreturned h)⟩

/-- A carriage return before the last line feed, in a document that is marked beside another one. -/
theorem offsets_iff_unreturned_of_last_return :
    let opened := (Editor.new .empty).openText "a.p" "é\n\nb\r\n"
    let changes : List Change := [.addMarker 0 1 .bookmark, .openText "b.p" "", .close 1]
    .close opened.2 ∉ changes ∧
      (changes.foldl Editor.change opened.1).Offsets opened.2 "é\n\nb\r\n".toList := by
  intro opened changes
  have stays : .close opened.2 ∉ changes := by simp [changes, opened, openText, Editor.new]
  refine ⟨stays, (offsets_iff_unreturned _ "a.p" "é\n\nb\r\n" stays).2.mpr fun a b h => ?_⟩
  have hsplit : "é\n\nb".toList ++ '\r' :: ['\n'] = a ++ '\r' :: '\n' :: b := h
  obtain ⟨-, -, hend⟩ := (List.append_cons_inj_of_notMem (by decide) (by decide)).mp hsplit
  exact (List.cons.inj hend).2.symm

/-- A carriage return before another line feed: the line feed behind it is said to be in the next
line already. -/
theorem offsets_differ_of_return :
    let opened := (Editor.new .empty).openText "a.p" "a\r\nb"
    let t := "a\r\nb".toList
    2 < t.length ∧ (t.take 2).count '\n' = 0 ∧ opened.1.lineAt opened.2 2 = 1 ∧
      opened.1.lineText? opened.2 1 = some "b" ∧ t.take 3 = ['a', '\r', '\n'] ∧
      opened.1.lineStart opened.2 1 = 2 := by
  decide +kernel

end Editor

end Debugline
