import Debugline.Proofs.Wire.Cuts

/-! What backspaces leave of a chunk of text. They are taken from the left; each goes, and with it
what was kept in front of it back through the nearest byte that begins a character. -/

namespace Debugline.Wire

open Text

/-- What is left of bytes once every backspace in them has done its work. -/
inductive Settles : List UInt8 → List UInt8 → Prop
  | done {bytes : List UInt8} (plain : backspace ∉ bytes) : Settles bytes bytes
  /-- The first backspace takes off the last byte in front of it that is no continuation byte, and
  those that continue it. -/
  | erase {before more rest kept : List UInt8} {first : UInt8}
      (plain : backspace ∉ before ++ [first]) (begins : isContinuation first = false)
      (continued : ∀ b ∈ more, isContinuation b) (later : Settles (before ++ rest) kept) :
      Settles (before ++ first :: more ++ backspace :: rest) kept
  /-- No byte in front of the first backspace begins a character. -/
  | eraseAll {more rest kept : List UInt8} (continued : ∀ b ∈ more, isContinuation b)
      (later : Settles rest kept) : Settles (more ++ backspace :: rest) kept

theorem backspace_not_mem {more : List UInt8} (h : ∀ b ∈ more, isContinuation b) :
    backspace ∉ more := fun hm => absurd (h _ hm) (by decide)

theorem erase_of_begins {more text : List UInt8} {first : UInt8}
    (begins : isContinuation first = false) (continued : ∀ b ∈ more, isContinuation b) :
    erase (more.reverse ++ first :: text) = text := by
  have hdrop : (more.reverse ++ first :: text).dropWhile isContinuation = first :: text := by
    rw [List.dropWhile_append_of_pos fun b hb => continued b (List.mem_reverse.mp hb),
      List.dropWhile_cons_of_neg (by simp [begins])]
  rw [erase, hdrop]
  rfl

namespace Settles

theorem eq {bytes kept : List UInt8} (h : Settles bytes kept) :
    kept = (bytes.foldl typed []).reverse := by
  induction h with
  | done plain => simp [Scanner.foldl_typed_plain _ plain]
  | @erase before more rest kept first plain begins continued _ ih =>
    have hplain : backspace ∉ before ∧ backspace ≠ first := by simpa using plain
    have hbefore : before.foldl typed [] = before.reverse := by
      simpa using Scanner.foldl_typed_plain [] hplain.1
    have hmore := Scanner.foldl_typed_plain (first :: before.reverse) (backspace_not_mem continued)
    have hfront : (before ++ first :: more).foldl typed [] =
        more.reverse ++ first :: before.reverse := by
      rw [List.foldl_append, hbefore, List.foldl_cons,
        Scanner.typed_plain _ (Ne.symm hplain.2), hmore]
    rw [ih, List.foldl_append, hbefore, List.foldl_append, hfront, List.foldl_cons,
      typed_backspace, erase_of_begins begins continued]
  | @eraseAll more rest kept continued _ ih =>
    have hmore := Scanner.foldl_typed_plain [] (backspace_not_mem continued)
    have hnone : Wire.erase more.reverse = [] := erase_eq_nil (by simpa using continued)
    rw [ih, List.foldl_append, hmore, List.append_nil, List.foldl_cons, typed_backspace, hnone]

/-- The backspaces of any bytes can be taken one after the other. -/
theorem total (bytes : List UInt8) : ∃ kept, Settles bytes kept := by
  -- each backspace that is taken makes the bytes fewer
  induction hn : bytes.length using Nat.strongRecOn generalizing bytes with
  | ind n ih =>
    by_cases hb : backspace ∈ bytes
    · obtain ⟨front, rest, rfl, hfront⟩ := List.eq_append_cons_of_mem hb
      cases hf : front.reverse.find? (!isContinuation ·) with
      | none =>
        have continued : ∀ b ∈ front, isContinuation b := by simpa using hf
        obtain ⟨kept, hk⟩ := ih rest.length (by simp at hn; omega) rest rfl
        exact ⟨kept, .eraseAll continued hk⟩
      | some first =>
        obtain ⟨begins, more, before, hsplit, continued⟩ := List.find?_eq_some_iff_append.mp hf
        obtain rfl : front = before.reverse ++ first :: more.reverse := by
          simpa using congrArg List.reverse hsplit
        obtain ⟨kept, hk⟩ := ih (before.reverse ++ rest).length (by simp at hn ⊢; omega) _ rfl
        have hlead : before.reverse ++ [first] <+: before.reverse ++ first :: more.reverse :=
          ⟨more.reverse, by simp⟩
        refine ⟨kept, .erase (fun hm => hfront (hlead.subset hm)) (by simpa using begins)
          (fun b hm => ?_) hk⟩
        simpa using continued b (List.mem_reverse.mp hm)
    · exact ⟨bytes, .done hb⟩

/-- Backspaces leave one thing, which is the text that is typed. -/
theorem iff {bytes kept : List UInt8} :
    Settles bytes kept ↔ kept = (bytes.foldl typed []).reverse := by
  refine ⟨eq, ?_⟩
  rintro rfl
  obtain ⟨kept, hk⟩ := Settles.total bytes
  rwa [← hk.eq]

end Settles

/-- A scanner that is not enabled passes each chunk on, its backspaces settled. -/
theorem Scanner.feed_of_disabled {s : Scanner} (h : s.enabled = false) (chunk : List UInt8) :
    ∃ kept, Settles chunk kept ∧ s.feed chunk = (s, ⟨kept, []⟩) := by
  have hstep (p : Progress) :
      chunk.foldl s.step p = { p with text := chunk.foldl typed p.text } := by
    induction chunk generalizing p with
    | nil => rfl
    | cons b chunk ih =>
      have hb : s.step p b = { p with text := typed p.text b } := by simp [step, h]
      rw [List.foldl_cons, hb, ih]
      rfl
  exact ⟨_, Settles.iff.mpr rfl, by simp [feed, scan, hstep]⟩

end Debugline.Wire
