import Debugline.Text.Line
import Mathlib.Data.List.Basic

/-! Lines and the text that they were taken from. A text is read line by line, each up to its line
feed, and a line begins at the offset behind as many line feeds as there are lines before it. -/

namespace Debugline.Text

variable {s t l rest : List Char} {ls : List (List Char)}

/-! ### Line by line -/

theorem lines_nil : lines [] = [] := by simp [lines]

theorem lines_of_not_mem (h : '\n' ∉ s) (hne : s ≠ []) : lines s = [s] := by
  obtain ⟨c, s, rfl⟩ := List.exists_cons_of_ne_nil hne
  simp [lines, List.splitOn_eq_singleton h]

theorem lines_append (h : '\n' ∉ l) (rest : List Char) :
    lines (l ++ '\n' :: rest) = dropReturn l :: lines rest := by
  obtain ⟨part, parts, hparts⟩ := List.exists_cons_of_ne_nil (List.splitOn_ne_nil '\n' rest)
  simp only [lines, List.splitOn_append_cons_self_of_not_mem h, hparts]
  simp only [List.dropLast_cons_cons, List.getLast?_cons_cons, List.map_cons]
  split <;> simp

/-- A text is empty, or one line without a line feed, or a line up to its line feed and a text. -/
theorem line_induction {P : List Char → Prop} (nil : P [])
    (last : ∀ s, '\n' ∉ s → s ≠ [] → P s)
    (line : ∀ l rest, '\n' ∉ l → P rest → P (l ++ '\n' :: rest)) (s : List Char) : P s := by
  induction hn : s.length using Nat.strongRecOn generalizing s with
  | _ n ih =>
    subst hn
    by_cases hmem : '\n' ∈ s
    · obtain ⟨l, rest, rfl, hl⟩ := List.eq_append_cons_of_mem hmem
      exact line l rest hl (ih rest.length (by simp; omega) rest rfl)
    · by_cases hne : s = []
      · exact hne ▸ nil
      · exact last s hmem hne

theorem lines_ne_nil (h : s ≠ []) : lines s ≠ [] := by
  induction s using line_induction with
  | nil => exact absurd rfl h
  | last s hs hne => simp [lines_of_not_mem hs hne]
  | line l rest hl => simp [lines_append hl]

/-! ### Where a line begins -/

/-- An offset behind the `k`-th line feed, or at the beginning of the text: there are `k` line feeds
before it, and one of them just before it. -/
structure BeginsLine (t : List Char) (k offset : Nat) : Prop where
  within : offset ≤ t.length
  feeds : (t.take offset).count '\n' = k
  behind : ∀ c ∈ (t.take offset).getLast?, c = '\n'

theorem beginsLine_zero (t : List Char) : BeginsLine t 0 0 := ⟨Nat.zero_le _, by simp, by simp⟩

theorem take_line (l t : List Char) (offset : Nat) :
    (l ++ '\n' :: t).take (l.length + 1 + offset) = l ++ '\n' :: t.take offset := by
  rw [Nat.add_assoc, List.take_length_add_append, Nat.add_comm 1, List.take_succ_cons]

theorem BeginsLine.line {k offset : Nat} (h : BeginsLine t k offset) (hl : '\n' ∉ l) :
    BeginsLine (l ++ '\n' :: t) (k + 1) (l.length + 1 + offset) := by
  refine ⟨?_, ?_, fun c hc => ?_⟩
  · have hwithin := h.within
    simp only [List.length_append, List.length_cons]
    omega
  · simp [take_line, h.feeds, List.count_eq_zero.mpr hl]
  · rw [take_line, List.getLast?_append_of_ne_nil _ (List.cons_ne_nil _ _),
      List.getLast?_cons] at hc
    cases hlast : (t.take offset).getLast? with
    | none => simpa [hlast, eq_comm] using hc
    | some d => exact h.behind c (by simpa [hlast] using hc)

/-- As many line feeds stand before an offset as lines begin up to it. -/
theorem BeginsLine.le_count_iff {k offset : Nat} (h : BeginsLine t k offset) (p : Nat) :
    k ≤ (t.take p).count '\n' ↔ offset ≤ p := by
  constructor
  · intro hk
    by_contra hp
    obtain ⟨n, rfl⟩ : ∃ n, offset = n + 1 := Nat.exists_eq_add_one_of_ne_zero (by omega)
    have hn : n < t.length := h.within
    have hfeeds := h.feeds
    have hlast := h.behind
    rw [List.take_succ_eq_append_getElem hn] at hfeeds hlast
    have hfeed : t[n] = '\n' := hlast _ List.getLast?_concat
    have hle : (t.take p).count '\n' ≤ (t.take n).count '\n' :=
      (List.take_prefix_take_left (by omega)).sublist.count_le _
    simp only [List.count_append, hfeed, List.count_singleton_self] at hfeeds
    omega
  · intro hp
    exact h.feeds ▸ (List.take_prefix_take_left hp).sublist.count_le _

theorem BeginsLine.unique {k offset offset' : Nat} (h : BeginsLine t k offset)
    (h' : BeginsLine t k offset') : offset = offset' :=
  Nat.le_antisymm ((h.le_count_iff offset').mp (Nat.le_of_eq h'.feeds.symm))
    ((h'.le_count_iff offset).mp (Nat.le_of_eq h.feeds.symm))

theorem beginsLine_append (s rest : List Char) :
    BeginsLine (s ++ '\n' :: rest) (s.count '\n' + 1) (s.length + 1) := by
  have htake : (s ++ '\n' :: rest).take (s.length + 1) = s ++ ['\n'] := by
    rw [List.take_length_add_append, List.take_succ_cons, List.take_zero]
  exact ⟨by simp, by simp [htake], by simp [htake]⟩

/-! ### Texts laid out in lines -/

/-- A text in which lines stand one behind the other, a line feed between each two of them. Behind
the last line one more may stand, and the last line may stand there in other characters. -/
inductive Laid : List (List Char) → List Char → Prop
  | nil : Laid [] []
  | last (l : List Char) {shown tail : List Char} (h : '\n' ∉ shown)
      (ht : tail = [] ∨ tail = ['\n']) : Laid [l] (shown ++ tail)
  | line {l t : List Char} {ls : List (List Char)} (h : '\n' ∉ l) (hne : ls ≠ []) (ht : Laid ls t) :
      Laid (l :: ls) (l ++ '\n' :: t)

theorem laid_singleton (h : '\n' ∉ s) : Laid [s] s := by simpa using Laid.last s h (.inl rfl)

/-- There are fewer line feeds before a character than lines. -/
theorem Laid.count_lt (h : Laid ls t) {p : Nat} (hp : p < t.length) :
    (t.take p).count '\n' < ls.length := by
  induction h generalizing p with
  | nil => simp at hp
  | @last l shown tail h ht =>
    have hle : p ≤ shown.length := by
      rcases ht with rfl | rfl <;> simp at hp <;> omega
    have hnone : '\n' ∉ shown.take p := fun hm => h (List.mem_of_mem_take hm)
    simp [List.take_append_of_le_length hle, List.count_eq_zero.mpr hnone]
  | @line l t ls h hne ht ih =>
    by_cases hle : p ≤ l.length
    · have hnone : '\n' ∉ l.take p := fun hm => h (List.mem_of_mem_take hm)
      simp [List.take_append_of_le_length hle, List.count_eq_zero.mpr hnone]
    · obtain ⟨q, rfl⟩ : ∃ q, p = l.length + 1 + q := Nat.exists_eq_add_of_le (by omega)
      have hrest := ih (p := q) (by simp at hp; omega)
      simpa [take_line, List.count_eq_zero.mpr h] using hrest

/-! ### Carriage returns at the ends of lines -/

/-- A text with the carriage returns taken out that stand in front of a line feed, one of each. -/
def unreturned : List Char → List Char
  | '\r' :: '\n' :: s => '\n' :: unreturned s
  | c :: s => c :: unreturned s
  | [] => []

theorem count_unreturned (s : List Char) : (unreturned s).count '\n' = s.count '\n' := by
  fun_induction unreturned s with
  | case1 s ih => simp [ih]
  | case2 c s _ ih => simp [ih, List.count_cons]
  | case3 => rfl

theorem length_unreturned_le (s : List Char) : (unreturned s).length ≤ s.length := by
  fun_induction unreturned s with
  | case1 s ih => simp; omega
  | case2 c s _ ih => simpa using ih
  | case3 => simp

theorem unreturned_ne_nil (h : s ≠ []) : unreturned s ≠ [] := by
  fun_induction unreturned s with
  | case1 => simp
  | case2 => simp
  | case3 => exact absurd rfl h

theorem unreturned_cons {c : Char} (h : c = '\r' → s.head? ≠ some '\n') :
    unreturned (c :: s) = c :: unreturned s := by
  rw [unreturned]
  rintro s' rfl rfl
  exact h rfl rfl

theorem unreturned_of_not_mem (h : '\n' ∉ s) : unreturned s = s := by
  induction s with
  | nil => rfl
  | cons c s ih =>
    rw [unreturned_cons fun _ hs => h (List.mem_cons_of_mem c (List.mem_of_mem_head? hs)),
      ih fun hs => h (List.mem_cons_of_mem c hs)]

theorem unreturned_append_return (s rest : List Char) :
    unreturned (s ++ '\r' :: '\n' :: rest) = unreturned s ++ '\n' :: unreturned rest := by
  fun_induction unreturned s with
  | case1 s ih => simp [unreturned, ih]
  | case2 c s h ih =>
    rw [List.cons_append, List.cons_append, ← ih]
    refine unreturned_cons fun hc hs => ?_
    cases s with
    | nil => simp at hs
    | cons d s => exact h s hc (by simpa using hs)
  | case3 => simp [unreturned]

theorem unreturned_append_feed (h : s.getLast? ≠ some '\r') (rest : List Char) :
    unreturned (s ++ '\n' :: rest) = unreturned s ++ '\n' :: unreturned rest := by
  fun_induction unreturned s with
  | case1 s ih =>
    have hs : s.getLast? ≠ some '\r' := fun hs => h (by simp [List.getLast?_cons, hs])
    simp [unreturned, ih hs]
  | case2 c s hc ih =>
    have hs : s.getLast? ≠ some '\r' := fun hs => h (by simp [List.getLast?_cons, hs])
    rw [List.cons_append, List.cons_append, ← ih hs]
    refine unreturned_cons fun he hhead => ?_
    cases s with
    | nil => exact h (by simp [he])
    | cons d s => exact hc s he (by simpa using hhead)
  | case3 => exact unreturned_cons nofun

/-- The end of a line is one line feed. -/
theorem unreturned_line (h : '\n' ∉ l) (rest : List Char) :
    unreturned (l ++ '\n' :: rest) = dropReturn l ++ '\n' :: unreturned rest := by
  unfold dropReturn
  split_ifs with hl
  · obtain ⟨l, rfl⟩ := List.getLast?_eq_some_iff.mp hl
    have hnone : '\n' ∉ l := fun hm => h (List.mem_append_left _ hm)
    rw [List.append_assoc, List.singleton_append, unreturned_append_return,
      unreturned_of_not_mem hnone, List.dropLast_concat]
  · rw [unreturned_append_feed hl, unreturned_of_not_mem h]

/-! ### The lines of a text -/

theorem mem_of_mem_dropReturn {c : Char} (h : c ∈ dropReturn s) : c ∈ s := by
  unfold dropReturn at h
  split_ifs at h
  · exact (List.dropLast_sublist s).subset h
  · exact h

/-- Each line stands in a text with a line feed for its end. -/
theorem laid_unreturned (s : List Char) : Laid (lines s) (unreturned s) := by
  induction s using line_induction with
  | nil => exact lines_nil ▸ .nil
  | last s hs hne =>
    rw [lines_of_not_mem hs hne, unreturned_of_not_mem hs]
    exact laid_singleton hs
  | line l rest hl ih =>
    have hdrop : '\n' ∉ dropReturn l := fun hm => hl (mem_of_mem_dropReturn hm)
    rw [lines_append hl, unreturned_line hl]
    by_cases hne : rest = []
    · rw [hne, lines_nil]
      exact .last _ hdrop (.inr rfl)
    · exact .line hdrop (lines_ne_nil hne) ih

/-- In the text itself they stand if no line but the last has a carriage return before its line
feed. -/
theorem laid_of_unreturned (h : ∀ a b, s = a ++ '\r' :: '\n' :: b → b = []) : Laid (lines s) s := by
  induction s using line_induction with
  | nil => exact lines_nil ▸ .nil
  | last s hs hne =>
    rw [lines_of_not_mem hs hne]
    exact laid_singleton hs
  | line l rest hl ih =>
    rw [lines_append hl]
    by_cases hne : rest = []
    · rw [hne, lines_nil]
      exact .last _ hl (.inr rfl)
    · have hdrop : dropReturn l = l := by
        refine if_neg fun hlast => hne ?_
        obtain ⟨l, rfl⟩ := List.getLast?_eq_some_iff.mp hlast
        exact h l rest (by simp)
      rw [hdrop]
      refine .line hl (lines_ne_nil hne) (ih fun a b he => h (l ++ '\n' :: a) b ?_)
      rw [he]
      simp

end Debugline.Text
