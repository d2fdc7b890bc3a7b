import Debugline.Text.Blank
import Debugline.Text.Line
import Debugline.Text.Numeral
import Mathlib.Data.List.Chain
import Mathlib.Data.List.TakeWhile

/-! Texts that are written to be read: words with blanks between them, texts without blanks at
their ends, and numerals. -/

namespace Debugline.Text

/-- What `words` gives: characters that are not blank, and at least one. -/
structure IsWord (w : List Char) : Prop where
  ne_nil : w ≠ []
  letters : ∀ c ∈ w, isBlank c = false

/-! ### Blanks at the ends -/

theorem mem_trimStart {c : Char} {s : List Char} (hm : c ∈ s) (hc : isBlank c = false) :
    c ∈ trimStart s := by
  rw [← List.takeWhile_append_dropWhile (p := isBlank) (l := s), List.mem_append] at hm
  rcases hm with hm | hm
  · rw [List.mem_takeWhile_imp hm] at hc
    cases hc
  · exact hm

/-- Trimming takes off blanks only. -/
theorem mem_trim {c : Char} {s : List Char} (hm : c ∈ s) (hc : isBlank c = false) : c ∈ trim s := by
  have hend : c ∈ trimStart (trimStart s).reverse :=
    mem_trimStart (List.mem_reverse.mpr (mem_trimStart hm hc)) hc
  exact List.mem_reverse.mpr hend

theorem trim_isEmpty_of_mem {c : Char} {s : List Char} (hm : c ∈ s) (hc : isBlank c = false) :
    (trim s).isEmpty = false := by
  have hne := List.ne_nil_of_mem (mem_trim hm hc)
  simpa using hne

/-- A text is blank when trimming leaves nothing. -/
theorem trim_eq_nil_iff {s : List Char} : trim s = [] ↔ ∀ c ∈ s, isBlank c = true := by
  constructor
  · intro h c hc
    by_contra hn
    have hmem := mem_trim hc (by simpa using hn)
    rw [h] at hmem
    cases hmem
  · intro h
    have hstart : trimStart s = [] := by
      rw [trimStart, List.dropWhile_eq_nil_iff]
      exact h
    rw [trim, hstart]
    rfl

theorem isBlank_of_getLast?_trim {c : Char} {s : List Char} (h : (trim s).getLast? = some c) :
    isBlank c = false := by
  have hhead : ((trimStart s).reverse.dropWhile isBlank).head? = some c := by
    rw [← List.getLast?_reverse]
    exact h
  have hnot := List.head?_dropWhile_not isBlank (trimStart s).reverse
  rw [hhead] at hnot
  exact hnot

/-- What is left of a trimmed text does not begin with a blank either. -/
theorem isBlank_of_head?_trim {c : Char} {s : List Char} (h : (trim s).head? = some c) :
    isBlank c = false := by
  have hpre : trim s <+: trimStart s := by
    rw [← List.reverse_suffix]
    unfold trim trimEnd
    rw [List.reverse_reverse]
    exact List.dropWhile_suffix _
  have hhead : (trimStart s).head? = some c := by
    obtain ⟨rest, hr⟩ := hpre
    rw [← hr, List.head?_append, h]
    rfl
  have hnot := List.head?_dropWhile_not isBlank s
  rw [trimStart] at hhead
  rw [hhead] at hnot
  exact hnot

theorem trimStart_of_head? {s : List Char} (first : ∀ c ∈ s.head?, isBlank c = false) :
    trimStart s = s := by
  cases s with
  | nil => rfl
  | cons c s => exact List.dropWhile_cons_of_neg (by simp [first c rfl])

/-- Trimming takes off the blanks around a text that has none at its ends. -/
theorem trim_blanks {s : List Char} (before after : List Char)
    (hb : ∀ c ∈ before, isBlank c = true) (ha : ∀ c ∈ after, isBlank c = true)
    (first : ∀ c ∈ s.head?, isBlank c = false) (last : ∀ c ∈ s.getLast?, isBlank c = false) :
    trim (before ++ s ++ after) = s := by
  cases s with
  | nil =>
    rw [trim_eq_nil_iff]
    intro c hc
    rcases List.mem_append.mp hc with hc | hc
    · exact hb c (by simpa using hc)
    · exact ha c hc
  | cons c s =>
    have hstart : trimStart (before ++ (c :: s) ++ after) = c :: s ++ after := by
      rw [List.append_assoc, trimStart, List.dropWhile_append_of_pos hb]
      exact trimStart_of_head? first
    have hend : trimStart (c :: s).reverse = (c :: s).reverse :=
      trimStart_of_head? (by rwa [List.head?_reverse])
    rw [trim, hstart, trimEnd, List.reverse_append,
      List.dropWhile_append_of_pos (by simpa using ha)]
    exact (congrArg List.reverse hend).trans (List.reverse_reverse _)

/-- A text with no blank at its ends has nothing to trim. -/
theorem trim_of_ends {s : List Char} (first : ∀ c ∈ s.head?, isBlank c = false)
    (last : ∀ c ∈ s.getLast?, isBlank c = false) : trim s = s := by
  simpa using trim_blanks [] [] (by simp) (by simp) first last

/-- A text is what trimming leaves of it, between blanks. -/
theorem exists_blanks (s : List Char) : ∃ before after, s = before ++ trim s ++ after ∧
    (∀ c ∈ before, isBlank c = true) ∧ ∀ c ∈ after, isBlank c = true := by
  refine ⟨s.takeWhile isBlank, ((trimStart s).reverse.takeWhile isBlank).reverse, ?_,
    fun c hc => List.mem_takeWhile_imp hc,
    fun c hc => List.mem_takeWhile_imp (List.mem_reverse.mp hc)⟩
  rw [List.append_assoc, trim, trimEnd, ← List.reverse_append, List.takeWhile_append_dropWhile,
    List.reverse_reverse]
  exact List.takeWhile_append_dropWhile.symm

theorem trim_trim (s : List Char) : trim (trim s) = trim s :=
  trim_of_ends (fun _ hc => isBlank_of_head?_trim hc) fun _ hc => isBlank_of_getLast?_trim hc

theorem trim_word {w : List Char} (h : ∀ c ∈ w, isBlank c = false) : trim w = w :=
  trim_of_ends (fun c hc => h c (List.mem_of_mem_head? hc))
    fun c hc => h c (List.mem_of_getLast? hc)

/-- A text that begins with a character that is not blank keeps it. -/
theorem head?_trim_cons {c : Char} (hc : isBlank c = false) (s : List Char) :
    (trim (c :: s)).head? = some c := by
  have hstart : trimStart (c :: s) = c :: s := trimStart_of_head? (by simpa using hc)
  rw [trim, hstart, trimEnd, List.head?_reverse, List.reverse_cons, List.dropWhile_append]
  split
  · simp [hc]
  · simp

/-! ### Words -/

theorem isWord_of_all {w : List Char} (h : (!w.isEmpty && w.all (!isBlank ·)) = true) :
    IsWord w := by
  simp only [Bool.and_eq_true, List.all_eq_true, Bool.not_eq_true', List.isEmpty_eq_false_iff] at h
  exact ⟨h.1, h.2⟩

theorem words_of_isWord {w : List Char} (h : IsWord w) : words w = [w] := by
  rw [words, List.splitOnP_eq_singleton h.letters]
  simp [h.ne_nil]

theorem words_append {c : Char} (hc : isBlank c = true) (s rest : List Char) :
    words (s ++ c :: rest) = words s ++ words rest := by
  rw [words, List.splitOnP_append_cons s rest hc, List.filter_append]
  rfl

theorem words_append_blank {w rest : List Char} {c : Char} (h : IsWord w) (hc : isBlank c = true) :
    words (w ++ c :: rest) = w :: words rest := by
  rw [words_append hc, words_of_isWord h]
  rfl

theorem letters_of_mem_splitOnP {s w : List Char} (hw : w ∈ s.splitOnP isBlank) :
    ∀ c ∈ w, isBlank c = false := by
  induction s generalizing w with
  | nil =>
    rw [List.splitOnP_nil, List.mem_singleton] at hw
    simp [hw]
  | cons c s ih =>
    rw [List.splitOnP_cons_eq_if_modifyHead] at hw
    split_ifs at hw with hc
    · rcases List.mem_cons.mp hw with rfl | hw
      · simp
      · exact ih hw
    · obtain ⟨first, more, hs⟩ := List.exists_cons_of_ne_nil (List.splitOnP_ne_nil isBlank s)
      rw [hs, List.modifyHead_cons] at hw
      rcases List.mem_cons.mp hw with rfl | hw
      · have hfirst := ih (hs ▸ List.mem_cons_self)
        simpa using ⟨by simpa using hc, hfirst⟩
      · exact ih (hs ▸ List.mem_cons_of_mem _ hw)

theorem isWord_of_mem_words {s w : List Char} (hw : w ∈ words s) : IsWord w := by
  obtain ⟨hsplit, hne⟩ := List.mem_filter.mp hw
  exact ⟨by simpa using hne, letters_of_mem_splitOnP hsplit⟩

/-- A text that does not begin with a blank begins with a word, which is all of it or stands in
front of a blank. -/
theorem isWord_takeWhile {c : Char} {s : List Char} (hs : s.head? = some c)
    (hc : isBlank c = false) :
    IsWord (s.takeWhile fun d => !isBlank d) ∧
      (s.takeWhile (fun d => !isBlank d) = s ∨
        ∃ b rest, isBlank b = true ∧ s.takeWhile (fun d => !isBlank d) ++ b :: rest = s) := by
  obtain ⟨s, rfl⟩ : ∃ t, s = c :: t := List.head?_eq_some_iff.mp hs
  have hall := List.takeWhile_append_dropWhile (p := fun d => !isBlank d) (l := c :: s)
  refine ⟨⟨by simp [hc], fun d hd => by simpa using List.mem_takeWhile_imp hd⟩, ?_⟩
  cases hd : (c :: s).dropWhile fun d => !isBlank d with
  | nil =>
    rw [hd, List.append_nil] at hall
    exact .inl hall
  | cons b rest =>
    have hb := List.head?_dropWhile_not (fun d => !isBlank d) (c :: s)
    rw [hd] at hb hall
    exact .inr ⟨b, rest, by simpa using hb, hall⟩

/-- A text that does not begin with a blank begins with its first word. -/
theorem words_of_head? {c : Char} {s : List Char} (hs : s.head? = some c)
    (hc : isBlank c = false) :
    ∃ more, words s = s.takeWhile (fun d => !isBlank d) :: more := by
  obtain ⟨hw, he | ⟨b, rest, hb, he⟩⟩ := isWord_takeWhile hs hc
  · exact ⟨[], (congrArg words he).symm.trans (words_of_isWord hw)⟩
  · exact ⟨words rest, (congrArg words he).symm.trans (words_append_blank hw hb)⟩

theorem words_intercalate {ws : List (List Char)} (h : ∀ w ∈ ws, IsWord w) :
    words ([' '].intercalate ws) = ws := by
  induction ws with
  | nil => rfl
  | cons w ws ih =>
    have hw := h w List.mem_cons_self
    have hrest := ih fun w' hm => h w' (List.mem_cons_of_mem _ hm)
    cases ws with
    | nil => simpa [List.intercalate] using words_of_isWord hw
    | cons w' ws =>
      rw [List.intercalate_cons_cons, List.append_assoc, List.singleton_append,
        words_append_blank hw rfl, hrest]

/-! ### Blanks between words -/

/-- Blanks stand between words only: each is one space with a word on either side. -/
structure Spaced (s : List Char) : Prop where
  first : ∀ c ∈ s.head?, isBlank c = false
  last : ∀ c ∈ s.getLast?, isBlank c = false
  apart : s.IsChain fun c d => isBlank c = false ∨ isBlank d = false
  space : ∀ c ∈ s, isBlank c = true → c = ' '

theorem IsWord.spaced {w : List Char} (h : IsWord w) : Spaced w where
  first c hc := h.letters c (List.mem_of_mem_head? hc)
  last c hc := h.letters c (List.mem_of_getLast? hc)
  apart := (List.pairwise_of_forall_mem_list fun c hc _ _ => .inl (h.letters c hc)).isChain
  space c hc hb := absurd hb (by simp [h.letters c hc])

theorem Spaced.cons {w rest : List Char} (hw : IsWord w) (h : Spaced rest) (hne : rest ≠ []) :
    Spaced (w ++ ' ' :: rest) where
  first c hc := by
    obtain ⟨d, w, rfl⟩ := List.exists_cons_of_ne_nil hw.ne_nil
    exact hw.letters c (List.mem_of_mem_head? hc)
  last c hc := by
    obtain ⟨d, rest, rfl⟩ := List.exists_cons_of_ne_nil hne
    exact h.last c (by simpa using hc)
  apart := by
    have hrest : (' ' :: rest).IsChain fun c d => isBlank c = false ∨ isBlank d = false :=
      h.apart.cons fun d hd => .inr (h.first d hd)
    refine hw.spaced.apart.append hrest fun c hc _ _ => .inl ?_
    exact hw.letters c (List.mem_of_getLast? hc)
  space c hc hb := by
    rw [List.mem_append, List.mem_cons] at hc
    obtain hc | rfl | hc := hc
    · exact hw.spaced.space c hc hb
    · rfl
    · exact h.space c hc hb

theorem intercalate_ne_nil {ws : List (List Char)} (h : ∀ w ∈ ws, IsWord w) (hne : ws ≠ []) :
    [' '].intercalate ws ≠ [] := by
  intro he
  have hwords := words_intercalate h
  rw [he] at hwords
  exact hne hwords.symm

theorem spaced_intercalate {ws : List (List Char)} (h : ∀ w ∈ ws, IsWord w) :
    Spaced ([' '].intercalate ws) := by
  induction ws with
  | nil => exact ⟨by simp, by simp, .nil, by simp⟩
  | cons w ws ih =>
    have hw := h w List.mem_cons_self
    have hws : ∀ w' ∈ ws, IsWord w' := fun w' hm => h w' (List.mem_cons_of_mem _ hm)
    cases ws with
    | nil => simpa using hw.spaced
    | cons w' ws =>
      rw [List.intercalate_cons_cons, List.append_assoc, List.singleton_append]
      exact (ih hws).cons hw (intercalate_ne_nil hws (List.cons_ne_nil _ _))

/-- Such a text is its words with a space between them. -/
theorem Spaced.intercalate_words {s : List Char} (h : Spaced s) :
    [' '].intercalate (words s) = s := by
  induction hn : s.length using Nat.strong_induction_on generalizing s with
  | _ n ih =>
    subst hn
    cases hs : s.head? with
    | none =>
      obtain rfl := List.head?_eq_none_iff.mp hs
      rfl
    | some c =>
      obtain ⟨hw, he⟩ := isWord_takeWhile hs (h.first c hs)
      generalize s.takeWhile (fun d => !isBlank d) = w at hw he
      obtain rfl | ⟨b, rest, hb, rfl⟩ := he
      · rw [words_of_isWord hw]
        simp
      · obtain rfl : b = ' ' := h.space b (by simp) hb
        have hchain := (List.isChain_append.mp h.apart).2.1
        have hne : rest ≠ [] := by
          rintro rfl
          exact absurd (h.last ' ' (by simp)) (by decide)
        have hrest : Spaced rest :=
          { first := fun d hd => ((List.isChain_cons.mp hchain).1 d hd).resolve_left (by decide)
            last := fun d hd => h.last d (by
              rw [List.getLast?_append, List.getLast?_cons, hd]
              rfl)
            apart := (List.isChain_cons.mp hchain).2
            space := fun d hd => h.space d (by simp [hd]) }
        have hread := ih rest.length (by simp; omega) hrest rfl
        rw [words_append_blank hw hb]
        cases hws : words rest with
        | nil =>
          rw [hws] at hread
          exact absurd hread.symm hne
        | cons first more =>
          rw [hws] at hread
          rw [List.intercalate_cons_cons, hread]
          simp
/-! ### No carriage return at the end -/

theorem dropReturn_of_getLast? {s : List Char} (h : s.getLast? ≠ some '\r') : dropReturn s = s :=
  if_neg h

theorem getLast?_append_ne {s t : List Char} {c : Char} (hs : s.getLast? ≠ some c)
    (ht : t.getLast? ≠ some c) : (s ++ t).getLast? ≠ some c := by
  rw [List.getLast?_append]
  cases h : t.getLast? with
  | none => simpa using hs
  | some d => simpa [h] using ht

theorem getLast?_trim_ne {s : List Char} (h : trim s = s) : s.getLast? ≠ some '\r' := by
  intro hl
  rw [← h] at hl
  exact absurd (isBlank_of_getLast?_trim hl) (by decide)

theorem getLast?_word_ne {w : List Char} (h : IsWord w) : w.getLast? ≠ some '\r' := by
  intro hl
  exact absurd (h.letters _ (List.mem_of_getLast? hl)) (by decide)

theorem getLast?_intercalate_ne {ws : List (List Char)} (h : ∀ w ∈ ws, IsWord w) :
    ([' '].intercalate ws).getLast? ≠ some '\r' := by
  induction ws with
  | nil => simp [List.intercalate]
  | cons w ws ih =>
    have hw := getLast?_word_ne (h w List.mem_cons_self)
    have hrest := ih fun w' hm => h w' (List.mem_cons_of_mem _ hm)
    cases ws with
    | nil => simpa [List.intercalate] using hw
    | cons w' ws =>
      rw [List.intercalate_cons_cons]
      exact getLast?_append_ne (getLast?_append_ne hw (by simp)) hrest

/-! ### Numerals -/

theorem isBlank_of_isDigit {c : Char} (h : c.isDigit = true) : isBlank c = false := by
  have hrange : 48 ≤ c.toNat ∧ c.toNat ≤ 57 := Char.isDigit_iff_toNat.mp h
  simp only [isBlank, Bool.or_eq_false_iff, Bool.and_eq_false_iff, decide_eq_false_iff_not,
    beq_eq_false_iff_ne]
  omega

theorem isDigits_toDigits (n : Nat) : isDigits (Nat.toDigits 10 n) = true := by
  have hall : ∀ c ∈ Nat.toDigits 10 n, c.isDigit = true :=
    fun c hc => Nat.isDigit_of_mem_toDigits (by omega) (by omega) hc
  simpa [isDigits] using hall

theorem isWord_of_isDigits {s : List Char} (h : isDigits s = true) : IsWord s := by
  simp only [isDigits, Bool.and_eq_true, List.all_eq_true, Bool.not_eq_true',
    List.isEmpty_eq_false_iff] at h
  exact ⟨h.1, fun c hc => isBlank_of_isDigit (h.2 c hc)⟩

theorem valueOf_toDigits (n : Nat) : valueOf (Nat.toDigits 10 n) = n :=
  Nat.ofDigitChars_ten_toDigits

theorem digits?_eq_none_iff_of_isDigits {s : List Char} (h : isDigits s = true) :
    digits? s = none ↔ wordLimit ≤ valueOf s := by
  simp [digits?, h, bounded]

theorem digits?_eq_some_iff {s : List Char} {n : Nat} :
    digits? s = some n ↔ isDigits s = true ∧ valueOf s = n ∧ n < wordLimit := by
  unfold digits? bounded
  split_ifs with hs hn
  · rw [Option.some.injEq]
    exact ⟨fun h => ⟨hs, h, h ▸ hn⟩, fun h => h.2.1⟩
  · refine ⟨nofun, fun h => absurd ?_ hn⟩
    exact h.2.1 ▸ h.2.2
  · exact ⟨nofun, fun h => absurd h.1 hs⟩

theorem lt_of_digits? {s : List Char} {n : Nat} (h : digits? s = some n) : n < wordLimit :=
  (digits?_eq_some_iff.mp h).2.2

theorem lt_of_unsigned? {s : List Char} {n : Nat} (h : unsigned? s = some n) : n < wordLimit := by
  unfold unsigned? at h
  split at h <;> exact lt_of_digits? h

/-- The numeral of a number that can be read is read as that number. -/
theorem digits?_toDigits {n : Nat} (h : n < wordLimit) : digits? (Nat.toDigits 10 n) = some n := by
  simp [digits?, isDigits_toDigits, valueOf_toDigits, bounded, h]

theorem unsigned?_of_isDigits {s : List Char} (h : isDigits s = true) :
    unsigned? s = digits? s := by
  unfold unsigned?
  split
  · simp [isDigits] at h
  · rfl

end Debugline.Text
