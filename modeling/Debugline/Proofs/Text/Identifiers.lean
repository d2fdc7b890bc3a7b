import Debugline.Proofs.Text.Words
import Debugline.Text.Identifier

/-! Which identifier stands under a column. The run of letters, digits, underscores and dots around
the column decides alone: the identifier is the run from its first letter or underscore on, without
the dots at its end. There is none before that letter, outside of such runs and behind the text. -/

namespace Debugline.Text

variable {s before lead word after rest w : List Char} {column : Nat} {c : Char}

theorem isIdentifier_of_begins (h : beginsIdentifier c = true) : isIdentifier c = true := by
  simp only [beginsIdentifier, isIdentifier, Char.isAlphanum, Bool.or_eq_true] at h ⊢
  tauto

theorem isBlank_of_isIdentifier {c : Char} (h : isIdentifier c = true) : isBlank c = false := by
  delta isIdentifier Char.isAlphanum Char.isAlpha Char.isUpper Char.isLower Char.isDigit at h
  simp only [Bool.or_eq_true, Bool.and_eq_true, decide_eq_true_eq, beq_iff_eq,
    UInt32.le_iff_toNat_le] at h
  change ((((65 ≤ c.toNat ∧ c.toNat ≤ 90) ∨ (97 ≤ c.toNat ∧ c.toNat ≤ 122)) ∨
    (48 ≤ c.toNat ∧ c.toNat ≤ 57)) ∨ c = '_') ∨ c = '.' at h
  simp only [isBlank, Bool.or_eq_false_iff, Bool.and_eq_false_iff, decide_eq_false_iff_not,
    beq_eq_false_iff_ne]
  rcases h with (((h | h) | h) | rfl) | rfl
  · omega
  · omega
  · omega
  · decide
  · decide

/-! ### Where there is none -/

theorem lt_of_identifierAt (h : identifierAt s column = some w) : column < s.length := by
  fun_induction identifierAt s column with
  | case1 => cases h
  | case2 column c r hc run hcolumn =>
    have hrun : run.length ≤ r.length + 1 := by
      simpa [run] using (List.takeWhile_prefix isIdentifier (l := r)).length_le
    simp only [List.length_cons]
    omega
  | case3 column c r hc run hcolumn ih =>
    have hsplit :=
      congrArg List.length (List.takeWhile_append_dropWhile (p := isIdentifier) (l := r))
    have hrest := ih h
    simp only [run, List.length_cons, List.length_append] at hsplit hrest ⊢
    omega
  | case4 => cases h
  | case5 c r hc column ih => simpa using ih h

/-- There is no identifier at a character that no identifier has. -/
theorem identifierAt_of_outside (hs : s[column]? = some c) (hc : isIdentifier c = false) :
    identifierAt s column = none := by
  fun_induction identifierAt s column with
  | case1 => rfl
  | case2 column d r hd run hcolumn =>
    have hsplit : run ++ r.dropWhile isIdentifier = d :: r := by simp [run]
    rw [← hsplit, List.getElem?_append_left hcolumn] at hs
    rcases List.mem_cons.mp (List.mem_of_getElem? hs) with rfl | hmem
    · rw [isIdentifier_of_begins hd] at hc
      cases hc
    · rw [List.mem_takeWhile_imp hmem] at hc
      cases hc
  | case3 column d r hd run hcolumn ih =>
    have hsplit : run ++ r.dropWhile isIdentifier = d :: r := by simp [run]
    rw [← hsplit, List.getElem?_append_right (Nat.le_of_not_lt hcolumn)] at hs
    exact ih hs
  | case4 => rfl
  | case5 d r hd column ih => exact ih (by simpa using hs)

theorem identifierAt_cons (h : beginsIdentifier c = false) (s : List Char) (column : Nat) :
    identifierAt (c :: s) (column + 1) = identifierAt s column := by
  rw [identifierAt.eq_def]
  simp [h]

/-- No identifier has begun yet. -/
theorem identifierAt_of_unled (h : ∀ d ∈ s.take (column + 1), beginsIdentifier d = false) :
    identifierAt s column = none := by
  induction s generalizing column with
  | nil => rw [identifierAt.eq_def]
  | cons c s ih =>
    have hc : beginsIdentifier c = false := h c (by simp)
    cases column with
    | zero =>
      rw [identifierAt.eq_def]
      simp [hc]
    | succ column =>
      rw [identifierAt_cons hc]
      exact ih fun d hd => h d (by simp [hd])

/-! ### What stands before the column -/

theorem identifierAt_lead (h : ∀ d ∈ lead, beginsIdentifier d = false) (rest : List Char)
    (column : Nat) :
    identifierAt (lead ++ rest) (lead.length + column) = identifierAt rest column := by
  induction lead with
  | nil => simp
  | cons c lead ih =>
    have hcolumn : (c :: lead).length + column = lead.length + column + 1 := by
      simp only [List.length_cons]
      omega
    rw [List.cons_append, hcolumn, identifierAt_cons (h c (by simp))]
    exact ih fun d hd => h d (by simp [hd])

/-- From its first letter on, a run is one identifier, and behind it all begins anew. -/
theorem identifierAt_run (hc : beginsIdentifier c = true) (hw : ∀ d ∈ w, isIdentifier d = true)
    (right : ∀ d ∈ rest.head?, isIdentifier d = false) (column : Nat) :
    identifierAt (c :: (w ++ rest)) column =
      if column < w.length + 1 then some (withoutDots (c :: w))
      else identifierAt rest (column - (w.length + 1)) := by
  have hrest : rest.takeWhile isIdentifier = [] ∧ rest.dropWhile isIdentifier = rest := by
    cases rest with
    | nil => simp
    | cons d rest => simp [right d rfl]
  rw [identifierAt.eq_def]
  simp [hc, List.takeWhile_append_of_pos hw, List.dropWhile_append_of_pos hw, hrest]

/-- A text is a part of letters, digits, underscores and dots, and one that does not go on so. -/
theorem exists_split_identifier (s : List Char) :
    ∃ w rest, s = w ++ rest ∧ (∀ d ∈ w, isIdentifier d = true) ∧
      ∀ d ∈ rest.head?, isIdentifier d = false := by
  refine ⟨s.takeWhile isIdentifier, s.dropWhile isIdentifier,
    List.takeWhile_append_dropWhile.symm, fun d hd => List.mem_takeWhile_imp hd, fun d hd => ?_⟩
  have hnot := List.head?_dropWhile_not isIdentifier s
  rw [Option.mem_def.mp hd] at hnot
  exact hnot

/-- What stands before a run does not count. -/
theorem identifierAt_append (h : ∀ d ∈ before.getLast?, isIdentifier d = false) (rest : List Char)
    (column : Nat) :
    identifierAt (before ++ rest) (before.length + column) = identifierAt rest column := by
  induction hn : before.length using Nat.strong_induction_on generalizing before with
  | _ n ih =>
    subst hn
    cases before with
    | nil => simp
    | cons c before =>
      cases hc : beginsIdentifier c with
      | true =>
        -- the identifier that begins here ends before the last character
        obtain ⟨w, t, rfl, hw, ht⟩ := exists_split_identifier before
        have hne : t ≠ [] := by
          rintro rfl
          obtain ⟨d, hd⟩ := List.getLast?_isSome.mpr (List.cons_ne_nil c (w ++ [])) |>
            Option.isSome_iff_exists.mp
          have hmem : d = c ∨ d ∈ w := by simpa using List.mem_of_getLast? hd
          have hletter : isIdentifier d = true :=
            hmem.elim (fun he => he ▸ isIdentifier_of_begins hc) (hw d)
          rw [h d hd] at hletter
          cases hletter
        have hlast : (c :: (w ++ t)).getLast? = t.getLast? := by
          rw [← List.cons_append, List.getLast?_append_of_ne_nil _ hne]
        have hright : ∀ d ∈ (t ++ rest).head?, isIdentifier d = false := by
          rw [List.head?_append_of_ne_nil _ hne]
          exact ht
        have hcolumn : (c :: (w ++ t)).length + column = w.length + 1 + (t.length + column) := by
          simp only [List.length_cons, List.length_append]
          omega
        rw [List.cons_append, List.append_assoc, hcolumn, identifierAt_run hc hw hright,
          if_neg (by omega), Nat.add_sub_cancel_left]
        have hshort : t.length < (c :: (w ++ t)).length := by
          simp only [List.length_cons, List.length_append]
          omega
        exact ih t.length hshort (hlast ▸ h) rfl
      | false =>
        have hcolumn : (c :: before).length + column = before.length + column + 1 := by
          simp only [List.length_cons]
          omega
        rw [List.cons_append, hcolumn, identifierAt_cons hc]
        refine ih before.length (by simp) (fun d hd => h d ?_) rfl
        rw [List.getLast?_cons, hd]
        rfl

/-! ### Runs -/

/-- The run of letters, digits, underscores and dots around a column, and what stands before and
behind it. -/
structure Run (s : List Char) (column : Nat) (before run after : List Char) : Prop where
  text : s = before ++ run ++ after
  start : before.length ≤ column
  stop : column < before.length + run.length
  letters : ∀ d ∈ run, isIdentifier d = true
  left : ∀ d ∈ before.getLast?, isIdentifier d = false
  right : ∀ d ∈ after.head?, isIdentifier d = false

theorem exists_run (hs : s[column]? = some c) (hc : isIdentifier c = true) :
    ∃ before run after, Run s column before run after := by
  obtain ⟨v, t, hleft, hv, ht⟩ := exists_split_identifier (s.take column).reverse
  obtain ⟨w, after, hright, hw, hafter⟩ := exists_split_identifier (s.drop column)
  have hlt : column < s.length := (List.getElem?_eq_some_iff.mp hs).1
  have htake : s.take column = t.reverse ++ v.reverse := by
    rw [← List.reverse_append, ← hleft, List.reverse_reverse]
  have hlength : column = t.length + v.length := by
    have hl := congrArg List.length htake
    simp only [List.length_take, List.length_append, List.length_reverse] at hl
    omega
  have hne : 0 < w.length := by
    rw [List.length_pos_iff]
    rintro rfl
    have hhead : after.head? = some c := by
      rw [← List.nil_append after, ← hright, List.head?_drop, hs]
    rw [hafter c hhead] at hc
    cases hc
  refine ⟨t.reverse, v.reverse ++ w, after, ?_, ?_, ?_, ?_, ?_, hafter⟩
  · rw [← List.append_assoc, ← htake, List.append_assoc, ← hright, List.take_append_drop]
  · simp [hlength]
  · simp [hlength, hne]
  · intro d hd
    rcases List.mem_append.mp hd with hd | hd
    · exact hv d (List.mem_reverse.mp hd)
    · exact hw d hd
  · rwa [List.getLast?_reverse]

/-- What a column points at: the part of its run from the first letter or underscore on, without the
dots at its end; and nothing before that letter, outside of runs and behind the text. -/
inductive Pointed (s : List Char) (column : Nat) : Option (List Char) → Prop
  | past (h : s.length ≤ column) : Pointed s column none
  | outside {c : Char} (there : s[column]? = some c) (h : isIdentifier c = false) :
      Pointed s column none
  | unled {before run after : List Char} (around : Run s column before run after)
      (h : ∀ d ∈ run.take (column - before.length + 1), beginsIdentifier d = false) :
      Pointed s column none
  | identifier {before lead word dots after : List Char}
      (around : Run s column before (lead ++ word ++ dots) after)
      (lead_begins : ∀ d ∈ lead, beginsIdentifier d = false)
      (word_begins : ∃ c ∈ word.head?, beginsIdentifier c = true)
      (begun : before.length + lead.length ≤ column)
      (dots_eq : ∀ d ∈ dots, d = '.') (word_ends : word.getLast? ≠ some '.') :
      Pointed s column (some word)

theorem exists_dots (s : List Char) : ∃ word dots, s = word ++ dots ∧ withoutDots s = word ∧
    (∀ d ∈ dots, d = '.') ∧ word.getLast? ≠ some '.' := by
  refine ⟨withoutDots s, (s.reverse.takeWhile (· == '.')).reverse, ?_, rfl, fun d hd => ?_, ?_⟩
  · rw [withoutDots, ← List.reverse_append, List.takeWhile_append_dropWhile, List.reverse_reverse]
  · simpa using List.mem_takeWhile_imp (List.mem_reverse.mp hd)
  · rw [withoutDots, List.getLast?_reverse]
    intro hhead
    have hnot := List.head?_dropWhile_not (· == '.') s.reverse
    rw [hhead] at hnot
    simp at hnot

theorem withoutDots_append {dots : List Char} (hdots : ∀ d ∈ dots, d = '.')
    (hlast : word.getLast? ≠ some '.') : withoutDots (word ++ dots) = word := by
  have hall : ∀ d ∈ dots.reverse, (d == '.') = true := by simpa using hdots
  have hword : word.reverse.dropWhile (· == '.') = word.reverse := by
    cases hr : word.reverse with
    | nil => rfl
    | cons d t =>
      refine List.dropWhile_cons_of_neg fun hd => hlast ?_
      rw [← List.head?_reverse, hr, beq_iff_eq.mp hd]
      rfl
  rw [withoutDots, List.reverse_append, List.dropWhile_append_of_pos hall, hword,
    List.reverse_reverse]

/-- A text with a letter or an underscore is what stands before the first of them, a word, and
dots. -/
theorem exists_parts {run : List Char} {k : Nat}
    (h : ∃ d ∈ run.take (k + 1), beginsIdentifier d = true) :
    ∃ lead word dots, run = lead ++ word ++ dots ∧ (∀ d ∈ lead, beginsIdentifier d = false) ∧
      (∃ c ∈ word.head?, beginsIdentifier c = true) ∧ lead.length ≤ k ∧
      (∀ d ∈ dots, d = '.') ∧ word.getLast? ≠ some '.' := by
  obtain ⟨first, hfirst, hbegins⟩ := h
  obtain ⟨c, t, ht⟩ : ∃ c t, run.dropWhile (fun d => !beginsIdentifier d) = c :: t := by
    refine List.exists_cons_of_ne_nil fun hnil => ?_
    have hnone := List.dropWhile_eq_nil_iff.mp hnil first (List.mem_of_mem_take hfirst)
    simp [hbegins] at hnone
  have hlead : ∀ d ∈ run.takeWhile (fun d => !beginsIdentifier d), beginsIdentifier d = false :=
    fun d hd => by simpa using List.mem_takeWhile_imp hd
  have hc : beginsIdentifier c = true := by
    have hnot := List.head?_dropWhile_not (fun d => !beginsIdentifier d) run
    rw [ht] at hnot
    simpa using hnot
  have hrun := List.takeWhile_append_dropWhile (p := fun d => !beginsIdentifier d) (l := run)
  generalize run.takeWhile (fun d => !beginsIdentifier d) = lead at hlead hrun
  obtain ⟨word, dots, hword, -, hdots, hlast⟩ := exists_dots (c :: t)
  refine ⟨lead, word, dots, ?_, hlead, ⟨c, ?_, hc⟩, ?_, hdots, hlast⟩
  · rw [← hrun, ht, hword, List.append_assoc]
  · cases word with
    | nil =>
      -- a dot begins no identifier
      obtain rfl : c = '.' := hdots c (by rw [← List.nil_append dots, ← hword]; simp)
      cases hc
    | cons d word => exact (List.cons.inj hword).1 ▸ rfl
  · by_contra hlate
    rw [← hrun, List.take_append_of_le_length (by omega)] at hfirst
    rw [hlead first (List.mem_of_mem_take hfirst)] at hbegins
    cases hbegins

theorem exists_pointed (s : List Char) (column : Nat) : ∃ o, Pointed s column o := by
  cases hs : s[column]? with
  | none => exact ⟨none, .past (List.getElem?_eq_none_iff.mp hs)⟩
  | some c =>
    cases hc : isIdentifier c with
    | false => exact ⟨none, .outside hs hc⟩
    | true =>
      obtain ⟨before, run, after, around⟩ := exists_run hs hc
      by_cases h : ∃ d ∈ run.take (column - before.length + 1), beginsIdentifier d = true
      · obtain ⟨lead, word, dots, rfl, hlead, hword, hbegun, hdots, hlast⟩ := exists_parts h
        have hstart := around.start
        exact ⟨_, .identifier around hlead hword (by omega) hdots hlast⟩
      · refine ⟨none, .unled around fun d hd => ?_⟩
        simpa using fun hbegins => h ⟨d, hd, hbegins⟩

theorem identifierAt_of_pointed {o : Option (List Char)} (h : Pointed s column o) :
    identifierAt s column = o := by
  cases h with
  | past h =>
    cases ho : identifierAt s column with
    | none => rfl
    | some w => exact absurd (lt_of_identifierAt ho) (Nat.not_lt_of_le h)
  | outside there h => exact identifierAt_of_outside there h
  | @unled before run after around h =>
    obtain ⟨k, rfl⟩ := Nat.exists_eq_add_of_le around.start
    rw [around.text, List.append_assoc, identifierAt_append around.left]
    have hstop := around.stop
    have htake : (run ++ after).take (k + 1) = run.take (k + 1) :=
      List.take_append_of_le_length (by omega)
    rw [Nat.add_sub_cancel_left, ← htake] at h
    exact identifierAt_of_unled h
  | @identifier before lead word dots after around lead_begins word_begins begun dots_eq
      word_ends =>
    obtain ⟨k, rfl⟩ := Nat.exists_eq_add_of_le begun
    obtain ⟨c, hhead, hc⟩ := word_begins
    obtain ⟨w, rfl⟩ := List.head?_eq_some_iff.mp hhead
    have hletters : ∀ d ∈ w ++ dots, isIdentifier d = true := fun d hd =>
      around.letters d (by simp at hd ⊢; tauto)
    have hstop := around.stop
    simp only [List.length_append, List.length_cons] at hstop
    have htext : s = before ++ (lead ++ (c :: ((w ++ dots) ++ after))) := by
      rw [around.text]
      simp
    rw [htext, Nat.add_assoc, identifierAt_append around.left, identifierAt_lead lead_begins,
      identifierAt_run hc hletters around.right, if_pos (by simp; omega), ← List.cons_append,
      withoutDots_append dots_eq word_ends]

theorem identifierAt_eq_iff {o : Option (List Char)} :
    identifierAt s column = o ↔ Pointed s column o := by
  refine ⟨fun h => ?_, identifierAt_of_pointed⟩
  obtain ⟨o', ho⟩ := exists_pointed s column
  rwa [← h, identifierAt_of_pointed ho]

theorem Pointed.begins (h : Pointed s column (some w)) :
    ∃ c ∈ w.head?, beginsIdentifier c = true := by
  cases h with
  | identifier _ _ word_begins => exact word_begins

theorem letters_of_identifierAt (h : identifierAt s column = some w) :
    ∀ d ∈ w, isIdentifier d = true := by
  cases identifierAt_eq_iff.mp h with
  | identifier around => exact fun d hd => around.letters d (by simp [hd])

end Debugline.Text
