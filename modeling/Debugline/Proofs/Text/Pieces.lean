import Debugline.Proofs.Text.Utf8

/-! Decoding a byte list in two parts. A byte either goes on with the character that is opened or
begins a new piece. So the pieces of two parts are the pieces of the whole, unless the second part
goes on with a character of the first; and then the whole has fewer. -/

namespace Debugline.Text

/-- A byte goes on with an opened character. -/
def Opened.Takes (o : Opened) (b : UInt8) : Prop := o.low ≤ b.toNat ∧ b.toNat ≤ o.high

namespace Decoder

variable {d : Decoder} {b : UInt8}

theorem finish_append (o : Option Opened) (found past : List (Option Char)) :
    finish ⟨o, found ++ past⟩ = past.reverse ++ finish ⟨o, found⟩ := by
  cases o <;> simp [finish]

theorem begin_append (found past : List (Option Char)) (b : UInt8) :
    begin (found ++ past) b = ⟨(begin found b).opened, (begin found b).found ++ past⟩ := by
  unfold begin
  cases lead b <;> rfl

theorem step_append (o : Option Opened) (found past : List (Option Char)) (b : UInt8) :
    step ⟨o, found ++ past⟩ b =
      ⟨(step ⟨o, found⟩ b).opened, (step ⟨o, found⟩ b).found ++ past⟩ := by
  cases o with
  | none => exact begin_append found past b
  | some o =>
    simp only [step]
    split_ifs
    · rfl
    · rfl
    · exact begin_append (none :: found) past b

/-- What was found before is left at the end. -/
theorem foldl_step_append (o : Option Opened) (found past : List (Option Char))
    (bytes : List UInt8) :
    bytes.foldl step ⟨o, found ++ past⟩ =
      ⟨(bytes.foldl step ⟨o, found⟩).opened, (bytes.foldl step ⟨o, found⟩).found ++ past⟩ := by
  induction bytes generalizing o found with
  | nil => rfl
  | cons b bytes ih =>
    rw [List.foldl_cons, List.foldl_cons, step_append]
    exact ih (step ⟨o, found⟩ b).opened (step ⟨o, found⟩ b).found

/-- After the pieces of the past, bytes give the pieces that they give alone. -/
theorem finish_foldl_none (past : List (Option Char)) (bytes : List UInt8) :
    (bytes.foldl step ⟨none, past⟩).finish = past.reverse ++ pieces bytes := by
  have h := foldl_step_append none [] past bytes
  rw [List.nil_append] at h
  rw [h, finish_append]
  rfl

/-- A byte that does not go on with a character leaves it malformed. -/
theorem step_of_not_takes (h : ∀ o ∈ d.opened, ¬o.Takes b) :
    step d b = step ⟨none, d.finish.reverse⟩ b := by
  obtain ⟨_ | o, found⟩ := d
  · simp [finish]
  · have ho : ¬(o.low ≤ b.toNat ∧ b.toNat ≤ o.high) := h o rfl
    simp only [step, if_neg ho, finish, List.reverse_reverse]

theorem length_finish_step_of_takes {o : Opened} (ho : d.opened = some o) (h : o.Takes b) :
    (step d b).finish.length = d.finish.length := by
  obtain ⟨_, found⟩ := d
  obtain rfl := ho
  simp only [step, if_pos (show o.low ≤ b.toNat ∧ b.toNat ≤ o.high from h)]
  split_ifs <;> simp [finish]

theorem length_finish_step_of_not_takes (h : ∀ o ∈ d.opened, ¬o.Takes b) :
    (step d b).finish.length = d.finish.length + 1 := by
  rw [step_of_not_takes h]
  simp only [step, begin]
  cases lead b <;> simp [finish]

theorem length_finish_le_step (d : Decoder) (b : UInt8) :
    d.finish.length ≤ (step d b).finish.length := by
  by_cases h : ∃ o ∈ d.opened, o.Takes b
  · obtain ⟨o, ho, ht⟩ := h
    exact Nat.le_of_eq (length_finish_step_of_takes ho ht).symm
  · rw [length_finish_step_of_not_takes fun o ho ht => h ⟨o, ho, ht⟩]
    exact Nat.le_succ _

theorem length_finish_le_foldl (d : Decoder) (bytes : List UInt8) :
    d.finish.length ≤ (bytes.foldl step d).finish.length := by
  induction bytes generalizing d with
  | nil => exact Nat.le_refl _
  | cons b bytes ih => exact Nat.le_trans (length_finish_le_step d b) (ih _)

/-! ### Continuation bytes -/

/-- Only continuation bytes go on with an opened character. -/
def Sound (d : Decoder) : Prop := ∀ o ∈ d.opened, 0x80 ≤ o.low ∧ o.high ≤ 0xBF

theorem lead_sound {o : Opened} (h : lead b = .opened o) : 0x80 ≤ o.low ∧ o.high ≤ 0xBF := by
  simp only [lead] at h
  split_ifs at h
  all_goals
    obtain rfl := Lead.opened.inj h
    dsimp only
    omega

theorem begin_sound (found : List (Option Char)) (b : UInt8) : (begin found b).Sound := by
  unfold begin
  cases h : lead b with
  | opened o =>
    intro o' ho
    obtain rfl := Option.some.inj ho
    exact lead_sound h
  | char | malformed =>
    intro o ho
    cases ho

theorem Sound.step (h : d.Sound) (b : UInt8) : (step d b).Sound := by
  obtain ⟨_ | o, found⟩ := d
  · exact begin_sound found b
  · simp only [Decoder.step]
    split_ifs
    · intro o' ho
      cases ho
    · intro o' ho
      obtain rfl := Option.some.inj ho
      exact ⟨Nat.le_refl _, Nat.le_refl _⟩
    · exact begin_sound _ b

theorem Sound.foldl (h : d.Sound) (bytes : List UInt8) : (bytes.foldl Decoder.step d).Sound := by
  induction bytes generalizing d with
  | nil => exact h
  | cons b bytes ih => exact ih (h.step b)

theorem isContinuation_iff : isContinuation b ↔ 0x80 ≤ b.toNat ∧ b.toNat ≤ 0xBF := by
  have h : ∀ n : Fin 256, isContinuation (.ofNat n) ↔ 0x80 ≤ n.val ∧ n.val ≤ 0xBF := by
    decide +kernel
  simpa using h ⟨b.toNat, b.toNat_lt⟩

theorem Sound.isContinuation (h : d.Sound) {o : Opened} (ho : o ∈ d.opened) (ht : o.Takes b) :
    isContinuation b := by
  have hr := h o ho
  exact isContinuation_iff.mpr ⟨Nat.le_trans hr.1 ht.1, Nat.le_trans ht.2 hr.2⟩

/-- A continuation byte begins no character. -/
theorem pieces_cons_of_isContinuation (h : isContinuation b) (bytes : List UInt8) :
    pieces (b :: bytes) = none :: pieces bytes := by
  have hr := isContinuation_iff.mp h
  have hlead : lead b = .malformed := by
    simp only [lead]
    rw [if_neg (by omega), if_pos (by omega)]
  have hstep : Decoder.step ⟨none, []⟩ b = ⟨none, [none]⟩ := by simp [Decoder.step, begin, hlead]
  rw [pieces, List.foldl_cons, hstep, finish_foldl_none]
  rfl

/-- Bytes that go on with a character give no more pieces than they give alone. -/
theorem length_finish_foldl_le (h : d.Sound) (bytes : List UInt8) :
    (bytes.foldl step d).finish.length ≤ d.finish.length + (pieces bytes).length := by
  induction bytes generalizing d with
  | nil => exact Nat.le_add_right ..
  | cons b bytes ih =>
    by_cases ht : ∃ o ∈ d.opened, o.Takes b
    · -- alone, the byte would be a malformed piece of its own
      obtain ⟨o, ho, ht⟩ := ht
      have hrest := ih (h.step b)
      rw [length_finish_step_of_takes ho ht] at hrest
      rw [pieces_cons_of_isContinuation (h.isContinuation ho ht), List.foldl_cons, List.length_cons]
      omega
    · rw [List.foldl_cons, step_of_not_takes fun o ho hb => ht ⟨o, ho, hb⟩, ← List.foldl_cons,
        finish_foldl_none, List.reverse_reverse]
      exact Nat.le_of_eq List.length_append

end Decoder

open Decoder

/-! ### Two parts -/

variable {bytes more : List UInt8}

/-- The second part begins within a character that the first has opened. -/
def Torn (bytes more : List UInt8) : Prop :=
  ∃ o ∈ (bytes.foldl step ⟨none, []⟩).opened, ∃ b ∈ more.head?, o.Takes b

theorem sound_foldl (bytes : List UInt8) : (bytes.foldl step ⟨none, []⟩).Sound :=
  Sound.foldl (d := ⟨none, []⟩) nofun bytes

theorem pieces_append (h : ¬Torn bytes more) :
    pieces (bytes ++ more) = pieces bytes ++ pieces more := by
  rw [pieces, List.foldl_append]
  cases more with
  | nil => simp [pieces, finish]
  | cons b more =>
    have hb : ∀ o ∈ (bytes.foldl step ⟨none, []⟩).opened, ¬o.Takes b :=
      fun o ho ht => h ⟨o, ho, b, rfl, ht⟩
    rw [List.foldl_cons, step_of_not_takes hb, ← List.foldl_cons, finish_foldl_none,
      List.reverse_reverse]
    rfl

theorem length_pieces_append_le (bytes more : List UInt8) :
    (pieces (bytes ++ more)).length ≤ (pieces bytes).length + (pieces more).length := by
  rw [pieces, List.foldl_append]
  exact length_finish_foldl_le (sound_foldl bytes) more

/-- A character that is torn gives a piece in either part. -/
theorem length_pieces_append_lt (h : Torn bytes more) :
    (pieces (bytes ++ more)).length < (pieces bytes).length + (pieces more).length := by
  obtain ⟨o, ho, b, hb, ht⟩ := h
  obtain ⟨more, rfl⟩ := List.head?_eq_some_iff.mp hb
  have hsound := sound_foldl bytes
  have hrest := length_finish_foldl_le (hsound.step b) more
  rw [length_finish_step_of_takes ho ht] at hrest
  rw [pieces_cons_of_isContinuation (hsound.isContinuation ho ht), List.length_cons, pieces,
    List.foldl_append, List.foldl_cons]
  exact Nat.lt_succ_of_le hrest

theorem length_pieces_pos (h : bytes ≠ []) : 0 < (pieces bytes).length := by
  obtain ⟨b, bytes, rfl⟩ := List.exists_cons_of_ne_nil h
  have hb : (step ⟨none, []⟩ b).finish.length = 1 := length_finish_step_of_not_takes nofun
  have hle := length_finish_le_foldl (step ⟨none, []⟩ b) bytes
  rw [hb] at hle
  exact hle

/-- A byte that is no continuation byte begins a piece, whatever stands before and behind it. -/
theorem length_pieces_lt_append {b : UInt8} (h : isContinuation b = false)
    (bytes more : List UInt8) :
    (pieces bytes).length < (pieces (bytes ++ b :: more)).length := by
  have hb := length_finish_step_of_not_takes (d := bytes.foldl step ⟨none, []⟩) (b := b)
    fun o ho ht => by simp [(sound_foldl bytes).isContinuation ho ht] at h
  rw [pieces, pieces, List.foldl_append, List.foldl_cons]
  exact Nat.lt_of_lt_of_le (Nat.lt_of_lt_of_eq (Nat.lt_succ_self _) hb.symm)
    (length_finish_le_foldl _ more)

/-- Taking the last character off a text that stands newest first takes off one piece at least. -/
theorem length_pieces_erase_lt {text : List UInt8} (h : text ≠ []) :
    (pieces ((text.dropWhile isContinuation).drop 1).reverse).length <
      (pieces text.reverse).length := by
  cases hd : text.dropWhile isContinuation with
  | nil => exact length_pieces_pos (by simpa using h)
  | cons b rest =>
    have hb : isContinuation b = false := by
      simpa [hd] using List.head?_dropWhile_not isContinuation text
    have htext := text.takeWhile_append_dropWhile (p := isContinuation)
    rw [hd] at htext
    have hrev : text.reverse = rest.reverse ++ b :: (text.takeWhile isContinuation).reverse := calc
      text.reverse = (text.takeWhile isContinuation ++ b :: rest).reverse := by rw [htext]
      _ = rest.reverse ++ b :: (text.takeWhile isContinuation).reverse := by simp
    rw [hrev]
    exact length_pieces_lt_append hb _ _

/-! ### Texts -/

theorem length_decodeLossy (bytes : List UInt8) :
    (decodeLossy bytes).length = (pieces bytes).length := by
  simp [decodeLossy]

theorem decodeLossy_append (h : ¬Torn bytes more) :
    decodeLossy (bytes ++ more) = decodeLossy bytes ++ decodeLossy more := by
  rw [decodeLossy, pieces_append h, List.map_append, String.ofList_append]
  rfl

end Debugline.Text
