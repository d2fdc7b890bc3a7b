import Debugline.Proofs.Text.Pieces
import Debugline.Proofs.Text.Utf8

/-! Texts among bytes. A character begins with a byte that is no continuation byte and goes on with
bytes that are, so a text can be cut wherever a byte stands that begins a character: what is in
front of the cut is a text, and so is what is behind it. -/

namespace Debugline.Text

theorem encode_append (s t : String) : encode (s ++ t) = encode s ++ encode t := by
  simp [encode]

/-- Bytes the first of which goes on with no character. -/
def Begins (bytes : List UInt8) : Prop := ∀ b ∈ bytes.head?, isContinuation b = false

theorem begins_of_ascii {b : UInt8} (h : b.toNat < 128) (bytes : List UInt8) :
    Begins (b :: bytes) := by
  rintro _ ⟨⟩
  rw [Bool.eq_false_iff, ne_eq, Decoder.isContinuation_iff]
  omega

/-- A byte that begins a character, and those that continue it. -/
theorem utf8EncodeChar_eq_cons (c : Char) :
    ∃ first more, String.utf8EncodeChar c = first :: more ∧ isContinuation first = false ∧
      ∀ b ∈ more, isContinuation b := by
  have hbegins (n : Nat) (hn : n < 256) (h : n < 128 ∨ 192 ≤ n) :
      isContinuation (.ofNat n) = false := by
    rw [Bool.eq_false_iff, ne_eq, Decoder.isContinuation_iff, UInt8.toNat_ofNat',
      Nat.mod_eq_of_lt hn]
    omega
  have hcontinues (n : Nat) : isContinuation (.ofNat (n % 64 + 128)) := by
    rw [Decoder.isContinuation_iff, UInt8.toNat_ofNat']
    omega
  have hscalar : c.val.toNat < 1114112 := by
    have hvalid := c.valid
    omega
  rw [String.utf8EncodeChar]
  generalize c.val.toNat = v at hscalar ⊢
  split_ifs with h1 h2 h3
  · exact ⟨_, [], rfl, hbegins _ (by omega) (by omega), nofun⟩
  · exact ⟨_, _, rfl, hbegins _ (by omega) (by omega),
      List.forall_mem_singleton.mpr (hcontinues _)⟩
  · exact ⟨_, _, rfl, hbegins _ (by omega) (by omega),
      List.forall_mem_cons.mpr ⟨hcontinues _, List.forall_mem_singleton.mpr (hcontinues _)⟩⟩
  · exact ⟨_, _, rfl, hbegins _ (by omega) (by omega),
      List.forall_mem_cons.mpr ⟨hcontinues _, List.forall_mem_cons.mpr ⟨hcontinues _,
        List.forall_mem_singleton.mpr (hcontinues _)⟩⟩⟩

/-- No byte within a character begins another one. -/
theorem eq_nil_of_utf8EncodeChar_eq_append {c : Char} {front more : List UInt8}
    (h : String.utf8EncodeChar c = front ++ more) (hm : Begins more) : front = [] ∨ more = [] := by
  obtain ⟨first, others, hchar, -, hcontinued⟩ := utf8EncodeChar_eq_cons c
  rw [hchar] at h
  cases front with
  | nil => exact .inl rfl
  | cons b front =>
    obtain ⟨-, rfl⟩ := List.cons.inj h
    cases more with
    | nil => exact .inr rfl
    | cons m more =>
      have hbegins : isContinuation m = false := hm m rfl
      rw [hcontinued m (by simp)] at hbegins
      cases hbegins

/-- Bytes that are a text. -/
def IsText (bytes : List UInt8) : Prop := ∃ s, bytes = encode s

namespace IsText

variable {front rest : List UInt8}

theorem encode (s : String) : IsText (Text.encode s) := ⟨s, rfl⟩

theorem nil : IsText [] := encode ""

theorem append (hf : IsText front) (hr : IsText rest) : IsText (front ++ rest) := by
  obtain ⟨s, rfl⟩ := hf
  obtain ⟨t, rfl⟩ := hr
  exact ⟨s ++ t, (encode_append s t).symm⟩

theorem chars (cs : List Char) : IsText (cs.flatMap String.utf8EncodeChar) :=
  ⟨.ofList cs, by simp [Text.encode]⟩

theorem char (c : Char) : IsText (String.utf8EncodeChar c) := by
  have h := chars [c]
  rwa [List.flatMap_singleton] at h

theorem ascii {bytes : List UInt8} (h : ∀ b ∈ bytes, b.toNat < 128) : IsText bytes := by
  have hbyte : ∀ n : Fin 128, String.utf8EncodeChar (.ofNat n) = [.ofNat n] := by decide +kernel
  induction bytes with
  | nil => exact nil
  | cons b bytes ih =>
    obtain ⟨hb, hbytes⟩ := List.forall_mem_cons.mp h
    have hchar : String.utf8EncodeChar (.ofNat b.toNat) = [b] := by simpa using hbyte ⟨b.toNat, hb⟩
    have hfirst := char (.ofNat b.toNat)
    rw [hchar] at hfirst
    exact hfirst.append (ih hbytes)

/-- A text can be cut wherever no character goes on. -/
theorem split (h : IsText (front ++ rest)) (hr : Begins rest) : IsText front ∧ IsText rest := by
  obtain ⟨s, hs⟩ := h
  rw [Text.encode] at hs
  generalize s.toList = cs at hs
  induction cs generalizing front with
  | nil =>
    obtain ⟨rfl, rfl⟩ := List.append_eq_nil_iff.mp hs
    exact ⟨nil, nil⟩
  | cons c cs ih =>
    rw [List.flatMap_cons] at hs
    rcases List.append_eq_append_iff.mp hs with ⟨more, hc, rfl⟩ | ⟨front', rfl, hcs⟩
    · have hm : Begins more := fun b hb => hr b (by
        obtain ⟨more, rfl⟩ := List.head?_eq_some_iff.mp hb
        rfl)
      rcases eq_nil_of_utf8EncodeChar_eq_append hc hm with rfl | rfl
      · rw [List.nil_append] at hc
        exact ⟨nil, hc ▸ (char c).append (chars cs)⟩
      · rw [List.append_nil] at hc
        exact ⟨hc ▸ char c, chars cs⟩
    · obtain ⟨hf, hrest⟩ := ih hcs.symm
      exact ⟨(char c).append hf, hrest⟩

/-- What follows a text in a text is a text. -/
theorem of_append (hf : IsText front) (h : IsText (front ++ rest)) : IsText rest := by
  obtain ⟨s, rfl⟩ := hf
  refine (h.split fun b hb => ?_).2
  -- A continuation byte that follows a text would be a malformed piece.
  obtain ⟨t, ht⟩ := h
  obtain ⟨rest, rfl⟩ := List.head?_eq_some_iff.mp hb
  have hpieces : pieces (Text.encode s ++ b :: rest) = s.toList.map some ++ pieces (b :: rest) := by
    rw [pieces, List.foldl_append, Text.encode, Decoder.foldl_step_chars, Decoder.finish_foldl_none]
    simp
  rw [Bool.eq_false_iff]
  intro hc
  rw [ht, pieces_encode, Decoder.pieces_cons_of_isContinuation hc] at hpieces
  have hnone : none ∈ t.toList.map some := by simp [hpieces]
  simp at hnone

end IsText

end Debugline.Text
