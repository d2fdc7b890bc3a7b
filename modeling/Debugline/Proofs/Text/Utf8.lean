import Debugline.Text.Utf8
import Mathlib.Tactic.SplitIfs

/-! Decoding UTF-8 undoes encoding. The bytes of a character take a decoder that stands
between characters back there, with the character found; so an encoded text has its
characters as its pieces, and none of them is malformed. -/

namespace Debugline.Text

namespace Decoder

/-! ### First bytes -/

theorem lead_one {n : Nat} (h : n < 0x80) : lead (.ofNat n) = .char (.ofNat n) := by
  have hn : (UInt8.ofNat n).toNat = n := by
    rw [UInt8.toNat_ofNat']
    omega
  simp [lead, hn, h]

theorem lead_two {x : Nat} (hx : 2 ≤ x) (hx' : x < 32) :
    lead (.ofNat (x + 192)) = .opened ⟨x, 1, 0x80, 0xBF⟩ := by
  have hn : (UInt8.ofNat (x + 192)).toNat = x + 192 := by
    rw [UInt8.toNat_ofNat']
    omega
  unfold lead
  rw [hn]
  dsimp only
  rw [if_neg (by omega), if_neg (by omega), if_pos (by omega), Nat.add_sub_cancel]

/-- The first of three bytes. The second may not make the form overlong, nor a surrogate. -/
theorem lead_three {x y : Nat} (hx : x < 16) (hy : y < 64) (long : x = 0 → 32 ≤ y)
    (scalar : x = 13 → y < 32) :
    ∃ low high, lead (.ofNat (x + 224)) = .opened ⟨x, 2, low, high⟩ ∧
      low ≤ y + 128 ∧ y + 128 ≤ high := by
  have hn : (UInt8.ofNat (x + 224)).toNat = x + 224 := by
    rw [UInt8.toNat_ofNat']
    omega
  unfold lead
  rw [hn]
  dsimp only
  rw [if_neg (by omega), if_neg (by omega), if_neg (by omega)]
  rw [Nat.add_sub_cancel]
  split_ifs with h0 h13 hlt
  · obtain rfl : x = 0 := by omega
    exact ⟨_, _, rfl, by have := long rfl; omega, by omega⟩
  · obtain rfl : x = 13 := by omega
    exact ⟨_, _, rfl, by omega, by have := scalar rfl; omega⟩
  · exact ⟨_, _, rfl, by omega, by omega⟩
  all_goals omega

/-- The first of four bytes. The second may not make the form overlong, nor too large. -/
theorem lead_four {x y : Nat} (hx : x < 5) (hy : y < 64) (long : x = 0 → 16 ≤ y)
    (scalar : x = 4 → y < 16) :
    ∃ low high, lead (.ofNat (x + 240)) = .opened ⟨x, 3, low, high⟩ ∧
      low ≤ y + 128 ∧ y + 128 ≤ high := by
  have hn : (UInt8.ofNat (x + 240)).toNat = x + 240 := by
    rw [UInt8.toNat_ofNat']
    omega
  unfold lead
  rw [hn]
  dsimp only
  rw [if_neg (by omega), if_neg (by omega), if_neg (by omega), if_neg (by omega),
    if_neg (by omega), if_neg (by omega)]
  rw [Nat.add_sub_cancel]
  split_ifs with h0 hlt h4
  · obtain rfl : x = 0 := by omega
    exact ⟨_, _, rfl, by have := long rfl; omega, by omega⟩
  · exact ⟨_, _, rfl, by omega, by omega⟩
  · obtain rfl : x = 4 := by omega
    exact ⟨_, _, rfl, by omega, by have := scalar rfl; omega⟩
  all_goals omega

/-! ### Continuation bytes -/

variable {bits owed low high y : Nat} {found : List (Option Char)}

theorem step_more (hy : y < 64) (hl : low ≤ y + 128) (hh : y + 128 ≤ high) :
    step ⟨some ⟨bits, owed + 2, low, high⟩, found⟩ (.ofNat (y + 128)) =
      ⟨some ⟨bits * 64 + y, owed + 1, 0x80, 0xBF⟩, found⟩ := by
  have hn : (UInt8.ofNat (y + 128)).toNat = y + 128 := by
    rw [UInt8.toNat_ofNat']
    omega
  simp only [step, hn]
  rw [if_pos ⟨hl, hh⟩, if_neg (by omega), Nat.add_sub_cancel]
  rfl

theorem step_last (hy : y < 64) :
    step ⟨some ⟨bits, 1, 0x80, 0xBF⟩, found⟩ (.ofNat (y + 128)) =
      ⟨none, some (.ofNat (bits * 64 + y)) :: found⟩ := by
  have hn : (UInt8.ofNat (y + 128)).toNat = y + 128 := by
    rw [UInt8.toNat_ofNat']
    omega
  simp only [step, hn]
  rw [if_pos (by omega), if_pos (by omega), Nat.add_sub_cancel]

theorem step_opened {b : UInt8} {o : Opened} (h : lead b = .opened o) :
    step ⟨none, found⟩ b = ⟨some o, found⟩ := by
  simp [step, begin, h]

/-! ### Characters and texts -/

/-- The bytes of a character give that character. -/
theorem foldl_step_char (c : Char) (found : List (Option Char)) :
    (String.utf8EncodeChar c).foldl step ⟨none, found⟩ = ⟨none, some c :: found⟩ := by
  have hofNat : ∀ n, n = c.val.toNat → Char.ofNat n = c := by
    rintro n rfl
    exact Char.ofNat_toNat c
  have hscalar : c.val.toNat < 0xD800 ∨ 0xDFFF < c.val.toNat ∧ c.val.toNat < 0x110000 := c.valid
  rw [String.utf8EncodeChar]
  generalize c.val.toNat = v at hofNat hscalar ⊢
  split_ifs with h1 h2 h3
  · have hb : lead (.ofNat v) = .char c := by rw [lead_one (by omega), hofNat v rfl]
    simp [step, begin, hb]
  · have hx : v / 64 % 32 = v / 64 := Nat.mod_eq_of_lt (by omega)
    rw [hx, List.foldl_cons, step_opened (lead_two (by omega) (by omega)), List.foldl_cons,
      step_last (by omega), hofNat _ (by omega)]
    rfl
  · have hx : v / 4096 % 16 = v / 4096 := Nat.mod_eq_of_lt (by omega)
    obtain ⟨low, high, hlead, hl, hh⟩ := lead_three (x := v / 4096) (y := v / 64 % 64)
      (by omega) (by omega) (by omega) (by omega)
    rw [hx, List.foldl_cons, step_opened hlead, List.foldl_cons, step_more (by omega) hl hh,
      List.foldl_cons, step_last (by omega), hofNat _ (by omega)]
    rfl
  · have hx : v / 262144 % 8 = v / 262144 := Nat.mod_eq_of_lt (by omega)
    obtain ⟨low, high, hlead, hl, hh⟩ := lead_four (x := v / 262144) (y := v / 4096 % 64)
      (by omega) (by omega) (by omega) (by omega)
    rw [hx, List.foldl_cons, step_opened hlead, List.foldl_cons, step_more (by omega) hl hh,
      List.foldl_cons, step_more (by omega) (by omega) (by omega), List.foldl_cons,
      step_last (by omega), hofNat _ (by omega)]
    rfl

theorem foldl_step_chars (cs : List Char) (found : List (Option Char)) :
    (cs.flatMap String.utf8EncodeChar).foldl step ⟨none, found⟩ =
      ⟨none, (cs.map some).reverse ++ found⟩ := by
  induction cs generalizing found with
  | nil => rfl
  | cons c cs ih =>
    rw [List.flatMap_cons, List.foldl_append, foldl_step_char, ih]
    simp

end Decoder

theorem pieces_encode (s : String) : pieces (encode s) = s.toList.map some := by
  simp [pieces, encode, Decoder.foldl_step_chars, Decoder.finish]

theorem decodeLossy_encode (s : String) : decodeLossy (encode s) = s := by
  rw [decodeLossy, pieces_encode, List.map_map]
  exact (congrArg String.ofList (List.map_id _)).trans String.ofList_toList

theorem decode?_encode (s : String) : decode? (encode s) = some s := by
  rw [decode?, pieces_encode]
  simp

theorem encode_injective {s t : String} (h : encode s = encode t) : s = t := by
  rw [← decodeLossy_encode s, h, decodeLossy_encode]

end Debugline.Text
