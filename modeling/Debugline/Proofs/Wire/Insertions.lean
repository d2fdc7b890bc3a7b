import Debugline.Proofs.Wire.Segments

/-! A segment put into a stream. Two scanners, one of which is given the stream with the segment
and the other the stream without it, are in the same phase in front of the segment and behind it,
and end the same segments but for the one. This holds however the stream is cut, so the bytes of
the two streams are kept in one list, with a mark on those that are in both. -/

namespace Debugline.Wire

/-- Bytes with a mark on those that stay if a segment is left out. -/
abbrev Splice := List (UInt8 × Bool)

namespace Splice

def all (bytes : Splice) : List UInt8 := bytes.map Prod.fst

def kept (bytes : Splice) : List UInt8 := (bytes.filter Prod.snd).map Prod.fst

/-- All bytes have the same mark. -/
def of (stay : Bool) (bytes : List UInt8) : Splice := bytes.map (·, stay)

/-- A segment between two texts; it alone is not marked. -/
def around (before segment behind : List UInt8) : Splice :=
  of true before ++ of false segment ++ of true behind

theorem kept_eq_all {w rest : Splice} {bytes : List UInt8} (h : w ++ rest = of true bytes) :
    kept w = all w := by
  have hw : ∀ m ∈ w, m.2 = true := fun m hm => by
    have hmem : m ∈ of true bytes := h ▸ List.mem_append_left rest hm
    obtain ⟨b, -, rfl⟩ := List.mem_map.mp hmem
    rfl
  rw [kept, List.filter_eq_self.mpr hw, all]

end Splice

open Splice

variable {config : Config}

section

variable {α : Type} (config) (hear : α → Segment → α) (σ : Segment) (goal : α)

/-- Two scanners around a segment that only the first of them is given. What the second has heard
of the segments is to be a given thing when the segment comes. -/
inductive Around : Phase → Phase → α → Splice → Prop
  | before {φ : Phase} {a : α} {b : UInt8} {bytes behind : List UInt8}
      (idle : φ.after config (b :: bytes) = .text 0)
      (heard : (φ.segments config (b :: bytes)).foldl hear a = goal) :
      Around φ φ a (Splice.around (b :: bytes) (σ.bytes config) behind)
  | inside {φ φ' : Phase} {start behind : List UInt8} {last : UInt8}
      (silent : φ.Silent config start φ') (ends : φ'.advance config last = (.text 0, some σ)) :
      Around φ (.text 0) goal (Splice.around [] (start ++ [last]) behind)
  | behind {φ : Phase} {a : α} (bytes : List UInt8) : Around φ φ a (Splice.of true bytes)

end

namespace Around

variable {α : Type} {hear : α → Segment → α} {σ : Segment} {goal a : α} {φ φ₁ φ₂ : Phase}

theorem of_idle (hσ : σ.Fits config) {before : List UInt8}
    (idle : φ.after config before = .text 0)
    (heard : (φ.segments config before).foldl hear a = goal) (behind : List UInt8) :
    Around config hear σ goal φ φ a (Splice.around before (σ.bytes config) behind) := by
  cases before with
  | cons b before => exact .before idle heard
  | nil =>
    obtain ⟨start, last, φ', hbytes, silent, ends⟩ := hσ.ends
    obtain rfl : φ = .text 0 := idle
    obtain rfl : a = goal := heard
    rw [hbytes]
    exact .inside silent ends

/-- A byte that both are given. -/
theorem marked (hσ : σ.Fits config) {b : UInt8} {rest : Splice}
    (h : Around config hear σ goal φ₁ φ₂ a ((b, true) :: rest)) : φ₁ = φ₂ ∧
      Around config hear σ goal (φ₂.advance config b).1 (φ₂.advance config b).1
        ((φ₂.advance config b).2.toList.foldl hear a) rest := by
  generalize hbytes : ((b, true) :: rest : Splice) = bytes at h
  cases h with
  | @before _ b' before behind idle heard =>
    obtain ⟨hb, rfl⟩ := List.cons.inj hbytes
    obtain rfl : b = b' := congrArg Prod.fst hb
    rw [Phase.segments, List.foldl_append] at heard
    exact ⟨rfl, of_idle hσ (φ := (φ₁.advance config b).1) idle heard behind⟩
  | @inside φ' start behind last silent ends =>
    cases start <;> exact absurd (List.cons.inj hbytes).1 (by simp)
  | behind bytes =>
    cases bytes with
    | nil => cases hbytes
    | cons b' bytes =>
      obtain ⟨hb, rfl⟩ := List.cons.inj hbytes
      exact ⟨rfl, .behind bytes⟩

/-- A byte of the segment. -/
theorem unmarked {b : UInt8} {rest : Splice}
    (h : Around config hear σ goal φ₁ φ₂ a ((b, false) :: rest)) :
    ((φ₁.advance config b).2 = none ∧
        Around config hear σ goal (φ₁.advance config b).1 φ₂ a rest) ∨
      (φ₁.advance config b = (φ₂, some σ) ∧ a = goal ∧ ∃ bytes, rest = Splice.of true bytes) := by
  generalize hbytes : ((b, false) :: rest : Splice) = bytes at h
  cases h with
  | before => exact absurd (List.cons.inj hbytes).1 (by simp)
  | @inside φ' start behind last silent ends =>
    cases start with
    | nil =>
      obtain ⟨hb, rfl⟩ := List.cons.inj hbytes
      obtain rfl : b = last := congrArg Prod.fst hb
      obtain rfl : φ₁ = φ' := silent.2
      exact .inr ⟨ends, rfl, behind, rfl⟩
    | cons b' start =>
      obtain ⟨hb, rfl⟩ := List.cons.inj hbytes
      obtain rfl : b = b' := congrArg Prod.fst hb
      obtain ⟨hnone, hlater⟩ := List.append_eq_nil_iff.mp silent.1
      exact .inl ⟨by simpa using hnone, .inside ⟨hlater, silent.2⟩ ends⟩
  | behind bytes => cases bytes <;> cases hbytes

/-- The chunk ends the same segments for both, but for the one. -/
theorem chunk (hσ : σ.Fits config) {w rest : Splice}
    (h : Around config hear σ goal φ₁ φ₂ a (w ++ rest)) :
    Around config hear σ goal (φ₁.after config (all w)) (φ₂.after config (kept w))
        ((φ₂.segments config (kept w)).foldl hear a) rest ∧
      (φ₁.segments config (all w) = φ₂.segments config (kept w) ∨
        ∃ l r, φ₂.segments config (kept w) = l ++ r ∧ φ₁.segments config (all w) = l ++ σ :: r ∧
          l.foldl hear a = goal) := by
  induction w generalizing φ₁ φ₂ a with
  | nil => exact ⟨h, .inl rfl⟩
  | cons m w ih =>
    obtain ⟨b, stay⟩ := m
    cases stay with
    | true =>
      obtain ⟨rfl, hlater⟩ := marked hσ h
      obtain ⟨hrest, hends⟩ := ih hlater
      have hkept : kept ((b, true) :: w) = b :: kept w := rfl
      have hall : all ((b, true) :: w) = b :: all w := rfl
      rw [hkept, hall]
      simp only [Phase.segments, List.foldl_append]
      refine ⟨hrest, hends.imp (congrArg _) ?_⟩
      rintro ⟨l, r, hl, hr, hgoal⟩
      exact ⟨_, r, by rw [hl, List.append_assoc], by rw [hr, List.append_assoc],
        by rw [List.foldl_append, hgoal]⟩
    | false =>
      have hkept : kept ((b, false) :: w) = kept w := rfl
      have hall : all ((b, false) :: w) = b :: all w := rfl
      rw [hkept, hall]
      rcases unmarked h with ⟨hnone, hlater⟩ | ⟨hends, rfl, bytes, hbytes⟩
      · have hsegments : φ₁.segments config (b :: all w) =
            (φ₁.advance config b).1.segments config (all w) := by simp [Phase.segments, hnone]
        rw [hsegments]
        exact ih hlater
      · -- the segment ends, and behind it the two scanners are given the same
        have hsame := kept_eq_all hbytes
        have hsegments : φ₁.segments config (b :: all w) = σ :: φ₂.segments config (kept w) := by
          simp [Phase.segments, hends, hsame]
        have hafter : φ₁.after config (b :: all w) = φ₂.after config (kept w) := by
          simp [Phase.after, hends, hsame]
        have hrest : Around config hear σ a φ₂ φ₂ a (w ++ rest) := by
          rw [show w ++ rest = of true bytes from hbytes]
          exact .behind bytes
        obtain ⟨hbehind, -⟩ := ih hrest
        rw [hsegments, hafter]
        exact ⟨hsame ▸ hbehind, .inr ⟨[], _, rfl, rfl, rfl⟩⟩

/-- Behind the stream the two scanners are in one phase. -/
theorem phase_eq (h : Around config hear σ goal φ₁ φ₂ a []) : φ₁ = φ₂ := by
  generalize hbytes : ([] : Splice) = bytes at h
  cases h with
  | before => cases hbytes
  | @inside φ' start behind last silent ends => cases start <;> cases hbytes
  | behind => rfl

end Around

namespace Segment

theorem type_of_not_isText {σ : Segment} (h : σ.isText = false) (text : List UInt8) :
    σ.type config text = text := by
  cases σ <;> first | rfl | cases h

/-- A segment that is no text can be left out of what is shown. -/
theorem shown_insert {σ : Segment} (h : σ.isText = false) (l r : List Segment) :
    shown config (l ++ σ :: r) = shown config (l ++ r) := by
  simp only [shown, List.foldl_append, List.foldl_cons, type_of_not_isText h]

end Segment

end Debugline.Wire
