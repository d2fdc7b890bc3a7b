import Debugline.Wire.Scanner
import Mathlib.Tactic.SplitIfs

/-! The scanner and the cuts of its stream. A step reads of the progress before it the
phase alone, and puts its frames on top of those that were there; its text too, as long
as no backspace is about. So a chunk can be cut anywhere, and two ways of cutting a
stream give the same frames and leave the same scanner. -/

namespace Debugline.Wire.Scanner

variable (s : Scanner)

/-- Takes chunks one after the other. -/
def feedAll (s : Scanner) : List (List UInt8) → Scanner × Output
  | [] => (s, ⟨[], []⟩)
  | chunk :: chunks =>
    let (s, out) := s.feed chunk
    let (s, rest) := s.feedAll chunks
    (s, ⟨out.text ++ rest.text, out.frames ++ rest.frames⟩)

/-! ### One byte -/

/-- A step from a phase, with no text and no frames before it. -/
def alone (φ : Phase) (b : UInt8) : Progress := s.step ⟨φ, [], []⟩ b

theorem step_phase (p : Progress) (b : UInt8) : (s.step p b).phase = (s.alone p.phase b).phase := by
  obtain ⟨φ, text, frames⟩ := p
  cases φ with
  | text held =>
    simp only [alone, step, stepText]
    split_ifs <;> rfl
  | frame body =>
    simp only [alone, step, stepFrame]
    split_ifs <;> rfl

theorem step_frames (p : Progress) (b : UInt8) :
    (s.step p b).frames = (s.alone p.phase b).frames ++ p.frames := by
  obtain ⟨φ, text, frames⟩ := p
  cases φ with
  | text held =>
    simp only [alone, step, stepText]
    split_ifs <;> rfl
  | frame body =>
    simp only [alone, step, stepFrame]
    split_ifs <;> rfl

/-- No backspace waits in a frame to be given back. -/
def Plain : Phase → Prop
  | .text _ => True
  | .frame body => backspace ∉ body

theorem typed_plain (text : List UInt8) {b : UInt8} (hb : b ≠ backspace) :
    typed text b = b :: text := if_neg hb

theorem foldl_typed_plain (text : List UInt8) {bytes : List UInt8} (h : backspace ∉ bytes) :
    bytes.foldl typed text = bytes.reverse ++ text := by
  induction bytes generalizing text with
  | nil => rfl
  | cons b bytes ih =>
    simp only [List.mem_cons, not_or] at h
    rw [List.foldl_cons, typed_plain text (Ne.symm h.1), ih _ h.2]
    simp

theorem plain_push {body : Array UInt8} {b : UInt8} (h : backspace ∉ body) (hb : b ≠ backspace) :
    backspace ∉ body.push b := by
  simpa [Array.mem_push, h] using hb.symm

theorem step_plain {φ : Phase} {b : UInt8} (h : Plain φ) (hb : b ≠ backspace) :
    Plain (s.alone φ b).phase := by
  cases φ with
  | text held =>
    simp only [alone, step, stepText]
    split_ifs <;> simp [Plain]
  | frame body =>
    simp only [alone, step, stepFrame]
    split_ifs <;> simp only [Plain]
    · exact plain_push h hb
    · exact h

theorem step_text {p : Progress} {b : UInt8} (h : Plain p.phase) (hb : b ≠ backspace) :
    (s.step p b).text = (s.alone p.phase b).text ++ p.text := by
  obtain ⟨φ, text, frames⟩ := p
  cases φ with
  | text held =>
    simp only [alone, step, stepText, typed_plain _ hb]
    split_ifs <;> simp
  | frame body =>
    have hbody : backspace ∉ (body.push b).toList := by simpa using plain_push h hb
    simp only [alone, step, stepFrame, typed_plain _ hb, foldl_typed_plain _ hbody]
    split_ifs <;> simp

/-! ### A chunk -/

/-- A chunk from a phase, with no text and no frames before it. -/
def scanFrom (φ : Phase) (chunk : List UInt8) : Progress := chunk.foldl s.step ⟨φ, [], []⟩

theorem foldl_step_phase (p : Progress) (chunk : List UInt8) :
    (chunk.foldl s.step p).phase = (s.scanFrom p.phase chunk).phase := by
  induction chunk generalizing p with
  | nil => rfl
  | cons b chunk ih =>
    rw [scanFrom, List.foldl_cons, List.foldl_cons, ih, ih (s.step ⟨p.phase, [], []⟩ b), step_phase]
    rfl

theorem foldl_step_frames (p : Progress) (chunk : List UInt8) :
    (chunk.foldl s.step p).frames = (s.scanFrom p.phase chunk).frames ++ p.frames := by
  induction chunk generalizing p with
  | nil => rfl
  | cons b chunk ih =>
    rw [scanFrom, List.foldl_cons, List.foldl_cons, ih, ih (s.step ⟨p.phase, [], []⟩ b),
      step_phase, step_frames, List.append_assoc]
    rfl

theorem foldl_step_plain {p : Progress} {chunk : List UInt8} (h : Plain p.phase)
    (hc : backspace ∉ chunk) : Plain (chunk.foldl s.step p).phase := by
  induction chunk generalizing p with
  | nil => exact h
  | cons b chunk ih =>
    simp only [List.mem_cons, not_or] at hc
    rw [List.foldl_cons]
    apply ih _ hc.2
    rw [step_phase]
    exact s.step_plain h (Ne.symm hc.1)

theorem foldl_step_text {p : Progress} {chunk : List UInt8} (h : Plain p.phase)
    (hc : backspace ∉ chunk) :
    (chunk.foldl s.step p).text = (s.scanFrom p.phase chunk).text ++ p.text := by
  induction chunk generalizing p with
  | nil => rfl
  | cons b chunk ih =>
    simp only [List.mem_cons, not_or] at hc
    have hb : b ≠ backspace := Ne.symm hc.1
    have hp : Plain (s.step p b).phase := by
      rw [step_phase]
      exact s.step_plain h hb
    have hq : Plain (s.step ⟨p.phase, [], []⟩ b).phase := s.step_plain h hb
    rw [scanFrom, List.foldl_cons, List.foldl_cons, ih hp hc.2, ih hq hc.2, step_phase,
      s.step_text h hb, List.append_assoc]
    rfl

/-! ### Two chunks and many -/

theorem feed_append_scanner (a b : List UInt8) :
    (s.feed (a ++ b)).1 = ((s.feed a).1.feed b).1 := by
  simp only [feed, scan, List.foldl_append]
  rw [foldl_step_phase]
  rfl

theorem feed_append_frames (a b : List UInt8) :
    (s.feed (a ++ b)).2.frames = (s.feed a).2.frames ++ ((s.feed a).1.feed b).2.frames := by
  simp only [feed, scan, List.foldl_append]
  rw [foldl_step_frames, List.reverse_append, List.map_append]
  rfl

theorem feed_append_text {a b : List UInt8} (h : Plain s.phase) (ha : backspace ∉ a)
    (hb : backspace ∉ b) :
    (s.feed (a ++ b)).2.text = (s.feed a).2.text ++ ((s.feed a).1.feed b).2.text := by
  simp only [feed, scan, List.foldl_append]
  rw [s.foldl_step_text (s.foldl_step_plain h ha) hb, List.reverse_append]
  rfl

theorem feedAll_scanner (chunks : List (List UInt8)) :
    (s.feedAll chunks).1 = (s.feed chunks.flatten).1 := by
  induction chunks generalizing s with
  | nil => rfl
  | cons chunk chunks ih =>
    rw [List.flatten_cons, feed_append_scanner, ← ih]
    rfl

theorem feedAll_frames (chunks : List (List UInt8)) :
    (s.feedAll chunks).2.frames = (s.feed chunks.flatten).2.frames := by
  induction chunks generalizing s with
  | nil => rfl
  | cons chunk chunks ih =>
    rw [List.flatten_cons, feed_append_frames, ← ih]
    rfl

theorem feedAll_text {chunks : List (List UInt8)} (h : Plain s.phase)
    (hc : backspace ∉ chunks.flatten) :
    (s.feedAll chunks).2.text = (s.feed chunks.flatten).2.text := by
  induction chunks generalizing s with
  | nil => rfl
  | cons chunk chunks ih =>
    simp only [List.flatten_cons, List.mem_append, not_or] at hc
    have hn : Plain (s.feed chunk).1.phase := s.foldl_step_plain h hc.1
    rw [List.flatten_cons, s.feed_append_text h hc.1 hc.2, ← ih _ hn hc.2]
    rfl

/-- Two ways of cutting a stream give the same frames and leave the same scanner. The
text is the same too, unless the stream has a backspace, which reaches no further back
than its chunk. -/
theorem feedAll_eq_of_flatten_eq (config : Config) (enabled : Bool)
    {chunks chunks' : List (List UInt8)} (h : chunks.flatten = chunks'.flatten) :
    ((new config enabled).feedAll chunks).1 = ((new config enabled).feedAll chunks').1 ∧
      ((new config enabled).feedAll chunks).2.frames =
        ((new config enabled).feedAll chunks').2.frames ∧
      (backspace ∉ chunks.flatten → ((new config enabled).feedAll chunks).2.text =
        ((new config enabled).feedAll chunks').2.text) := by
  refine ⟨?_, ?_, fun hb => ?_⟩
  · rw [feedAll_scanner, feedAll_scanner, h]
  · rw [feedAll_frames, feedAll_frames, h]
  · have hp : Plain (new config enabled).phase := trivial
    rw [feedAll_text _ hp hb, feedAll_text _ hp (h ▸ hb), h]

/-- A cut inside the escape, and one that gives an empty chunk. -/
theorem feedAll_eq_cut_in_escape :
    let chunks := [[0x61, 0x1b], [], [0x5d, 0x3e, 0x37], [0x0a]]
    let chunks' := [[0x61, 0x1b, 0x5d], [0x3e, 0x37, 0x0a]]
    chunks.flatten = chunks'.flatten ∧ backspace ∉ chunks.flatten ∧
      ((new .standard true).feedAll chunks).1 = ((new .standard true).feedAll chunks').1 ∧
      ((new .standard true).feedAll chunks).2.frames =
        ((new .standard true).feedAll chunks').2.frames ∧
      ((new .standard true).feedAll chunks).2.text =
        ((new .standard true).feedAll chunks').2.text :=
  have h := feedAll_eq_of_flatten_eq .standard true rfl
  ⟨rfl, by decide, h.1, h.2.1, h.2.2 (by decide)⟩

end Debugline.Wire.Scanner
