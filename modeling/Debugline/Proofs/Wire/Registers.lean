import Debugline.Proofs.Wire.Backspaces
import Debugline.Proofs.Wire.Segments

/-! What a scanner remembers, each part in a place of its own: how much of the escape was seen,
whether a frame is open, and the bytes of its body. Nothing but the steps ties these registers
together, and the next byte of the escape is looked up by a number that may be too large. It
never is: the registers go byte by byte as the phase of the scanner does. So the number is three
just when a frame is open, and the bytes are the beginning of a body that has not ended. -/

namespace Debugline.Wire

open Text

/-- What a scanner remembers between two bytes. -/
structure Registers where
  /-- The number of bytes seen of an escape. -/
  held : Nat
  inFrame : Bool
  buffer : Array UInt8
  deriving DecidableEq

/-- Registers within a chunk, and what the chunk gave so far, newest first. -/
structure Intake extends Registers where
  text : List UInt8
  frames : List (Array UInt8)

variable (config : Config)

namespace Intake

/-- Forgets the frame. -/
def reset (r : Intake) : Intake := { r with held := 0, inFrame := false, buffer := #[] }

/-- The buffer is the body of a frame. -/
def complete (r : Intake) : Intake := { r.reset with frames := r.buffer :: r.frames }

/-- The buffer was no frame: it is given back, the escape in front. -/
def flush (r : Intake) : Intake :=
  { r.reset with text := r.buffer.toList.foldl typed (config.escape.toList.reverse ++ r.text) }

/-- A byte while a frame is open. -/
def accumulate (r : Intake) (b : UInt8) : Intake :=
  if b = lineFeed then r.complete
  else
    let r := { r with buffer := r.buffer.push b }
    if maxFrame < r.buffer.size then r.flush config
    else if r.buffer = (encode config.prompt).toArray then r.complete
    else r

/-- A byte while no frame is open. If the next byte of the escape is out of range, this fails. -/
def seek (r : Intake) (b : UInt8) : Option Intake := do
  let next ← config.escape[r.held]?
  if b = next then
    let r := { r with held := r.held + 1 }
    if r.held = 3 then some { r with inFrame := true, buffer := #[] } else some r
  else
    let given := (config.escape.toList.take r.held).reverse ++ r.text
    some { r with held := 0, text := typed given b }

def step (enabled : Bool) (r : Intake) (b : UInt8) : Option Intake :=
  if enabled then
    if r.inFrame then some (r.accumulate config b) else r.seek config b
  else some { r with text := typed r.text b }

def output (r : Intake) : Output :=
  ⟨r.text.reverse, r.frames.reverse.map fun body => decodeLossy body.toList⟩

end Intake

namespace Registers

def initial : Registers := ⟨0, false, #[]⟩

/-- Takes bytes of one chunk. -/
def scan (enabled : Bool) (r : Registers) (bytes : List UInt8) : Option Intake :=
  bytes.foldlM (Intake.step config enabled) ⟨r, [], []⟩

/-- Takes chunks one after the other. -/
def feedAll (enabled : Bool) (r : Registers) : List (List UInt8) → Option (Registers × Output)
  | [] => some (r, ⟨[], []⟩)
  | chunk :: chunks => do
    let taken ← r.scan config enabled chunk
    let (r, rest) ← taken.toRegisters.feedAll enabled chunks
    some (r, ⟨taken.output.text ++ rest.text, taken.output.frames ++ rest.frames⟩)

/-- The registers agree with one another, and the buffer has not come to the end of a body. -/
structure Consistent (r : Registers) : Prop where
  held_le : r.held ≤ 3
  inFrame_iff : r.inFrame ↔ r.held = 3
  closed : r.inFrame = false → r.buffer = #[]
  size_le : r.buffer.size ≤ maxFrame
  line : lineFeed ∉ r.buffer
  prompt : ∀ start, start <+: r.buffer.toList → start ≠ [] → start ≠ encode config.prompt

end Registers

variable {config}

/-! ### The registers of a phase -/

def Phase.registers : Phase → Registers
  | .text held => ⟨held, false, #[]⟩
  | .frame body => ⟨3, true, body⟩

theorem Phase.registers_consistent_of_open {φ : Phase} (h : φ.Open config) :
    φ.registers.Consistent config := by
  cases φ with
  | text held =>
    have hthree : held.val ≠ 3 := Nat.ne_of_lt held.isLt
    refine ⟨Nat.le_of_lt held.isLt, by simp [registers, hthree], fun _ => rfl, Nat.zero_le _,
      by simp [registers], fun start hs hne => ?_⟩
    exact absurd (List.prefix_nil.mp hs) hne
  | frame body =>
    obtain ⟨hsize, hunended⟩ := h
    refine ⟨Nat.le_refl 3, by simp [registers], nofun, hsize,
      fun hm => hunended.line (Array.mem_toList_iff.mpr hm), fun start hs hne => ?_⟩
    exact hunended.prompt start hs hne (Nat.le_trans hs.length_le hsize)

namespace Progress

def intake (p : Progress) : Intake := ⟨p.phase.registers, p.text, p.frames⟩

@[simp] theorem intake_text (held : Fin 3) (text : List UInt8) (frames : List (Array UInt8)) :
    intake ⟨.text held, text, frames⟩ = ⟨⟨held, false, #[]⟩, text, frames⟩ := rfl

@[simp] theorem intake_frame (body : Array UInt8) (text : List UInt8)
    (frames : List (Array UInt8)) :
    intake ⟨.frame body, text, frames⟩ = ⟨⟨3, true, body⟩, text, frames⟩ := rfl

end Progress

/-! ### One byte -/

namespace Intake

open Progress

theorem seek_intake (held : Fin 3) (text : List UInt8) (frames : List (Array UInt8)) (b : UInt8) :
    let p : Progress := ⟨.text held, text, frames⟩
    p.intake.seek config b = some ((Scanner.new config true).step p b).intake := by
  intro p
  -- fewer than three bytes are held, so there is a next one
  have hnext : config.escape[held.val]? = some (config.escape.get held) := by simp [Vector.get]
  rw [intake_text, seek, Scanner.step_eq]
  simp only [p, hnext, Option.bind_eq_bind, Option.bind_some, Phase.advance]
  by_cases hb : b = config.escape.get held
  · by_cases hall : held.val + 1 = 3
    · simp [hb, hall]
    · have more : held.val + 1 < 3 := by omega
      simp [hb, hall, more]
  · simp [hb, Segment.type, Segment.body?]

theorem accumulate_intake (body : Array UInt8) (text : List UInt8) (frames : List (Array UInt8))
    (b : UInt8) :
    let p : Progress := ⟨.frame body, text, frames⟩
    p.intake.accumulate config b = ((Scanner.new config true).step p b).intake := by
  intro p
  rw [intake_frame, accumulate, Scanner.step_eq]
  simp only [p, Phase.advance, Array.size_push]
  split_ifs with hb hl hp
  · rfl
  · simp [flush, reset, Segment.type, Segment.body?]
  · simp [complete, reset, hp, Segment.type, Segment.body?]
  · rfl

/-- A byte finds the registers of a phase and leaves those of the next one, so it never fails. -/
theorem step_intake (enabled : Bool) (p : Progress) (b : UInt8) :
    p.intake.step config enabled b = some ((Scanner.new config enabled).step p b).intake := by
  obtain ⟨φ, text, frames⟩ := p
  cases enabled with
  | false => rfl
  | true =>
    cases φ with
    | text held => exact seek_intake held text frames b
    | frame body => exact congrArg some (accumulate_intake body text frames b)

theorem foldlM_step_intake (enabled : Bool) (p : Progress) (bytes : List UInt8) :
    bytes.foldlM (step config enabled) p.intake =
      some (bytes.foldl (Scanner.new config enabled).step p).intake := by
  induction bytes generalizing p with
  | nil => rfl
  | cons b bytes ih =>
    rw [List.foldlM_cons, step_intake, Option.bind_eq_bind, Option.bind_some, ih, List.foldl_cons]

end Intake

/-! ### Chunks -/

namespace Scanner

def registers (s : Scanner) : Registers := ⟨s.holdback, s.inFrame, s.phase.registers.buffer⟩

theorem registers_eq (s : Scanner) : s.registers = s.phase.registers := by
  obtain ⟨escape, prompt, enabled, φ⟩ := s
  cases φ <;> rfl

/-- A scanner that goes on from a phase. -/
def resumed (config : Config) (enabled : Bool) (φ : Phase) : Scanner :=
  { new config enabled with phase := φ }

theorem scan_registers (enabled : Bool) (φ : Phase) (bytes : List UInt8) :
    φ.registers.scan config enabled bytes =
      some ((resumed config enabled φ).scan bytes).intake :=
  Intake.foldlM_step_intake enabled ⟨φ, [], []⟩ bytes

theorem feedAll_registers (enabled : Bool) (φ : Phase) (chunks : List (List UInt8)) :
    let fed := (resumed config enabled φ).feedAll chunks
    φ.registers.feedAll config enabled chunks = some (fed.1.phase.registers, fed.2) := by
  induction chunks generalizing φ with
  | nil => rfl
  | cons chunk chunks ih =>
    have hrest := ih ((resumed config enabled φ).scan chunk).phase
    rw [Registers.feedAll, scan_registers, Option.bind_eq_bind, Option.bind_some, Progress.intake,
      hrest]
    rfl

theorem phase_scan_of_disabled (config : Config) (stream : List UInt8) :
    ((new config false).scan stream).phase = .text 0 := by
  obtain ⟨kept, -, hfeed⟩ := feed_of_disabled (s := new config false) rfl stream
  exact congrArg (·.1.phase) hfeed

theorem open_scan (config : Config) (enabled : Bool) (stream : List UInt8) :
    ((new config enabled).scan stream).phase.Open config := by
  cases enabled with
  | false =>
    rw [phase_scan_of_disabled]
    exact Phase.open_text 0
  | true =>
    rw [scan, foldl_step_eq]
    exact Phase.after_open (Phase.open_text 0) stream

/-- Whatever chunks were fed, and however many bytes of the next one are taken: the registers have
not failed, give what the scanner gives, and are consistent. Those of a scanner that is not
enabled are as they were at the beginning. -/
theorem registers_consistent (config : Config) (enabled : Bool) (chunks : List (List UInt8))
    (bytes : List UInt8) :
    let fed := (new config enabled).feedAll chunks
    Registers.initial.feedAll config enabled chunks = some (fed.1.registers, fed.2) ∧
      ∃ r, fed.1.registers.scan config enabled bytes = some r ∧
        r.toRegisters = (fed.1.feed bytes).1.registers ∧ r.output = (fed.1.feed bytes).2 ∧
        r.Consistent config ∧ (enabled = false → r.toRegisters = .initial) := by
  intro fed
  have hfed : fed.1 = ((new config enabled).feed chunks.flatten).1 := feedAll_scanner _ chunks
  have hphase : (fed.1.scan bytes).phase =
      ((new config enabled).scan (chunks.flatten ++ bytes)).phase := by
    rw [hfed]
    exact congrArg (·.phase) (feed_append_scanner _ chunks.flatten bytes).symm
  have hregisters : (fed.1.scan bytes).intake.toRegisters =
      ((new config enabled).scan (chunks.flatten ++ bytes)).phase.registers :=
    congrArg Phase.registers hphase
  rw [registers_eq]
  refine ⟨feedAll_registers enabled (.text 0) chunks, (fed.1.scan bytes).intake, ?_, ?_, rfl, ?_,
    fun hdisabled => ?_⟩
  · rw [scan_registers, hfed]
    rfl
  · rw [registers_eq]
    rfl
  · rw [hregisters]
    exact Phase.registers_consistent_of_open (open_scan config enabled _)
  · subst hdisabled
    rw [hregisters, phase_scan_of_disabled]
    rfl

/-- An escape in two pieces and the beginning of a body: all three bytes are held. A scanner that
is not enabled passes them on. -/
theorem registers_consistent_of_open_frame :
    let chunks := [[0x61, 0x1b], [0x5d, 0x3e, 0x37]]
    let s := ((new .standard true).feedAll chunks).1
    s.registers = ⟨3, true, #[0x37]⟩ ∧ s.registers.Consistent .standard ∧
      ((new .standard false).feedAll chunks).1.registers = .initial := by
  intro chunks s
  obtain ⟨-, r, -, hr, -, hconsistent, -⟩ := registers_consistent .standard true chunks []
  obtain ⟨-, r', -, hr', -, -, hidle⟩ := registers_consistent .standard false chunks []
  rw [hr] at hconsistent
  rw [hidle rfl] at hr'
  exact ⟨by decide, hconsistent, hr'.symm⟩

end Scanner

end Debugline.Wire
