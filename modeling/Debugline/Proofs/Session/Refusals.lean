import Debugline.Proofs.Session.Deeds
import Debugline.Proofs.Session.Lifecycle

/-! What a refused call leaves. A call that is refused before anything is sent leaves all as it
was. Once the transport refuses the command, the call has begun: a step has taken the marker of
the current line off, and an evaluation has taken its hover position over. All else stays. -/

namespace Debugline

namespace Session

/-- The cause for which something was refused. -/
def refusalOf {α : Type} : Except Refusal α → Option Refusal
  | .ok _ => none
  | .error refusal => some refusal

theorem refusalOf_eq_some_iff {α : Type} {r : Except Refusal α} {refusal : Refusal} :
    refusalOf r = some refusal ↔ r = .error refusal := by
  cases r <;> simp [refusalOf]

/-- The hover position that a call brings along. -/
def Call.hover {τ : Type} : Call τ → Option Hover
  | .evaluate _ hover => hover
  | .evaluateAt doc position => some ⟨doc, position⟩
  | _ => none

end Session

namespace Controller

open Session Wire

variable {τ : Type}

/-- What no refused call changes. -/
structure Kept (c c' : Controller τ) : Prop where
  state : c'.state = c.state
  location : c'.session.map (fun s => (s.mode, s.file, s.line)) =
    c.session.map fun s => (s.mode, s.file, s.line)
  events : c'.events = c.events
  breakpoints : c'.breakpoints = c.breakpoints
  breakpointSent : c'.breakpointSent = c.breakpointSent
  watches : c'.watches = c.watches

namespace Kept

theorem refl (c : Controller τ) : Kept c c := ⟨rfl, rfl, rfl, rfl, rfl, rfl⟩

theorem trans {c c' c'' : Controller τ} (h : Kept c c') (h' : Kept c' c'') : Kept c c'' where
  state := h'.state.trans h.state
  location := h'.location.trans h.location
  events := h'.events.trans h.events
  breakpoints := h'.breakpoints.trans h.breakpoints
  breakpointSent := h'.breakpointSent.trans h.breakpointSent
  watches := h'.watches.trans h.watches

end Kept

theorem removeMarker_kept (c : Controller τ) : Kept c c.removeMarker := by
  rw [removeMarker_eq]
  refine ⟨rfl, ?_, rfl, rfl, rfl, rfl⟩
  rw [Option.map_map]
  rfl

theorem removeMarker_hover (c : Controller τ) : c.removeMarker.hover = c.hover := by
  rw [removeMarker_eq]

variable [Transport τ]

theorem transmit_kept (c : Controller τ) (what : Sent) : Kept c (c.transmit what).1 := by
  unfold transmit
  cases hs : c.session with
  | none => exact .refl c
  | some s => exact ⟨rfl, by simp [hs], rfl, rfl, rfl, rfl⟩

theorem transmit_editor (c : Controller τ) (what : Sent) :
    (c.transmit what).1.editor = c.editor ∧ (c.transmit what).1.hover = c.hover := by
  unfold transmit
  split <;> exact ⟨rfl, rfl⟩

/-- In a session, only the transport refuses what is sent. -/
theorem transmit_refused {c : Controller τ} (live : c.hasSession) {what : Sent}
    {refusal : Refusal} (h : (c.transmit what).2 = .error refusal) :
    ∃ cause, refusal = .transport cause := by
  unfold transmit at h
  cases hs : c.session with
  | none => simp [hasSession, hs] at live
  | some s =>
    simp only [hs] at h
    generalize (Transport.write s.transport what.bytes).2 = r at h
    cases r with
    | ok => cases h
    | error cause =>
      cases h
      exact ⟨cause, rfl⟩

/-! ### Calls -/

/-- Why a call that sends a step or an evaluation is refused. -/
def refusal? (c : Controller τ) : Call τ → Option Refusal
  | .goOn => refusalOf c.goOn.2
  | .stepInto => refusalOf c.stepInto.2
  | .stepOver => refusalOf c.stepOver.2
  | .stepOut => refusalOf c.stepOut.2
  | .runToLine line => refusalOf (c.runToLine line).2
  | .runToCursor doc position => refusalOf (c.runToCursor doc position).2
  | .evaluate expr hover => refusalOf (c.evaluate expr hover).2
  | .evaluateAt doc position => refusalOf (c.evaluateAt doc position).2
  | _ => none

theorem refusal?_eq_step {c : Controller τ} {a : Call τ} {command : Command}
    (h : c.resuming? a = some command) : c.refusal? a = refusalOf (c.step command).2 := by
  cases a with
  | goOn | stepInto | stepOver | stepOut | runToLine line | runToCursor doc position =>
    obtain rfl := Option.some.inj h
    rfl
  | _ => cases h

/-- Refusals before anything is sent. -/
def earlyRefusals : List Refusal := [.notRunning, .notDebugging, .notPaused]

omit [Transport τ] in
theorem requirePaused_refused {c : Controller τ} {refusal : Refusal}
    (h : c.requirePaused = .error refusal) : refusal ∈ earlyRefusals := by
  unfold requirePaused at h
  split at h
  · cases h
    simp [earlyRefusals]
  · split_ifs at h <;> cases h <;> simp [earlyRefusals]

theorem step_refused {c : Controller τ} {command : Command} {refusal : Refusal}
    (h : (c.step command).2 = .error refusal) :
    refusal ∈ earlyRefusals ∧ (c.step command).1 = c ∨
      ∃ cause, refusal = .transport cause ∧
        (c.step command).1 = (c.removeMarker.transmit (.command command)).1 := by
  unfold step at h ⊢
  split at h
  · next hr =>
    cases h
    exact .inl ⟨requirePaused_refused hr, rfl⟩
  · next hr =>
    have live : c.removeMarker.hasSession :=
      c.removeMarker_along.session.trans (requirePaused_ok hr).1
    split at h
    · next ht =>
      cases h
      exact .inr ((transmit_refused live (by rw [ht])).imp fun _ he => ⟨he, by rw [ht]⟩)
    · cases h

theorem evaluate_refused {c : Controller τ} {expr : String} {hover : Option Hover}
    {refusal : Refusal} (h : (c.evaluate expr hover).2 = .error refusal) :
    refusal ∈ earlyRefusals ∧ (c.evaluate expr hover).1 = c ∨
      ∃ cause what, refusal = .transport cause ∧
        (c.evaluate expr hover).1 = ({ c with hover }.transmit what).1 := by
  unfold evaluate at h ⊢
  split at h
  · next hr =>
    cases h
    exact .inl ⟨requirePaused_refused hr, rfl⟩
  · next hr =>
    have live : { c with hover }.hasSession := (requirePaused_ok hr).1
    obtain ⟨cause, he⟩ := transmit_refused live h
    exact .inr ⟨cause, _, he, rfl⟩

theorem evaluateAt_refused {c : Controller τ} {doc : DocId} {position : Nat} {refusal : Refusal}
    (h : (c.evaluateAt doc position).2 = .error refusal) :
    refusal ∈ earlyRefusals ∧ (c.evaluateAt doc position).1 = c ∨
      ∃ expr, (c.evaluate expr (some ⟨doc, position⟩)).2 = .error refusal ∧
        (c.evaluateAt doc position).1 = (c.evaluate expr (some ⟨doc, position⟩)).1 := by
  unfold evaluateAt at h ⊢
  split at h
  · next hr =>
    cases h
    exact .inl ⟨requirePaused_refused hr, rfl⟩
  · split at h
    · cases h
    · next expr _ =>
      refine .inr ⟨expr, ?_, rfl⟩
      dsimp only at h
      generalize (c.evaluate expr (some ⟨doc, position⟩)).2 = r at h
      cases r <;> cases h
      rfl

/-- What a call has done that the transport refused. -/
structure Begun (c : Controller τ) (a : Call τ) : Prop where
  kept : Kept c (c.call a)
  step : (c.resuming? a).isSome → (c.call a).hover = c.hover ∧
    ∀ doc line kind, (c.call a).editor.hasMarker doc line kind ↔
      c.editor.hasMarker doc line kind ∧
        ¬(kind = .currentLine ∧ (doc, line) ∈ c.editor.sought c.marker?)
  evaluate : c.resuming? a = none → (c.call a).hover = a.hover ∧ (c.call a).editor = c.editor

theorem begun_of_step {c : Controller τ} {a : Call τ} {command : Command}
    (asked : c.resuming? a = some command)
    (h : (c.step command).1 = (c.removeMarker.transmit (.command command)).1) : Begun c a := by
  have hcall := (call_eq_step asked).trans h
  obtain ⟨heditor, hhover⟩ := c.removeMarker.transmit_editor (.command command)
  refine ⟨?_, fun _ => ⟨?_, fun doc line kind => ?_⟩, fun hn => by simp [hn] at asked⟩
  · rw [hcall]
    exact c.removeMarker_kept.trans (transmit_kept _ _)
  · rw [hcall, hhover, removeMarker_hover]
  · rw [hcall, heditor, removeMarker_eq]
    exact Editor.hasMarker_takeOff_iff

theorem begun_of_evaluate {c : Controller τ} {a : Call τ} {what : Sent}
    (asked : c.resuming? a = none)
    (h : c.call a = ({ c with hover := a.hover }.transmit what).1) : Begun c a := by
  obtain ⟨heditor, hhover⟩ := transmit_editor { c with hover := a.hover } what
  refine ⟨?_, fun hn => by simp [asked] at hn, fun _ => ⟨?_, ?_⟩⟩
  · have hasked : Kept c { c with hover := a.hover } := ⟨rfl, rfl, rfl, rfl, rfl, rfl⟩
    rw [h]
    exact hasked.trans (transmit_kept _ _)
  · rw [h, hhover]
  · rw [h, heditor]

/-- A refused call changes nothing, unless the transport refused it: then a step has taken the
marker of the current line off where it is looked for, and an evaluation has taken its hover
position over, and nothing else has changed. -/
theorem refused_call_keeps {c : Controller τ} {a : Call τ} {refusal : Refusal}
    (refused : c.refusal? a = some refusal) :
    refusal ∈ earlyRefusals ∧ c.call a = c ∨ (∃ cause, refusal = .transport cause) ∧ Begun c a := by
  by_cases hr : ∃ command, c.resuming? a = some command
  · obtain ⟨command, asked⟩ := hr
    rw [refusal?_eq_step asked, refusalOf_eq_some_iff] at refused
    rcases step_refused refused with ⟨he, hc⟩ | ⟨cause, he, hc⟩
    · exact .inl ⟨he, (call_eq_step asked).trans hc⟩
    · exact .inr ⟨⟨cause, he⟩, begun_of_step asked hc⟩
  cases a with
  | goOn | stepInto | stepOver | stepOut | runToLine line | runToCursor doc position =>
    exact absurd ⟨_, rfl⟩ hr
  | evaluate expr hover =>
    rcases evaluate_refused (refusalOf_eq_some_iff.mp refused) with h | ⟨cause, what, he, hc⟩
    · exact .inl h
    · exact .inr ⟨⟨cause, he⟩, begun_of_evaluate rfl hc⟩
  | evaluateAt doc position =>
    rcases evaluateAt_refused (refusalOf_eq_some_iff.mp refused) with h | ⟨expr, hx, hat⟩
    · exact .inl h
    rcases evaluate_refused hx with ⟨he, hc⟩ | ⟨cause, what, he, hc⟩
    · exact .inl ⟨he, hat.trans hc⟩
    · exact .inr ⟨⟨cause, he⟩, begun_of_evaluate rfl (hat.trans hc)⟩
  | _ => cases refused

/-- A program at a prompt whose input breaks. -/
def broken : List (Happening Script) :=
  [.call (.launch .debug fun _ => .ok (.new true [])),
    .meanwhile (·.cue (.writes "\x1b]>filemain.p\n\x1b]>5\n\x1b]>dbg> ")), .call .poll,
    .meanwhile fun p => { p with writeFault := some .inputClosed }]

/-- A step that is refused there. -/
theorem refused_call_keeps_of_broken :
    let c := (Controller.new .standard (.new .empty)).run broken
    c.refusal? .stepOver = some (.transport .inputClosed) ∧ Begun c .stepOver := by
  intro c
  have refused : c.refusal? .stepOver = some (.transport .inputClosed) := by decide +kernel
  refine ⟨refused, ?_⟩
  rcases refused_call_keeps refused with ⟨he, -⟩ | ⟨-, h⟩
  · exact absurd he (by decide)
  · exact h

/-- There a refused step takes the marker off, and a refused evaluation leaves its position. -/
theorem refused_call_changes :
    let c := (Controller.new .standard (.new .empty)).run broken
    c.refusal? .stepOver = some (.transport .inputClosed) ∧
      c.editor.hasMarker 0 4 .currentLine = true ∧
      (c.call .stepOver).editor.hasMarker 0 4 .currentLine = false ∧
      c.refusal? (.evaluate "x" (some ⟨0, 3⟩)) = some (.transport .inputClosed) ∧
      c.hover = none ∧ (c.call (.evaluate "x" (some ⟨0, 3⟩))).hover = some ⟨0, 3⟩ := by
  decide +kernel

end Controller

end Debugline
