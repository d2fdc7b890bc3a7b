import Debugline.Transport.Basic

/-! Input on its way to a program. A pipe takes what it has room for; the rest waits
here, in order, until there is room again. -/

namespace Debugline

/-- What a pipe does with bytes it is offered. -/
inductive Attempt
  | accepted (count : Nat)
  | full
  | interrupted
  /-- Nobody reads the pipe any more. -/
  | broken
  | failed (cause : Failure)
  deriving DecidableEq, Repr

/-- The end of a pipe that bytes are offered to. It may be interrupted again and again, but not
forever. -/
structure Pipe (σ : Type) where
  offer : σ → List UInt8 → σ × Attempt
  /-- How often it may be interrupted before something else happens. -/
  patience : σ → List UInt8 → Nat
  wears : ∀ {s t bytes}, offer s bytes = (t, .interrupted) → patience t bytes < patience s bytes

structure Outbox where
  waiting : List UInt8
  /-- Whether the pipe is still there. -/
  isOpen : Bool
  deriving DecidableEq, Repr

namespace Outbox

variable {σ : Type}

def new : Outbox := ⟨[], true⟩

/-- What a broken pipe is reported as. -/
def brokenPipe : Failure := .other "Broken pipe (os error 32)" []

/-- Offers what waits until the pipe takes no more; a broken pipe drops it. -/
def offerAll (p : Pipe σ) (b : Outbox) (s : σ) : (Outbox × σ) × Except Failure Unit :=
  if _ : b.waiting = [] then ((b, s), .ok ())
  else
    match _ : p.offer s b.waiting with
    | (t, .accepted 0) | (t, .full) => ((b, t), .ok ())
    | (t, .accepted (n + 1)) => offerAll p { b with waiting := b.waiting.drop (n + 1) } t
    | (t, .interrupted) => offerAll p b t
    | (t, .broken) => ((⟨[], false⟩, t), .error brokenPipe)
    | (t, .failed cause) => ((b, t), .error cause)
termination_by (b.waiting.length, p.patience s b.waiting)
decreasing_by
  · have hlen : 0 < b.waiting.length := List.length_pos_iff.mpr ‹_›
    exact .left _ _ (by rw [List.length_drop]; omega)
  · exact .right _ (p.wears ‹_›)

/-- Sends what waits; without a pipe it is dropped. -/
def flush (p : Pipe σ) (b : Outbox) (s : σ) : (Outbox × σ) × Except Failure Unit :=
  if b.isOpen then b.offerAll p s else (({ b with waiting := [] }, s), .ok ())

/-- Adds bytes behind those that wait, and sends what can be sent. -/
def write (p : Pipe σ) (b : Outbox) (s : σ) (bytes : List UInt8) :
    (Outbox × σ) × Except Failure Unit :=
  if b.isOpen then { b with waiting := b.waiting ++ bytes }.flush p s
  else ((b, s), .error .inputClosed)

end Outbox

end Debugline
