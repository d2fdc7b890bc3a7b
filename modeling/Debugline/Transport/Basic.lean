/-! A transport carries bytes between the front end and a program. None of its
operations waits for the program. -/

namespace Debugline

/-- Why a transport could not do what it was asked. -/
inductive Failure
  /-- A program was not started; the system gave the cause. -/
  | spawn (program cause : String)
  | inputClosed
  /-- Anything else, with the causes behind it. -/
  | other (text : String) (causes : List String)
  deriving DecidableEq, Repr

namespace Failure

def message : Failure → String
  | spawn program cause => "failed to spawn '" ++ program ++ "': " ++ cause
  | inputClosed => "standard input of the child process is closed"
  | other text _ => text

/-- The message and the causes behind it. -/
def report (f : Failure) : String :=
  match f with
  | spawn _ cause => ": ".intercalate [f.message, cause]
  | inputClosed => f.message
  | other text causes => ": ".intercalate (text :: causes)

end Failure

class Transport (τ : Type) where
  /-- Takes what the program has written and nobody has read. -/
  readOutput : τ → τ × Except Failure (List UInt8)
  /-- Takes what the program has written to its error stream. -/
  readErrors : τ → τ × Except Failure (List UInt8)
  write : τ → List UInt8 → τ × Except Failure Unit
  alive : τ → τ × Bool
  /-- Asks the program to end. -/
  terminate : τ → τ × Except Failure Unit
  /-- Makes the program end. -/
  kill : τ → τ × Except Failure Unit
  /-- Lets milliseconds go by. -/
  wait : τ → Nat → τ

/-- One of two transports is a transport. -/
instance {σ τ : Type} [Transport σ] [Transport τ] : Transport (σ ⊕ τ) where
  readOutput
    | .inl s => (Transport.readOutput s).map .inl id
    | .inr t => (Transport.readOutput t).map .inr id
  readErrors
    | .inl s => (Transport.readErrors s).map .inl id
    | .inr t => (Transport.readErrors t).map .inr id
  write
    | .inl s, bytes => (Transport.write s bytes).map .inl id
    | .inr t, bytes => (Transport.write t bytes).map .inr id
  alive
    | .inl s => (Transport.alive s).map .inl id
    | .inr t => (Transport.alive t).map .inr id
  terminate
    | .inl s => (Transport.terminate s).map .inl id
    | .inr t => (Transport.terminate t).map .inr id
  kill
    | .inl s => (Transport.kill s).map .inl id
    | .inr t => (Transport.kill t).map .inr id
  wait
    | .inl s, ms => .inl (Transport.wait s ms)
    | .inr t, ms => .inr (Transport.wait t ms)

end Debugline
