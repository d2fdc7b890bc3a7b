import Debugline.CommandLine
import Debugline.Transport.Outbox

/-! A child is a program that a system runs, seen from the other ends of its three pipes.
What the system does is a parameter. -/

namespace Debugline

/-- What is read of a program. -/
inductive Stream
  | output
  | errors
  deriving DecidableEq, Repr

/-- A system that runs a program. -/
class System (σ : Type) where
  /-- Between two calls the processes go on by themselves. -/
  goOn : σ → σ
  input : Pipe σ
  closeInput : σ → σ
  /-- Takes all that a stream holds, and says whether that was its end. -/
  take : σ → Stream → σ × Except Failure (List UInt8 × Bool)
  close : σ → Stream → σ
  /-- Whether the program has ended, whatever became of its own children. There is no
  answer if the system cannot tell. -/
  ended? : σ → Option Bool
  terminate : σ → σ × Except Failure Unit
  kill : σ → σ
  /-- Lets milliseconds go by. -/
  wait : σ → Nat → σ

structure Child (σ : Type) where
  system : σ
  outbox : Outbox
  /-- Whether the ends of its output and of its errors have not been seen. -/
  hasOutput : Bool
  hasErrors : Bool
  /-- Whether its end has been seen. -/
  exited : Bool

namespace Child

variable {σ : Type}

/-- Starts a program; the system gives the cause if it does not. -/
def spawn (start : CommandLine → Except String σ) (c : CommandLine) : Except Failure (Child σ) :=
  match start c with
  | .ok system => .ok ⟨system, .new, true, true, false⟩
  | .error cause => .error (.spawn c.program cause)

/-- The bytes of input that wait to be sent. -/
def pendingInput (c : Child σ) : Nat := c.outbox.waiting.length

variable [System σ]

def goOn (c : Child σ) : Child σ := { c with system := System.goOn c.system }

/-- Takes over what the outbox has become; its pipe is closed when it is broken. -/
def withOutbox (c : Child σ) (b : Outbox) (s : σ) : Child σ :=
  { c with
    outbox := b
    system := if b.isOpen then s else System.closeInput s }

/-- Sends what waits. If that fails, what still waits is sent later or dropped. -/
def flush (c : Child σ) : Child σ :=
  let ((b, s), _) := c.outbox.flush System.input c.system
  c.withOutbox b s

/-- Sends input; what the pipe has no room for waits. -/
def write (c : Child σ) (bytes : List UInt8) : Child σ × Except Failure Unit :=
  let c := c.goOn
  let ((b, s), r) := c.outbox.write System.input c.system bytes
  (c.withOutbox b s, r)

/-- Takes what a stream holds. One that has come to its end is closed; `here` says whether
it is still open. -/
def drain (s : σ) (stream : Stream) (here : Bool) : (σ × Bool) × Except Failure (List UInt8) :=
  if here then
    match System.take s stream with
    | (s, .ok (bytes, false)) => ((s, true), .ok bytes)
    | (s, .ok (bytes, true)) => ((System.close s stream, false), .ok bytes)
    | (s, .error cause) => ((s, true), .error cause)
  else ((s, false), .ok [])

/-- Sends what waits and takes what the program has written. -/
def readOutput (c : Child σ) : Child σ × Except Failure (List UInt8) :=
  let c := c.goOn.flush
  let ((system, hasOutput), r) := drain c.system .output c.hasOutput
  ({ c with system, hasOutput }, r)

def readErrors (c : Child σ) : Child σ × Except Failure (List UInt8) :=
  let c := c.goOn
  let ((system, hasErrors), r) := drain c.system .errors c.hasErrors
  ({ c with system, hasErrors }, r)

/-- A program that cannot be asked after has ended. -/
def alive (c : Child σ) : Child σ × Bool :=
  if c.exited then (c, false)
  else
    let c := c.goOn
    let running := System.ended? c.system = some false
    ({ c with exited := !running }, running)

def terminate (c : Child σ) : Child σ × Except Failure Unit :=
  if c.exited then (c, .ok ())
  else
    let c := c.goOn
    let (system, r) := System.terminate c.system
    ({ c with system }, r)

def kill (c : Child σ) : Child σ × Except Failure Unit :=
  if c.exited then (c, .ok ())
  else
    let system := System.kill c.goOn.system
    ({ c with system, exited := System.ended? system = some true }, .ok ())

def wait (c : Child σ) (milliseconds : Nat) : Child σ :=
  { c with system := System.wait c.system milliseconds }

instance : Transport (Child σ) where
  readOutput := readOutput
  readErrors := readErrors
  write := write
  alive := alive
  terminate := terminate
  kill := kill
  wait := wait

end Child

end Debugline
