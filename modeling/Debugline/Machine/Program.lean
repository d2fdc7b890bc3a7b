import Debugline.Machine.Errno
import Debugline.Machine.Octets

/-! Programs as trees of calls to the system: a node is a call, and its branches go by
the answer. An `Effect` is a part of a program that ends in a value. -/

namespace Debugline.Machine

inductive OpenMode
  | read
  /-- Empties the file first. -/
  | write
  | append
  deriving DecidableEq, Repr

/-- What a process does with a signal. -/
inductive Disposition
  | standard
  | ignored
  /-- The signal is kept until the program asks for it. -/
  | caught
  deriving DecidableEq, Repr

/-- How a process came to its end. -/
inductive Ending
  | exited (status : Nat)
  | killed (signal : Nat)
  deriving DecidableEq, Repr

/-- The status that is told to whoever waits. -/
def Ending.status : Ending → Nat
  | exited status => status
  | killed signal => 128 + signal

/-- What waiting for a child comes to. -/
inductive Waited
  /-- There is no such child. -/
  | nobody
  | ended (ending : Ending)
  /-- A signal was caught first. -/
  | caught (signal : Nat)
  deriving DecidableEq, Repr

def Waited.status : Waited → Nat
  | nobody => 127
  | ended ending => ending.status
  | caught signal => 128 + signal

inductive Program
  | exit (status : Nat)
  /-- Waits for bytes; none come at the end of the stream. -/
  | read (fd limit : Nat) (next : Except Errno (List UInt8) → Program)
  /-- Waits until all bytes are taken. -/
  | write (fd : Nat) (bytes : List UInt8) (next : Except Errno Unit → Program)
  | openPath (path : String) (mode : OpenMode) (next : Except Errno Nat → Program)
  | close (fd : Nat) (next : Unit → Program)
  /-- Makes a second descriptor for what the first stands for. -/
  | duplicate (fd second : Nat) (next : Except Errno Unit → Program)
  /-- A new pipe: the end to read and the end to write. -/
  | pipe (next : Nat × Nat → Program)
  | fork (child : Program) (next : Nat → Program)
  /-- Waits for a child to end; if it may, a caught signal ends the waiting. -/
  | wait (pid : Nat) (interruptible : Bool) (next : Waited → Program)
  /-- In microseconds. -/
  | sleep (time : Nat) (next : Unit → Program)
  | kill (pid signal : Nat) (next : Except Errno Unit → Program)
  | dispose (signal : Nat) (d : Disposition) (next : Unit → Program)
  /-- Takes the signals that were caught. -/
  | caught (next : List Nat → Program)
  | self (next : Nat → Program)
  | enter (dir : String) (next : Except Errno Unit → Program)
  /-- Whether a path names a program. -/
  | probe (path : String) (next : Except Errno Unit → Program)
  /-- The names in a directory. -/
  | list (dir : String) (next : List String → Program)
  /-- The size of a file that a descriptor stands for. -/
  | measure (fd : Nat) (next : Option Nat → Program)
  /-- Becomes another program with arguments and an environment, or goes on if there is
  none. -/
  | become (path : String) (args : List String) (environment : List (String × String))
    (failed : Errno → Program)

/-- A part of a program: what follows its value is still open. -/
def Effect (α : Type) : Type := (α → Program) → Program

namespace Effect

instance : Monad Effect where
  pure a := fun next => next a
  bind act f := fun next => act fun a => f a next

def exit {α : Type} (status : Nat) : Effect α := fun _ => .exit status

def read (fd limit : Nat) : Effect (Except Errno (List UInt8)) :=
  fun next => Program.read fd limit next

/-- The bytes of a read; none at the end of the stream and where nothing can be read. -/
def take (fd limit : Nat) : Effect (List UInt8) := fun next =>
  .read fd limit fun r => next (r.toOption.getD [])

def write (fd : Nat) (bytes : List UInt8) : Effect (Except Errno Unit) :=
  fun next => Program.write fd bytes next

def openPath (path : String) (mode : OpenMode) : Effect (Except Errno Nat) :=
  fun next => Program.openPath path mode next

def close (fd : Nat) : Effect Unit := fun next => Program.close fd next

/-- Writes octets, whether they arrive or not. -/
def put (fd : Nat) (s : String) : Effect Unit := fun next =>
  if s.isEmpty then next () else .write fd (bytesOf s) fun _ => next ()

/-- Does an effect from state to state until it gives a result, or `limit` times. -/
def iterate {σ ρ : Type} (act : σ → Effect (σ ⊕ ρ)) (otherwise : ρ) : (limit : Nat) → σ → Effect ρ
  | 0, _ => pure otherwise
  | limit + 1, s => do
    match ← act s with
    | .inl s => iterate act otherwise limit s
    | .inr r => pure r

/-- More rounds than any run of a machine makes. -/
def always : Nat := Nat.pow 10 15

/-- Reads a stream to its end, piece by piece. -/
def drain {σ : Type} (fd limit : Nat) (s : σ) (act : σ → List UInt8 → Effect σ) : Effect σ :=
  iterate (fun s => do
    let bytes ← take fd limit
    if bytes.isEmpty then pure (.inr s)
    else
      let s ← act s bytes
      pure (.inl s)) s always s

/-- The bytes that output to a pipe is gathered to before it is written. -/
def blockSize : Nat := 4096

/-- Adds to gathered output and writes the whole blocks of it. -/
def gather (held bytes : List UInt8) : Effect (List UInt8) := do
  let all := held ++ bytes
  let whole := all.length / blockSize * blockSize
  if whole = 0 then pure all
  else
    let _ ← write 1 (all.take whole)
    pure (all.drop whole)

/-- Writes what was gathered. -/
def flush (held : List UInt8) : Effect Unit := do
  if held.isEmpty then pure ()
  else
    let _ ← write 1 held

/-- The program of an effect, and its status. -/
def toProgram (act : Effect Nat) : Program := act .exit

end Effect

end Debugline.Machine
