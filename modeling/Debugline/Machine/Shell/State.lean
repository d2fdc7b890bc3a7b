import Debugline.Machine.Shell.Field
import Debugline.Machine.Tree
import Debugline.Machine.Utility.Signal

/-! The state of a shell, and what it asks of the system. -/

namespace Debugline.Machine.Shell

structure State where
  /-- How the shell was called; its complaints begin with it. -/
  name : String
  args : List String
  values : List (String × String)
  /-- The variables that programs are told. -/
  exported : List String
  functions : List (String × Command)
  status : Nat
  /-- Scripts for signals; number 0 stands for the end of the shell. -/
  traps : List (Nat × String)
  /-- Processes in the background, newest first. -/
  jobs : List Nat
  pid : Nat
  line : Nat
  /-- Descriptors that are put aside. -/
  saved : Nat
  /-- Whether a command that fails ends the shell. -/
  strict : Bool
  /-- Whether a parameter without a value ends the shell. -/
  named : Bool
  /-- Whether a word could not be expanded, which ends the shell. -/
  broken : Bool
  /-- Whether the status of a command is about to be tested. -/
  tested : Bool
  /-- The loops that the command stands in. -/
  loops : Nat

def State.new (name : String) (args : List String) (environment : List (String × String))
    (pid : Nat) : State where
  name := name
  args := args
  values := ("IFS", " \t\n") :: environment
  exported := environment.map (·.1)
  functions := []
  status := 0
  traps := []
  jobs := []
  pid := pid
  line := 1
  saved := 0
  strict := false
  named := false
  broken := false
  tested := false
  loops := 0

/-- What programs are told. -/
def State.environment (s : State) : List (String × String) :=
  s.values.filter fun v => s.exported.contains v.1

/-- Where the shell goes on after a command. -/
inductive Flow
  | next
  /-- Behind that many loops. -/
  | leave (loops : Nat)
  /-- At the next round of the outermost of that many loops. -/
  | again (loops : Nat)
  /-- Behind the function. -/
  | back
  | exit
  deriving DecidableEq, Repr

abbrev Sh := StateT State Effect

namespace Sh

def ask {α : Type} (act : Effect α) : Sh α := liftM act

def setStatus (n : Nat) : Sh Unit := modify fun s => { s with status := n }

/-- Goes on with a status. -/
def done (status : Nat) : Sh Flow := do
  setStatus status
  pure .next

def valueOf? (name : String) : Sh (Option String) := do pure ((← get).values.lookup name)

def setVariable (name value : String) : Sh Unit := modify fun s =>
  { s with values := (name, value) :: s.values.filter (·.1 != name) }

def exportVariable (name : String) : Sh Unit := modify fun s =>
  { s with exported := name :: s.exported.filter (· != name) }

def unsetVariable (name : String) : Sh Unit := modify fun s =>
  { s with values := s.values.filter (·.1 != name) }

/-- Complains, with the line of the command. -/
def warn (text : String) : Sh Unit := do
  let s ← get
  ask (Effect.put 2 (s.name ++ ": " ++ toString s.line ++ ": " ++ text ++ "\n"))

/-- Complains about a word that cannot be expanded. -/
def giveUp (text : String) : Sh Unit := do
  warn text
  modify fun s => { s with status := 2, broken := true }

/-- Goes on unless a word could not be expanded. -/
def unlessBroken (act : Sh Flow) : Sh Flow := do
  if (← get).broken then pure .exit else act

/-- The value of a parameter. -/
def parameter? (name : String) : Sh (Option String) := do
  let s ← get
  match name with
  | "?" => pure (some (toString s.status))
  | "$" => pure (some (toString s.pid))
  | "#" => pure (some (toString s.args.length))
  | "!" => pure (s.jobs.head?.map toString)
  | "-" => pure (some ((if s.strict then "e" else "") ++ (if s.named then "u" else "")))
  | "@" | "*" => pure (if s.args.isEmpty then none else some (" ".intercalate s.args))
  | "0" => pure (some s.name)
  | _ =>
    match Utility.count? name with
    | some n => pure (s.args[n - 1]?)
    | none => valueOf? name

def duplicate (fd second : Nat) : Sh (Except Errno Unit) :=
  ask fun next => Program.duplicate fd second next

def close (fd : Nat) : Sh Unit := ask fun next => Program.close fd next

def openPath (path : String) (mode : OpenMode) : Sh (Except Errno Nat) :=
  ask (Effect.openPath path mode)

/-- Gives what one descriptor stands for to another, and to no other. -/
def moveDescriptor (fd second : Nat) : Sh Unit := do
  if fd = second then pure ()
  else
    let _ ← duplicate fd second
    close fd

def pipe : Sh (Nat × Nat) := ask fun next => Program.pipe next

def fork (child : Program) : Sh Nat := ask fun next => Program.fork child next

/-- What is said about a signal that has ended a command. -/
def signalText (signal : Nat) : String :=
  match signal with
  | 1 => "Hangup"
  | 3 => "Quit"
  | 4 => "Illegal instruction"
  | 5 => "Trace/breakpoint trap"
  | 6 => "Aborted"
  | 8 => "Floating point exception"
  | 9 => "Killed"
  | 10 => "User defined signal 1"
  | 11 => "Segmentation fault"
  | 12 => "User defined signal 2"
  | 14 => "Alarm clock"
  | 15 => "Terminated"
  | n => "Unknown signal " ++ toString n

/-- Says how a command ended, unless it was interrupted or nobody read what it wrote. -/
def tellEnding : Waited → Sh Unit
  | .ended (.killed signal) =>
    if signal = 2 || signal = 13 then pure () else ask (Effect.put 2 (signalText signal ++ "\n"))
  | _ => pure ()

/-- Waits for a command that the shell has started. -/
def await (pid : Nat) : Sh Nat := do
  let w ← ask fun next => Program.wait pid false next
  tellEnding w
  pure w.status

/-- Waits for a job until it ends or a signal is caught. -/
def awaitJob (pid : Nat) : Sh Waited := ask fun next => Program.wait pid true next

def dispose (signal : Nat) (d : Disposition) : Sh Unit :=
  ask fun next => Program.dispose signal d next

/-- Puts a descriptor aside; `none` if it stands for nothing. -/
def putAside (fd : Nat) : Sh (Nat × Option Nat) := do
  let slot := 10 + (← get).saved
  match ← duplicate fd slot with
  | .ok () =>
    modify fun s => { s with saved := s.saved + 1 }
    pure (fd, some slot)
  | .error _ => pure (fd, none)

/-- Puts descriptors back in the reverse order. -/
def putBack : List (Nat × Option Nat) → Sh Unit
  | [] => pure ()
  | (fd, none) :: rest => do
    close fd
    putBack rest
  | (fd, some slot) :: rest => do
    moveDescriptor slot fd
    modify fun s => { s with saved := s.saved - 1 }
    putBack rest

/-- Why a path could not be opened, in the shell's own words. -/
def openTrouble (mode : OpenMode) (e : Errno) : String :=
  match mode, e with
  | .read, .noEntry => "No such file"
  | _, .noEntry => "Directory nonexistent"
  | _, e => e.text

def openTo (fd : Nat) (path : String) (mode : OpenMode) : Sh Bool := do
  match ← openPath path mode with
  | .ok opened =>
    moveDescriptor opened fd
    pure true
  | .error e =>
    warn ("cannot " ++ (if mode = .read then "open " else "create ") ++ path ++ ": " ++
      openTrouble mode e)
    pure false

/-- Does a redirection whose target is expanded. -/
def redirect (fd : Nat) (kind : RedirectKind) (target : String) : Sh Bool := do
  match kind with
  | .input => openTo fd target .read
  | .output => openTo fd target .write
  | .append => openTo fd target .append
  | .text =>
    let (r, w) ← pipe
    if target.length ≤ Effect.blockSize then
      ask (Effect.put w target)
      close w
    else
      let _ ← fork (Effect.toProgram (do
        Effect.put w target
        pure 0))
      close w
    moveDescriptor r fd
    pure true
  | .copy =>
    if target = "-" then
      close fd
      pure true
    else
      match Utility.count? target with
      | none =>
        warn "Syntax error: Bad fd number"
        pure false
      | some source =>
        if source = fd then pure true
        else
          match ← duplicate source fd with
          | .ok () => pure true
          | .error e =>
            warn (target ++ ": " ++ e.text)
            pure false

/-- Becomes a program; comes back only if there is none, with a status. `lead` begins
the complaint. -/
def become (lead name : String) (args : List String) : Sh Nat := do
  let environment := (← get).environment
  let tryAll := (candidates name).foldl
    (fun (acc : Effect (Option Errno)) path => do
      let before ← acc
      let e ← fun next => Program.become path (name :: args) environment next
      pure (if e = .noEntry then before else some e)) (pure none)
  match ← ask tryAll with
  | none | some .notDirectory =>
    warn (lead ++ name ++ ": not found")
    pure 127
  | some e =>
    warn (lead ++ name ++ ": " ++ e.text)
    pure 126

end Sh

end Debugline.Machine.Shell
