import Debugline.Machine.Shell.State
import Debugline.Machine.Utility.Format

/-! Commands that are built into the shell and run no other. -/

namespace Debugline.Machine.Shell

open Sh

/-! ### test -/

/-- Whether a path can be opened, and if so whether it is a directory. -/
def pathKind (path : String) : Sh (Option Bool) := do
  match ← openPath path .read with
  | .ok fd =>
    close fd
    pure (some false)
  | .error .isDirectory => pure (some true)
  | .error _ => pure none

def testUnary (op arg : String) : Sh Bool := do
  match op with
  | "-n" => pure !arg.isEmpty
  | "-z" => pure arg.isEmpty
  | "-e" | "-r" | "-w" => pure (← pathKind arg).isSome
  | "-f" | "-s" => pure ((← pathKind arg) == some false)
  | "-d" => pure ((← pathKind arg) == some true)
  | "-x" => pure ((← ask fun next => Program.probe arg next).isOk || (← pathKind arg) == some true)
  | _ => pure false

def testBinary (a op b : String) : Bool :=
  let n (s : String) := (Utility.readNumber s).1
  match op with
  | "=" | "==" => a == b
  | "!=" => a != b
  | "-eq" => n a == n b
  | "-ne" => n a != n b
  | "-lt" => n a < n b
  | "-le" => n a ≤ n b
  | "-gt" => n b < n a
  | "-ge" => n b ≤ n a
  | _ => false

/-- The parts before and behind the first of a word. -/
def cutAt (word : String) (args : List String) : Option (List String × List String) :=
  if args.contains word then
    some (args.takeWhile (· != word), (args.dropWhile (· != word)).drop 1)
  else none

def test : (fuel : Nat) → List String → Sh Bool
  | 0, _ => pure false
  | _, [] => pure false
  | _, [a] => pure !a.isEmpty
  | fuel + 1, [op, a] => do
    if op = "!" then pure !(← test fuel [a]) else testUnary op a
  | fuel + 1, [a, op, b] => do
    if a = "!" then pure !(← test fuel [op, b])
    else if a = "(" && b = ")" then test fuel [op]
    else if op = "-a" then pure ((← test fuel [a]) && (← test fuel [b]))
    else if op = "-o" then pure ((← test fuel [a]) || (← test fuel [b]))
    else pure (testBinary a op b)
  | fuel + 1, args => do
    match cutAt "-o" args with
    | some (l, r) => do
      let x ← test fuel l
      let y ← test fuel r
      pure (x || y)
    | none =>
      match cutAt "-a" args with
      | some (l, r) => do
        let x ← test fuel l
        let y ← test fuel r
        pure (x && y)
      | none =>
        match args with
        | "!" :: rest => do pure !(← test fuel rest)
        | _ => pure false

def testStatus (args : List String) : Sh Nat := do
  pure (if ← test (args.length + 2) args then 0 else 1)

/-! ### read -/

/-- A line of the input, read byte by byte, and whether it has an end. Without `raw` a
backslash joins lines and quotes. -/
def inputLine (raw : Bool) : Sh (List Char × Bool) := do
  let (cs, ended) ← ask (Effect.iterate (fun (cs : List Char) => do
    let bytes ← Effect.take 0 1
    match bytes with
    | [] => pure (.inr (cs, false))
    | b :: _ =>
      let c : Char := .ofNat b.toNat
      if c = '\\' && !raw then
        match ← Effect.take 0 1 with
        | [] => pure (.inr (cs, false))
        | d :: _ =>
          if d = 0x0a then pure (.inl cs) else pure (.inl (.ofNat d.toNat :: cs))
      else if c = '\n' then pure (.inr (cs, true))
      else if c.toNat = 0 then pure (.inl cs)
      else pure (.inl (c :: cs))) ([], false) Effect.always [])
  pure (cs.reverse, ended)

/-- Gives the fields of a line to variables; the last takes all that is left. -/
def assignFields (ifs : String) : List String → List Char → Sh Unit
  | [], _ => pure ()
  | [name], s => do
    let s := s.dropWhile fun c => ifs.contains c
    setVariable name (.ofList (s.reverse.dropWhile fun c => ifs.contains c).reverse)
  | name :: names, s => do
    let s := s.dropWhile fun c => ifs.contains c
    let field := s.takeWhile fun c => !ifs.contains c
    setVariable name (.ofList field)
    assignFields ifs names (s.drop field.length)

def readInput (args : List String) : Sh Nat := do
  let raw := args.contains "-r"
  let names := args.filter (· != "-r")
  let (line, ended) ← inputLine raw
  assignFields ((← valueOf? "IFS").getD " \t\n") names line
  pure (if ended then 0 else 1)

/-! ### Signals and jobs -/

def trapSignal? (s : String) : Option Nat := if s = "EXIT" then some 0 else Utility.signal? s

def setTrap (action : Option String) (signal : Nat) : Sh Unit := do
  let others (s : State) := s.traps.filter (·.1 != signal)
  match action with
  | none =>
    modify fun s => { s with traps := others s }
    if signal != 0 then dispose signal .standard
  | some text =>
    modify fun s => { s with traps := (signal, text) :: others s }
    if signal != 0 then dispose signal (if text.isEmpty then .ignored else .caught)

def trap (args : List String) : Sh Nat := do
  let args := if args.head? = some "--" then args.tail else args
  match args with
  | [] => pure 0
  | [one] =>
    match trapSignal? one with
    | some n => do
      setTrap none n
      pure 0
    | none => pure 0
  | action :: signals =>
    let (action, signals) :=
      if action = "-" then (none, signals)
      else if (Utility.count? action).isSome then (none, args)
      else (some action, signals)
    match signals.find? fun s => (trapSignal? s).isNone with
    | some bad =>
      warn ("trap: " ++ bad ++ ": bad trap")
      pure 1
    | none =>
      (signals.filterMap trapSignal?).forM (setTrap action)
      pure 0

/-- Whether a script waits for a signal. -/
def hasTraps (s : State) : Bool := s.traps.any fun t => !t.2.isEmpty

/-- A new shell in a child: it catches nothing, and ignores what was ignored. -/
def forgetTraps : Sh Unit := do
  let s ← get
  (s.traps.filter fun t => !t.2.isEmpty && t.1 != 0).forM fun t => dispose t.1 .standard
  set { s with traps := s.traps.filter (·.2.isEmpty), jobs := [] }

def killBuiltin (args : List String) : Sh Nat := do
  match Utility.killArgs args with
  | none =>
    warn ("kill: invalid signal number or name: " ++ String.ofList ((args.headD "").toList.drop 1))
    pure 2
  | some (_, []) =>
    warn "kill: Usage: kill [-s sigspec | -signum | -sigspec] [pid | job]... or"
    ask (Effect.put 2 "kill -l [exitstatus]\n")
    pure 2
  | some (signal, pids) =>
    let s ← get
    let refuse (_ : String) (e : Errno) : Effect Unit :=
      Effect.put 2 (s.name ++ ": " ++ toString s.line ++ ": kill: " ++ e.text ++ "\n\n")
    pure (Utility.statusOf (← ask (Utility.sendAll refuse signal pids)))

def waitJobs (args : List String) : Sh Nat := do
  match args with
  | [] =>
    let waited ← (← get).jobs.reverse.mapM awaitJob
    pure ((waited.findSome? fun
      | .caught signal => some (128 + signal)
      | _ => none).getD 0)
  | _ =>
    let statuses ← args.mapM fun a => do
      let w ← awaitJob ((Utility.count? a).getD 0)
      tellEnding w
      pure w.status
    pure (statuses.getLast?.getD 0)

/-! ### Variables -/

/-- Takes `NAME=value` apart. -/
def cutAssignment (a : String) : String × Option String :=
  let name := a.toList.takeWhile (· != '=')
  match a.toList.drop name.length with
  | [] => (a, none)
  | _ :: value => (.ofList name, some (.ofList value))

def declare (exports : Bool) (args : List String) : Sh Nat := do
  args.forM fun a => do
    match cutAssignment a with
    | (name, some value) =>
      setVariable name value
      if exports then exportVariable name
    | (name, none) => if exports then exportVariable name
  pure 0

def setOptions : List String → Sh Nat
  | [] => pure 0
  | "--" :: args => do
    modify fun s => { s with args }
    pure 0
  | a :: args => do
    match a.toList with
    | '-' :: os =>
      if os.contains 'e' then modify fun s => { s with strict := true }
      if os.contains 'u' then modify fun s => { s with named := true }
      setOptions args
    | '+' :: os =>
      if os.contains 'e' then modify fun s => { s with strict := false }
      if os.contains 'u' then modify fun s => { s with named := false }
      setOptions args
    | _ => do
      modify fun s => { s with args := a :: args }
      pure 0

/-- Drops arguments, if there are that many. -/
def shift (count : Nat) : Sh Bool := do
  if (← get).args.length < count then
    warn "shift: can't shift that many"
    pure false
  else
    modify fun s => { s with args := s.args.drop count }
    pure true

def changeDirectory (args : List String) : Sh Nat := do
  match args with
  | [] => pure 0
  | dir :: _ =>
    match ← ask fun next => Program.enter dir next with
    | .ok () => pure 0
    | .error _ =>
      warn ("cd: can't cd to " ++ dir)
      pure 2

/-- Writes what a builtin has to say. -/
def say (name text : String) : Sh Nat := do
  if text.isEmpty then pure 0
  else
    match ← ask (Effect.write 1 (bytesOf text)) with
    | .ok () => pure 0
    | .error _ =>
      warn (name ++ ": " ++ name ++ ": I/O error")
      pure 1

def printfBuiltin (args : List String) : Sh Nat := do
  match (if args.head? = some "--" then args.tail else args) with
  | [] =>
    warn "printf: usage: printf format [arg ...]"
    pure 2
  | format :: rest =>
    let (text, complaints) := Utility.printfText .builtin format rest
    complaints.forM fun c => warn ("printf: " ++ c)
    let status ← say "printf" text
    pure (max status (Utility.statusOf complaints.isEmpty))

/-- The builtin of a name. -/
def builtin? (name : String) : Option (List String → Sh Nat) :=
  match name with
  | ":" | "true" => some fun _ => pure 0
  | "false" => some fun _ => pure 1
  | "echo" => some fun args => say "echo" (Utility.echoText .builtin args)
  | "printf" => some printfBuiltin
  | "test" => some testStatus
  | "[" => some fun args => do
    if args.getLast? = some "]" then testStatus args.dropLast
    else
      warn "[: missing ]"
      pure 2
  | "read" => some readInput
  | "trap" => some trap
  | "kill" => some killBuiltin
  | "wait" => some waitJobs
  | "export" => some (declare true)
  | "readonly" | "local" => some (declare false)
  | "unset" => some fun args => do
    args.forM unsetVariable
    pure 0
  | "set" => some setOptions
  | "cd" => some changeDirectory
  | "umask" | "ulimit" | "alias" | "unalias" | "hash" => some fun _ => pure 0
  | _ => none

/-- Builtins that the shell does itself. -/
def isSpecial (name : String) : Bool :=
  ["exec", "exit", "return", "break", "continue", "eval", "shift", "command", "type",
    "."].contains name

/-- The path of a program, if there is one. -/
def programPath? (name : String) : Sh (Option String) := do
  let mut found := none
  for path in candidates name do
    if found.isNone then
      if (← ask fun next => Program.probe path next).isOk then found := some path
  pure found

/-- Says what a name stands for, in a word or at length. -/
def describeName (atLength : Bool) (name : String) : Sh Nat := do
  let found ←
    if (builtin? name).isSome || isSpecial name then
      pure (some (if atLength then name ++ " is a shell builtin" else name))
    else if ((← get).functions.lookup name).isSome then
      pure (some (if atLength then name ++ " is a shell function" else name))
    else do
      pure ((← programPath? name).map fun p => if atLength then name ++ " is " ++ p else p)
  match found with
  | some text =>
    ask (Effect.put 1 (text ++ "\n"))
    pure 0
  | none =>
    if atLength then ask (Effect.put 1 (name ++ ": not found\n"))
    pure 127

end Debugline.Machine.Shell
