import Debugline.Machine.Utility.Copy

/-! Programs about processes: to wait and to send signals. -/

namespace Debugline.Machine.Utility

open Effect

def signalNames : List (String × Nat) :=
  [("HUP", 1), ("INT", 2), ("QUIT", 3), ("ABRT", 6), ("KILL", 9), ("USR1", 10), ("SEGV", 11),
    ("USR2", 12), ("PIPE", 13), ("ALRM", 14), ("TERM", 15), ("CHLD", 17), ("CONT", 18)]

/-- The number of a signal, given as one or as a name with or without `SIG`. -/
def signal? (s : String) : Option Nat :=
  match count? s with
  | some n => some n
  | none =>
    let s := s.toUpper
    let name := if s.startsWith "SIG" then String.ofList (s.toList.drop 3) else s
    signalNames.lookup name

def signalTerm : Nat := 15

/-- The signal and the processes that the arguments of `kill` name. -/
def killArgs : List String → Option (Nat × List String)
  | "-s" :: s :: rest => (signal? s).map (·, rest)
  | "--" :: rest => some (signalTerm, rest)
  | a :: rest =>
    match a.toList with
    | '-' :: s => (signal? (.ofList s)).map (·, if rest.head? = some "--" then rest.tail else rest)
    | _ => some (signalTerm, a :: rest)
  | [] => some (signalTerm, [])

/-- Sends a signal to each process, and says whether all were there. -/
def sendAll (refuse : String → Errno → Effect Unit) (signal : Nat) : List String → Effect Bool
  | [] => pure true
  | pid :: rest => do
    let r ← match count? pid with
      | none => pure (.error .noProcess)
      | some n => (fun next => Program.kill n signal next : Effect (Except Errno Unit))
    match r with
    | .ok () => sendAll refuse signal rest
    | .error e =>
      refuse pid e
      let _ ← sendAll refuse signal rest
      pure false

def kill (name : String) (args : List String) : Effect Nat := do
  match killArgs args with
  | none | some (_, []) => misuse name "not enough arguments"
  | some (signal, pids) =>
    match pids.find? fun pid => (count? pid).isNone with
    | some bad =>
      complain name ("failed to parse argument: '" ++ bad ++ "'")
      pure 1
    | none =>
      let fine ← sendAll (fun pid e => complain name ("(" ++ pid ++ "): " ++ e.text)) signal pids
      pure (statusOf fine)

/-- Longer than any program runs. -/
def forever : Nat := Nat.pow 10 18

/-- Microseconds of a decimal number with a unit. -/
def decimalInterval? (s : String) : Option Nat :=
  let cs := s.toList
  let (number, unit) :=
    match cs.getLast? with
    | some 's' => (cs.dropLast, 1)
    | some 'm' => (cs.dropLast, 60)
    | some 'h' => (cs.dropLast, 3600)
    | some 'd' => (cs.dropLast, 86400)
    | _ => (cs, 1)
  let whole := number.takeWhile Char.isDigit
  let value (ds : List Char) : Nat := ds.foldl (fun n c => n * 10 + (c.toNat - '0'.toNat)) 0
  let micros (part : List Char) : Nat := value ((part ++ List.replicate 6 '0').take 6)
  match number.drop whole.length with
  | [] => if whole.isEmpty then none else some (value whole * 1000000 * unit)
  | '.' :: part =>
    if part.all Char.isDigit && !(whole.isEmpty && part.isEmpty) then
      some ((value whole * 1000000 + micros part) * unit)
    else none
  | _ => none

def interval? (s : String) : Option Nat :=
  if s = "infinity" || s = "inf" then some forever else decimalInterval? s

def sleep (name : String) (args : List String) : Effect Nat := do
  let isOption (a : String) := 1 < a.length && a.startsWith "-" && a != "--"
  let times := args.filter (· != "--")
  match args.find? isOption, times with
  | some a, _ =>
    misuse name (if a.startsWith "--" then "unrecognized option '" ++ a ++ "'"
      else "invalid option -- '" ++ .ofList ((a.toList.drop 1).take 1) ++ "'")
  | none, [] => misuse name "missing operand"
  | none, _ =>
    match (times.filter fun a => (interval? a).isNone).reverse with
    | last :: others =>
      others.reverse.forM fun a => complain name ("invalid time interval '" ++ a ++ "'")
      misuse name ("invalid time interval '" ++ last ++ "'")
    | [] =>
      let () ← fun next => Program.sleep ((times.filterMap interval?).foldl (· + ·) 0) next
      pure 0

end Debugline.Machine.Utility
