import Debugline.Console.Invocation
import Debugline.Console.Repl
import Debugline.Transport.Child

/-! The console as a program: from its arguments and its input to what it prints and
its exit code. What starts a program is a parameter. -/

namespace Debugline.Console

open Session

/-- What a run of the console leaves behind. -/
structure Report where
  code : Nat
  out : String
  err : String
  deriving DecidableEq, Repr

/-- The lines of input, cut at line feeds. A carriage return before a line feed is
dropped, and what follows the last line feed is a line if it is not empty. -/
def inputLines (bytes : List UInt8) : List (List UInt8) :=
  let parts := bytes.splitOn 0x0a
  let closed := parts.dropLast.map fun l => if l.getLast? = some 0x0d then l.dropLast else l
  match parts.getLast? with
  | none | some [] => closed
  | some rest => closed ++ [rest]

/-- A line of input as a terminal gives it. -/
def Typed.ofBytes (bytes : List UInt8) : Typed :=
  match Text.decode? bytes with
  | some text => .line text
  | none => .failed
      "Io(Error \x7b kind: InvalidData, message: \"stream did not contain valid UTF-8\" \x7d)"

/-- The lines that are sent to a program: those before the first that is no text. -/
def forwarded (bytes : List UInt8) : List String :=
  ((inputLines bytes).map Text.decode?).takeWhile Option.isSome |>.filterMap id

namespace Host

/-- More polls than any program is watched for. -/
def polls : Nat := 100000

def report {τ : Type} (h : Host τ) (code : Nat) (err : String) : Report :=
  let out := h.log.map fun e =>
    match e with
    | .out text | .prompt text => text
    | _ => ""
  let errs := h.log.map fun e =>
    match e with
    | .err text => text
    | _ => ""
  ⟨code, String.join out, String.join errs ++ err⟩

end Host

/-- The exit code of a console that crashes. -/
def crashCode : Nat := 101

/-- What is printed last by a console that crashes. -/
def crashText : String := "attempt to add with overflow\n"

/-- Starts a program and stays with it until its end, or until the user leaves. -/
def accompany {σ : Type} [System σ] (start : CommandLine → Except String σ) (mode : Mode)
    (interval : Nat) (line : CommandLine) (input : List UInt8) (disk : Disk) : Report :=
  let h : Host (Child σ) := ⟨.new .standard (.new disk), interval, []⟩
  let h := h.outLine ("Starting: " ++ line.display)
  let (h, launched) := h.control fun c => c.launch mode fun _ => Child.spawn start line
  let h := h.printEvents.1
  match launched with
  | .error refusal => h.report 1 ("Error: " ++ refusal.message ++ "\n")
  | .ok () =>
    let ended : Option (Host (Child σ) × Ending) :=
      match mode with
      | .run => (h.pumpUntilExit Host.polls (forwarded input)).map (·, .left)
      | .debug => h.repl (fun _ => Host.polls) ((inputLines input).map .ofBytes)
    match ended.getD (h, .left) with
    | (h, .left) => h.report 0 ""
    | (h, .crashed) => h.report crashCode crashText

def versionText : String := "tansa 0.1.0\n"

def usage : String := "\n".intercalate [
  "Drive a script debugger as a child process",
  "",
  "Usage: tansa [OPTIONS] run <PROGRAM> [ARGS]...",
  "       tansa [OPTIONS] debug [--debug-arg <ARG>] <PROGRAM> [ARGS]...",
  "",
  "Options:",
  "      --poll-interval-ms <N>  Interval between poll ticks in milliseconds",
  "  -v, --verbose               Enable debug logging",
  "  -h, --help                  Print help",
  "  -V, --version               Print version",
  ""]

/-- Runs the console. -/
def run {σ : Type} [System σ] (start : CommandLine → Except String σ) (args : List String)
    (input : List UInt8) (disk : Disk) : Report :=
  match Invocation.ofArgs args with
  | .misuse => ⟨2, "", usage⟩
  | .help => ⟨0, usage, ""⟩
  | .version => ⟨0, versionText, ""⟩
  | .start mode interval line => accompany start mode interval line input disk

end Debugline.Console
