import Debugline.CommandLine
import Debugline.Session.Event
import Debugline.Text.Numeral

/-! How the console is called: options, a command, and the program with its arguments.
Options of the console are read until the arguments of the program begin, and these
begin with the first word behind the program or the first option that is not the
console's. -/

namespace Debugline.Console

open Session

inductive Invocation
  | misuse
  | help
  | version
  | start (mode : Mode) (interval : Nat) (line : CommandLine)
  deriving DecidableEq, Repr

namespace Invocation

/-- Options as they have been given; each may be given once. -/
structure Given where
  interval : Option Nat
  verbose : Bool
  /-- An argument put before all others. -/
  extra : Option String

def Given.none : Given := ⟨.none, false, .none⟩

/-- What a reader of options goes on with, or the end of reading. -/
abbrev Step (α : Type) := Except Invocation α

/-- An option that may be given once. -/
def once {α : Type} (before : Option α) (now : Option α) : Step (Option α) :=
  match before, now with
  | .none, some a => .ok (some a)
  | _, _ => .error .misuse

def setInterval (g : Given) (value : String) : Step Given := do
  pure { g with interval := ← once g.interval (Text.unsigned? value.toList) }

def setVerbose (g : Given) : Step Given :=
  if g.verbose then .error .misuse else .ok { g with verbose := true }

def setExtra (g : Given) (value : String) : Step Given := do
  pure { g with extra := ← once g.extra (some value) }

/-- Which options a command line has: those of all commands, and `--debug-arg`. -/
structure Rules where
  hasVersion : Bool
  hasExtra : Bool

/-- Whether a letter behind one dash is an option. -/
def Rules.knows (r : Rules) (c : Char) : Bool := c == 'v' || c == 'h' || (c == 'V' && r.hasVersion)

/-- Takes letters behind one dash one by one. -/
def letters (r : Rules) : List Char → Given → Step Given
  | [], g => .ok g
  | c :: cs, g => do
    if c = 'h' then .error .help
    else if c = 'V' && r.hasVersion then .error .version
    else if c = 'v' then letters r cs (← setVerbose g)
    else .error .misuse

/-- A name behind two dashes, and the value behind an equals sign. -/
def cutLong (s : List Char) : String × Option String :=
  let name := s.takeWhile (· != '=')
  match s.drop name.length with
  | [] => (.ofList name, none)
  | _ :: value => (.ofList name, some (.ofList value))

/-- What a word of a command line is. -/
inductive Token
  /-- Two dashes alone. -/
  | dashes
  | long (name : String) (value : Option String)
  | short (letters : List Char)
  | word
  deriving DecidableEq, Repr

def token (s : String) : Token :=
  match s.toList with
  | ['-', '-'] => .dashes
  | '-' :: '-' :: r => let (name, value) := cutLong r; .long name value
  | ['-'] => .word
  | '-' :: r => .short r
  | _ => .word

/-- The long options that exist. -/
def Rules.knowsLong (r : Rules) (name : String) : Bool :=
  ["verbose", "help", "poll-interval-ms"].contains name || (name == "version" && r.hasVersion) ||
    (name == "debug-arg" && r.hasExtra)

/-- Whether a word can be the value of the option before it. Behind the program, where
arguments may begin with dashes, so may a value that is no option. -/
def canBeValue (r : Rules) (behindProgram : Bool) (s : String) : Bool :=
  match token s with
  | .word => true
  | .dashes => false
  | .long name _ => behindProgram && !r.knowsLong name
  | .short cs => behindProgram && cs.any fun c => !r.knows c

/-- Does an option that takes a value with the value it is given. -/
def setValued (name : String) (g : Given) (value : String) : Step Given :=
  if name = "poll-interval-ms" then setInterval g value else setExtra g value

/-- Does a long option, and gives the words that follow it. -/
def long (r : Rules) (behindProgram : Bool) (name : String) (value : Option String)
    (rest : List String) (g : Given) : Step (Given × List String) :=
  if name = "poll-interval-ms" || name = "debug-arg" then
    match value, rest with
    | some v, _ => do pure (← setValued name g v, rest)
    | .none, v :: rest => do
      if canBeValue r behindProgram v then pure (← setValued name g v, rest) else .error .misuse
    | .none, [] => .error .misuse
  else if value.isSome then .error .misuse
  else if name = "help" then .error .help
  else if name = "version" then .error .version
  else do pure (← setVerbose g, rest)

theorem long_rest_le {r : Rules} {b : Bool} {name : String} {value : Option String}
    {rest rest' : List String} {g g' : Given}
    (h : long r b name value rest g = .ok (g', rest')) : rest'.length ≤ rest.length := by
  unfold long at h
  split at h
  · split at h
    · rename_i v
      cases hv : setValued name g v <;> simp_all [bind, Except.bind, pure, Except.pure]
    · rename_i v tail
      split at h
      · cases hv : setValued name g v <;> simp_all [bind, Except.bind, pure, Except.pure]
      · simp at h
    · simp at h
  · split at h
    · simp at h
    · split at h
      · simp at h
      · split at h
        · simp at h
        · cases hv : setVerbose g <;> simp_all [bind, Except.bind, pure, Except.pure]

/-- The program and its arguments behind `run` or `debug`, given the program if it has
been read. -/
def operands (r : Rules) (program : Option String) (words : List String) (g : Given) :
    Step (Given × String × List String) :=
  match words, program with
  | [], none => .error .misuse
  | [], some p => .ok (g, p, [])
  | w :: rest, _ =>
    match token w, program with
    | .dashes, none =>
      match rest with
      | [] => .error .misuse
      | p :: args => .ok (g, p, args)
    | .dashes, some p => .ok (g, p, rest)
    | .word, none => operands r (some w) rest g
    | .word, some p => .ok (g, p, w :: rest)
    | .long name value, _ =>
      if r.knowsLong name then
        match _ : long r program.isSome name value rest g with
        | .error e => .error e
        | .ok (g, rest) => operands r program rest g
      else
        match program with
        | none => .error .misuse
        | some p => .ok (g, p, w :: rest)
    | .short cs, some p =>
      if cs.all r.knows then do operands r program rest (← letters r cs g)
      else .ok (g, p, w :: rest)
    | .short cs, none => do operands r program rest (← letters r cs g)
termination_by words.length
decreasing_by
  all_goals simp_wf
  all_goals first
    | omega
    | (have h := long_rest_le ‹_›; omega)

/-- The command line of a program; an extra argument stands in front. -/
def lineOf (g : Given) (program : String) (args : List String) : CommandLine :=
  (CommandLine.new program).addArgs (g.extra.toList ++ args)

/-- The interval of polls, in milliseconds, if none is given. -/
def defaultInterval : Nat := 20

/-- What follows the name of a command. -/
def command (mode : Mode) (outer : Given) (words : List String) : Step Invocation := do
  let (g, program, args) ← operands ⟨false, mode = .debug⟩ none words .none
  let interval := (g.interval.or outer.interval).getD defaultInterval
  pure (.start mode interval (lineOf g program args))

/-- The options before the command, and the command. -/
def read (words : List String) (g : Given) : Step Invocation :=
  match words with
  | [] => .error .misuse
  | w :: rest =>
    match token w with
    | .dashes => .error .misuse
    | .long name value =>
      let r : Rules := ⟨true, false⟩
      if r.knowsLong name then
        match _ : long r false name value rest g with
        | .error e => .error e
        | .ok (g, rest) => read rest g
      else .error .misuse
    | .short cs => do read rest (← letters ⟨true, false⟩ cs g)
    | .word =>
      match w with
      | "run" => command .run g rest
      | "debug" => command .debug g rest
      | "help" =>
        match rest with
        | [] | ["run"] | ["debug"] | ["help"] => .error .help
        | _ => .error .misuse
      | _ => .error .misuse
termination_by words.length
decreasing_by
  all_goals simp_wf
  all_goals first
    | omega
    | (have h := long_rest_le ‹_›; omega)

/-- The meaning of the arguments of the console. -/
def ofArgs (args : List String) : Invocation :=
  match read args .none with
  | .ok i => i
  | .error i => i

end Invocation

end Debugline.Console
