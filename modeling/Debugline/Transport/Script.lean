import Debugline.Text.Utf8
import Debugline.Transport.Basic

/-! A scripted program: what it writes is laid down in advance, one chunk for each
read, and more may follow each line it is sent. -/

namespace Debugline

/-- What one read gives. -/
abbrev Chunk := Except Failure (List UInt8)

namespace Script

/-- A change of a script. -/
structure Cue where
  output : List Chunk
  errors : List Chunk
  /-- The program ends now. -/
  dies : Bool
  /-- The program ends once all is read. -/
  exits : Bool
  /-- Writes fail from now on. -/
  writeFault : Option Failure
  /-- `kill` fails from now on. -/
  survives : Bool

/-- One chunk of output, and nothing else. -/
def Cue.writes (text : String) : Cue := ⟨[.ok (Text.encode text)], [], false, false, none, false⟩

end Script

structure Script where
  output : List Chunk
  errors : List Chunk
  /-- Cues that are given by one successful write each. -/
  replies : List Script.Cue
  /-- Whether the error stream can be read. -/
  hasErrors : Bool
  dead : Bool
  exits : Bool
  writeFault : Option Failure
  survives : Bool

namespace Script

def new (hasErrors : Bool) (replies : List Cue) : Script :=
  ⟨[], [], replies, hasErrors, false, false, none, false⟩

def cue (s : Script) (c : Cue) : Script :=
  { s with
    output := s.output ++ c.output
    errors := s.errors ++ c.errors
    dead := s.dead || c.dies
    exits := s.exits || c.exits
    writeFault := c.writeFault.or s.writeFault
    survives := s.survives || c.survives }

def takeOutput (s : Script) : Script × Chunk :=
  match s.output with
  | [] => (s, .ok [])
  | chunk :: rest => ({ s with output := rest }, chunk)

def takeErrors (s : Script) : Script × Chunk :=
  match s.hasErrors, s.errors with
  | true, chunk :: rest => ({ s with errors := rest }, chunk)
  | _, _ => (s, .ok [])

def write (s : Script) (_ : List UInt8) : Script × Except Failure Unit :=
  match s.writeFault, s.replies with
  | some fault, _ => (s, .error fault)
  | none, [] => (s, .ok ())
  | none, reply :: rest => ({ s with replies := rest }.cue reply, .ok ())

def alive (s : Script) : Bool :=
  !s.dead && !(s.exits && s.output.isEmpty && s.errors.isEmpty)

def kill (s : Script) : Script × Except Failure Unit :=
  if s.survives then (s, .error (.other "kill failed" []))
  else ({ s with dead := true }, .ok ())

/-- The chunks that can still be read. -/
def work (s : Script) : Nat :=
  s.replies.foldr (fun c n => c.output.length + c.errors.length + n)
    (s.output.length + s.errors.length)

instance : Transport Script where
  readOutput := takeOutput
  readErrors := takeErrors
  write := write
  alive s := (s, s.alive)
  terminate s := (s, .error (.other "terminate failed" []))
  kill := kill
  wait s _ := s

end Script

end Debugline
