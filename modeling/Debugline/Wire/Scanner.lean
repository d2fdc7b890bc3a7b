import Debugline.Text.Utf8
import Debugline.Wire.Config

/-! The scanner parts the output of a program into text for the terminal and the
bodies of frames. It goes byte by byte and keeps its place between chunks, so a
stream gives the same frames however it is cut. -/

namespace Debugline.Wire

/-- Where a scanner stands between two bytes: in text, after the first bytes of an
escape, or in a frame, after its escape and the body so far. -/
inductive Phase
  | text (held : Fin 3)
  | frame (body : Array UInt8)
  deriving DecidableEq

/-- The longest body of a frame. -/
def maxFrame : Nat := 4096

def lineFeed : UInt8 := 0x0a

def backspace : UInt8 := 0x08

/-- Text of a terminal, newest byte first: a backspace takes the last character
off, its continuation bytes included. -/
def typed (text : List UInt8) (b : UInt8) : List UInt8 :=
  if b = backspace then (text.dropWhile Text.isContinuation).drop 1 else b :: text

structure Scanner where
  escape : Vector UInt8 3
  prompt : Array UInt8
  /-- A scanner that is not enabled takes every byte for text. -/
  enabled : Bool
  phase : Phase
  deriving DecidableEq

/-- What a chunk gives: bytes of text, and the bodies of the frames that ended in it. -/
structure Output where
  text : List UInt8
  frames : List String
  deriving DecidableEq, Repr

/-- A scanner's progress through a chunk: text and frames stand newest first. -/
structure Progress where
  phase : Phase
  text : List UInt8
  frames : List (Array UInt8)

namespace Scanner

def new (config : Config) (enabled : Bool) : Scanner :=
  ⟨config.escape, (Text.encode config.prompt).toArray, enabled, .text 0⟩

/-- The bytes of an escape seen so far. -/
def holdback (s : Scanner) : Nat :=
  match s.phase with
  | .text held => held
  | .frame _ => 3

def inFrame (s : Scanner) : Bool :=
  match s.phase with
  | .text _ => false
  | .frame _ => true

/-- A byte of text. One that breaks off an escape gives the held bytes back. -/
def stepText (s : Scanner) (held : Fin 3) (p : Progress) (b : UInt8) : Progress :=
  if b = s.escape.get held then
    if more : held.val + 1 < 3 then { p with phase := .text ⟨held.val + 1, more⟩ }
    else { p with phase := .frame #[] }
  else
    let given := (s.escape.toList.take held).reverse ++ p.text
    { p with phase := .text 0, text := typed given b }

/-- A byte of a frame. A line feed ends the body, and so does the last byte of the
prompt. A body that grows too long was no frame: it is given back as text, the
escape in front. -/
def stepFrame (s : Scanner) (body : Array UInt8) (p : Progress) (b : UInt8) : Progress :=
  if b = lineFeed then { p with phase := .text 0, frames := body :: p.frames }
  else
    let body := body.push b
    if maxFrame < body.size then
      let given := s.escape.toList.reverse ++ p.text
      { p with phase := .text 0, text := body.toList.foldl typed given }
    else if body = s.prompt then { p with phase := .text 0, frames := body :: p.frames }
    else { p with phase := .frame body }

def step (s : Scanner) (p : Progress) (b : UInt8) : Progress :=
  if s.enabled then
    match p.phase with
    | .text held => s.stepText held p b
    | .frame body => s.stepFrame body p b
  else { p with text := typed p.text b }

def scan (s : Scanner) (chunk : List UInt8) : Progress :=
  chunk.foldl s.step ⟨s.phase, [], []⟩

/-- Takes one chunk of the stream. A backspace reaches no further back than the
chunk. -/
def feed (s : Scanner) (chunk : List UInt8) : Scanner × Output :=
  let p := s.scan chunk
  ({ s with phase := p.phase },
    ⟨p.text.reverse, p.frames.reverse.map fun body => Text.decodeLossy body.toList⟩)

end Scanner

end Debugline.Wire
