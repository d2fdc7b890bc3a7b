import Debugline.Machine.Program

/-! Programs that copy their input: all of it, or its beginning. -/

namespace Debugline.Machine.Utility

open Effect

/-- The messages of a program begin with how it was called. -/
def complain (name text : String) : Effect Unit := put 2 (name ++ ": " ++ text ++ "\n")

/-- Complains about the way a program was called. -/
def misuse (name text : String) : Effect Nat := do
  complain name text
  put 2 ("Try '" ++ name ++ " --help' for more information.\n")
  pure 1

/-- The digits at the beginning of a text must be all of it. -/
def count? (s : String) : Option Nat :=
  if !s.isEmpty && s.toList.all Char.isDigit then s.toNat? else none

/-! ### cat -/

/-- What is shown besides the bytes themselves. -/
structure Display where
  numbers : Bool
  /-- Numbers only for lines that are not empty. -/
  sparse : Bool
  ends : Bool
  tabs : Bool
  controls : Bool
  squeeze : Bool
  deriving DecidableEq, Repr

def Display.plain : Display := ⟨false, false, false, false, false, false⟩

def Display.add (d : Display) : Char → Option Display
  | 'n' => some { d with numbers := true }
  | 'b' => some { d with numbers := true, sparse := true }
  | 'E' => some { d with ends := true }
  | 'e' => some { d with ends := true, controls := true }
  | 'T' => some { d with tabs := true }
  | 't' => some { d with tabs := true, controls := true }
  | 'v' => some { d with controls := true }
  | 'A' => some { d with ends := true, tabs := true, controls := true }
  | 's' => some { d with squeeze := true }
  | 'u' => some d
  | _ => none

/-- A byte with carets for control characters. -/
def Display.show (d : Display) (b : UInt8) : List UInt8 :=
  let caret (b : UInt8) : List UInt8 :=
    if b < 0x20 then [0x5e, b + 0x40] else if b = 0x7f then [0x5e, 0x3f] else [b]
  if b = 0x09 then (if d.tabs then caret b else [b])
  else if !d.controls then [b]
  else if b < 0x80 then caret b
  else [0x4d, 0x2d] ++ caret (b - 0x80)

/-- Where a display stands: the last number given, whether a line has begun, and how
many empty lines came last. -/
structure Cursor where
  number : Nat
  inLine : Bool
  empties : Nat

def padTo (width : Nat) (s : String) : String :=
  .ofList (List.replicate (width - s.length) ' ') ++ s

/-- What a byte adds to the display. -/
def Display.step (d : Display) (c : Cursor) (b : UInt8) : Cursor × List UInt8 :=
  let isEmpty := b = 0x0a && !c.inLine
  if isEmpty && d.squeeze && 0 < c.empties then (c, [])
  else
    let numbered := d.numbers && !c.inLine && !(isEmpty && d.sparse)
    let number := if numbered then c.number + 1 else c.number
    let lead := if numbered then bytesOf (padTo 6 (toString number) ++ "\t") else []
    let shown := if b = 0x0a then (if d.ends then [0x24, 0x0a] else [0x0a]) else d.show b
    (⟨number, b != 0x0a, if isEmpty then c.empties + 1 else 0⟩, lead ++ shown)

def Display.steps (d : Display) (c : Cursor) (bytes : List UInt8) : Cursor × List UInt8 :=
  let (c, out) := bytes.foldl (fun (c, out) b =>
    let (c, shown) := d.step c b
    (c, shown.reverse ++ out)) (c, [])
  (c, out.reverse)

/-- Copies a descriptor to the output as it comes, until it ends or cannot be read. -/
def copy (d : Display) (fd : Nat) (c : Cursor) : Effect (Cursor × Option Errno) :=
  iterate (fun c => do
    match ← read fd 131072 with
    | .error e => pure (.inr (c, some e))
    | .ok [] => pure (.inr (c, none))
    | .ok bytes =>
      let (c, shown) := if d = .plain then (c, bytes) else d.steps c bytes
      let _ ← if shown.isEmpty then pure (.ok ()) else write 1 shown
      pure (.inl c)) (c, none) always c

/-- The options and the files among arguments; an option that is not known is the
error. -/
def catArgs : List String → Display → Except String (Display × List String)
  | [], d => .ok (d, [])
  | "--" :: files, d => .ok (d, files)
  | a :: rest, d =>
    match a.toList with
    | '-' :: '-' :: _ => .error ("unrecognized option '" ++ a ++ "'")
    | '-' :: o :: os =>
      match (o :: os).find? fun o => (d.add o).isNone with
      | some o => .error ("invalid option -- '" ++ o.toString ++ "'")
      | none => catArgs rest ((o :: os).foldl (fun d o => (d.add o).getD d) d)
    | _ => (catArgs rest d).map fun r => (r.1, a :: r.2)

/-- Copies the named files one after the other, with `-` for the input. -/
def catFiles (name : String) (d : Display) (c : Cursor) : List String → Effect Bool
  | [] => pure true
  | file :: files => do
    let opened ← if file = "-" then pure (.ok 0) else openPath file .read
    match opened with
    | .error e =>
      complain name (file ++ ": " ++ e.text)
      let _ ← catFiles name d c files
      pure false
    | .ok fd =>
      let (c, trouble) ← copy d fd c
      if file != "-" then close fd
      trouble.forM fun e => do
        complain name (file ++ ": " ++ e.text)
        if fd = 0 then complain name ("closing standard input: " ++ e.text)
      let others ← catFiles name d c files
      pure (trouble.isNone && others)

def statusOf (fine : Bool) : Nat := if fine then 0 else 1

def cat (name : String) (args : List String) : Effect Nat := do
  match catArgs args .plain with
  | .error text => misuse name text
  | .ok (d, files) =>
    let fine ← catFiles name d ⟨0, false, 0⟩ (if files.isEmpty then ["-"] else files)
    pure (statusOf fine)

/-! ### head -/

/-- How much of its input a program copies. -/
inductive Amount
  | bytes (n : Nat)
  | lines (n : Nat)
  /-- All but so many at the end. -/
  | allButBytes (n : Nat)
  | allButLines (n : Nat)

/-- What comes before the `n`-th of the bytes that end lines, and how many lines are
left. -/
def cutLines (last : UInt8) : (n : Nat) → List UInt8 → List UInt8 × Nat
  | 0, _ => ([], 0)
  | n, [] => ([], n)
  | n + 1, b :: bs =>
    let (taken, left) := cutLines last (if b = last then n else n + 1) bs
    (b :: taken, left)

/-- Copies the first bytes of a descriptor and reads no further. -/
def copyBytes (fd n : Nat) : Effect Unit := do
  let held ← iterate (fun (s : Nat × List UInt8) => do
    if s.1 = 0 then pure (.inr s.2)
    else
      let bytes ← take fd (min 8192 s.1)
      if bytes.isEmpty then pure (.inr s.2)
      else
        let held ← gather s.2 bytes
        pure (.inl (s.1 - bytes.length, held))) [] always (n, [])
  flush held

/-- Copies the first lines of a descriptor; what it has read beyond them is lost. -/
def copyLines (last : UInt8) (fd n : Nat) : Effect Unit := do
  let held ← iterate (fun (s : Nat × List UInt8) => do
    if s.1 = 0 then pure (.inr s.2)
    else
      let bytes ← take fd 8192
      if bytes.isEmpty then pure (.inr s.2)
      else
        let (taken, left) := cutLines last s.1 bytes
        let held ← gather s.2 taken
        pure (.inl (left, held))) [] always (n, [])
  flush held

/-- All that a descriptor gives. -/
def contents (fd : Nat) : Effect (List UInt8) := do
  let parts ← drain fd 8192 [] fun parts bytes => pure (bytes :: parts)
  pure parts.reverse.flatten

/-- The bytes without the last lines; a line that has no end counts as one. -/
def withoutLines (last : UInt8) (n : Nat) (bytes : List UInt8) : List UInt8 :=
  let ends := bytes.count last + (if bytes.getLast?.any (· != last) then 1 else 0)
  (cutLines last (ends - n) bytes).1

def copyAmount (last : UInt8) (fd : Nat) : Amount → Effect Unit
  | .bytes n => copyBytes fd n
  | .lines n => copyLines last fd n
  | .allButBytes n => do
    let bytes ← contents fd
    flush (bytes.take (bytes.length - n))
  | .allButLines n => do
    let bytes ← contents fd
    flush (if n = 0 then bytes else withoutLines last n bytes)

structure HeadCall where
  amount : Amount
  quiet : Bool
  verbose : Bool
  /-- The byte that ends a line. -/
  last : UInt8

/-- What a unit behind a number stands for. -/
def unit? (s : String) : Option Nat :=
  match s with
  | "" => some 1
  | "b" => some 512
  | "k" | "K" | "KiB" => some 1024
  | "kB" | "KB" => some 1000
  | "m" | "M" | "MiB" => some (1024 * 1024)
  | "MB" => some (1000 * 1000)
  | "G" | "GiB" => some (1024 * 1024 * 1024)
  | "GB" => some (1000 * 1000 * 1000)
  | _ => none

/-- A number with a unit. -/
def sized? (s : List Char) : Option Nat :=
  let ds := s.takeWhile Char.isDigit
  match count? (.ofList ds), unit? (.ofList (s.drop ds.length)) with
  | some n, some unit => some (n * unit)
  | _, _ => none

/-- The call and the files that the arguments of `head` name. -/
def headArgs (c : HeadCall) : List String → Except String (HeadCall × List String)
  | [] => .ok (c, [])
  | "--" :: files => .ok (c, files)
  | "-c" :: n :: rest => readBytes n rest
  | "-n" :: n :: rest => readLines n rest
  | "-q" :: rest => headArgs { c with quiet := true, verbose := false } rest
  | "-v" :: rest => headArgs { c with verbose := true, quiet := false } rest
  | "-z" :: rest => headArgs { c with last := 0 } rest
  | a :: rest =>
    match a.toList with
    | ['-', o] =>
      if o.isDigit then readLines o.toString rest
      else if o = 'c' || o = 'n' then
        .error ("option requires an argument -- '" ++ o.toString ++ "'")
      else .error ("invalid option -- '" ++ o.toString ++ "'")
    | '-' :: 'c' :: n => readBytes (.ofList n) rest
    | '-' :: 'n' :: n => readLines (.ofList n) rest
    | '-' :: '-' :: _ => .error ("unrecognized option '" ++ a ++ "'")
    | '-' :: n :: ns =>
      if n.isDigit then readLines (.ofList (n :: ns)) rest
      else .error ("invalid option -- '" ++ n.toString ++ "'")
    | _ => (headArgs c rest).map fun r => (r.1, a :: r.2)
where
  readBytes (n : String) (rest : List String) : Except String (HeadCall × List String) :=
    let (less, digits) := signOf n
    match sized? digits with
    | none => .error ("invalid number of bytes: '" ++ .ofList digits ++ "'")
    | some n => headArgs { c with amount := if less then .allButBytes n else .bytes n } rest
  readLines (n : String) (rest : List String) : Except String (HeadCall × List String) :=
    let (less, digits) := signOf n
    match sized? digits with
    | none => .error ("invalid number of lines: '" ++ .ofList digits ++ "'")
    | some n => headArgs { c with amount := if less then .allButLines n else .lines n } rest
  signOf (n : String) : Bool × List Char :=
    match n.toList with
    | '-' :: r => (true, r)
    | '+' :: r => (false, r)
    | r => (false, r)

/-- Copies the beginnings of the named files; `titled` says that a title was given
before. -/
def headFiles (name : String) (c : HeadCall) (titled : Bool) : List String → Effect Bool
  | [] => pure true
  | file :: files => do
    let opened ← if file = "-" then pure (.ok 0) else openPath file .read
    let title : Effect Unit :=
      if c.verbose then
        put 1 ((if titled then "\n" else "") ++ "==> " ++
          (if file = "-" then "standard input" else file) ++ " <==\n")
      else pure ()
    match opened with
    | .error e =>
      if e = .isDirectory then
        title
        complain name ("error reading '" ++ file ++ "': " ++ e.text)
      else complain name ("cannot open '" ++ file ++ "' for reading: " ++ e.text)
      let _ ← headFiles name c (titled || e = .isDirectory) files
      pure false
    | .ok fd =>
      title
      copyAmount c.last fd c.amount
      if file != "-" then close fd
      headFiles name c true files

def head (name : String) (args : List String) : Effect Nat := do
  match headArgs ⟨.lines 10, false, false, 0x0a⟩ args with
  | .error text =>
    if text.startsWith "invalid number" then
      complain name text
      pure 1
    else misuse name text
  | .ok (c, files) =>
    let c := { c with verbose := c.verbose || (1 < files.length && !c.quiet) }
    let fine ← headFiles name c false (if files.isEmpty then ["-"] else files)
    pure (statusOf fine)

end Debugline.Machine.Utility
