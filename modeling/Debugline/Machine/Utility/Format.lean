import Debugline.Machine.Utility.Replace
import Debugline.Text.Numeral

/-! `echo` and `printf`. Both exist twice: as programs, and built into the shell with
escapes of its own. -/

namespace Debugline.Machine.Utility

open Effect

/-- Which of the two is meant. -/
inductive Flavor
  | program
  | builtin
  deriving DecidableEq

def hexValue (c : Char) : Option Nat :=
  if c.isDigit then some (c.toNat - '0'.toNat)
  else if 'a' ≤ c ∧ c ≤ 'f' then some (c.toNat - 'a'.toNat + 10)
  else if 'A' ≤ c ∧ c ≤ 'F' then some (c.toNat - 'A'.toNat + 10)
  else none

/-- What follows a backslash: the octet it stands for, and the rest. -/
def unescape (flavor : Flavor) : List Char → Option (Char × List Char)
  | [] => none
  | 'x' :: h :: r =>
    match flavor, hexValue h with
    | .program, some a =>
      match r with
      | g :: r' =>
        match hexValue g with
        | some b => some (.ofNat (a * 16 + b), r')
        | none => some (.ofNat a, r)
      | [] => some (.ofNat a, [])
    | _, _ => none
  | c :: r =>
    if '0' ≤ c ∧ c ≤ '7' then
      let (n, r) := octal 3 0 (c :: r)
      some (.ofNat (n % 256), r)
    else if c = 'e' && flavor = .program then some ('\x1b', r)
    else (escaped c).map (·, r)

/-- An argument with its escapes resolved, newest octet first, and whether `\c` has
ended all output. Octal numbers may have a zero in front. -/
def resolve (flavor : Flavor) : (fuel : Nat) → List Char → List Char → List Char × Bool
  | 0, _, out => (out, false)
  | _, [], out => (out, false)
  | fuel + 1, '\\' :: r, out =>
    match r with
    | 'c' :: _ => (out, true)
    | '0' :: r' =>
      let (n, rest) := octal 3 0 r'
      resolve flavor fuel rest (.ofNat (n % 256) :: out)
    | _ =>
      match unescape flavor r with
      | some (c, r) => resolve flavor fuel r (c :: out)
      | none => resolve flavor fuel r ('\\' :: out)
  | fuel + 1, c :: r, out => resolve flavor fuel r (c :: out)

def resolved (flavor : Flavor) (s : String) : String × Bool :=
  let (out, stop) := resolve flavor (s.length + 1) s.toList []
  (.ofList out.reverse, stop)

/-- The options of the program `echo`: letters among `n`, `e` and `E`. -/
def echoOptions : List String → (newline escapes : Bool) → Bool × Bool × List String
  | [], n, e => (n, e, [])
  | a :: rest, n, e =>
    match a.toList with
    | '-' :: o :: os =>
      if (o :: os).all fun c => ['n', 'e', 'E'].contains c then
        let e := (o :: os).foldl
          (fun e c => if c = 'e' then true else if c = 'E' then false else e) e
        echoOptions rest (n && !(o :: os).contains 'n') e
      else (n, e, a :: rest)
    | _ => (n, e, a :: rest)

def echoText (flavor : Flavor) (args : List String) : String :=
  let (newline, escapes, words) :=
    match flavor, args with
    | .program, _ => echoOptions args true false
    | .builtin, "-n" :: rest => (false, true, rest)
    | .builtin, _ => (true, true, args)
  let text := " ".intercalate words
  let (text, stop) := if escapes then resolved flavor text else (text, false)
  if newline && !stop then text ++ "\n" else text

/-! ### printf -/

structure Spec where
  left : Bool
  plus : Bool
  space : Bool
  alternate : Bool
  zero : Bool
  width : Nat
  precision : Option Nat

def Spec.plain : Spec := ⟨false, false, false, false, false, 0, none⟩

/-- The flags at the beginning of a directive. -/
def readFlags : List Char → Spec → Spec × List Char
  | '-' :: r, s => readFlags r { s with left := true }
  | '+' :: r, s => readFlags r { s with plus := true }
  | ' ' :: r, s => readFlags r { s with space := true }
  | '#' :: r, s => readFlags r { s with alternate := true }
  | '0' :: r, s => readFlags r { s with zero := true }
  | r, s => (s, r)

def digitsValue (s : List Char) : Nat := s.foldl (fun n c => n * 10 + (c.toNat - '0'.toNat)) 0

def inBase (base : Nat) (n : Nat) : String := .ofList (Nat.toDigits base n)

/-- Fills a field to its width. -/
def fill (s : Spec) (sign body : String) (zeros : Bool) : String :=
  let lack := s.width - (sign.length + body.length)
  if s.left then sign ++ body ++ .ofList (List.replicate lack ' ')
  else if zeros then sign ++ .ofList (List.replicate lack '0') ++ body
  else .ofList (List.replicate lack ' ') ++ sign ++ body

def showText (s : Spec) (t : String) : String :=
  fill s "" (match s.precision with | some p => .ofList (t.toList.take p) | none => t) false

/-- At least as many digits as the precision says. -/
def withPrecision (s : Spec) (digits : String) : String :=
  match s.precision with
  | none => digits
  | some p => .ofList (List.replicate (p - digits.length) '0') ++ digits

def showInt (s : Spec) (n : Int) : String :=
  let sign := if n < 0 then "-" else if s.plus then "+" else if s.space then " " else ""
  fill s sign (withPrecision s (toString n.natAbs)) (s.zero && s.precision.isNone)

def showBase (s : Spec) (conversion : Char) (n : Int) : String :=
  let n := if n < 0 then (Text.wordLimit + n).toNat else n.toNat
  let (body, mark) :=
    match conversion with
    | 'o' => (inBase 8 n, if s.alternate then "0" else "")
    | 'x' => (inBase 16 n, if s.alternate && n != 0 then "0x" else "")
    | 'X' => ((inBase 16 n).toUpper, if s.alternate && n != 0 then "0X" else "")
    | _ => (toString n, "")
  fill s mark (withPrecision s body) (s.zero && s.precision.isNone)

/-- The number at the beginning of an argument, and whether it is all of it. A quote
stands before a character whose code is meant. -/
def readNumber (arg : String) : Int × Bool :=
  let unsigned (s : List Char) : Nat × Bool :=
    match s with
    | '0' :: 'x' :: r | '0' :: 'X' :: r =>
      let ds := r.takeWhile fun c => (hexValue c).isSome
      (ds.foldl (fun n c => n * 16 + (hexValue c).getD 0) 0, ds.length = r.length && !ds.isEmpty)
    | '0' :: r =>
      let ds := r.takeWhile fun c => '0' ≤ c && c ≤ '7'
      (ds.foldl (fun n c => n * 8 + (hexValue c).getD 0) 0, ds.length = r.length)
    | s =>
      let ds := s.takeWhile Char.isDigit
      (digitsValue ds, ds.length = s.length && !ds.isEmpty)
  match arg.toList with
  | [] => (0, true)
  | '"' :: c :: _ | '\'' :: c :: _ => (c.toNat, true)
  | '-' :: r => let (n, fine) := unsigned r; (-(n : Int), fine)
  | '+' :: r => let (n, fine) := unsigned r; (n, fine)
  | s => let (n, fine) := unsigned s; (n, fine)

/-- What `printf` has done so far; octets and complaints stand newest first. -/
structure Printing where
  out : List Char
  args : List String
  /-- Whether a directive has taken an argument. -/
  used : Bool
  stop : Bool
  complaints : List String

namespace Printing

def add (p : Printing) (s : String) : Printing := { p with out := s.toList.reverse ++ p.out }

def next (p : Printing) : String × Printing :=
  match p.args with
  | [] => ("", { p with used := true })
  | a :: rest => (a, { p with args := rest, used := true })

/-- The next argument as a number. -/
def nextNumber (flavor : Flavor) (p : Printing) : Int × Printing :=
  let (a, p) := p.next
  match readNumber a with
  | (n, true) => (n, p)
  | (n, false) =>
    let quoted := if flavor = .program then "'" ++ a ++ "'" else a
    let text :=
      if n = 0 && !(a.toList.any Char.isDigit) then quoted ++
        (if flavor = .program then ": expected a numeric value" else ": expected numeric value")
      else quoted ++ ": " ++
        (if flavor = .program then "value not completely converted" else "not completely converted")
    (n, { p with complaints := text :: p.complaints })

/-- Does one directive, behind its percent sign. -/
def directive (flavor : Flavor) (p : Printing) (s : Spec) : List Char → Printing × List Char
  | [] =>
    ({ p with stop := true, complaints := "missing format character" :: p.complaints }, [])
  | 'c' :: r =>
    let (a, p) := p.next
    (p.add (showText s (.ofList (a.toList.take 1))), r)
  | 's' :: r =>
    let (a, p) := p.next
    (p.add (showText s a), r)
  | 'b' :: r =>
    let (a, p) := p.next
    let (t, stop) := resolved flavor a
    ({ p.add (showText s t) with stop }, r)
  | c :: r =>
    if c = 'd' || c = 'i' then
      let (n, p) := p.nextNumber flavor
      (p.add (showInt s n), r)
    else if ['u', 'o', 'x', 'X'].contains c then
      let (n, p) := p.nextNumber flavor
      (p.add (showBase s c n), r)
    else
      ({ p with
          stop := true
          complaints := ("%" ++ c.toString ++ ": invalid " ++
            (if flavor = .program then "conversion specification" else "directive")) ::
              p.complaints },
        r)

/-- A width or a precision: digits, or a star for the next argument. -/
def size (flavor : Flavor) (p : Printing) : List Char → Int × Printing × List Char
  | '*' :: r =>
    let (n, p) := p.nextNumber flavor
    (n, p, r)
  | s =>
    let ds := s.takeWhile Char.isDigit
    (digitsValue ds, p, s.drop ds.length)

/-- Goes once through the format. -/
def pass (flavor : Flavor) : (fuel : Nat) → List Char → Printing → Printing
  | 0, _, p => p
  | _, [], p => p
  | fuel + 1, '\\' :: r, p =>
    match r with
    | 'c' :: r' =>
      if flavor = .program then { p with stop := true }
      else pass flavor fuel r' (p.add "\\c")
    | _ =>
      match unescape flavor r with
      | some (c, r) => pass flavor fuel r { p with out := c :: p.out }
      | none => pass flavor fuel r (p.add "\\")
  | fuel + 1, '%' :: '%' :: r, p => pass flavor fuel r (p.add "%")
  | fuel + 1, '%' :: r, p =>
    let (s, r) := readFlags r .plain
    let (width, p, r) := p.size flavor r
    let s := { s with width := width.natAbs, left := s.left || width < 0 }
    let (s, p, r) :=
      match r with
      | '.' :: r =>
        let (n, p, r) := p.size flavor r
        ({ s with precision := if n < 0 then none else some n.toNat }, p, r)
      | _ => (s, p, r)
    let (p, r) := p.directive flavor s r
    if p.stop then p else pass flavor fuel r p
  | fuel + 1, c :: r, p => pass flavor fuel r { p with out := c :: p.out }

/-- Goes through the format until the arguments are used up. -/
def passes (flavor : Flavor) (format : String) : (fuel : Nat) → Printing → Printing
  | 0, p => p
  | fuel + 1, p =>
    let q := pass flavor (format.length + 1) format.toList { p with used := false }
    if q.stop || !q.used || q.args.isEmpty then q else passes flavor format fuel q

end Printing

/-- The text of a format with its arguments, and the complaints about them. -/
def printfText (flavor : Flavor) (format : String) (args : List String) : String × List String :=
  let p := Printing.passes flavor format (args.length + 1) ⟨[], args, false, false, []⟩
  (.ofList p.out.reverse, p.complaints.reverse)

def echo (_ : String) (args : List String) : Effect Nat := do
  put 1 (echoText .program args)
  pure 0

def printf (name : String) (args : List String) : Effect Nat := do
  match (if args.head? = some "--" then args.tail else args) with
  | [] => misuse name "missing operand"
  | format :: rest =>
    let (text, complaints) := printfText .program format rest
    complaints.forM (complain name)
    put 1 text
    pure (statusOf complaints.isEmpty)

end Debugline.Machine.Utility
