import Debugline.Machine.Utility.Copy

/-! `tr`: bytes for bytes. A set is written as characters, escapes, ranges and classes. -/

namespace Debugline.Machine.Utility

open Effect

/-- The value of up to `limit` octal digits, and what follows them. -/
def octal : (limit : Nat) → (value : Nat) → List Char → Nat × List Char
  | limit + 1, value, c :: r =>
    if '0' ≤ c ∧ c ≤ '7' then octal limit (value * 8 + (c.toNat - '0'.toNat)) r
    else (value, c :: r)
  | _, value, s => (value, s)

/-- What a letter stands for behind a backslash. -/
def escaped (c : Char) : Option Char :=
  match c with
  | 'a' => some '\x07'
  | 'b' => some '\x08'
  | 'f' => some '\x0c'
  | 'n' => some '\n'
  | 'r' => some '\r'
  | 't' => some '\t'
  | 'v' => some '\x0b'
  | '\\' => some '\\'
  | _ => none

def classOf (name : String) (c : Char) : Bool :=
  let space := c == ' ' || ('\t' ≤ c && c ≤ '\r')
  let graph := '!' ≤ c && c ≤ '~'
  match name with
  | "alpha" => c.isAlpha
  | "digit" => c.isDigit
  | "alnum" => c.isAlphanum
  | "upper" => c.isUpper
  | "lower" => c.isLower
  | "space" => space
  | "blank" => c == ' ' || c == '\t'
  | "punct" => graph && !c.isAlphanum
  | "graph" => graph
  | "print" => graph || c == ' '
  | "cntrl" => c.toNat < 32 || c.toNat = 127
  | "xdigit" => c.isDigit || ('a' ≤ c && c ≤ 'f') || ('A' ≤ c && c ≤ 'F')
  | _ => false

/-- Every octet as a character. -/
def allOctets : List Char := (List.range 256).map .ofNat

/-- One character of a set, and what follows it. -/
def setChar : List Char → Option (Char × List Char)
  | [] => none
  | '\\' :: c :: r =>
    if '0' ≤ c ∧ c ≤ '7' then
      let (n, r) := octal 3 0 (c :: r)
      some (.ofNat (n % 256), r)
    else some ((escaped c).getD c, r)
  | c :: r => some (c, r)

/-- The members of a set in the order it names them. -/
def setMembers : (fuel : Nat) → List Char → List Char
  | 0, _ => []
  | fuel + 1, '[' :: ':' :: r =>
    let name := r.takeWhile (· != ':')
    match r.drop name.length with
    | ':' :: ']' :: r => allOctets.filter (classOf (.ofList name)) ++ setMembers fuel r
    | _ => '[' :: setMembers fuel (':' :: r)
  | fuel + 1, s =>
    match setChar s with
    | none => []
    | some (a, '-' :: r) =>
      match setChar r with
      | none => [a, '-']
      | some (b, r) =>
        (List.range' a.toNat (b.toNat + 1 - a.toNat)).map .ofNat ++ setMembers fuel r
    | some (a, r) => a :: setMembers fuel r

/-- The first range of a set that goes backwards, as it is written. -/
def reversedRange : (fuel : Nat) → List Char → Option String
  | 0, _ => none
  | fuel + 1, s =>
    match setChar s with
    | none => none
    | some (a, '-' :: r) =>
      match setChar r with
      | none => none
      | some (b, r) => if b < a then some (.ofList [a, '-', b]) else reversedRange fuel r
    | some (_, r) => reversedRange fuel r

def reversedRange? (s : String) : Option String := reversedRange (s.length + 1) s.toList

def readSet (s : String) : List Char := setMembers (s.length + 1) s.toList

structure Replacement where
  delete : Bool
  squeeze : Bool
  complement : Bool
  /-- Whether the first set is cut to the length of the second. -/
  truncate : Bool
  sets : List String

def replacementOf : List String → Replacement → Option Replacement
  | [], t => some t
  | "--" :: rest, t => some { t with sets := t.sets ++ rest }
  | a :: rest, t =>
    match a.toList with
    | '-' :: o :: os =>
      if t.sets.isEmpty then
        let t := (o :: os).foldl (fun t c =>
          t.bind fun (t : Replacement) =>
            match c with
            | 'd' => some { t with delete := true }
            | 's' => some { t with squeeze := true }
            | 'c' | 'C' => some { t with complement := true }
            | 't' => some { t with truncate := true }
            | _ => none) (some t)
        t.bind (replacementOf rest)
      else replacementOf rest { t with sets := t.sets ++ [a] }
    | _ => replacementOf rest { t with sets := t.sets ++ [a] }

namespace Replacement

def first (t : Replacement) : List Char :=
  let s := readSet (t.sets.headD "")
  if t.complement then allOctets.filter fun c => !s.contains c else s

/-- The second set; its last member is repeated until it is as long as the first. -/
def second (t : Replacement) : List Char :=
  let s := readSet ((t.sets[1]?).getD "")
  match s.getLast? with
  | none => []
  | some last => if t.truncate then s else s ++ List.replicate (t.first.length - s.length) last

/-- Whether characters are given for others. -/
def replaces (t : Replacement) : Bool := 1 < t.sets.length && !t.delete

/-- What is wrong with the number of sets. -/
def misused (t : Replacement) : Option String :=
  let most := if t.delete && !t.squeeze then 1 else 2
  match t.sets with
  | [] => some "missing operand"
  | [s] =>
    if t.delete && t.squeeze then
      some ("missing operand after '" ++ s ++
        "'\nTwo strings must be given when both deleting and squeezing repeats.")
    else if !t.delete && !t.squeeze then
      some ("missing operand after '" ++ s ++ "'\nTwo strings must be given when translating.")
    else none
  | sets =>
    match sets[most]? with
    | none => none
    | some s =>
      some ("extra operand '" ++ s ++ "'" ++
        (if most = 1 && sets.length = 2 then
          "\nOnly one string may be given when deleting without squeezing repeats." else ""))

/-- What becomes of each octet; `none` is deleted. A later member of the first set
wins. -/
def table (t : Replacement) : Array (Option UInt8) :=
  let same := (allOctets.map fun c => some (UInt8.ofNat c.toNat)).toArray
  if t.delete then
    t.first.foldl (fun a c => a.set! c.toNat none) same
  else
    (t.first.zip t.second).foldl (fun a (c, d) => a.set! c.toNat (some (.ofNat d.toNat))) same

/-- The octets of which a run becomes one. -/
def squeezed (t : Replacement) : List UInt8 :=
  if t.squeeze then
    let s := if t.sets.length < 2 then t.first else readSet ((t.sets[1]?).getD "")
    s.map fun c => .ofNat c.toNat
  else []

end Replacement

/-- What becomes of bytes after one that was given out before. -/
def replaced (table : Array (Option UInt8)) (squeezed : List UInt8) (last : Option UInt8)
    (bytes : List UInt8) : Option UInt8 × List UInt8 :=
  let (last, out) := bytes.foldl (fun (last, out) b =>
    match (table[b.toNat]?).join with
    | none => (last, out)
    | some b => if last = some b && squeezed.contains b then (last, out) else (some b, b :: out))
    (last, [])
  (last, out.reverse)

/-- What is wrong with the sets. -/
def Replacement.unfit (t : Replacement) : Option String :=
  match t.sets.findSome? reversedRange? with
  | some range =>
    some ("range-endpoints of '" ++ range ++ "' are in reverse collating sequence order")
  | none =>
    if t.replaces && !t.truncate && t.second.isEmpty then
      some "when not truncating set1, string2 must be non-empty"
    else none

def tr (name : String) (args : List String) : Effect Nat := do
  match replacementOf args ⟨false, false, false, false, []⟩ with
  | none => misuse name "invalid option"
  | some t =>
    match t.misused, t.unfit with
    | some text, _ => misuse name text
    | none, some text =>
      complain name text
      pure 1
    | none, none =>
      let table := if t.sets.length < 2 && !t.delete then { t with sets := [] }.table else t.table
      let squeezed := t.squeezed
      let (_, held) ← drain 0 8192 (none, []) fun (last, held) bytes => do
        let (last, out) := replaced table squeezed last bytes
        let held ← gather held out
        pure (last, held)
      flush held
      pure 0

end Debugline.Machine.Utility
