import Debugline.Machine.Shell.Reader
import Debugline.Machine.Utility.Format

/-! Arithmetic of the shell. -/

namespace Debugline.Machine.Shell

/-- Operators by how tightly they bind. -/
def levels : List (List String) :=
  [["||"], ["&&"], ["|"], ["^"], ["&"], ["==", "!="], ["<=", ">=", "<", ">"], ["<<", ">>"],
    ["+", "-"], ["*", "/", "%"]]

def ofBool (b : Bool) : Int := if b then 1 else 0

def apply (op : String) (a b : Int) : Option Int :=
  match op with
  | "||" => some (ofBool (a != 0 || b != 0))
  | "&&" => some (ofBool (a != 0 && b != 0))
  | "|" => some (Nat.lor a.toNat b.toNat)
  | "^" => some (Nat.xor a.toNat b.toNat)
  | "&" => some (Nat.land a.toNat b.toNat)
  | "==" => some (ofBool (a == b))
  | "!=" => some (ofBool (a != b))
  | "<=" => some (ofBool (a ≤ b))
  | ">=" => some (ofBool (b ≤ a))
  | "<" => some (ofBool (a < b))
  | ">" => some (ofBool (b < a))
  | "<<" => some (a * Int.pow 2 b.toNat)
  | ">>" => some (a / Int.pow 2 b.toNat)
  | "+" => some (a + b)
  | "-" => some (a - b)
  | "*" => some (a * b)
  | "/" => if b = 0 then none else some (a.tdiv b)
  | "%" => if b = 0 then none else some (a.tmod b)
  | _ => none

def skipBlank (s : List Char) : List Char := s.dropWhile fun c => c == ' ' || c == '\t' || c == '\n'

/-- An operator of a level, if one stands here. -/
def operator? (ops : List String) (s : List Char) : Option (String × List Char) :=
  ops.findSome? fun op =>
    let n := op.length
    if s.take n = op.toList then
      match op, s.drop n with
      | "|", '|' :: _ | "&", '&' :: _ | "<", '<' :: _ | ">", '>' :: _ => none
      | _, r => some (op, r)
    else none

/-- Variables that the expression has given values, newest first. -/
abbrev Assigned := List (String × Int)

/-- Reads a part of an expression. -/
abbrev Reading := StateT Assigned Option (Int × List Char)

/-- Operators that may stand in front of the equals sign of an assignment. -/
def combining : List String := ["<<", ">>", "+", "-", "*", "/", "%", "&", "|", "^"]

/-- The operator of an assignment, if one stands here. -/
def assigning? (s : List Char) : Option (String × List Char) :=
  match s with
  | '=' :: '=' :: _ => none
  | '=' :: r => some ("", r)
  | _ => combining.findSome? fun op =>
    if s.take (op.length + 1) = op.toList ++ ['='] then some (op, s.drop (op.length + 1)) else none

mutual

/-- An expression of the levels from one on. -/
def expression (vars : String → Int) :
    (fuel : Nat) → (level : List (List String)) → List Char → Reading
  | 0, _, _ => failure
  | fuel + 1, [], s => unary vars fuel (skipBlank s)
  | fuel + 1, ops :: tighter, s => do
    let (a, s) ← expression vars fuel tighter s
    operations vars fuel ops tighter a s

def operations (vars : String → Int) : (fuel : Nat) → List String → List (List String) → Int →
    List Char → Reading
  | 0, _, _, _, _ => failure
  | fuel + 1, ops, tighter, a, s =>
    match operator? ops (skipBlank s) with
    | none => pure (a, s)
    | some (op, s) => do
      let (b, s) ← expression vars fuel tighter s
      operations vars fuel ops tighter (← liftM (apply op a b)) s

/-- An expression, a choice of two, or an assignment. -/
def whole (vars : String → Int) : (fuel : Nat) → List Char → Reading
  | 0, _ => failure
  | fuel + 1, s => do
    let s := skipBlank s
    let name := if s.head?.any beginsName then s.takeWhile inName else []
    match if name.isEmpty then none else assigning? (skipBlank (s.drop name.length)) with
    | some (op, s) => do
      let (n, s) ← whole vars fuel s
      let name := String.ofList name
      let old := ((← get).lookup name).getD (vars name)
      let n ← if op.isEmpty then pure n else liftM (apply op old n)
      modify ((name, n) :: ·)
      pure (n, s)
    | none => do
      let (n, s) ← expression vars fuel levels s
      match skipBlank s with
      | '?' :: s => do
        let (a, s) ← whole vars fuel s
        match skipBlank s with
        | ':' :: s =>
          let (b, s) ← whole vars fuel s
          pure (if n = 0 then b else a, s)
        | _ => failure
      | _ => pure (n, s)

def unary (vars : String → Int) : (fuel : Nat) → List Char → Reading
  | 0, _ => failure
  | _, [] => failure
  | fuel + 1, '-' :: s => do
    let (n, s) ← unary vars fuel (skipBlank s)
    pure (-n, s)
  | fuel + 1, '+' :: s => unary vars fuel (skipBlank s)
  | fuel + 1, '~' :: s => do
    let (n, s) ← unary vars fuel (skipBlank s)
    pure (-n - 1, s)
  | fuel + 1, '!' :: s => do
    let (n, s) ← unary vars fuel (skipBlank s)
    pure (ofBool (n == 0), s)
  | fuel + 1, '(' :: s => do
    let (n, s) ← whole vars fuel s
    match skipBlank s with
    | ')' :: s => pure (n, s)
    | _ => failure
  | _, c :: s => do
    let cs := c :: s
    if c.isDigit then
      let ds := cs.takeWhile Char.isAlphanum
      match Utility.readNumber (.ofList ds) with
      | (n, true) => pure (n, cs.drop ds.length)
      | _ => failure
    else if beginsName c then
      let name := String.ofList (cs.takeWhile inName)
      pure (((← get).lookup name).getD (vars name), cs.dropWhile inName)
    else failure

end

/-- The value of an expression, and the variables it has given values; nothing is
zero. -/
def evaluate (vars : String → Int) (expr : String) : Option (Int × Assigned) :=
  let s := skipBlank expr.toList
  if s.isEmpty then some (0, [])
  else
    match whole vars (20 * s.length + 40) s [] with
    | some ((n, r), assigned) => if (skipBlank r).isEmpty then some (n, assigned) else none
    | none => none

end Debugline.Machine.Shell
