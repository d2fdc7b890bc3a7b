import Debugline.Machine.Shell.Reader

/-! From expanded pieces to fields, and patterns. -/

namespace Debugline.Machine.Shell

/-- A piece whose parameters and scripts have been replaced. -/
inductive Bit
  | text (s : String) (quoted : Bool)
  /-- Cut into fields at blanks. -/
  | split (s : String)
  /-- The end of a field. -/
  | cut
  deriving DecidableEq, Repr

/-- A character, and whether it is quoted. -/
abbrev Marked := Char × Bool

def marked (quoted : Bool) (s : String) : List Marked := s.toList.map (·, quoted)

def unmarked (s : List Marked) : String := .ofList (s.map (·.1))

/-- Fields in the making: those that are done stand newest first, and so do the
characters of the open one. -/
structure Fields where
  done : List (List Marked)
  current : Option (List Marked)

namespace Fields

def close (f : Fields) : Fields :=
  match f.current with
  | none => f
  | some cs => ⟨cs.reverse :: f.done, none⟩

def add (f : Fields) (s : List Marked) : Fields :=
  { f with current := some (s.reverse ++ f.current.getD []) }

def addSplit (ifs : String) (f : Fields) (s : String) : Fields :=
  s.toList.foldl (fun f c => if ifs.contains c then f.close else f.add [(c, false)]) f

def step (ifs : String) (f : Fields) : Bit → Fields
  | .text s quoted => if s.isEmpty && !quoted then f else f.add (marked quoted s)
  | .split s => f.addSplit ifs s
  | .cut => f.close

end Fields

/-- The fields of a word. -/
def fieldsOf (ifs : String) (bits : List Bit) : List (List Marked) :=
  (bits.foldl (Fields.step ifs) ⟨[], none⟩).close.done.reverse

/-- The characters of a word that is not cut into fields. -/
def markedOf (bits : List Bit) : List Marked :=
  bits.flatMap fun b =>
    match b with
    | .text s quoted => marked quoted s
    | .split s => marked false s
    | .cut => marked false " "

/-- The text of a word that is not cut into fields. -/
def textOf (bits : List Bit) : String := unmarked (markedOf bits)

/-- A character of a pattern. -/
inductive Glob
  | char (c : Char)
  | any
  | many
  | oneOf (negated : Bool) (ranges : List (Char × Char))
  deriving DecidableEq, Repr

/-- The members of a bracket expression, and what follows its end. -/
def bracket : (fuel : Nat) → List Marked → (first : Bool) → List (Char × Char) →
    Option (List (Char × Char) × List Marked)
  | 0, _, _, _ => none
  | _, [], _, _ => none
  | fuel + 1, (']', false) :: r, first, acc =>
    if first then bracket fuel r false ((']', ']') :: acc) else some (acc, r)
  | fuel + 1, (a, _) :: ('-', false) :: (b, q) :: r, _, acc =>
    if b = ']' && !q then bracket fuel (('-', false) :: (b, q) :: r) false ((a, a) :: acc)
    else bracket fuel r false ((a, b) :: acc)
  | fuel + 1, (a, _) :: r, _, acc => bracket fuel r false ((a, a) :: acc)

/-- The pattern that characters make: what is quoted stands for itself. -/
def globs : (fuel : Nat) → List Marked → List Glob
  | 0, _ => []
  | _, [] => []
  | fuel + 1, ('*', false) :: r => .many :: globs fuel r
  | fuel + 1, ('?', false) :: r => .any :: globs fuel r
  | fuel + 1, ('[', false) :: r =>
    let (negated, r') :=
      match r with
      | ('!', false) :: r => (true, r)
      | r => (false, r)
    match bracket (r'.length + 1) r' true [] with
    | some (ranges, r) => .oneOf negated ranges :: globs fuel r
    | none => .char '[' :: globs fuel r
  | fuel + 1, (c, _) :: r => .char c :: globs fuel r

def patternOf (s : List Marked) : List Glob := globs (s.length + 1) s

/-- Whether a pattern is more than a text. -/
def isPattern (s : List Marked) : Bool := (patternOf s).any fun g =>
  match g with
  | .char _ => false
  | _ => true

/-- Whether a pattern is all of a text. -/
def fits : List Glob → List Char → Bool
  | [], s => s.isEmpty
  | .many :: g, [] => fits g []
  | .many :: g, c :: s => fits g (c :: s) || fits (.many :: g) s
  | .any :: g, _ :: s => fits g s
  | .char a :: g, c :: s => a == c && fits g s
  | .oneOf negated ranges :: g, c :: s =>
    (ranges.any fun (a, b) => decide (a ≤ c ∧ c ≤ b)) != negated && fits g s
  | _, [] => false
termination_by g s => g.length + s.length

/-- The names that a pattern fits, in order. A dot in front has to be written. -/
def fittingNames (s : List Marked) (names : List String) : List String :=
  let hidden := s.head?.any fun c => c.1 == '.'
  let fitting := names.filter fun n => fits (patternOf s) n.toList && (hidden || !n.startsWith ".")
  fitting.mergeSort fun a b => decide (a ≤ b)

/-- A text without the beginning that a pattern fits. -/
def withoutStart (longest : Bool) (g : List Glob) (s : List Char) : List Char :=
  let cuts := List.range (s.length + 1)
  match (if longest then cuts.reverse else cuts).find? fun n => fits g (s.take n) with
  | some n => s.drop n
  | none => s

/-- A text without the end that a pattern fits. -/
def withoutEnd (longest : Bool) (g : List Glob) (s : List Char) : List Char :=
  let cuts := List.range (s.length + 1)
  match (if longest then cuts else cuts.reverse).find? fun n => fits g (s.drop n) with
  | some n => s.take n
  | none => s

end Debugline.Machine.Shell
