import Debugline.Machine.Utility.Copy

/-! `wc`: lines, words and bytes. -/

namespace Debugline.Machine.Utility

open Effect

structure Counts where
  lines : Nat
  words : Nat
  bytes : Nat
  chars : Nat
  /-- The longest line, and the line that has begun. -/
  longest : Nat
  current : Nat
  inWord : Bool

namespace Counts

def zero : Counts := ⟨0, 0, 0, 0, 0, 0, false⟩

def step (c : Counts) (b : UInt8) : Counts :=
  let blank := b = 0x20 || (9 ≤ b && b ≤ 13)
  let printed := 0x20 ≤ b && b < 0x7f
  let current := if b = 0x0a then 0 else if printed then c.current + 1 else c.current
  { lines := if b = 0x0a then c.lines + 1 else c.lines
    words := if printed && !blank && !c.inWord then c.words + 1 else c.words
    bytes := c.bytes + 1
    chars := c.chars + 1
    longest := max c.longest current
    current
    inWord := !blank && (c.inWord || printed) }

def add (a b : Counts) : Counts :=
  ⟨a.lines + b.lines, a.words + b.words, a.bytes + b.bytes, a.chars + b.chars,
    max a.longest b.longest, 0, false⟩

/-- The columns that are shown, in their fixed order. -/
def columns (c : Counts) (shown : List Char) : List Nat :=
  [('l', c.lines), ('w', c.words), ('m', c.chars), ('c', c.bytes), ('L', c.longest)].filterMap
    fun (o, n) => if shown.contains o then some n else none

end Counts

def countLine (width : Nat) (shown : List Char) (c : Counts) (file : Option String) : String :=
  " ".intercalate ((c.columns shown).map fun n => padTo width (toString n)) ++
    (file.elim "" fun f => " " ++ f) ++ "\n"

/-- What was counted of an input, and the size of it if it is a file. -/
structure Counted where
  counts : Counts
  size : Option Nat

def countInput (fd : Nat) : Effect Counted := do
  let size ← fun next => Program.measure fd next
  let counts ← drain fd 131072 .zero fun c bytes => pure (bytes.foldl .step c)
  pure ⟨counts, size⟩

/-- Counts the named files, and says whether all could be opened. -/
def countFiles (name : String) : List String → Effect (List (String × Counted) × Bool)
  | [] => pure ([], true)
  | "-" :: files => do
    let c ← countInput 0
    let (cs, fine) ← countFiles name files
    pure (("-", c) :: cs, fine)
  | file :: files => do
    match ← openPath file .read with
    | .error e =>
      complain name (file ++ ": " ++ e.text)
      let (cs, _) ← countFiles name files
      pure (if e = .isDirectory then (file, ⟨.zero, none⟩) :: cs else cs, false)
    | .ok fd =>
      let c ← countInput fd
      close fd
      let (cs, fine) ← countFiles name files
      pure ((file, c) :: cs, fine)

/-- The digits of the sizes of all files together, and more where there is another kind
of input. -/
def countWidth (cs : List Counted) : Nat :=
  let digits := (toString ((cs.filterMap (·.size)).foldl (· + ·) 0)).length
  if cs.any (·.size.isNone) then max 7 digits else digits

def wc (name : String) (args : List String) : Effect Nat := do
  let isOption (a : String) := a.length > 1 && a.startsWith "-" && a != "--"
  let options := (args.filter isOption).flatMap fun a => a.toList.drop 1
  let files := args.filter fun a => !isOption a && a != "--"
  match options.find? fun o => !(['l', 'w', 'c', 'm', 'L'].contains o) with
  | some o => misuse name ("invalid option -- '" ++ o.toString ++ "'")
  | none =>
    let shown := if options.isEmpty then ['l', 'w', 'c'] else options
    let shownCount := (Counts.zero.columns shown).length
    if files.isEmpty then
      let c ← countInput 0
      put 1 (countLine (if shownCount = 1 then 1 else countWidth [c]) shown c.counts none)
      pure 0
    else
      let (cs, fine) ← countFiles name files
      let width := if files.length = 1 && shownCount = 1 then 1 else countWidth (cs.map (·.2))
      put 1 (String.join (cs.map fun (f, c) => countLine width shown c.counts (some f)))
      if 1 < files.length then
        let total := cs.foldl (fun t c => t.add c.2.counts) .zero
        put 1 (countLine width shown total (some "total"))
      pure (statusOf fine)

end Debugline.Machine.Utility
