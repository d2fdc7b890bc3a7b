/-! Commands of the shell. What stands in `$(…)`, in `$((…))` and behind the operator of
`${…}` is kept as it is written, and read when it is used. -/

namespace Debugline.Machine.Shell

/-- A piece of a word. What is quoted is neither cut into fields nor a pattern. -/
inductive Piece
  | plain (s : String)
  | quoted (s : String)
  | parameter (name : String) (quoted : Bool)
  /-- A parameter with an operator and a word. -/
  | guarded (name operator word : String) (quoted : Bool)
  | size (name : String) (quoted : Bool)
  /-- What a script writes. -/
  | output (script : String) (quoted : Bool)
  | arithmetic (expr : String) (quoted : Bool)
  deriving DecidableEq, Repr

abbrev Word := List Piece

inductive RedirectKind
  | input
  | output
  | append
  /-- Another descriptor, or none. -/
  | copy
  /-- The target itself, as the text to read. -/
  | text
  deriving DecidableEq, Repr

structure Redirect where
  fd : Nat
  kind : RedirectKind
  target : Word
  deriving DecidableEq, Repr

inductive Command
  | simple (assignments : List (String × Word)) (words : List Word) (redirects : List Redirect)
  | negation (c : Command)
  | pipeline (cs : List Command)
  /-- The second if the first succeeds. -/
  | both (a b : Command)
  /-- The second if the first fails. -/
  | either (a b : Command)
  | sequence (cs : List Command)
  | background (c : Command)
  | subshell (c : Command)
  | redirected (c : Command) (redirects : List Redirect)
  | choice (branches : List (Command × Command)) (otherwise : Option Command)
  /-- Goes on as long as the condition succeeds, or fails. -/
  | loop (whileFails : Bool) (condition body : Command)
  /-- Without items, over the arguments of the shell. -/
  | each (name : String) (items : Option (List Word)) (body : Command)
  | select (word : Word) (arms : List (List Word × Command))
  | define (name : String) (body : Command)

end Debugline.Machine.Shell
