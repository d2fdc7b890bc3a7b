import Debugline.Machine.Shell.Command

/-! Reads scripts of the shell. A script is read command line by command line, and each
is done before the next is read. -/

namespace Debugline.Machine.Shell

/-- Why a script could not be read. -/
inductive Stop
  /-- It ends in the middle. -/
  | quote
  | ending
  | backquote
  | brace
  | unexpected (token : String)
  | badName
  /-- The lines of a text given in the script do not come to this one. -/
  | openText (last : String)
  /-- Something else stands where one word has to. -/
  | missing (word : String) (instead : Stop)
  deriving DecidableEq, Repr

def Stop.message : Stop → String
  | quote => "Syntax error: Unterminated quoted string"
  | ending => "Syntax error: end of file unexpected"
  | backquote => "Syntax error: EOF in backquote substitution"
  | brace => "Syntax error: Missing '\x7d'"
  | unexpected token => "Syntax error: " ++ token ++ " unexpected"
  | badName => "Syntax error: Bad for loop variable"
  | openText _ => "Syntax error: end of file unexpected"
  | missing word instead => instead.message ++ " (expecting \"" ++ word ++ "\")"

/-- Whether more input could make the script whole. -/
def Stop.wantsMore : Stop → Bool
  | quote | ending | backquote | brace | openText _ => true
  | missing _ instead => instead.wantsMore
  | _ => false

/-- Characters that end a word. -/
def endsWord (c : Char) : Bool := [' ', '\t', '\n', ';', '&', '|', '<', '>', '(', ')'].contains c

def beginsName (c : Char) : Bool := c.isAlpha || c == '_'

def inName (c : Char) : Bool := c.isAlphanum || c == '_'

def isName (s : List Char) : Bool :=
  match s with
  | [] => false
  | c :: r => beginsName c && r.all inName

/-- Drops spaces, tabs and line ends that are escaped, and then a comment. -/
def skipSpace : List Char → List Char
  | ' ' :: r | '\t' :: r | '\\' :: '\n' :: r => skipSpace r
  | '#' :: r => r.dropWhile (· != '\n')
  | s => s

/-- Drops space, comments and line ends. -/
def skipLines : (fuel : Nat) → List Char → List Char
  | 0, s => s
  | fuel + 1, s =>
    match skipSpace s with
    | '\n' :: r => skipLines fuel r
    | s => s

/-- The text up to the bracket that closes one already open, and what follows it.
Brackets within quotes do not count. -/
def enclosed (opening closing : Char) :
    List Char → (depth : Nat) → (quote : Option Char) → (acc : List Char) →
      Except Stop (List Char × List Char)
  | [], _, quote, _ =>
    .error (if quote.isSome then .quote
      else if closing = ')' then .missing ")" .ending else .brace)
  | '\\' :: c :: r, depth, quote, acc =>
    if quote = some '\'' then
      if c = '\'' then enclosed opening closing r depth none (c :: '\\' :: acc)
      else enclosed opening closing r depth quote (c :: '\\' :: acc)
    else enclosed opening closing r depth quote (c :: '\\' :: acc)
  | c :: r, depth, some q, acc =>
    enclosed opening closing r depth (if c = q then none else some q) (c :: acc)
  | c :: r, depth, none, acc =>
    if c = '\'' || c = '"' then enclosed opening closing r depth (some c) (c :: acc)
    else if c = closing then
      match depth with
      | 0 => .ok (acc.reverse, r)
      | depth + 1 => enclosed opening closing r depth none (c :: acc)
    else
      enclosed opening closing r (if c = opening then depth + 1 else depth) none (c :: acc)

/-- The text up to a backquote, its escapes resolved. -/
def backquoted : List Char → (acc : List Char) → Except Stop (List Char × List Char)
  | [], _ => .error .backquote
  | '\x60' :: r, acc => .ok (acc.reverse, r)
  | '\\' :: c :: r, acc =>
    if c = '\x60' || c = '\\' || c = '$' then backquoted r (c :: acc)
    else backquoted r (c :: '\\' :: acc)
  | c :: r, acc => backquoted r (c :: acc)

/-- What stands in `${…}`. -/
def braced (s : List Char) (quoted : Bool) : Piece :=
  match s with
  | '#' :: c :: r => .size (.ofList (c :: r)) quoted
  | _ =>
    let name := if s.head?.any beginsName then s.takeWhile inName
      else if s.head?.any Char.isDigit then s.takeWhile Char.isDigit else s.take 1
    match s.drop name.length with
    | [] => .parameter (.ofList name) quoted
    | ':' :: o :: word => .guarded (.ofList name) (.ofList [':', o]) (.ofList word) quoted
    | '%' :: '%' :: word => .guarded (.ofList name) "%%" (.ofList word) quoted
    | '#' :: '#' :: word => .guarded (.ofList name) "##" (.ofList word) quoted
    | o :: word => .guarded (.ofList name) (.ofList [o]) (.ofList word) quoted

/-- What stands behind a dollar sign. -/
def dollar (quoted : Bool) (s : List Char) : Except Stop (Piece × List Char) :=
  match s with
  | '(' :: '(' :: r => do
    let (inner, r) ← enclosed '(' ')' r 0 none []
    match r with
    | ')' :: r => .ok (.arithmetic (.ofList inner) quoted, r)
    | _ =>
      let (script, r) ← enclosed '(' ')' (s.drop 1) 0 none []
      .ok (.output (.ofList script) quoted, r)
  | '(' :: r => do
    let (script, r) ← enclosed '(' ')' r 0 none []
    .ok (.output (.ofList script) quoted, r)
  | '{' :: r => do
    let (inner, r) ← enclosed '{' '}' r 0 none []
    .ok (braced inner quoted, r)
  | c :: r =>
    if beginsName c then
      .ok (.parameter (.ofList (s.takeWhile inName)) quoted, s.dropWhile inName)
    else if c.isDigit || ['@', '*', '#', '?', '-', '$', '!'].contains c then
      .ok (.parameter c.toString quoted, r)
    else .ok (if quoted then .quoted "$" else .plain "$", s)
  | [] => .ok (if quoted then .quoted "$" else .plain "$", [])

/-- Adds a piece in front; neighbours of one kind become one. -/
def addPiece (p : Piece) (w : Word) : Word :=
  match p, w with
  | .plain a, .plain b :: w => .plain (b ++ a) :: w
  | .quoted a, .quoted b :: w => .quoted (b ++ a) :: w
  | p, w => p :: w

/-- Pieces between double quotes, newest first. -/
def doubleQuoted : (fuel : Nat) → List Char → Word → Except Stop (Word × List Char)
  | 0, _, _ => .error .quote
  | _, [], _ => .error .quote
  | _, '"' :: r, w => .ok (w, r)
  | fuel + 1, '\\' :: c :: r, w =>
    if c = '\n' then doubleQuoted fuel r w
    else if ['$', '\x60', '"', '\\'].contains c then
      doubleQuoted fuel r (addPiece (.quoted c.toString) w)
    else doubleQuoted fuel r (addPiece (.quoted (.ofList ['\\', c])) w)
  | fuel + 1, '$' :: r, w => do
    let (p, r) ← dollar true r
    doubleQuoted fuel r (addPiece p w)
  | fuel + 1, '\x60' :: r, w => do
    let (script, r) ← backquoted r []
    doubleQuoted fuel r (.output (.ofList script) true :: w)
  | fuel + 1, c :: r, w => doubleQuoted fuel r (addPiece (.quoted c.toString) w)

/-- The pieces of a word, newest first. -/
def wordPieces (stop : Char → Bool) :
    (fuel : Nat) → List Char → Word → Except Stop (Word × List Char)
  | 0, s, w => .ok (w, s)
  | _, [], w => .ok (w, [])
  | _, ['\\'], w => .ok (addPiece (.plain "\\") w, [])
  | fuel + 1, '\\' :: c :: r, w =>
    if c = '\n' then wordPieces stop fuel r w
    else wordPieces stop fuel r (addPiece (.quoted c.toString) w)
  | fuel + 1, '\'' :: r, w =>
    let inner := r.takeWhile (· != '\'')
    match r.drop inner.length with
    | [] => .error .quote
    | _ :: r => wordPieces stop fuel r (addPiece (.quoted (.ofList inner)) w)
  | fuel + 1, '"' :: r, w => do
    let (w, r) ← doubleQuoted (fuel + 1) r (addPiece (.quoted "") w)
    wordPieces stop fuel r w
  | fuel + 1, '$' :: r, w => do
    let (p, r) ← dollar false r
    wordPieces stop fuel r (addPiece p w)
  | fuel + 1, '\x60' :: r, w => do
    let (script, r) ← backquoted r []
    wordPieces stop fuel r (.output (.ofList script) false :: w)
  | fuel + 1, c :: r, w =>
    if stop c then .ok (w, c :: r) else wordPieces stop fuel r (addPiece (.plain c.toString) w)

/-- A word, up to a character that ends it. -/
def readWord (s : List Char) : Except Stop (Word × List Char) := do
  let (w, r) ← wordPieces endsWord (s.length + 1) s []
  .ok (w.reverse, r)

/-- A text as one word, whatever characters it holds. -/
def wholeWord (s : String) : Word :=
  match wordPieces (fun _ => false) (s.length + 1) s.toList [] with
  | .ok (w, _) => w.reverse
  | .error _ => [.quoted s]

/-- The reserved word that stands here, if one does. -/
def reserved? (s : List Char) : Option String :=
  let w := s.takeWhile fun c => !endsWord c
  let name := String.ofList w
  if ["if", "then", "elif", "else", "fi", "while", "until", "do", "done", "for", "in", "case",
      "esac", "\x7b", "\x7d", "!"].contains name then some name else none

/-- Whether a list of commands ends here. -/
def endsList (s : List Char) : Bool :=
  match s with
  | [] | ')' :: _ | ';' :: ';' :: _ => true
  | _ => (reserved? s).any
    ["then", "elif", "else", "fi", "do", "done", "in", "esac", "\x7d"].contains

/-- What stands here, as it is named in a complaint. -/
def tokenAt (s : List Char) : Stop :=
  match s with
  | [] => .ending
  | '\n' :: _ => .unexpected "newline"
  | ';' :: ';' :: _ => .unexpected "\";;\""
  | '&' :: '&' :: _ => .unexpected "\"&&\""
  | '|' :: '|' :: _ => .unexpected "\"||\""
  | c :: _ =>
    if endsWord c then .unexpected ("\"" ++ c.toString ++ "\"")
    else
      match reserved? s with
      | some w => .unexpected ("\"" ++ w ++ "\"")
      | none => .unexpected "word"

/-- Passes a reserved word that has to stand here. -/
def expect (word : String) (s : List Char) : Except Stop (List Char) :=
  let s := skipLines (s.length + 1) s
  if reserved? s = some word then .ok (s.drop word.length) else .error (.missing word (tokenAt s))

/-- The characters of a word as they are written, without quotes. -/
def Piece.bare : Piece → String
  | .plain s | .quoted s => s
  | .parameter name _ => "$" ++ name
  | _ => ""

def Piece.isQuoted : Piece → Bool
  | .quoted _ => true
  | _ => false

/-- Lines up to one that is `last`, and what follows it. With `indented`, tabs in front
of a line are dropped. -/
def linesUntil (indented : Bool) (last : List Char) :
    (fuel : Nat) → List Char → (acc : List (List Char)) → Option (List Char × List Char)
  | 0, _, _ => none
  | _, [], _ => none
  | fuel + 1, s, acc =>
    let whole := s.takeWhile (· != '\n')
    let line := if indented then whole.dropWhile (· == '\t') else whole
    let rest := s.drop whole.length
    if line = last then some ((acc.reverse.map (· ++ ['\n'])).flatten, rest.drop 1)
    else
      match rest with
      | [] => none
      | _ :: rest => linesUntil indented last fuel rest (line :: acc)

/-- The pieces of a text given in the script, newest first. It is taken as between
double quotes, but those stand for themselves. -/
def textPieces : (fuel : Nat) → List Char → Word → Except Stop Word
  | 0, _, w => .ok w
  | _, [], w => .ok w
  | fuel + 1, '\\' :: c :: r, w =>
    if c = '\n' then textPieces fuel r w
    else if ['$', '\x60', '\\'].contains c then textPieces fuel r (addPiece (.quoted c.toString) w)
    else textPieces fuel (c :: r) (addPiece (.quoted "\\") w)
  | fuel + 1, '$' :: r, w => do
    let (p, r) ← dollar true r
    textPieces fuel r (addPiece p w)
  | fuel + 1, '\x60' :: r, w => do
    let (script, r) ← backquoted r []
    textPieces fuel r (.output (.ofList script) true :: w)
  | fuel + 1, c :: r, w => textPieces fuel r (addPiece (.quoted c.toString) w)

/-- A text given in the script: its lines begin behind the line that it is named on, and
are taken out of the script. -/
def givenText (indented : Bool) (s : List Char) : Except Stop (Word × List Char) := do
  let (delimiter, r) ← readWord (skipSpace s)
  if delimiter.isEmpty then .error (tokenAt (skipSpace s))
  else
    let last := String.join (delimiter.map Piece.bare)
    let line := r.takeWhile (· != '\n')
    let below := r.drop (line.length + 1)
    match linesUntil indented last.toList (below.length + 1) below [] with
    | none => .error (.openText last)
    | some (text, rest) =>
      let w ←
        if delimiter.any Piece.isQuoted then pure [Piece.quoted (.ofList text)]
        else do
          let w ← textPieces (text.length + 1) text []
          pure w.reverse
      .ok (w, line ++ '\n' :: rest)

/-- A redirection, if one stands here. -/
def redirect? (s : List Char) : Except Stop (Option (Redirect × List Char)) :=
  let ds := s.takeWhile Char.isDigit
  let fd := ds.foldl (fun n c => n * 10 + (c.toNat - '0'.toNat)) 0
  let into (default : Nat) (kind : RedirectKind) (r : List Char) :
      Except Stop (Option (Redirect × List Char)) := do
    let (w, r') ← readWord (skipSpace r)
    if w.isEmpty then .error (tokenAt (skipSpace r))
    else .ok (some (⟨if ds.isEmpty then default else fd, kind, w⟩, r'))
  match s.drop ds.length with
  | '<' :: '<' :: r => do
    let (indented, r) := match r with
      | '-' :: r => (true, r)
      | r => (false, r)
    let (w, r) ← givenText indented r
    .ok (some (⟨if ds.isEmpty then 0 else fd, .text, w⟩, r))
  | '<' :: '&' :: r => into 0 .copy r
  | '<' :: '>' :: r => into 0 .input r
  | '<' :: r => into 0 .input r
  | '>' :: '>' :: r => into 1 .append r
  | '>' :: '&' :: r => into 1 .copy r
  | '>' :: '|' :: r => into 1 .output r
  | '>' :: r => into 1 .output r
  | _ => .ok none

/-- The redirections that stand here. -/
def redirects : (fuel : Nat) → List Char → Except Stop (List Redirect × List Char)
  | 0, s => .ok ([], s)
  | fuel + 1, s => do
    match ← redirect? (skipSpace s) with
    | none => .ok ([], s)
    | some (r, s) =>
      let (rs, s) ← redirects fuel s
      .ok (r :: rs, s)

/-- An assignment, if a word is one. -/
def assignment? : Word → Option (String × Word)
  | .plain s :: rest =>
    let name := s.toList.takeWhile (· != '=')
    match s.toList.drop name.length with
    | _ :: value =>
      if isName name then
        some (.ofList name, if value.isEmpty then rest else .plain (.ofList value) :: rest)
      else none
    | [] => none
  | _ => none

/-- The parts of a simple command. -/
structure Simple where
  assignments : List (String × Word)
  words : List Word
  redirects : List Redirect

/-- The parts of a simple command, each newest first. -/
def simpleParts : (fuel : Nat) → List Char → Simple → Except Stop (Simple × List Char)
  | 0, s, c => .ok (c, s)
  | fuel + 1, s, c => do
    let s := skipSpace s
    match ← redirect? s with
    | some (r, s) => simpleParts fuel s { c with redirects := r :: c.redirects }
    | none =>
      if s.isEmpty || s.head?.any endsWord then .ok (c, s)
      else
        let (w, s) ← readWord s
        match if c.words.isEmpty then assignment? w else none with
        | some a => simpleParts fuel s { c with assignments := a :: c.assignments }
        | none => simpleParts fuel s { c with words := w :: c.words }

/-- Words up to the end of a line or a semicolon. -/
def wordList : (fuel : Nat) → List Char → Except Stop (List Word × List Char)
  | 0, s => .ok ([], s)
  | fuel + 1, s => do
    let s := skipSpace s
    if s.isEmpty || s.head?.any endsWord then .ok ([], s)
    else
      let (w, s) ← readWord s
      let (ws, s) ← wordList fuel s
      .ok (w :: ws, s)

/-- The patterns of an arm, up to the bracket behind them. -/
def patterns : (fuel : Nat) → List Char → Except Stop (List Word × List Char)
  | 0, s => .error (tokenAt s)
  | fuel + 1, s => do
    let (w, s) ← readWord (skipSpace s)
    match skipSpace s with
    | '|' :: s =>
      let (ws, s) ← patterns fuel s
      .ok (w :: ws, s)
    | ')' :: s => .ok ([w], s)
    | s => .error (tokenAt s)

mutual

/-- Commands up to the end of a list; without `multi`, up to the end of a line. -/
def readList (multi : Bool) : (fuel : Nat) → List Char → Except Stop (List Command × List Char)
  | 0, s => .error (tokenAt s)
  | fuel + 1, s => do
    let s := if multi then skipLines (s.length + 1) s else skipSpace s
    if endsList s then .ok ([], s)
    else
      match s with
      | '\n' :: r => .ok ([], r)
      | _ =>
        let (c, s) ← readAndOr fuel s
        match skipSpace s with
        | ';' :: ';' :: _ => .ok ([c], skipSpace s)
        | ';' :: r =>
          let (cs, r) ← readList multi fuel r
          .ok (c :: cs, r)
        | '&' :: r =>
          let (cs, r) ← readList multi fuel r
          .ok (.background c :: cs, r)
        | '\n' :: r =>
          if multi then
            let (cs, r) ← readList multi fuel r
            .ok (c :: cs, r)
          else .ok ([c], r)
        | s => if endsList s then .ok ([c], s) else .error (tokenAt s)

/-- Commands up to the end of a list; there must be one before the script goes on. -/
def readBody : (fuel : Nat) → List Char → Except Stop (List Command × List Char)
  | 0, s => .error (tokenAt s)
  | fuel + 1, s => do
    let (cs, r) ← readList true fuel s
    let next := skipLines (r.length + 1) r
    if cs.isEmpty && !next.isEmpty then .error (tokenAt next) else .ok (cs, r)

def readAndOr : (fuel : Nat) → List Char → Except Stop (Command × List Char)
  | 0, s => .error (tokenAt s)
  | fuel + 1, s => do
    let (c, s) ← readPipeline fuel s
    readMore fuel c s

/-- What follows a command by `&&` and `||`, grouped from the left. -/
def readMore : (fuel : Nat) → Command → List Char → Except Stop (Command × List Char)
  | 0, c, s => .ok (c, s)
  | fuel + 1, c, s => do
    match skipSpace s with
    | '&' :: '&' :: r =>
      let (d, r) ← readPipeline fuel (skipLines (r.length + 1) r)
      readMore fuel (.both c d) r
    | '|' :: '|' :: r =>
      let (d, r) ← readPipeline fuel (skipLines (r.length + 1) r)
      readMore fuel (.either c d) r
    | s => .ok (c, s)

def readPipeline : (fuel : Nat) → List Char → Except Stop (Command × List Char)
  | 0, s => .error (tokenAt s)
  | fuel + 1, s => do
    let s := skipSpace s
    if reserved? s = some "!" then
      let (c, s) ← readPipeline fuel (s.drop 1)
      .ok (.negation c, s)
    else
      let (cs, s) ← readStages fuel s
      match cs with
      | [c] => .ok (c, s)
      | cs => .ok (.pipeline cs, s)

def readStages : (fuel : Nat) → List Char → Except Stop (List Command × List Char)
  | 0, s => .error (tokenAt s)
  | fuel + 1, s => do
    let (c, s) ← readCommand fuel s
    match skipSpace s with
    | '|' :: '|' :: _ => .ok ([c], skipSpace s)
    | '|' :: r =>
      let (cs, r) ← readStages fuel (skipLines (r.length + 1) r)
      .ok (c :: cs, r)
    | s => .ok ([c], s)

def readCommand : (fuel : Nat) → List Char → Except Stop (Command × List Char)
  | 0, s => .error (tokenAt s)
  | fuel + 1, s => do
    let s := skipSpace s
    let wrap (c : Command) (s : List Char) : Except Stop (Command × List Char) := do
      let (rs, s) ← redirects (s.length + 1) s
      .ok (if rs.isEmpty then c else .redirected c rs, s)
    match s, reserved? s with
    | '(' :: r, _ =>
      let (cs, r) ← readBody fuel r
      match r with
      | ')' :: r => wrap (.subshell (.sequence cs)) r
      | r => .error (.missing ")" (tokenAt r))
    | _, some "\x7b" =>
      let (cs, r) ← readBody fuel (s.drop 1)
      wrap (.sequence cs) (← expect "\x7d" r)
    | _, some "if" =>
      let (c, r) ← readBranches fuel (s.drop 2) []
      wrap c r
    | _, some "while" =>
      let (c, r) ← readLoop false fuel (s.drop 5)
      wrap c r
    | _, some "until" =>
      let (c, r) ← readLoop true fuel (s.drop 5)
      wrap c r
    | _, some "for" =>
      let s := skipSpace (s.drop 3)
      let name := s.takeWhile fun c => !endsWord c
      if !isName name then .error .badName
      else
        let s := skipLines (s.length + 1) (s.drop name.length)
        let (items, s) ←
          if reserved? s = some "in" then do
            let (ws, s) ← wordList (s.length + 1) (s.drop 2)
            pure (some ws, s)
          else pure (none, s)
        let s := match skipSpace s with
          | ';' :: r => r
          | s => s
        let (cs, s) ← readBody fuel (← expect "do" s)
        wrap (.each (.ofList name) items (.sequence cs)) (← expect "done" s)
    | _, some "case" =>
      let (w, s) ← readWord (skipSpace (s.drop 4))
      let (arms, s) ← readArms fuel (← expect "in" s)
      wrap (.select w arms) s
    | _, some "!" => readPipeline fuel s
    | _, some _ => .error (tokenAt s)
    | _, none =>
      let (c, r) ← simpleParts (s.length + 1) s ⟨[], [], []⟩
      match c.words, skipSpace r with
      | [[.plain name]], '(' :: r =>
        match skipSpace r with
        | ')' :: r =>
          let (body, r) ← readCommand fuel (skipLines (r.length + 1) r)
          .ok (.define name body, r)
        | r => .error (tokenAt r)
      | _, _ =>
        if c.words.isEmpty && c.assignments.isEmpty && c.redirects.isEmpty then .error (tokenAt r)
        else .ok (.simple c.assignments.reverse c.words.reverse c.redirects.reverse, r)

/-- The branches of a choice behind `if` or `elif`. -/
def readBranches :
    (fuel : Nat) → List Char → List (Command × Command) → Except Stop (Command × List Char)
  | 0, s, _ => .error (tokenAt s)
  | fuel + 1, s, done => do
    let (test, s) ← readBody fuel s
    let (body, s) ← readBody fuel (← expect "then" s)
    let done := (Command.sequence test, Command.sequence body) :: done
    match reserved? s with
    | some "elif" => readBranches fuel (s.drop 4) done
    | some "else" =>
      let (body, s) ← readBody fuel (s.drop 4)
      .ok (.choice done.reverse (some (.sequence body)), ← expect "fi" s)
    | _ => .ok (.choice done.reverse none, ← expect "fi" s)

def readLoop (whileFails : Bool) : (fuel : Nat) → List Char → Except Stop (Command × List Char)
  | 0, s => .error (tokenAt s)
  | fuel + 1, s => do
    let (test, s) ← readBody fuel s
    let (body, s) ← readBody fuel (← expect "do" s)
    .ok (.loop whileFails (.sequence test) (.sequence body), ← expect "done" s)

def readArms : (fuel : Nat) → List Char → Except Stop (List (List Word × Command) × List Char)
  | 0, s => .error (tokenAt s)
  | fuel + 1, s => do
    let s := skipLines (s.length + 1) s
    if reserved? s = some "esac" then .ok ([], s.drop 4)
    else
      let s := match s with
        | '(' :: r => r
        | s => s
      let (ws, s) ← patterns (s.length + 1) s
      let (cs, s) ← readList true fuel s
      match s with
      | ';' :: ';' :: s =>
        let (arms, s) ← readArms fuel s
        .ok ((ws, .sequence cs) :: arms, s)
      | s => .ok ([(ws, .sequence cs)], ← expect "esac" s)

end

/-- The next command line of a script; `none` at its end. What follows it begins a line. -/
def readLine (s : List Char) : Except Stop (Option Command × List Char) := do
  let s := skipLines (s.length + 1) s
  if s.isEmpty then .ok (none, [])
  else
    let (cs, r) ← readList false (10 * s.length + 10) s
    if !r.isEmpty && s[s.length - r.length - 1]? != some '\n' then .error (tokenAt r)
    else
      match cs with
      | [] => .error (tokenAt r)
      | [c] => .ok (some c, r)
      | cs => .ok (some (.sequence cs), r)

end Debugline.Machine.Shell
