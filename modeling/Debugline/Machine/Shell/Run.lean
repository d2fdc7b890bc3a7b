import Debugline.Machine.Shell.Arithmetic
import Debugline.Machine.Shell.Builtin

/-! Runs commands of the shell. `fuel` bounds how deep commands and rounds of loops may
stand in each other, and `last` says that nothing is left to do after a command, so a
program may take the place of the shell. -/

namespace Debugline.Machine.Shell

open Sh

/-- A script without the line ends behind it, and without zeros. -/
def outputText (bytes : List UInt8) : String :=
  let kept := bytes.filter (· != 0)
  octets (kept.reverse.dropWhile (· == 0x0a)).reverse

/-- Reads a descriptor to its end. -/
def readAll (fd : Nat) : Sh (List UInt8) := do
  let parts ← ask (Effect.drain fd 65536 [] fun parts bytes => pure (bytes :: parts))
  pure parts.reverse.flatten

/-- What a loop does after its body. -/
inductive Round
  | more
  | ended (flow : Flow)

def Round.ofFlow : Flow → Round
  | .next | .again 0 | .again 1 => .more
  | .again (n + 1) => .ended (.again n)
  | .leave (n + 2) => .ended (.leave (n + 1))
  | .leave _ => .ended .next
  | flow => .ended flow

/-- The bits of a parameter's value. -/
def valueBits (value : String) (quoted : Bool) : List Bit :=
  if quoted then [.text value true] else [.split value]

/-- The arguments of the shell as a list of fields. -/
def argumentBits (args : List String) (quoted : Bool) : List Bit :=
  let one (a : String) : Bit := if quoted then .text a true else .split a
  ([Bit.cut].intercalate (args.map fun a => [one a]))

def parameterBits (name : String) (quoted : Bool) : Sh (List Bit) := do
  if name = "@" || (name = "*" && !quoted) then pure (argumentBits (← get).args quoted)
  else
    let value ← parameter? name
    if (← get).named && value.isNone && name != "*" then giveUp (name ++ ": parameter not set")
    pure (valueBits (value.getD "") quoted)

/-- A number a variable holds, as arithmetic sees it. -/
def variableNumbers (s : State) (name : String) : Int :=
  (Utility.readNumber ((s.values.lookup name).getD "")).1

/-- A command that may fail without ending the shell. -/
def testing {α : Type} (act : Sh α) : Sh α := do
  let before := (← get).tested
  modify fun s => { s with tested := true }
  let a ← act
  modify fun s => { s with tested := before }
  pure a

/-- What happens within one more loop. -/
def inLoop {α : Type} (act : Sh α) : Sh α := do
  modify fun s => { s with loops := s.loops + 1 }
  let a ← act
  modify fun s => { s with loops := s.loops - 1 }
  pure a

/-- Ends a strict shell after a command that failed. -/
def checkStrict (flow : Flow) : Sh Flow := do
  let s ← get
  pure (if flow = .next && s.strict && !s.tested && s.status != 0 then .exit else flow)

/-- The paths below a directory that the parts of a pattern fit. -/
def fittingPaths : (dirs : List String) → List (List Marked) → Sh (List String)
  | dirs, [] => pure dirs
  | dirs, part :: parts => do
    let found ← dirs.mapM fun dir => do
      if isPattern part then
        let names ← ask fun next => Program.list (if dir.isEmpty then "." else dir) next
        pure ((fittingNames part names).map (dir ++ ·))
      else pure [dir ++ unmarked part]
    fittingPaths (if parts.isEmpty then found.flatten else found.flatten.map (· ++ "/")) parts

/-- The paths that a field names, or the field itself if it names none. -/
def pathsOf (field : List Marked) : Sh (List String) := do
  if isPattern field then
    let parts := (field.splitOnP fun c => c.1 == '/')
    let found ← fittingPaths [""] parts
    let there ← found.filterM fun p => do pure (← pathKind p).isSome
    pure (if there.isEmpty then [unmarked field] else there)
  else pure [unmarked field]

mutual

def expandPiece : (fuel : Nat) → Piece → Sh (List Bit)
  | 0, _ => pure []
  | fuel + 1, p => do
    match p with
    | .plain s => pure [.text s false]
    | .quoted s => pure [.text s true]
    | .parameter name quoted => parameterBits name quoted
    | .size name quoted =>
      let value ← parameter? name
      if (← get).named && value.isNone then giveUp (name ++ ": parameter not set")
      pure (valueBits (toString (value.getD "").length) quoted)
    | .output script quoted => pure (valueBits (← capture fuel script) quoted)
    | .arithmetic expr quoted =>
      let text := textOf (← expandWord fuel (wholeWord expr))
      match evaluate (variableNumbers (← get)) text with
      | some (n, assigned) => do
        assigned.reverse.forM fun (name, n) => setVariable name (toString n)
        pure (valueBits (toString n) quoted)
      | none => do
        giveUp ("arithmetic expression: expecting primary: \"" ++ text ++ "\"")
        pure []
    | .guarded name op word quoted =>
      let value ← parameter? name
      let absent := value.isNone || (op.startsWith ":" && value == some "")
      let bitsOf (value : Option String) := valueBits (value.getD "") quoted
      match op with
      | "-" | ":-" =>
        if absent then expandWord fuel (wholeWord word) else pure (bitsOf value)
      | "+" | ":+" => if absent then pure [] else expandWord fuel (wholeWord word)
      | "=" | ":=" =>
        if absent then do
          let text := textOf (← expandWord fuel (wholeWord word))
          setVariable name text
          pure (valueBits text quoted)
        else pure (bitsOf value)
      | "?" | ":?" =>
        if absent then do
          let text := textOf (← expandWord fuel (wholeWord word))
          giveUp (name ++ ": " ++ (if !text.isEmpty then text
            else if op = "?" then "parameter not set" else "parameter not set or null"))
          pure []
        else pure (bitsOf value)
      | _ =>
        let pattern := patternOf (markedOf (← expandWord fuel (wholeWord word)))
        let s := (value.getD "").toList
        let cut :=
          match op with
          | "#" => withoutStart false pattern s
          | "##" => withoutStart true pattern s
          | "%" => withoutEnd false pattern s
          | "%%" => withoutEnd true pattern s
          | _ => s
        pure (valueBits (.ofList cut) quoted)

def expandWord : (fuel : Nat) → Word → Sh (List Bit)
  | 0, _ => pure []
  | _, [] => pure []
  | fuel + 1, p :: ps => do
    let bits ← expandPiece fuel p
    pure (bits ++ (← expandWord fuel ps))

def expandFields : (fuel : Nat) → List Word → Sh (List String)
  | 0, _ => pure []
  | _, [] => pure []
  | fuel + 1, w :: ws => do
    let nothing := w == [.quoted "", .parameter "@" true] && (← get).args.isEmpty
    let bits ← if nothing then pure [] else expandWord fuel w
    let ifs := (← valueOf? "IFS").getD " \t\n"
    let fields ← (fieldsOf ifs bits).mapM pathsOf
    pure (fields.flatten ++ (← expandFields fuel ws))

/-- What a script writes, run in a child. -/
def capture : (fuel : Nat) → String → Sh String
  | 0, _ => pure ""
  | fuel + 1, script => do
    let (r, w) ← pipe
    let s ← get
    let child ← fork (childProgram fuel s (do
      close r
      moveDescriptor w 1
      runText fuel true script.toList))
    close w
    let bytes ← readAll r
    close r
    setStatus (← await child)
    pure (outputText bytes)

/-- The program of a child that does what a shell would. -/
def childProgram : (fuel : Nat) → State → Sh Flow → Program
  | 0, _, _ => .exit 2
  | fuel + 1, s, act =>
    let whole : Sh Nat := do
      forgetTraps
      let _ ← act
      endShell fuel
    whole s fun (status, _) => .exit status

/-- Runs the script for the end of the shell, and gives its status. -/
def endShell : (fuel : Nat) → Sh Nat
  | 0 => do pure (← get).status
  | fuel + 1 => do
    let s ← get
    match s.traps.lookup 0 with
    | none => pure s.status
    | some script => do
      set { s with traps := s.traps.filter (·.1 != 0) }
      match ← runText fuel false script.toList with
      | .exit => pure (← get).status
      | _ => pure s.status

/-- Runs the scripts of the signals that were caught. -/
def runTraps : (fuel : Nat) → Sh Flow
  | 0 => pure .next
  | fuel + 1 => do
    let signals ← ask fun next => Program.caught next
    runSignals fuel signals

def runSignals : (fuel : Nat) → List Nat → Sh Flow
  | 0, _ => pure .next
  | _, [] => pure .next
  | fuel + 1, signal :: signals => do
    let s ← get
    match s.traps.lookup signal with
    | none => runSignals fuel signals
    | some script =>
      match ← runText fuel false script.toList with
      | .exit => pure .exit
      | _ => do
        setStatus s.status
        runSignals fuel signals

/-- Runs a script that is all there; a line that cannot be read ends the shell. -/
def runText : (fuel : Nat) → (last : Bool) → List Char → Sh Flow
  | 0, _, _ => pure .exit
  | fuel + 1, last, text => do
    let start := skipLines (text.length + 1) text
    let newlines (s : List Char) := s.count '\n'
    modify fun s => { s with line := s.line + (newlines text - newlines start) }
    match readLine start with
    | .error (.openText delimiter) =>
      runText fuel last (start ++ '\n' :: delimiter.toList ++ ['\n'])
    | .error stop => do
      warn stop.message
      setStatus 2
      pure .exit
    | .ok (none, _) => pure .next
    | .ok (some c, rest) => do
      let line := (← get).line
      match ← eval fuel (last && rest.isEmpty) c with
      | .next => do
        modify fun s => { s with line := line + (newlines start - newlines rest) }
        runText fuel last rest
      | flow => pure flow

/-- Runs a script as it arrives at a descriptor. -/
def runStream : (fuel : Nat) → (fd : Nat) → (held : List Char) → (ended : Bool) → Sh Flow
  | 0, _, _, _ => pure .exit
  | fuel + 1, fd, held, ended => do
    let refill : Sh Flow := do
      let bytes ← ask (Effect.take fd 8192)
      runStream fuel fd (held ++ (octets bytes).toList) bytes.isEmpty
    let newlines (s : List Char) := s.count '\n'
    match readLine held with
    | .error stop =>
      if stop.wantsMore && !ended then refill
      else if let .openText delimiter := stop then
        runStream fuel fd (held ++ '\n' :: delimiter.toList ++ ['\n']) ended
      else do
        warn stop.message
        setStatus 2
        pure .exit
    | .ok (none, _) => if ended then pure .next else refill
    | .ok (some c, rest) =>
      if rest.isEmpty && held.getLast? != some '\n' && !ended then refill
      else do
        let line := (← get).line
        match ← eval fuel false c with
        | .next => do
          modify fun s => { s with line := line + (newlines held - newlines rest) }
          runStream fuel fd rest ended
        | flow => pure flow

/-- Does the redirections of a command one after the other. -/
def redirectAll : (fuel : Nat) → List Redirect → Sh Bool
  | 0, _ => pure false
  | _, [] => pure true
  | fuel + 1, r :: rs => do
    let target := textOf (← expandWord fuel r.target)
    if (← get).broken then pure false
    else if ← redirect r.fd r.kind target then redirectAll fuel rs else pure false

/-- Does something with redirections that end with it. -/
def redirected : (fuel : Nat) → List Redirect → Sh Flow → Sh Flow
  | 0, _, _ => pure .exit
  | fuel + 1, rs, act => do
    if rs.isEmpty then act
    else
      let aside ← rs.mapM fun r => putAside r.fd
      let flow ← if ← redirectAll fuel rs then act else done 2
      putBack aside.reverse
      unlessBroken (pure flow)

def assign : (fuel : Nat) → List (String × Word) → Sh Unit
  | 0, _ => pure ()
  | _, [] => pure ()
  | fuel + 1, (name, w) :: rest => do
    setVariable name (textOf (← expandWord fuel w))
    assign fuel rest

/-- Runs a program with redirections, in a child or in the place of the shell. -/
def runProgram : (fuel : Nat) → (last : Bool) → List Redirect → String → List String → Sh Flow
  | 0, _, _, _, _ => pure .exit
  | fuel + 1, last, rs, name, args => do
    let s ← get
    if last && !hasTraps s then
      if ← redirectAll fuel rs then setStatus (← become "" name args) else setStatus 2
      pure .exit
    else
      let child ← fork (childProgram fuel s (do
        if ← redirectAll fuel rs then setStatus (← become "" name args) else setStatus 2
        pure .exit))
      done (← await child)

/-- Calls a function with arguments of its own. -/
def callFunction : (fuel : Nat) → Command → List String → Sh Flow
  | 0, _, _ => pure .exit
  | fuel + 1, body, args => do
    let before := (← get).args
    modify fun s => { s with args }
    let flow ← eval fuel false body
    modify fun s => { s with args := before }
    pure (if flow = .back then .next else flow)

/-- Runs the named command with its arguments. -/
def runNamed : (fuel : Nat) → (last : Bool) → List Redirect → String → List String → Sh Flow
  | 0, _, _, _, _ => pure .exit
  | fuel + 1, last, rs, name, args => do
    let count (default : Nat) := ((args.head?.bind Utility.count?)).getD default
    match (← get).functions.lookup name with
    | some body => redirected fuel rs (callFunction fuel body args)
    | none =>
      match name with
      | "exec" =>
        if ← redirectAll fuel rs then
          match args with
          | [] => done 0
          | program :: args => do
            setStatus (← become "exec: " program args)
            pure .exit
        else do
          setStatus 2
          pure .exit
      | "exit" | "return" => do
        match args.find? fun a => (Utility.count? a).isNone with
        | some bad => do
          giveUp (name ++ ": Illegal number: " ++ bad)
          pure .exit
        | none => do
          setStatus (count (← get).status % 256)
          pure (if name = "exit" then .exit else .back)
      | "break" => if (← get).loops = 0 then done 0 else pure (.leave (count 1))
      | "continue" => if (← get).loops = 0 then done 0 else pure (.again (count 1))
      | "shift" =>
        if ← shift (count 1) then done 0
        else do
          setStatus 2
          pure .exit
      | "type" => redirected fuel rs (do
          let statuses ← args.mapM (describeName true)
          done (statuses.foldl max 0))
      | "eval" => redirected fuel rs (runText fuel false (" ".intercalate args).toList)
      | "command" =>
        match args with
        | [] => done 0
        | "-v" :: names => redirected fuel rs (do
            let statuses ← names.mapM (describeName false)
            done (statuses.foldl max 0))
        | name :: args =>
          match builtin? name with
          | some act => redirected fuel rs (do done (← act args))
          | none => runProgram fuel last rs name args
      | "." => redirected fuel rs (do
          match ← openPath (args.headD "") .read with
          | .error _ => do
            warn (".: cannot open " ++ args.headD "" ++ ": No such file")
            setStatus 2
            pure .exit
          | .ok fd => do
            let bytes ← readAll fd
            close fd
            let flow ← runText fuel false (octets bytes).toList
            pure (if flow = .back then .next else flow))
      | _ =>
        match builtin? name with
        | some act => redirected fuel rs (do done (← act args))
        | none => runProgram fuel last rs name args

def evalSimple : (fuel : Nat) → (last : Bool) → List (String × Word) → List Word → List Redirect →
    Sh Flow
  | 0, _, _, _, _ => pure .exit
  | fuel + 1, last, assignments, words, rs => do
    match ← expandFields fuel words with
    | [] => do
      if words.isEmpty then setStatus 0
      redirected fuel rs (do
        assign fuel assignments
        unlessBroken (pure .next))
    | name :: args => unlessBroken (do
      let before ← get
      assign fuel assignments
      assignments.forM fun a => exportVariable a.1
      let flow ← runNamed fuel last rs name args
      assignments.forM fun (a, _) => do
        match before.values.lookup a with
        | some value => setVariable a value
        | none => unsetVariable a
      if !assignments.isEmpty then modify fun s => { s with exported := before.exported }
      pure flow)

/-- The children of a pipeline, oldest first; `input` is the pipe behind the last. -/
def stages : (fuel : Nat) → (input : Option Nat) → List Command → Sh (List Nat)
  | 0, _, _ => pure []
  | _, _, [] => pure []
  | fuel + 1, input, c :: cs => do
    let s ← get
    let fromInput : Sh Unit := input.forM fun r => moveDescriptor r 0
    if cs.isEmpty then
      let child ← fork (childProgram fuel s (do
        fromInput
        eval fuel true c))
      input.forM close
      pure [child]
    else
      let (r, w) ← pipe
      let child ← fork (childProgram fuel s (do
        close r
        fromInput
        moveDescriptor w 1
        eval fuel true c))
      input.forM close
      close w
      pure (child :: (← stages fuel (some r) cs))

def evalLoop : (fuel : Nat) → (whileFails : Bool) → Command → Command → Sh Flow
  | 0, _, _, _ => pure .exit
  | fuel + 1, whileFails, condition, body => do
    let before := (← get).status
    match ← testing (eval fuel false condition) with
    | .next =>
      if ((← get).status != 0) = whileFails then
        match Round.ofFlow (← eval fuel false body) with
        | .more =>
          match ← runTraps fuel with
          | .next => evalLoop fuel whileFails condition body
          | flow => pure flow
        | .ended flow => pure flow
      else done (if (← get).status = before then before else 0)
    | flow =>
      match Round.ofFlow flow with
      | .more => evalLoop fuel whileFails condition body
      | .ended flow => pure flow

def evalEach : (fuel : Nat) → String → List String → Command → Sh Flow
  | 0, _, _, _ => pure .exit
  | _, _, [], _ => pure .next
  | fuel + 1, name, item :: items, body => do
    setVariable name item
    match Round.ofFlow (← eval fuel false body) with
    | .more => evalEach fuel name items body
    | .ended flow => pure flow

def evalBranches :
    (fuel : Nat) → (last : Bool) → List (Command × Command) → Option Command → Sh Flow
  | 0, _, _, _ => pure .exit
  | _, _, [], none => done 0
  | fuel + 1, last, [], some c => eval fuel last c
  | fuel + 1, last, (condition, body) :: rest, otherwise => do
    match ← testing (eval fuel false condition) with
    | .next =>
      if (← get).status = 0 then eval fuel last body else evalBranches fuel last rest otherwise
    | flow => pure flow

def evalArms : (fuel : Nat) → (last : Bool) → String → List (List Word × Command) → Sh Flow
  | 0, _, _, _ => pure .exit
  | _, _, _, [] => done 0
  | fuel + 1, last, subject, (ws, body) :: rest => do
    if ← anyFits fuel subject ws then do
      setStatus 0
      eval fuel last body
    else evalArms fuel last subject rest

def anyFits : (fuel : Nat) → String → List Word → Sh Bool
  | 0, _, _ => pure false
  | _, _, [] => pure false
  | fuel + 1, subject, w :: ws => do
    if fits (patternOf (markedOf (← expandWord fuel w))) subject.toList then pure true
    else anyFits fuel subject ws

def evalSequence : (fuel : Nat) → (last : Bool) → List Command → Sh Flow
  | 0, _, _ => pure .exit
  | _, _, [] => pure .next
  | fuel + 1, last, c :: cs => do
    match ← eval fuel (last && cs.isEmpty) c with
    | .next => evalSequence fuel last cs
    | flow => pure flow

def eval : (fuel : Nat) → (last : Bool) → Command → Sh Flow
  | 0, _, _ => pure .exit
  | fuel + 1, last, c => do
    match ← runTraps fuel with
    | .next => evalCommand fuel last c
    | flow => pure flow

def evalCommand : (fuel : Nat) → (last : Bool) → Command → Sh Flow
  | 0, _, _ => pure .exit
  | fuel + 1, last, c => do
    match c with
    | .simple assignments words rs => do
      match ← checkStrict (← evalSimple fuel last assignments words rs) with
      | .next => runTraps fuel
      | flow => pure flow
    | .negation c =>
      match ← testing (eval fuel false c) with
      | .next => done (if (← get).status = 0 then 1 else 0)
      | flow => pure flow
    | .pipeline cs => do
      let children ← stages fuel none cs
      let statuses ← children.mapM await
      setStatus (statuses.getLast?.getD 0)
      match ← checkStrict .next with
      | .next => runTraps fuel
      | flow => pure flow
    | .both a b =>
      match ← testing (eval fuel false a) with
      | .next => if (← get).status = 0 then eval fuel last b else pure .next
      | flow => pure flow
    | .either a b =>
      match ← testing (eval fuel false a) with
      | .next => if (← get).status = 0 then pure .next else eval fuel last b
      | flow => pure flow
    | .sequence cs => evalSequence fuel last cs
    | .background c => do
      let s ← get
      let child ← fork (childProgram fuel s (do
        let _ ← openTo 0 "/dev/null" .read
        eval fuel true c))
      modify fun s => { s with jobs := child :: s.jobs }
      done 0
    | .subshell c => do
      let s ← get
      if last && !hasTraps s then eval fuel true c
      else
        let child ← fork (childProgram fuel s (eval fuel true c))
        setStatus (← await child)
        match ← checkStrict .next with
        | .next => runTraps fuel
        | flow => pure flow
    | .redirected c rs => redirected fuel rs (eval fuel false c)
    | .choice branches otherwise => evalBranches fuel last branches otherwise
    | .loop whileFails condition body => inLoop (evalLoop fuel whileFails condition body)
    | .each name items body => do
      let fields ← match items with
        | some ws => expandFields fuel ws
        | none => do pure (← get).args
      unlessBroken (do
        setStatus 0
        inLoop (evalEach fuel name fields body))
    | .select w arms => do
      let subject := textOf (← expandWord fuel w)
      unlessBroken (evalArms fuel last subject arms)
    | .define name body => do
      modify fun s => { s with functions := (name, body) :: s.functions.filter (·.1 != name) }
      done 0

end

/-- Deep enough for every run of a machine. -/
def depth : Nat := Nat.pow 10 15

/-- How a shell was called. -/
structure Call where
  strict : Bool
  named : Bool
  /-- An option that is not known. -/
  unknown : Option Char
  fromInput : Bool
  command : Bool
  rest : List String

/-- Reads the options in front. -/
def readCall : List String → Call → Call
  | [], c => c
  | "--" :: rest, c => { c with rest }
  | a :: rest, c =>
    match a.toList with
    | '-' :: o :: os =>
      let has (x : Char) := (o :: os).contains x
      readCall rest
        { strict := c.strict || has 'e'
          named := c.named || has 'u'
          unknown := c.unknown <|> (o :: os).find? fun o => !"aefimnsuvxVEbc".contains o
          fromInput := c.fromInput || has 's'
          command := c.command || has 'c'
          rest := [] }
    | _ => { c with rest := a :: rest }

/-- The shell: runs a command, a file, or its input. -/
def run (name : String) (args : List String) (environment : List (String × String)) :
    Effect Nat := do
  let pid ← fun next => Program.self next
  let call := readCall args ⟨false, false, none, false, false, []⟩
  let start (name : String) (args : List String) (act : Sh Flow) : Effect Nat := do
    let s := { State.new name args environment pid with strict := call.strict, named := call.named }
    let (status, _) ← (do
      let _ ← act
      endShell depth : Sh Nat) s
    pure status
  match call.unknown, call.command, call.fromInput, call.rest with
  | some o, _, _, _ => do
    Effect.put 2 (name ++ ": 0: Illegal option -" ++ o.toString ++ "\n")
    pure 2
  | none, true, _, [] => do
    Effect.put 2 (name ++ ": 0: -c requires an argument\n")
    pure 2
  | none, true, fromInput, script :: rest =>
    start (rest.headD name) (rest.drop 1) (do
      match ← runText depth (!fromInput) script.toList with
      | .next => if fromInput then runStream depth 0 [] false else pure .next
      | flow => pure flow)
  | none, false, true, args => start name args (runStream depth 0 [] false)
  | none, false, false, [] => start name [] (runStream depth 0 [] false)
  | none, false, false, file :: args => do
    match ← Effect.openPath file .read with
    | .error .isDirectory => pure 0
    | .error e => do
      Effect.put 2 (name ++ ": 0: cannot open " ++ file ++ ": " ++ Sh.openTrouble .read e ++ "\n")
      pure 2
    | .ok fd =>
      start file args (do
        let bytes ← readAll fd
        close fd
        runText depth false (octets bytes).toList)

end Debugline.Machine.Shell
