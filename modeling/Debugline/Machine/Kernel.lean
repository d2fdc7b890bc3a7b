import Debugline.Machine.Program
import Debugline.Machine.Tree

/-! The kernel runs processes side by side. It goes by calls: each process that can
does one call, round after round, until all of them wait for something. Time stands
still meanwhile and goes by only when it is told to. Three pipes lead to the world
outside: into the input of the first process, and out of its output and its errors. -/

namespace Debugline.Machine

/-- What a descriptor stands for. -/
inductive Channel
  /-- The end of a pipe where it is read. -/
  | source (pipe : Nat)
  /-- The end of a pipe where it is written. -/
  | sink (pipe : Nat)
  | file (name : String) (offset : Nat) (mode : OpenMode)
  | zeros
  | void
  deriving DecidableEq, Repr

structure Process where
  pid : Nat
  parent : Nat
  program : Program
  /-- Descriptors, and the places of their channels among all opened ones. -/
  descriptors : List (Nat × Nat)
  cwd : Place
  dispositions : List (Nat × Disposition)
  caught : List Nat
  /-- When a sleep ends. -/
  wake : Option Nat
  ended : Option Ending

structure Kernel where
  /-- What programs do, by name and arguments; the first argument is how they were
  called. -/
  library : String → List String → List (String × String) → Program
  disk : Disk
  /-- Microseconds. -/
  clock : Nat
  pipes : Array (List UInt8)
  channels : Array Channel
  processes : List Process
  nextPid : Nat
  /-- The pipes whose reading end is held outside. -/
  readOutside : List Nat
  /-- The pipes whose writing end is held outside. -/
  writtenOutside : List Nat

/-- The bytes a pipe holds. -/
def pipeRoom : Nat := 65536

def signalPipe : Nat := 13

/-- Signals that do nothing unless they are caught. -/
def harmless (signal : Nat) : Bool := [17, 18, 23, 28].contains signal

/-- The number of a signal that cannot be caught. -/
def signalKill : Nat := 9

namespace Process

def live (p : Process) : Bool := p.ended.isNone

def disposition (p : Process) (signal : Nat) : Disposition :=
  (p.dispositions.lookup signal).getD .standard

def goOn (p : Process) (next : Program) : Process := { p with program := next }

/-- The process without its descriptors, and its ending for whoever waits. -/
def finish (p : Process) (ending : Ending) : Process :=
  { p with descriptors := [], ended := some ending, wake := none, caught := [] }

/-- What a signal does to a process. -/
def receive (p : Process) (signal : Nat) : Process :=
  if !p.live || signal = 0 then p
  else if signal = signalKill then p.finish (.killed signal)
  else
    match p.disposition signal with
    | .ignored => p
    | .caught => { p with caught := p.caught ++ [signal] }
    | .standard => if harmless signal then p else p.finish (.killed signal)

def setDescriptor (p : Process) (fd channel : Nat) : Process :=
  { p with descriptors := (fd, channel) :: p.descriptors.filter (·.1 != fd) }

def closeDescriptor (p : Process) (fd : Nat) : Process :=
  { p with descriptors := p.descriptors.filter (·.1 != fd) }

/-- The least descriptor that stands for nothing. -/
def freeDescriptor (p : Process) : Nat :=
  ((List.range (p.descriptors.length + 1)).find? fun fd => (p.descriptors.lookup fd).isNone).getD 0

end Process

namespace Kernel

def setProcess (k : Kernel) (p : Process) : Kernel :=
  { k with processes := k.processes.map fun q => if q.pid = p.pid then p else q }

def process? (k : Kernel) (pid : Nat) : Option Process := k.processes.find? (·.pid == pid)

/-- Whether some process holds a channel with a property. -/
def holds (k : Kernel) (c : Channel) : Bool :=
  k.processes.any fun p => p.descriptors.any fun d => k.channels[d.2]? == some c

def hasReader (k : Kernel) (pipe : Nat) : Bool :=
  k.readOutside.contains pipe || k.holds (.source pipe)

def hasWriter (k : Kernel) (pipe : Nat) : Bool :=
  k.writtenOutside.contains pipe || k.holds (.sink pipe)

def pipe (k : Kernel) (i : Nat) : List UInt8 := (k.pipes[i]?).getD []

def setPipe (k : Kernel) (i : Nat) (bytes : List UInt8) : Kernel :=
  { k with pipes := k.pipes.set! i bytes }

def addChannel (k : Kernel) (c : Channel) : Kernel × Nat :=
  ({ k with channels := k.channels.push c }, k.channels.size)

/-- What a descriptor of a process stands for, and its place. -/
def channel? (k : Kernel) (p : Process) (fd : Nat) : Option (Nat × Channel) := do
  let i ← p.descriptors.lookup fd
  let c ← k.channels[i]?
  pure (i, c)

/-- The process does its next call and goes on with the program. -/
def resume (k : Kernel) (p : Process) (next : Program) : Option Kernel :=
  some (k.setProcess (p.goOn next))

/-- Reads from a channel; `none` if there is nothing to read yet. -/
def readChannel (k : Kernel) (i : Nat) (c : Channel) (limit : Nat) :
    Option (Kernel × Except Errno (List UInt8)) :=
  match c with
  | .sink _ => some (k, .error .badDescriptor)
  | .void => some (k, .ok [])
  | .zeros => some (k, .ok (List.replicate limit 0))
  | .file name offset mode =>
    let bytes := (((k.disk.contents? name).getD []).drop offset).take limit
    let c := Channel.file name (offset + bytes.length) mode
    some ({ k with channels := k.channels.set! i c }, .ok bytes)
  | .source pipe =>
    let held := k.pipe pipe
    if limit = 0 then some (k, .ok [])
    else if !held.isEmpty then some (k.setPipe pipe (held.drop limit), .ok (held.take limit))
    else if k.hasWriter pipe then none
    else some (k, .ok [])

/-- The contents of a file after a write at an offset. -/
def patched (contents bytes : List UInt8) (offset : Nat) : List UInt8 :=
  contents.take offset ++ List.replicate (offset - contents.length) 0 ++ bytes ++
    contents.drop (offset + bytes.length)

/-- Writes to a channel, and says how many bytes it took. -/
def writeChannel (k : Kernel) (i : Nat) (c : Channel) (bytes : List UInt8) :
    Kernel × Except Errno Nat :=
  match c with
  | .source _ => (k, .error .badDescriptor)
  | .void | .zeros => (k, .ok bytes.length)
  | .file name offset mode =>
    let old := (k.disk.contents? name).getD []
    let offset := if mode = .append then old.length else offset
    match mode with
    | .read => (k, .error .badDescriptor)
    | _ =>
      let c := Channel.file name (offset + bytes.length) mode
      ({ k with
          disk := k.disk.write name (patched old bytes offset)
          channels := k.channels.set! i c },
        .ok bytes.length)
  | .sink pipe =>
    if !k.hasReader pipe then (k, .error .brokenPipe)
    else
      let held := k.pipe pipe
      let given := bytes.take (pipeRoom - held.length)
      (if given.isEmpty then k else k.setPipe pipe (held ++ given), .ok given.length)

/-- Opens a path; a file that is written is made if it is not there. -/
def openChannel (k : Kernel) (p : Process) (path : String) (mode : OpenMode) :
    Except Errno (Kernel × Channel) :=
  match find k.disk p.cwd path with
  | .ok .void => .ok (k, .void)
  | .ok .zeros => .ok (k, .zeros)
  | .ok (.file name) =>
    if mode = .write then .ok ({ k with disk := k.disk.write name [] }, .file name 0 mode)
    else .ok (k, .file name 0 mode)
  | .ok .directory => .error .isDirectory
  | .ok (.program _) => if mode = .read then .ok (k, .void) else .error .noAccess
  | .error .noEntry =>
    let place := p.cwd.resolve path
    let above := { place with parts := place.parts.dropLast }
    if mode ≠ .read ∧ !path.isEmpty ∧ nodeAt? k.disk above = some .directory then
      if place.absolute then .error .noAccess
      else
        let name := textOfOctets ("/".intercalate place.parts)
        .ok ({ k with disk := k.disk.write name [] }, .file name 0 mode)
    else .error .noEntry
  | .error e => .error e

/-- Sends a signal to a process. -/
def signal (k : Kernel) (pid signal : Nat) : Kernel × Except Errno Unit :=
  match k.process? pid with
  | none => (k, .error .noProcess)
  | some p => (k.setProcess (p.receive signal), .ok ())

/-- Ends a process. Nobody waits for the children of an ended one. -/
def finish (k : Kernel) (p : Process) (ending : Ending) : Kernel := k.setProcess (p.finish ending)

/-- The process that a program becomes. It keeps the descriptors below ten and the
signals that are ignored. -/
def becoming (k : Kernel) (p : Process) (path : String) (args : List String)
    (environment : List (String × String)) : Except Errno Process := do
  let name ← findProgram k.disk p.cwd path
  pure { p with
    program := k.library name args environment
    descriptors := p.descriptors.filter (·.1 < 10)
    dispositions := p.dispositions.filter (·.2 == .ignored)
    caught := [] }

/-- One call of a process; `none` if it has to wait. -/
def call (k : Kernel) (p : Process) : Option Kernel :=
  match p.program with
  | .exit status => some (k.finish p (.exited (status % 256)))
  | .read fd limit next =>
    match k.channel? p fd with
    | none => k.resume p (next (.error .badDescriptor))
    | some (i, c) =>
      match k.readChannel i c limit with
      | none => none
      | some (k, r) => k.resume p (next r)
  | .write fd bytes next =>
    match k.channel? p fd with
    | none => k.resume p (next (.error .badDescriptor))
    | some (i, c) =>
      match k.writeChannel i c bytes with
      | (k, .error .brokenPipe) =>
        match p.disposition signalPipe with
        | .standard => some (k.finish p (.killed signalPipe))
        | .ignored => k.resume p (next (.error .brokenPipe))
        | .caught => k.resume (p.receive signalPipe) (next (.error .brokenPipe))
      | (k, .error e) => k.resume p (next (.error e))
      | (k, .ok taken) =>
        if bytes.length ≤ taken then k.resume p (next (.ok ()))
        else if taken = 0 then none
        else k.resume p (.write fd (bytes.drop taken) next)
  | .openPath path mode next =>
    match k.openChannel p path mode with
    | .error e => k.resume p (next (.error e))
    | .ok (k, c) =>
      let (k, i) := k.addChannel c
      k.resume (p.setDescriptor p.freeDescriptor i) (next (.ok p.freeDescriptor))
  | .close fd next => k.resume (p.closeDescriptor fd) (next ())
  | .duplicate fd second next =>
    match p.descriptors.lookup fd with
    | none => k.resume p (next (.error .badDescriptor))
    | some i => k.resume (p.setDescriptor second i) (next (.ok ()))
  | .pipe next =>
    let n := k.pipes.size
    let k := { k with pipes := k.pipes.push [] }
    let (k, i) := k.addChannel (.source n)
    let (k, j) := k.addChannel (.sink n)
    let r := p.freeDescriptor
    let p := p.setDescriptor r i
    let w := p.freeDescriptor
    k.resume (p.setDescriptor w j) (next (r, w))
  | .fork child next =>
    let q := { p with pid := k.nextPid, parent := p.pid, program := child, caught := [] }
    { k with nextPid := k.nextPid + 1, processes := k.processes ++ [q] }.resume p (next k.nextPid)
  | .wait pid interruptible next =>
    match k.processes.find? fun q => q.pid == pid && q.parent == p.pid with
    | none => k.resume p (next .nobody)
    | some q =>
      match q.ended with
      | none =>
        match interruptible, p.caught with
        | true, sig :: _ => k.resume p (next (.caught sig))
        | _, _ => none
      | some ending =>
        { k with processes := k.processes.filter (·.pid != pid) }.resume p (next (.ended ending))
  | .sleep time next =>
    match p.wake with
    | none => some (k.setProcess { p with wake := some (k.clock + time) })
    | some wake => if wake ≤ k.clock then k.resume { p with wake := none } (next ()) else none
  | .kill pid sig next =>
    let (k, r) := k.signal pid sig
    match k.process? p.pid with
    | none => none
    | some p => if p.live then k.resume p (next r) else some k
  | .dispose sig d next =>
    k.resume { p with dispositions := (sig, d) :: p.dispositions.filter (·.1 != sig) } (next ())
  | .caught next => k.resume { p with caught := [] } (next p.caught)
  | .self next => k.resume p (next p.pid)
  | .enter dir next =>
    match find k.disk p.cwd dir with
    | .ok .directory => k.resume { p with cwd := p.cwd.resolve dir } (next (.ok ()))
    | .ok _ => k.resume p (next (.error .notDirectory))
    | .error e => k.resume p (next (.error e))
  | .probe path next =>
    match findProgram k.disk p.cwd path with
    | .ok _ => k.resume p (next (.ok ()))
    | .error e => k.resume p (next (.error e))
  | .list dir next => k.resume p (next (names k.disk (p.cwd.resolve dir)))
  | .measure fd next =>
    match k.channel? p fd with
    | some (_, .file name _ _) => k.resume p (next (some ((k.disk.contents? name).getD []).length))
    | _ => k.resume p (next none)
  | .become path args environment failed =>
    match k.becoming p path args environment with
    | .ok p => some (k.setProcess p)
    | .error e => k.resume p (failed e)

/-- One call of each process that can, and whether there was one. -/
def round (k : Kernel) : Kernel × Bool :=
  (k.processes.map (·.pid)).foldl (fun (k, moved) pid =>
    match (k.process? pid).filter Process.live with
    | none => (k, moved)
    | some p =>
      match k.call p with
      | none => (k, moved)
      | some k => (k, true)) (k, false)

/-- Rounds until every process waits, or `limit` of them. -/
def settle (k : Kernel) : (limit : Nat) → Kernel
  | 0 => k
  | limit + 1 =>
    match k.round with
    | (k, true) => k.settle limit
    | (k, false) => k

/-- The rounds that fit into one moment. -/
def momentRounds : Nat := 20000

def run (k : Kernel) : Kernel := k.settle momentRounds

/-- The next time up to `target` when a sleep ends. -/
def nextWake (k : Kernel) (target : Nat) : Option Nat :=
  ((k.processes.filterMap (·.wake)).filter fun t => k.clock < t && t ≤ target).min?

/-- Lets time go by up to `target`, from one end of a sleep to the next. -/
def elapseTo (k : Kernel) (target : Nat) : (limit : Nat) → Kernel
  | 0 => { k with clock := target }
  | limit + 1 =>
    match k.run.nextWake target with
    | none => { k.run with clock := target }.run
    | some t => elapseTo { k.run with clock := t } target limit

/-- Lets microseconds go by; at most one sleep ends in each. -/
def elapse (k : Kernel) (time : Nat) : Kernel := k.elapseTo (k.clock + time) (time + 1)

end Kernel

end Debugline.Machine
