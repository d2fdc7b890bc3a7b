import Debugline.Machine.Kernel
import Debugline.Machine.Library
import Debugline.Transport.Child

/-! The kernel as the system of a child. -/

namespace Debugline.Machine

/-- The process that is started. -/
def root : Nat := 100

/-- The pipes to its input, from its output and from its errors. -/
def inputPipe : Nat := 0
def outputPipe : Nat := 1
def errorPipe : Nat := 2

def pipeOf : Stream → Nat
  | .output => outputPipe
  | .errors => errorPipe

/-- A kernel with one process between its three pipes. -/
def kernelOf (disk : Disk) (cwd : Place) (program : Program) : Kernel where
  library := library
  disk := disk
  clock := 0
  pipes := #[[], [], []]
  channels := #[.source inputPipe, .sink outputPipe, .sink errorPipe]
  processes := [⟨root, 1, program, [(0, 0), (1, 1), (2, 2)], cwd, [], [], none, none⟩]
  nextPid := root + 1
  readOutside := [outputPipe, errorPipe]
  writtenOutside := [inputPipe]

def hasNul (s : String) : Bool := s.toList.any fun c => c.toNat == 0

/-- The directory a program starts in. -/
def startDirectory (disk : Disk) : Option String → Except Errno Place
  | none => .ok .start
  | some dir =>
    match find disk .start (octetsOfText dir) with
    | .ok .directory => .ok (Place.start.resolve (octetsOfText dir))
    | .ok _ => .error .notDirectory
    | .error e => .error e

/-- The first of the programs that a name may mean. -/
def firstProgram (disk : Disk) (cwd : Place) : List String → Except Errno String
  | [] => .error .noEntry
  | [path] => findProgram disk cwd path
  | path :: paths =>
    match findProgram disk cwd path with
    | .ok name => .ok name
    | .error _ => firstProgram disk cwd paths

/-- Starts a program. Texts with a zero in them cannot be passed to it. -/
def start (disk : Disk) (c : CommandLine) : Except String Kernel :=
  if (c.program :: (c.args ++ c.dir.toList)).any hasNul then
    .error "nul byte found in provided data"
  else
    match startDirectory disk c.dir with
    | .error e => .error e.message
    | .ok cwd =>
      let called := octetsOfText c.program
      match firstProgram disk cwd (if called.isEmpty then [] else candidates called) with
      | .error e => .error e.message
      | .ok name => .ok (kernelOf disk cwd (library name (called :: c.args.map octetsOfText) []))

/-- What the input pipe does with bytes. -/
def offer (k : Kernel) (bytes : List UInt8) : Kernel × Attempt :=
  if !k.hasReader inputPipe then (k, .broken)
  else
    let held := k.pipe inputPipe
    let room := pipeRoom - held.length
    if room = 0 then (k, .full)
    else
      let given := bytes.take room
      (k.setPipe inputPipe (held ++ given), .accepted given.length)

theorem offer_ne_interrupted (k : Kernel) (bytes : List UInt8) :
    (offer k bytes).2 ≠ .interrupted := by
  unfold offer
  split
  · nofun
  · dsimp only
    split <;> nofun

/-- The end of its input that is written to from outside. -/
def inputEnd : Pipe Kernel where
  offer := offer
  patience _ _ := 0
  wears h := absurd (congrArg Prod.snd h) (offer_ne_interrupted _ _)

/-- The microseconds that even a wait of no length takes. -/
def leastWait : Nat := 100

instance : System Kernel where
  goOn := Kernel.run
  input := inputEnd
  closeInput k := { k with writtenOutside := [] }
  take k stream :=
    let pipe := pipeOf stream
    (k.setPipe pipe [], .ok (k.pipe pipe, !k.hasWriter pipe))
  close k stream := { k with readOutside := k.readOutside.filter (· != pipeOf stream) }
  ended? k := some (!(k.process? root).any Process.live)
  terminate k := ((k.signal root Utility.signalTerm).1, .ok ())
  kill k := (k.signal root signalKill).1
  wait k milliseconds := k.elapse (max leastWait (milliseconds * 1000))

end Debugline.Machine
