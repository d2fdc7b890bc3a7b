import Debugline.Machine.Octets
import Debugline.Machine.Place

/-! The tree of a small system: programs in `/bin` and `/usr/bin`, some devices, and
the files of a disk in the directory where programs start. -/

namespace Debugline.Machine

/-- What stands at a place. -/
inductive Node
  | directory
  | file (name : String)
  | program (name : String)
  /-- Endless zeros. -/
  | zeros
  /-- Takes everything and gives nothing. -/
  | void
  deriving DecidableEq, Repr

/-- The directories above the files of a disk. -/
def diskDirectory (d : Disk) (parts : List String) : Bool :=
  parts.isEmpty || d.files.any fun f =>
    let ps := (Path.components f.1.toList).map String.ofList
    parts.length < ps.length && ps.take parts.length == parts

def systemDirectories : List (List String) :=
  [[], ["bin"], ["sbin"], ["dev"], ["etc"], ["home"], ["lib"], ["mnt"], ["opt"], ["proc"], ["root"],
    ["run"], ["srv"], ["sys"], ["tmp"], ["var"], ["usr"], ["usr", "bin"], ["usr", "sbin"],
    ["usr", "lib"], ["usr", "local"], ["usr", "local", "bin"], ["usr", "share"]]

/-- The programs there are. -/
def programNames : List String :=
  ["sh", "cat", "echo", "head", "tr", "wc", "sleep", "true", "false", "printf", "kill"]

/-- The shell of the system goes by a second name. -/
def programAt : String → Option String
  | "dash" => some "sh"
  | name => if programNames.contains name then some name else none

def systemNode (parts : List String) : Option Node :=
  if systemDirectories.contains parts then some .directory
  else
    match parts with
    | ["bin", name] | ["usr", "bin", name] => (programAt name).map .program
    | ["dev", "zero"] => some .zeros
    | ["dev", "null"] => some .void
    | ["etc", "passwd"] | ["etc", "group"] | ["etc", "hosts"] => some (.file "")
    | _ => none

/-- What stands at a place, without a look at the places above it. -/
def nodeAt? (d : Disk) (p : Place) : Option Node :=
  if p.absolute then systemNode p.parts
  else
    let name := textOfOctets ("/".intercalate p.parts)
    if (d.contents? name).isSome then some (.file name)
    else if diskDirectory d (p.parts.map textOfOctets) then some .directory
    else none

/-- The names in a directory, each once. -/
def names (d : Disk) (p : Place) : List String :=
  let all : List (List String) :=
    if p.absolute then
      systemDirectories ++ programNames.flatMap fun n => [["bin", n], ["usr", "bin", n]]
    else d.files.map fun f => (Path.components f.1.toList).map fun c => octetsOfText (.ofList c)
  (all.filterMap fun parts =>
    if parts.take p.parts.length == p.parts then parts[p.parts.length]? else none).eraseDups

/-- What stands at a place whose parts are looked up one after the other. -/
def walk (d : Disk) (p : Place) : (rest : List String) → Except Errno Node
  | [] => (nodeAt? d p).elim (.error .noEntry) .ok
  | part :: rest =>
    if 255 < part.length then .error .nameTooLong
    else
      match nodeAt? d p with
      | none => .error .noEntry
      | some .directory => walk d { p with parts := p.parts ++ [part] } rest
      | some _ => .error .notDirectory

/-- What a path names in a directory. A path that ends in a slash names a directory. -/
def find (d : Disk) (cwd : Place) (path : String) : Except Errno Node :=
  if path.isEmpty then .error .noEntry
  else if 4095 < path.length then .error .nameTooLong
  else
    let p := cwd.resolve path
    match walk d { p with parts := [] } p.parts with
    | .ok .directory => .ok .directory
    | .ok node => if path.endsWith "/" || path.endsWith "/." then .error .notDirectory else .ok node
    | .error e => .error e

/-- The program that a path names. -/
def findProgram (d : Disk) (cwd : Place) (path : String) : Except Errno String :=
  match find d cwd path with
  | .ok (.program name) => .ok name
  | .ok _ => .error .noAccess
  | .error e => .error e

/-- Where programs are looked for that are named without a slash. -/
def searchPath : List String := ["/usr/bin/", "/bin/"]

/-- The paths to try for the name of a program. -/
def candidates (name : String) : List String :=
  if name.contains '/' then [name] else searchPath.map (· ++ name)

end Debugline.Machine
