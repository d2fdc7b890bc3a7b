/-! Why the system refuses a call. -/

namespace Debugline.Machine

inductive Errno
  | noEntry
  | noProcess
  | badDescriptor
  | noAccess
  | notDirectory
  | isDirectory
  | brokenPipe
  | nameTooLong
  deriving DecidableEq, Repr

namespace Errno

def number : Errno → Nat
  | noEntry => 2
  | noProcess => 3
  | badDescriptor => 9
  | noAccess => 13
  | notDirectory => 20
  | isDirectory => 21
  | brokenPipe => 32
  | nameTooLong => 36

def text : Errno → String
  | noEntry => "No such file or directory"
  | noProcess => "No such process"
  | badDescriptor => "Bad file descriptor"
  | noAccess => "Permission denied"
  | notDirectory => "Not a directory"
  | isDirectory => "Is a directory"
  | brokenPipe => "Broken pipe"
  | nameTooLong => "File name too long"

/-- The text with the number behind it. -/
def message (e : Errno) : String := e.text ++ " (os error " ++ toString e.number ++ ")"

end Errno

end Debugline.Machine
