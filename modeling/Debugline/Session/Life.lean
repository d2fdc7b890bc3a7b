import Debugline.Session.Frames

/-! The life of a session: it is launched, polled as long as its program lives, and
ends when the program does or is made to. -/

namespace Debugline.Controller

open Session

variable {τ : Type} [Transport τ]

/-- The session of a program that was just started. A debugger knows nothing yet, so
all breakpoints and watches are to be sent. -/
def start (c : Controller τ) (mode : Mode) (transport : τ) : Controller τ :=
  let scanner := Wire.Scanner.new c.config (mode = .debug)
  let c := { c with
    session := some ⟨transport, scanner, mode, "", 0, none⟩
    state := .running
    hover := none
    breakpointSent := false
    journal := .launched mode :: c.journal }
  match mode with
  | .run => c
  | .debug => { c with
      breakpoints := c.breakpoints.invalidate
      watches := c.watches.clearValues.rearm }

/-- Starts a program unless one runs. -/
def launch (c : Controller τ) (mode : Mode) (spawn : Unit → Except Failure τ) :
    Controller τ × Except Refusal Unit :=
  if c.hasSession then (c, .error .alreadyRunning)
  else
    let c := { c with state := .launching }
    match spawn () with
    | .ok transport => (c.start mode transport, .ok ())
    | .error cause =>
      let refusal := Refusal.spawnFailed cause
      ({ c with state := .notRunning }.push (.status refusal.message), .error refusal)

/-- Reads both streams. What cannot be read counts as nothing. -/
def readStreams (c : Controller τ) : Controller τ × List UInt8 × List UInt8 :=
  let (c, output) := c.withTransport (.ok []) Transport.readOutput
  let (c, errors) := c.withTransport (.ok []) Transport.readErrors
  (c, output.toOption.getD [], errors.toOption.getD [])

/-- Reads and takes what there is. -/
def receive (c : Controller τ) : Controller τ :=
  let (c, output, errors) := c.readStreams
  (c.takeOutput output).takeErrors errors

/-- Takes the output there is, and ends the session if the program is gone. It may
have written between the first reads and its end, so then the streams are read once
more. -/
def poll (c : Controller τ) : Controller τ :=
  if c.hasSession then
    let c := c.receive
    match c.withTransport false Transport.alive with
    | (c, true) => c
    | (c, false) => c.receive.finish
  else c

/-- Ends the program by all means. -/
def abort (c : Controller τ) : Controller τ × Except Refusal Unit :=
  if c.hasSession then
    let (c, _) := c.withTransport (.ok ()) Transport.terminate
    let (c, _) := c.withTransport (.ok ()) Transport.kill
    ({ c with traffic := c.traffic ++ [Traffic.terminate, Traffic.kill] }.finish, .ok ())
  else (c, .error .notRunning)

end Debugline.Controller
