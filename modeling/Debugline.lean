import Debugline.Console.Scripted
import Debugline.Main
import Debugline.Session.Run
import Debugline.Proofs.Text.Utf8
import Debugline.Proofs.Text.Words
import Debugline.Proofs.Editor.Breakpoints
import Debugline.Proofs.Editor.Places
import Debugline.Proofs.Session.Moves
import Debugline.Proofs.Session.Lifecycle
import Debugline.Proofs.Wire.Chunks
import Debugline.Proofs.Wire.Segments
import Debugline.Proofs.Wire.RoundTrip
import Debugline.Proofs.Session.Throttle
import Debugline.Proofs.Breakpoint.Agreement
import Debugline.Proofs.Watch.Naming
import Debugline.Proofs.Watch.Agreement
import Debugline.Proofs.Session.Deeds
import Debugline.Proofs.Session.Refusals
import Debugline.Proofs.Session.Marker
import Debugline.Proofs.Session.Stops
import Debugline.Proofs.Text.Pieces
import Debugline.Proofs.Wire.Cuts
import Debugline.Proofs.Session.Terminal
import Debugline.Proofs.Wire.Commands
import Debugline.Proofs.Watch.Reports
import Debugline.Proofs.Session.Heard
import Debugline.Proofs.Session.Backlog
import Debugline.Proofs.Session.Convergence
import Debugline.Proofs.Session.PlainRun
import Debugline.Proofs.Session.ErrorStream
import Debugline.Proofs.Session.UnusableFrames
import Debugline.Proofs.Session.LastOutput
import Debugline.Proofs.Session.Effects
import Debugline.Proofs.Editor.Intact
import Debugline.Proofs.Session.UserMarkers
import Debugline.Proofs.Console.Moments
import Debugline.Proofs.Session.Numbers
import Debugline.Proofs.Console.FromOne
import Debugline.Proofs.Session.Supply
import Debugline.Proofs.Console.End
import Debugline.Proofs.Console.Sums
import Debugline.Proofs.Wire.Reading
import Debugline.Proofs.Watch.Rows
import Debugline.Proofs.Breakpoint.ByPath
import Debugline.Proofs.Console.Toggles
import Debugline.Proofs.Editor.Scroll
import Debugline.Proofs.Session.Arrivals
import Debugline.Proofs.Session.Cursor
import Debugline.Proofs.Editor.Offsets
import Debugline.Proofs.Console.Requests
import Debugline.Proofs.Text.Paths
import Debugline.Proofs.Editor.Located
import Debugline.Proofs.Breakpoint.Queries
import Debugline.Proofs.Transport.Outbox
import Debugline.Proofs.Text.Characters
import Debugline.Proofs.Wire.Characters
import Debugline.Proofs.Wire.Registers
