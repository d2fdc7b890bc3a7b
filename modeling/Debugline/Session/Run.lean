import Debugline.Session.Operation

/-! Runs. A host calls the controller, one call after the other. Between two calls it
may change documents itself, and the program goes on by itself. -/

namespace Debugline

/-- A change that the host makes to the documents, or someone to the files. -/
inductive Editor.Change
  | openText (path text : String)
  | openPath (path : String)
  | close (doc : DocId)
  | addMarker (doc : DocId) (line : Nat) (kind : MarkerKind)
  | removeMarker (doc : DocId) (line : Nat) (kind : MarkerKind)
  | scrollTo (doc : DocId) (line : Nat)
  | write (path : String) (contents : List UInt8)

def Editor.change (e : Editor) : Editor.Change → Editor
  | .openText path text => (e.openText path text).1
  | .openPath path => (e.openPath path).1
  | .close doc => e.close doc
  | .addMarker doc line kind => e.addMarker doc line kind
  | .removeMarker doc line kind => e.removeMarker doc line kind
  | .scrollTo doc line => e.scrollTo doc line
  | .write path contents => { e with disk := e.disk.write path contents }

namespace Session

/-- A call of the controller. -/
inductive Call (τ : Type)
  | launch (mode : Mode) (spawn : Unit → Except Failure τ)
  | poll
  | abort
  | goOn
  | stepInto
  | stepOver
  | stepOut
  | runToLine (line : Nat)
  | runToCursor (doc : DocId) (position : Nat)
  | evaluate (expr : String) (hover : Option Hover)
  | evaluateAt (doc : DocId) (position : Nat)
  | sendInput (text : String)
  | toggleBreakpoint (doc : DocId) (line : Nat)
  | toggleBreakpointAt (path : String) (line : Nat)
  | clearBreakpoints
  | documentsChanged
  | listBreakpoints
  | addWatch (name : String)
  | editWatch (row : Nat) (name : String)
  | deleteWatch (row : Nat)
  | takeEvents
  | takeTraffic

inductive Happening (τ : Type)
  | call (a : Call τ)
  | edit (change : Editor.Change)
  /-- The program goes on. -/
  | meanwhile (f : τ → τ)

end Session

namespace Controller

open Session

variable {τ : Type} [Transport τ]

/-- The controller after a call, whatever the call returns. -/
def call (c : Controller τ) : Call τ → Controller τ
  | .launch mode spawn => (c.launch mode spawn).1
  | .poll => c.poll
  | .abort => c.abort.1
  | .goOn => c.goOn.1
  | .stepInto => c.stepInto.1
  | .stepOver => c.stepOver.1
  | .stepOut => c.stepOut.1
  | .runToLine line => (c.runToLine line).1
  | .runToCursor doc position => (c.runToCursor doc position).1
  | .evaluate expr hover => (c.evaluate expr hover).1
  | .evaluateAt doc position => (c.evaluateAt doc position).1
  | .sendInput text => (c.sendInput text).1
  | .toggleBreakpoint doc line => (c.toggleBreakpoint doc line).1
  | .toggleBreakpointAt path line => (c.toggleBreakpointAt path line).1
  | .clearBreakpoints => c.clearBreakpoints
  | .documentsChanged => c.documentsChanged
  | .listBreakpoints => c.listBreakpoints.1
  | .addWatch name => (c.addWatch name).1
  | .editWatch row name => c.editWatch row name
  | .deleteWatch row => (c.deleteWatch row).1
  | .takeEvents => c.takeEvents.1
  | .takeTraffic => c.takeTraffic.1

def edit (c : Controller τ) (change : Editor.Change) : Controller τ :=
  { c with editor := c.editor.change change }

def meanwhile (c : Controller τ) (f : τ → τ) : Controller τ :=
  c.modifySession fun s => { s with transport := f s.transport }

def after (c : Controller τ) : Happening τ → Controller τ
  | .call a => c.call a
  | .edit change => c.edit change
  | .meanwhile f => c.meanwhile f

def run (c : Controller τ) (hs : List (Happening τ)) : Controller τ := hs.foldl after c

end Controller

end Debugline
