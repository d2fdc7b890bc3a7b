import Debugline.Disk
import Debugline.Editor.LineSet
import Debugline.Path
import Debugline.Text.Line

/-! Documents and their line markers. A document is known by the place it was
opened at, and that place stays its own after it is closed. Lines are counted from
0, and a position is a number of characters from the beginning of the text. -/

namespace Debugline

inductive MarkerKind
  | breakpoint
  | currentLine
  | bookmark
  deriving DecidableEq, Repr

structure Document where
  path : String
  lines : List String
  breakpoints : LineSet
  current : LineSet
  bookmarks : LineSet
  /-- The line last scrolled to. -/
  scroll : Option Nat
  deriving DecidableEq

namespace Document

def new (path text : String) : Document :=
  ⟨path, (Text.lines text.toList).map .ofList, .empty, .empty, .empty, none⟩

def markers (d : Document) : MarkerKind → LineSet
  | .breakpoint => d.breakpoints
  | .currentLine => d.current
  | .bookmark => d.bookmarks

def setMarkers (d : Document) (kind : MarkerKind) (s : LineSet) : Document :=
  match kind with
  | .breakpoint => { d with breakpoints := s }
  | .currentLine => { d with current := s }
  | .bookmark => { d with bookmarks := s }

/-- The line that holds a position. A line holds the positions of its characters and
the one behind them; a position behind the text belongs to the last line. -/
def lineAt : List String → Nat → Nat
  | [], _ => 0
  | [_], _ => 0
  | l :: ls, position =>
    if position ≤ l.length then 0 else lineAt ls (position - (l.length + 1)) + 1

/-- The position where a line begins. -/
def lineStart : (lines : List String) → (line : Nat) → Nat
  | [], _ => 0
  | _, 0 => 0
  | l :: ls, line + 1 => l.length + 1 + lineStart ls line

end Document

/-- The place of a document among those opened. -/
abbrev DocId := Nat

structure Editor where
  slots : List (Option Document)
  /-- Where opened files are read. -/
  disk : Disk
  deriving DecidableEq

namespace Editor

def new (disk : Disk) : Editor := ⟨[], disk⟩

def doc? (e : Editor) (doc : DocId) : Option Document := (e.slots[doc]?).join

def modifyDoc (e : Editor) (doc : DocId) (f : Document → Document) : Editor :=
  { e with slots := e.slots.modify doc (·.map f) }

/-- Opens a document with a text of its own. -/
def openText (e : Editor) (path text : String) : Editor × DocId :=
  ({ e with slots := e.slots ++ [some (.new path text)] }, e.slots.length)

/-- Closes a document; its markers are lost. -/
def close (e : Editor) (doc : DocId) : Editor :=
  { e with slots := e.slots.modify doc fun _ => none }

/-- The open documents in the order they were opened. -/
def opened (e : Editor) : List (DocId × Document) :=
  e.slots.zipIdx.filterMap fun (d, i) => d.map (i, ·)

def documents (e : Editor) : List DocId := e.opened.map Prod.fst

def path? (e : Editor) (doc : DocId) : Option String := (e.doc? doc).map (·.path)

/-- The earliest opened document with a property. -/
def find? (e : Editor) (p : Document → Bool) : Option DocId :=
  e.slots.findIdx? fun d => d.any p

def findPath? (e : Editor) (path : String) : Option DocId := e.find? (·.path == path)

def findBaseName? (e : Editor) (name : String) : Option DocId :=
  e.find? fun d => Path.baseName d.path == name

/-- The document of a path, opened from the disk if it is not open. -/
def openPath (e : Editor) (path : String) : Editor × DocId :=
  match e.findPath? path with
  | some doc => (e, doc)
  | none => e.openText path (e.disk.text path)

def lineAt (e : Editor) (doc : DocId) (position : Nat) : Nat :=
  ((e.doc? doc).map fun d => Document.lineAt d.lines position).getD 0

def lineStart (e : Editor) (doc : DocId) (line : Nat) : Nat :=
  ((e.doc? doc).map fun d => Document.lineStart d.lines line).getD 0

def lineText? (e : Editor) (doc : DocId) (line : Nat) : Option String :=
  (e.doc? doc).bind fun d => d.lines[line]?

def markers (e : Editor) (doc : DocId) (kind : MarkerKind) : List Nat :=
  ((e.doc? doc).map fun d => (d.markers kind).toList).getD []

def hasMarker (e : Editor) (doc : DocId) (line : Nat) (kind : MarkerKind) : Bool :=
  (e.markers doc kind).contains line

def addMarker (e : Editor) (doc : DocId) (line : Nat) (kind : MarkerKind) : Editor :=
  e.modifyDoc doc fun d => d.setMarkers kind ((d.markers kind).insert line)

def removeMarker (e : Editor) (doc : DocId) (line : Nat) (kind : MarkerKind) : Editor :=
  e.modifyDoc doc fun d => d.setMarkers kind ((d.markers kind).erase line)

/-- The number of markers of a kind over all open documents. -/
def markerCount (e : Editor) (kind : MarkerKind) : Nat :=
  e.opened.foldr (fun d n => (d.2.markers kind).toList.length + n) 0

def scrollTo (e : Editor) (doc : DocId) (line : Nat) : Editor :=
  e.modifyDoc doc fun d => { d with scroll := some line }

def scrolledTo? (e : Editor) (doc : DocId) : Option Nat := (e.doc? doc).bind (·.scroll)

/-- The open document of a path, or else one whose path has the same base name. The
empty path finds nothing. -/
def locate? (e : Editor) (path : String) : Option DocId :=
  if path.isEmpty then none
  else (e.findPath? path).or (e.findBaseName? (Path.baseName path))

/-- The located document of a path, opened if there is none. -/
def locateOrOpen (e : Editor) (path : String) : Editor × Option DocId :=
  if path.isEmpty then (e, none)
  else
    match e.locate? path with
    | some doc => (e, some doc)
    | none =>
      let (e, doc) := e.openPath path
      (e, some doc)

end Editor

end Debugline
