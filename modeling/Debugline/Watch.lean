import Debugline.Text.Blank
import Debugline.Wire.Command

/-! Watch expressions. The table has a row for each, and a queue of the rows that
the debugger has not heard of since they were changed. Rows are counted from 0
here and from 1 on the wire. -/

namespace Debugline.Watch

open Wire

structure Entry where
  name : String
  value : String
  deriving DecidableEq, Repr

namespace Entry

def blank : Entry := ⟨"", ""⟩

def isBlank (e : Entry) : Bool := e.name.isEmpty

end Entry

structure Table where
  rows : List Entry
  /-- Rows to be sent, the oldest first. A row may stand here more than once. -/
  pending : List Nat
  deriving DecidableEq, Repr

namespace Table

/-- A table of one blank row. -/
def new : Table := ⟨[.blank], []⟩

/-- Rows with blank ones added until there is a row of that number. -/
def padded (rows : List Entry) (row : Nat) : List Entry :=
  rows ++ List.replicate (row + 1 - rows.length) .blank

/-- Gives a row another expression, and no value until the debugger sends one. -/
def edit (t : Table) (row : Nat) (name : String) : Table :=
  ⟨(padded t.rows row).set row ⟨Text.trimmed name, ""⟩, t.pending ++ [row]⟩

/-- The row that a new expression takes: a blank one at the end, or the next. -/
def nextFree (t : Table) : Nat :=
  match t.rows.getLast? with
  | some last => if last.isBlank then t.rows.length - 1 else t.rows.length
  | none => 0

def add (t : Table) (name : String) : Table × Nat := (t.edit t.nextFree name, t.nextFree)

/-- Blanks a row and has that sent; the rows behind it keep their numbers. -/
def delete (t : Table) (row : Nat) : Table × Bool :=
  if row < t.rows.length then (⟨t.rows.set row .blank, t.pending ++ [row]⟩, true)
  else (t, false)

/-- Takes over what the debugger says about a row, counted from 1. It may name a row
of the table or the next; the row is returned counted from 0. -/
def update (t : Table) (row : Nat) (name value : String) : Table × Option Nat :=
  match row with
  | 0 => (t, none)
  | index + 1 =>
    if index < t.rows.length then
      ({ t with rows := t.rows.set index ⟨name, value⟩ }, some index)
    else if index = t.rows.length then
      ({ t with rows := t.rows ++ [⟨name, value⟩] }, some index)
    else (t, none)

def nameOf (t : Table) (row : Nat) : String := ((t.rows[row]?).map (·.name)).getD ""

/-- The command that tells the debugger of a row. -/
def commandFor (t : Table) (row : Nat) : Command :=
  if (t.nameOf row).isEmpty then .clearWatch (row + 1) else .setWatch (row + 1) (t.nameOf row)

/-- Takes the next command to be sent. -/
def next (t : Table) : Table × Option Command :=
  match t.pending with
  | [] => (t, none)
  | row :: rest => ({ t with pending := rest }, some (t.commandFor row))

/-- Leaves one blank row at the end, and says whether that changed the table. -/
def normalize (t : Table) : Table × Bool :=
  let named := (t.rows.reverse.dropWhile Entry.isBlank).reverse
  match t.rows.drop named.length with
  | [_] => (t, false)
  | blank :: _ => ({ t with rows := named ++ [blank] }, true)
  | [] => ({ t with rows := named ++ [.blank] }, true)

def clearPending (t : Table) : Table := { t with pending := [] }

/-- Has all named rows sent, and nothing else. -/
def rearm (t : Table) : Table :=
  { t with pending := t.rows.zipIdx.filterMap fun (e, i) => if e.isBlank then none else some i }

def clearValues (t : Table) : Table := { t with rows := t.rows.map fun e => { e with value := "" } }

end Table

end Debugline.Watch
