/-! Sets of line numbers, kept as ascending lists. -/

namespace Debugline

/-- A finite set of lines; the list holds each once, in ascending order. -/
structure LineSet where
  toList : List Nat
  ascending : toList.Pairwise (· < ·) := by simp
  deriving DecidableEq

namespace LineSet

def empty : LineSet := ⟨[], .nil⟩

instance : Inhabited LineSet := ⟨empty⟩

/-- Puts a line at its place in an ascending list. -/
def insertInto (line : Nat) : List Nat → List Nat
  | [] => [line]
  | l :: ls =>
    if line < l then line :: l :: ls
    else if line = l then l :: ls
    else l :: insertInto line ls

theorem mem_insertInto {line x : Nat} {ls : List Nat} :
    x ∈ insertInto line ls ↔ x = line ∨ x ∈ ls := by
  induction ls with
  | nil => simp [insertInto]
  | cons l ls ih => grind [insertInto]

theorem pairwise_insertInto {line : Nat} {ls : List Nat} (h : ls.Pairwise (· < ·)) :
    (insertInto line ls).Pairwise (· < ·) := by
  induction ls with
  | nil => simp [insertInto]
  | cons l ls ih =>
    rw [List.pairwise_cons] at h
    grind [insertInto, mem_insertInto, List.pairwise_cons]

def insert (s : LineSet) (line : Nat) : LineSet :=
  ⟨insertInto line s.toList, pairwise_insertInto s.ascending⟩

def erase (s : LineSet) (line : Nat) : LineSet :=
  ⟨s.toList.filter (· != line), s.ascending.filter _⟩

def contains (s : LineSet) (line : Nat) : Bool := s.toList.contains line

end LineSet

end Debugline
