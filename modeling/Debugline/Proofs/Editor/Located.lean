import Debugline.Proofs.Editor.Lookup
import Debugline.Proofs.Text.Paths

/-! Documents located for paths. A path that is not empty is given the document of that path, or
else one of its base name, or else a new one; and the answer stays the same while documents are
located, marked and scrolled, since a document is opened only where none was found. -/

namespace Debugline.Editor

variable {e : Editor} {doc : DocId} {path : String}

/-- What a path is given, and the documents afterwards. -/
inductive Located (e : Editor) (path : String) : Editor → DocId → Prop
  /-- The earliest document of the very path. -/
  | exact {doc : DocId} (here : e.path? doc = some path)
      (first : ∀ earlier < doc, e.path? earlier ≠ some path) : Located e path e doc
  /-- The earliest document of the base name, as none has the very path. -/
  | named {doc : DocId} {own : String} (other : ∀ doc, e.path? doc ≠ some path)
      (here : e.path? doc = some own) (same : Path.SameName own path)
      (first : ∀ earlier < doc, ∀ q, e.path? earlier = some q → ¬Path.SameName q path) :
      Located e path e doc
  /-- A new document behind all others, as none has the path or the base name. -/
  | opened {e' : Editor}
      (other : ∀ doc q, e.path? doc = some q → q ≠ path ∧ ¬Path.SameName q path)
      (here : e'.doc? e.slots.length = some (.new path (e.disk.text path)))
      (others : ∀ doc ≠ e.slots.length, e'.doc? doc = e.doc? doc) :
      Located e path e' e.slots.length

theorem located_of_locate? (h : e.locate? path = some doc) : e.Located path e doc := by
  obtain ⟨-, hp | ⟨hn, hb⟩⟩ := locate?_eq_some_iff.mp h
  · obtain ⟨here, first⟩ := findPath?_eq_some_iff.mp hp
    exact .exact here first
  · obtain ⟨⟨own, here, same⟩, first⟩ := findBaseName?_eq_some_iff.mp hb
    refine .named hn here (Path.sameName_iff.mpr same) fun earlier he q hq hs => ?_
    exact first earlier he q hq (Path.sameName_iff.mp hs)

/-- If nothing is found, no open document has the path or its base name. -/
theorem ne_of_locate?_eq_none (h : e.locate? path = none) (hne : path ≠ "") {q : String}
    (hq : e.path? doc = some q) : q ≠ path ∧ ¬Path.SameName q path := by
  rw [locate?, if_neg (by simpa using hne), Option.or_eq_none_iff] at h
  obtain ⟨hpath, hname⟩ := h
  refine ⟨fun he => findPath?_eq_none_iff.mp hpath doc (he ▸ hq), fun hs => ?_⟩
  have hnone := (find?_eq_none_iff (Path.baseName · == Path.baseName path)).mp hname doc q hq
  exact hnone (beq_iff_eq.mpr (Path.sameName_iff.mp hs))

theorem located_locateOrOpen (hne : path ≠ "") :
    ∃ e' doc, e.locateOrOpen path = (e', some doc) ∧ e.Located path e' doc := by
  rcases e.locateOrOpen_cases path with ⟨he, -⟩ | ⟨doc, hl, ho⟩ | ⟨-, hl, ho⟩
  · exact absurd he hne
  · exact ⟨e, doc, ho, located_of_locate? hl⟩
  · refine ⟨_, _, ho, .opened (fun _ _ hq => ne_of_locate?_eq_none hl hne hq) ?_ fun doc hd => ?_⟩
    · rw [doc?_openText, if_pos rfl]
    · rw [doc?_openText, if_neg hd]

/-! ### Visits -/

/-- What is done while no document is closed, nor opened but by locating it. -/
inductive Visit
  | locateOrOpen (path : String)
  | addMarker (doc : DocId) (line : Nat) (kind : MarkerKind)
  | removeMarker (doc : DocId) (line : Nat) (kind : MarkerKind)
  | scrollTo (doc : DocId) (line : Nat)
  /-- Somebody writes a file. -/
  | write (path : String) (contents : List UInt8)

def visit (e : Editor) : Visit → Editor
  | .locateOrOpen path => (e.locateOrOpen path).1
  | .addMarker doc line kind => e.addMarker doc line kind
  | .removeMarker doc line kind => e.removeMarker doc line kind
  | .scrollTo doc line => e.scrollTo doc line
  | .write path contents => { e with disk := e.disk.write path contents }

theorem locate?_visit (h : e.locate? path = some doc) (v : Visit) :
    (e.visit v).locate? path = some doc := by
  cases v with
  | locateOrOpen other => exact locate?_locateOrOpen h other
  | addMarker marked line kind => exact (locate?_addMarker e marked line kind path).trans h
  | removeMarker marked line kind => exact (locate?_removeMarker e marked line kind path).trans h
  | scrollTo scrolled line => exact (locate?_scrollTo e scrolled line path).trans h
  | write file contents => exact h

theorem locate?_visits (h : e.locate? path = some doc) (visits : List Visit) :
    (visits.foldl visit e).locate? path = some doc := by
  induction visits generalizing e with
  | nil => exact h
  | cons v visits ih => exact ih (locate?_visit h v)

/-- A path is given a document by its path, else by its base name, else a new one. What a path
finds it goes on to find, whatever is located, marked and scrolled. The empty path finds nothing
and opens nothing. -/
theorem located_and_stays (e : Editor) (path : String) :
    (path ≠ "" → ∃ e' doc, e.locateOrOpen path = (e', some doc) ∧ e.Located path e' doc) ∧
      (∀ doc, e.locate? path = some doc →
        ∀ visits : List Visit, (visits.foldl visit e).locate? path = some doc) ∧
      e.locate? "" = none ∧ e.locateOrOpen "" = (e, none) :=
  ⟨located_locateOrOpen, fun _ h visits => locate?_visits h visits, rfl, rfl⟩

/-- Two documents of one base name, the first of them closed, and a path that goes up: it is
given a document of its own, and the others keep theirs. -/
theorem located_and_stays_of_upward :
    let e := (((((Editor.new .empty).openText "/a/main.p" "").1.openText "b/main.p/." "").1.openText
      "c/main.p" "").1).close 0
    let visits : List Visit := [.locateOrOpen "x/..", .addMarker 1 4 .breakpoint,
      .locateOrOpen "c/main.p", .write "main.p" [0x61], .locateOrOpen "lib.p", .scrollTo 4 2]
    "x/.." ≠ "" ∧ (∃ e' doc, e.locateOrOpen "x/.." = (e', some doc) ∧ e.Located "x/.." e' doc) ∧
      e.locate? "main.p" = some 1 ∧ (visits.foldl visit e).locate? "main.p" = some 1 := by
  intro e visits
  have hne : "x/.." ≠ "" := by decide
  have hl : e.locate? "main.p" = some 1 := by decide +kernel
  exact ⟨hne, (located_and_stays e "x/..").1 hne, hl, (located_and_stays e "main.p").2.1 1 hl visits⟩

end Debugline.Editor
