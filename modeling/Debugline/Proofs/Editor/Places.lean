import Debugline.Proofs.Editor.Lookup
import Mathlib.Data.Set.Insert
import Mathlib.Data.Set.Subsingleton
import Mathlib.Order.BooleanAlgebra.Set

/-! The places that carry the marker of the current line, over all documents. Setting and
removing one changes that place alone, and a document that is opened has none. -/

namespace Debugline

theorem Document.markers_setMarkers (d : Document) (kind other : MarkerKind) (s : LineSet) :
    (d.setMarkers kind s).markers other = if other = kind then s else d.markers other := by
  cases kind <;> cases other <;> rfl

namespace Editor

variable {e : Editor}

theorem hasMarker_iff_doc? {doc : DocId} {line : Nat} {kind : MarkerKind} :
    e.hasMarker doc line kind ↔ ∃ d, e.doc? doc = some d ∧ line ∈ (d.markers kind).toList := by
  simp only [hasMarker_iff, doc?_eq_some_iff]

theorem hasMarker_modifyDoc (e : Editor) {f : Document → Document} {kind : MarkerKind}
    (h : ∀ d, (f d).markers kind = d.markers kind) (changed doc : DocId) (line : Nat) :
    (e.modifyDoc changed f).hasMarker doc line kind = e.hasMarker doc line kind := by
  rw [Bool.eq_iff_iff, hasMarker_iff_doc?, hasMarker_iff_doc?, doc?_modifyDoc]
  split_ifs
  · cases e.doc? doc <;> simp [h]
  · rfl

theorem hasMarker_addMarker_iff {doc doc' : DocId} {line line' : Nat} {kind kind' : MarkerKind} :
    (e.addMarker doc line kind).hasMarker doc' line' kind' ↔
      e.hasMarker doc' line' kind' ∨
        (doc' = doc ∧ line' = line ∧ kind' = kind) ∧ (e.path? doc).isSome := by
  unfold addMarker path?
  simp only [hasMarker_iff_doc?, doc?_modifyDoc]
  by_cases hd : doc = doc'
  · subst hd
    cases e.doc? doc with
    | none => simp
    | some d =>
      simp only [if_true, Option.map_some, Option.some.injEq, exists_eq_left', true_and,
        Option.isSome_some, and_true, Document.markers_setMarkers]
      split_ifs with hk
      · subst hk
        simp [LineSet.insert, LineSet.mem_insertInto, or_comm]
      · simp [hk]
  · simp [hd, Ne.symm hd]

theorem hasMarker_removeMarker_iff {doc doc' : DocId} {line line' : Nat}
    {kind kind' : MarkerKind} :
    (e.removeMarker doc line kind).hasMarker doc' line' kind' ↔
      e.hasMarker doc' line' kind' ∧ ¬(doc' = doc ∧ line' = line ∧ kind' = kind) := by
  unfold removeMarker
  simp only [hasMarker_iff_doc?, doc?_modifyDoc]
  by_cases hd : doc = doc'
  · subst hd
    cases e.doc? doc with
    | none => simp
    | some d =>
      simp only [if_true, Option.map_some, Option.some.injEq, exists_eq_left', true_and,
        Document.markers_setMarkers]
      split_ifs with hk
      · subst hk
        simp [LineSet.erase]
      · simp [hk]
  · simp [hd, Ne.symm hd]

/-- The places with the marker of the current line. -/
def places (e : Editor) : Set (DocId × Nat) := {p | e.hasMarker p.1 p.2 .currentLine}

theorem mem_places {doc : DocId} {line : Nat} :
    (doc, line) ∈ e.places ↔ e.hasMarker doc line .currentLine := Iff.rfl

theorem places_new (disk : Disk) : (Editor.new disk).places = ∅ := by
  ext p
  simp [places, hasMarker, markers, doc?, Editor.new]

theorem isSome_path?_of_mem_places {p : DocId × Nat} (h : p ∈ e.places) :
    (e.path? p.1).isSome := by
  obtain ⟨d, hd, -⟩ := hasMarker_iff_doc?.mp h
  simp [path?, hd]

theorem places_addMarker {doc : DocId} (h : (e.path? doc).isSome) (line : Nat) :
    (e.addMarker doc line .currentLine).places = insert (doc, line) e.places := by
  ext ⟨doc', line'⟩
  rw [mem_places, hasMarker_addMarker_iff, Set.mem_insert_iff, mem_places, or_comm]
  simp [h]

theorem places_removeMarker (e : Editor) (doc : DocId) (line : Nat) :
    (e.removeMarker doc line .currentLine).places = e.places \ {(doc, line)} := by
  ext ⟨doc', line'⟩
  rw [mem_places, hasMarker_removeMarker_iff, Set.mem_sdiff, mem_places]
  simp

theorem places_modifyDoc (e : Editor) {f : Document → Document}
    (h : ∀ d, (f d).current = d.current) (changed : DocId) :
    (e.modifyDoc changed f).places = e.places := by
  have hm : ∀ d, (f d).markers .currentLine = d.markers .currentLine := h
  ext ⟨doc, line⟩
  exact Bool.eq_iff_iff.mp (e.hasMarker_modifyDoc hm changed doc line)

theorem places_scrollTo (e : Editor) (doc : DocId) (line : Nat) :
    (e.scrollTo doc line).places = e.places :=
  e.places_modifyDoc (f := fun d => { d with scroll := some line }) (fun _ => rfl) doc

theorem places_addMarker_of_ne (e : Editor) {kind : MarkerKind} (h : kind ≠ .currentLine)
    (doc : DocId) (line : Nat) : (e.addMarker doc line kind).places = e.places := by
  ext ⟨doc', line'⟩
  rw [mem_places, hasMarker_addMarker_iff]
  simp [mem_places, h.symm]

theorem places_removeMarker_of_ne (e : Editor) {kind : MarkerKind} (h : kind ≠ .currentLine)
    (doc : DocId) (line : Nat) : (e.removeMarker doc line kind).places = e.places := by
  ext ⟨doc', line'⟩
  rw [mem_places, hasMarker_removeMarker_iff]
  simp [mem_places, h.symm]

theorem places_openText (e : Editor) (path text : String) :
    (e.openText path text).1.places = e.places := by
  ext ⟨doc, line⟩
  simp only [mem_places, hasMarker_iff, openText, List.getElem?_append]
  split_ifs with hlt
  · rfl
  · rw [List.getElem?_eq_none (Nat.le_of_not_lt hlt)]
    cases hd : doc - e.slots.length <;>
      simp [Document.new, Document.markers, LineSet.empty]

theorem places_openPath (e : Editor) (path : String) : (e.openPath path).1.places = e.places := by
  unfold openPath
  split
  · rfl
  · exact places_openText e path _

theorem places_locateOrOpen (e : Editor) (path : String) :
    (e.locateOrOpen path).1.places = e.places := by
  rcases e.locateOrOpen_cases path with ⟨-, ho⟩ | ⟨_, -, ho⟩ | ⟨-, -, ho⟩
  · rw [ho]
  · rw [ho]
  · rw [ho, places_openText]

theorem places_close (e : Editor) (closed : DocId) :
    (e.close closed).places = {p ∈ e.places | p.1 ≠ closed} := by
  ext ⟨doc, line⟩
  simp only [Set.mem_ofPred_eq, mem_places, hasMarker_iff, close, List.getElem?_modify]
  split_ifs with h
  · simp [h]
  · simp [Ne.symm h]

/-! ### Markers by path -/

/-- Where a marker is looked for that was put at a line of a path. -/
def sought (e : Editor) (marker : Option (String × Nat)) : Set (DocId × Nat) :=
  {p | ∃ path, marker = some (path, p.2) ∧ e.locate? path = some p.1}

theorem sought_none (e : Editor) : e.sought none = ∅ := by
  ext p
  simp [sought]

theorem sought_some {doc : DocId} {path : String} (h : e.locate? path = some doc) (line : Nat) :
    e.sought (some (path, line)) = {(doc, line)} := by
  ext ⟨doc', line'⟩
  simp only [sought, Set.mem_ofPred_eq, Option.some.injEq, Prod.mk.injEq, Set.mem_singleton_iff]
  constructor
  · rintro ⟨_, ⟨rfl, rfl⟩, hl⟩
    exact ⟨Option.some.inj (hl.symm.trans h), rfl⟩
  · rintro ⟨rfl, rfl⟩
    exact ⟨path, ⟨rfl, rfl⟩, h⟩

theorem sought_subsingleton (e : Editor) (marker : Option (String × Nat)) :
    (e.sought marker).Subsingleton := by
  rintro ⟨doc, line⟩ ⟨path, rfl, hl⟩ ⟨doc', line'⟩ ⟨path', hm, hl'⟩
  cases hm
  obtain rfl : doc = doc' := Option.some.inj (hl.symm.trans hl')
  rfl

/-- Takes a marker off where it is looked for. -/
def takeOff (e : Editor) (marker : Option (String × Nat)) : Editor :=
  match marker with
  | none => e
  | some (path, line) =>
    match e.locate? path with
    | none => e
    | some doc => e.removeMarker doc line .currentLine

theorem places_takeOff (e : Editor) (marker : Option (String × Nat)) :
    (e.takeOff marker).places = e.places \ e.sought marker := by
  unfold takeOff
  split
  · rw [sought_none, Set.sdiff_empty]
  · next path line =>
    split
    · next hl =>
      have hnone : e.sought (some (path, line)) = ∅ := by
        ext p
        simp [sought, hl]
      rw [hnone, Set.sdiff_empty]
    · next doc hl => rw [places_removeMarker, sought_some hl]

/-- Markers of other kinds stay. -/
theorem hasMarker_takeOff_iff {marker : Option (String × Nat)} {doc : DocId} {line : Nat}
    {kind : MarkerKind} :
    (e.takeOff marker).hasMarker doc line kind ↔
      e.hasMarker doc line kind ∧ ¬(kind = .currentLine ∧ (doc, line) ∈ e.sought marker) := by
  by_cases hk : kind = .currentLine
  · subst hk
    have hp := Set.ext_iff.mp (e.places_takeOff marker) (doc, line)
    simpa [mem_places] using hp
  · simp only [hk, false_and, not_false_iff, and_true]
    unfold takeOff
    split
    · rfl
    · split
      · rfl
      · rw [hasMarker_removeMarker_iff]
        simp [hk]

/-- Marks a line of the document of a path. -/
def putOn (e : Editor) (path : String) (line : Nat) : Editor :=
  match e.locateOrOpen path with
  | (_, none) => e
  | (e, some doc) => e.addMarker doc line .currentLine

theorem putOn_empty (e : Editor) (line : Nat) : e.putOn "" line = e := rfl

/-- A path that is not empty has its line marked where it is looked for. -/
theorem places_putOn {path : String} (h : path ≠ "") (e : Editor) (line : Nat) :
    ∃ doc, (e.putOn path line).locate? path = some doc ∧
      (e.putOn path line).places = insert (doc, line) e.places := by
  obtain ⟨doc, hdoc, hl⟩ := locateOrOpen_of_ne (e := e) h
  have hp : e.putOn path line = (e.locateOrOpen path).1.addMarker doc line .currentLine := by
    unfold putOn
    split
    · next ho => simp [ho] at hdoc
    · next ho =>
      rw [ho] at hdoc ⊢
      rw [Option.some.inj hdoc]
  refine ⟨doc, by rw [hp, locate?_addMarker, hl], ?_⟩
  rw [hp, places_addMarker (isSome_path?_of_locate? hl), places_locateOrOpen]

end Editor

end Debugline
