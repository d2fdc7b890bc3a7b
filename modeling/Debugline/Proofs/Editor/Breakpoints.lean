import Debugline.Breakpoint
import Mathlib.Data.List.Basic

/-! The breakpoints of the open documents. They are the markers that the editor shows,
and only a change of breakpoint markers changes them: opening a document, scrolling it
and marking the current line do not. -/

namespace Debugline

namespace Editor

theorem doc?_eq_some_iff {e : Editor} {doc : DocId} {d : Document} :
    e.doc? doc = some d ↔ e.slots[doc]? = some (some d) := Option.join_eq_some_iff

theorem path?_eq_some_iff {e : Editor} {doc : DocId} {path : String} :
    e.path? doc = some path ↔ ∃ d, e.slots[doc]? = some (some d) ∧ d.path = path := by
  simp only [path?, Option.map_eq_some_iff, doc?_eq_some_iff]

theorem mem_opened {e : Editor} {doc : DocId} {d : Document} :
    (doc, d) ∈ e.opened ↔ e.doc? doc = some d := by
  rw [doc?_eq_some_iff]
  simp [opened, List.mem_filterMap, List.mem_zipIdx_iff_getElem?]

theorem hasMarker_iff {e : Editor} {doc : DocId} {line : Nat} {kind : MarkerKind} :
    e.hasMarker doc line kind ↔
      ∃ d, e.slots[doc]? = some (some d) ∧ line ∈ (d.markers kind).toList := by
  simp only [← doc?_eq_some_iff, hasMarker, markers, List.contains_iff_mem]
  cases e.doc? doc <;> simp

end Editor

namespace Breakpoint

/-- The breakpoints of a place for a document; one that was closed has none. -/
def ofSlot : Option Document → List Location
  | none => []
  | some d => d.breakpoints.toList.map (⟨d.path, ·⟩)

theorem flatMap_opened (slots : List (Option Document)) (first : Nat) :
    ((slots.zipIdx first).filterMap fun (d, i) => d.map (i, ·)).flatMap
      (fun (_, d) => ofSlot (some d)) = slots.flatMap ofSlot := by
  induction slots generalizing first with
  | nil => rfl
  | cons slot slots ih =>
    have ih := ih (first + 1)
    cases slot with
    | none => simpa [ofSlot] using ih
    | some d => simpa using ih

theorem ofEditor_eq (e : Editor) : ofEditor e = e.slots.flatMap ofSlot := flatMap_opened e.slots 0

theorem mem_ofSlot {slot : Option Document} {l : Location} :
    l ∈ ofSlot slot ↔ ∃ d, slot = some d ∧ d.path = l.file ∧ l.line ∈ d.breakpoints.toList := by
  cases slot with
  | none => simp [ofSlot]
  | some d =>
    simp only [ofSlot, List.mem_map, Option.some.injEq, exists_eq_left']
    constructor
    · rintro ⟨line, hline, rfl⟩
      exact ⟨rfl, hline⟩
    · rintro ⟨hpath, hline⟩
      exact ⟨l.line, hline, by rw [hpath]⟩

/-- The breakpoints are those that the editor shows. -/
theorem mem_ofEditor {e : Editor} {l : Location} :
    l ∈ ofEditor e ↔ ∃ doc, e.path? doc = some l.file ∧ e.hasMarker doc l.line .breakpoint := by
  simp only [ofEditor_eq, List.mem_flatMap, mem_ofSlot, Editor.path?_eq_some_iff,
    Editor.hasMarker_iff]
  constructor
  · rintro ⟨_, hslot, d, rfl, hpath, hline⟩
    obtain ⟨doc, hdoc⟩ := List.mem_iff_getElem?.mp hslot
    exact ⟨doc, ⟨d, hdoc, hpath⟩, d, hdoc, hline⟩
  · rintro ⟨doc, ⟨d, hdoc, hpath⟩, d', hdoc', hline⟩
    obtain rfl : d = d' := by simpa using hdoc.symm.trans hdoc'
    exact ⟨some d, List.mem_of_getElem? hdoc, d, rfl, hpath, hline⟩

theorem flatMap_modify {slots : List (Option Document)} {doc : DocId}
    {f : Option Document → Option Document} (h : ∀ slot, ofSlot (f slot) = ofSlot slot) :
    (slots.modify doc f).flatMap ofSlot = slots.flatMap ofSlot := by
  induction slots generalizing doc with
  | nil => simp
  | cons slot slots ih => cases doc <;> simp [h, ih]

/-- A change of documents that keeps paths and breakpoints keeps the list. -/
theorem ofEditor_modifyDoc (e : Editor) (doc : DocId) {f : Document → Document}
    (h : ∀ d, (f d).path = d.path ∧ (f d).breakpoints = d.breakpoints) :
    ofEditor (e.modifyDoc doc f) = ofEditor e := by
  rw [ofEditor_eq, ofEditor_eq]
  apply flatMap_modify
  rintro (_ | d)
  · rfl
  · simp [ofSlot, h]

@[simp]
theorem ofEditor_addMarker_currentLine (e : Editor) (doc : DocId) (line : Nat) :
    ofEditor (e.addMarker doc line .currentLine) = ofEditor e :=
  ofEditor_modifyDoc e doc fun _ => ⟨rfl, rfl⟩

@[simp]
theorem ofEditor_removeMarker_currentLine (e : Editor) (doc : DocId) (line : Nat) :
    ofEditor (e.removeMarker doc line .currentLine) = ofEditor e :=
  ofEditor_modifyDoc e doc fun _ => ⟨rfl, rfl⟩

@[simp]
theorem ofEditor_scrollTo (e : Editor) (doc : DocId) (line : Nat) :
    ofEditor (e.scrollTo doc line) = ofEditor e :=
  ofEditor_modifyDoc e doc fun _ => ⟨rfl, rfl⟩

@[simp]
theorem ofEditor_openText (e : Editor) (path text : String) :
    ofEditor (e.openText path text).1 = ofEditor e := by
  simp [ofEditor_eq, Editor.openText, ofSlot, Document.new, LineSet.empty]

@[simp]
theorem ofEditor_openPath (e : Editor) (path : String) :
    ofEditor (e.openPath path).1 = ofEditor e := by
  rw [Editor.openPath]
  split
  · rfl
  · exact ofEditor_openText _ _ _

/-- A document opened on the way has no breakpoints. -/
theorem ofEditor_of_locateOrOpen {e e' : Editor} {path : String} {doc : Option DocId}
    (h : e.locateOrOpen path = (e', doc)) : ofEditor e' = ofEditor e := by
  obtain rfl : (e.locateOrOpen path).1 = e' := congrArg Prod.fst h
  rw [Editor.locateOrOpen]
  split
  · rfl
  · split
    · rfl
    · exact ofEditor_openPath e path

end Breakpoint

end Debugline
