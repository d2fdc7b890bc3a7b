import Debugline.Proofs.Editor.Places

/-! Where documents are scrolled to. To show a line of a path scrolls the one document that the
path finds, which is opened if none is found; to open documents and to mark lines scrolls none. -/

namespace Debugline.Editor

variable {e : Editor}

theorem scrolledTo?_modifyDoc (e : Editor) {f : Document → Document}
    (h : ∀ d, (f d).scroll = d.scroll) (changed doc : DocId) :
    (e.modifyDoc changed f).scrolledTo? doc = e.scrolledTo? doc := by
  simp only [scrolledTo?, doc?_modifyDoc]
  split_ifs
  · cases e.doc? doc <;> simp [h]
  · rfl

theorem scroll_setMarkers (d : Document) (kind : MarkerKind) (s : LineSet) :
    (d.setMarkers kind s).scroll = d.scroll := by
  cases kind <;> rfl

theorem scrolledTo?_addMarker (e : Editor) (marked : DocId) (line : Nat) (kind : MarkerKind)
    (doc : DocId) : (e.addMarker marked line kind).scrolledTo? doc = e.scrolledTo? doc :=
  e.scrolledTo?_modifyDoc (fun d => scroll_setMarkers d kind _) marked doc

theorem scrolledTo?_removeMarker (e : Editor) (marked : DocId) (line : Nat) (kind : MarkerKind)
    (doc : DocId) : (e.removeMarker marked line kind).scrolledTo? doc = e.scrolledTo? doc :=
  e.scrolledTo?_modifyDoc (fun d => scroll_setMarkers d kind _) marked doc

theorem doc?_length (e : Editor) : e.doc? e.slots.length = none := by simp [doc?]

/-- A document that is opened was not scrolled yet. -/
theorem scrolledTo?_openText (e : Editor) (path text : String) (doc : DocId) :
    (e.openText path text).1.scrolledTo? doc = e.scrolledTo? doc := by
  simp only [scrolledTo?, doc?_openText]
  split_ifs with h
  · rw [h, doc?_length]
    rfl
  · rfl

theorem scrolledTo?_locateOrOpen (e : Editor) (path : String) (doc : DocId) :
    (e.locateOrOpen path).1.scrolledTo? doc = e.scrolledTo? doc := by
  rcases e.locateOrOpen_cases path with ⟨-, ho⟩ | ⟨_, -, ho⟩ | ⟨-, -, ho⟩
  · rw [ho]
  · rw [ho]
  · rw [ho, scrolledTo?_openText]

theorem scrolledTo?_takeOff (e : Editor) (marker : Option (String × Nat)) (doc : DocId) :
    (e.takeOff marker).scrolledTo? doc = e.scrolledTo? doc := by
  unfold takeOff
  split
  · rfl
  · split
    · rfl
    · exact e.scrolledTo?_removeMarker _ _ _ doc

theorem scrolledTo?_putOn (e : Editor) (path : String) (line : Nat) (doc : DocId) :
    (e.putOn path line).scrolledTo? doc = e.scrolledTo? doc := by
  unfold putOn
  split
  · rfl
  · next opened marked ho =>
    obtain rfl : (e.locateOrOpen path).1 = opened := congrArg Prod.fst ho
    rw [scrolledTo?_addMarker, scrolledTo?_locateOrOpen]

/-! ### Lines that are shown -/

/-- Scrolls the document of a path. -/
def showLine (e : Editor) (path : String) (line : Nat) : Editor :=
  match e.locateOrOpen path with
  | (_, none) => e
  | (opened, some doc) => opened.scrollTo doc line

/-- A line of a path is shown: in the document that the path finds, or else in one that is opened by
that path; and in no document without a path. Nothing else of any document changes. -/
structure Shows (path : String) (line : Nat) (e e' : Editor) : Prop where
  nowhere : path = "" → e' = e
  one : path ≠ "" → ∃ doc d, e'.locate? path = some doc ∧
    e'.doc? doc = some { d with scroll := some line } ∧
    (∀ other, other ≠ doc → e'.doc? other = e.doc? other) ∧
    (e.locate? path = some doc ∧ e.doc? doc = some d ∨
      e.locate? path = none ∧ doc = e.slots.length ∧ d = .new path (e.disk.text path))

theorem doc?_scrollTo {doc : DocId} {d : Document} (h : e.doc? doc = some d) (line : Nat) :
    (e.scrollTo doc line).doc? doc = some { d with scroll := some line } := by
  rw [scrollTo, doc?_modifyDoc, if_pos rfl, h]
  rfl

theorem doc?_scrollTo_of_ne {doc other : DocId} (h : other ≠ doc) (line : Nat) :
    (e.scrollTo doc line).doc? other = e.doc? other := by
  rw [scrollTo, doc?_modifyDoc, if_neg (Ne.symm h)]

theorem exists_doc?_of_locate? {path : String} {doc : DocId} (h : e.locate? path = some doc) :
    ∃ d, e.doc? doc = some d := by
  have hp := isSome_path?_of_locate? h
  rw [path?, Option.isSome_map] at hp
  exact Option.isSome_iff_exists.mp hp

theorem showLine_shows (e : Editor) (path : String) (line : Nat) :
    Shows path line e (e.showLine path line) := by
  unfold showLine
  rcases e.locateOrOpen_cases path with ⟨he, ho⟩ | ⟨doc, hl, ho⟩ | ⟨hne, hl, ho⟩
  · rw [ho]
    exact ⟨fun _ => rfl, fun hne => absurd he hne⟩
  · rw [ho]
    obtain ⟨d, hd⟩ := exists_doc?_of_locate? hl
    refine ⟨fun he => absurd he (locate?_eq_some_iff.mp hl).1, fun _ =>
      ⟨doc, d, ?_, doc?_scrollTo hd line, ?_, .inl ⟨hl, hd⟩⟩⟩
    · exact (locate?_scrollTo ..).trans hl
    · exact fun other hother => doc?_scrollTo_of_ne hother line
  · obtain ⟨doc, hdoc, hfound⟩ := locateOrOpen_of_ne (e := e) hne
    rw [ho] at hdoc hfound ⊢
    obtain rfl := Option.some.inj hdoc
    have hd : (e.openText path (e.disk.text path)).1.doc? e.slots.length =
        some (.new path (e.disk.text path)) := by
      rw [doc?_openText, if_pos rfl]
    refine ⟨fun he => absurd he hne, fun _ =>
      ⟨_, _, ?_, doc?_scrollTo hd line, fun other hother => ?_, .inr ⟨hl, rfl, rfl⟩⟩⟩
    · exact (locate?_scrollTo ..).trans hfound
    · rw [doc?_scrollTo_of_ne hother, doc?_openText, if_neg hother]

end Debugline.Editor
