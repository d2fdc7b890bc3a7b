import Debugline.Proofs.Editor.Breakpoints

/-! Which document a path finds. Only the paths of the open documents and their order count,
so a document that is found stays found while others are opened behind it or closed, unless
one of them is opened by the very path that is looked for. -/

namespace Debugline.Editor

variable {e e' : Editor} {doc : DocId} {path : String}

theorem lt_of_path? (h : e.path? doc = some path) : doc < e.slots.length := by
  obtain ⟨d, hd, -⟩ := path?_eq_some_iff.mp h
  exact (List.getElem?_eq_some_iff.mp hd).1

/-! ### The earliest document -/

/-- A place holds a document whose path has a property. -/
theorem any_slot (p : String → Bool) (h : doc < e.slots.length) :
    e.slots[doc].any (fun d => p d.path) ↔ ∃ q, e.path? doc = some q ∧ p q := by
  have hslot : e.slots[doc]? = some e.slots[doc] := List.getElem?_eq_getElem h
  cases hd : e.slots[doc] with
  | none => simp [path?, doc?, hslot, hd]
  | some d => simp [path?, doc?, hslot, hd]

theorem find?_eq_some_iff (p : String → Bool) :
    e.find? (fun d => p d.path) = some doc ↔
      (∃ q, e.path? doc = some q ∧ p q) ∧
        ∀ earlier < doc, ∀ q, e.path? earlier = some q → ¬ p q := by
  unfold find?
  rw [List.findIdx?_eq_some_iff_getElem]
  constructor
  · rintro ⟨hlt, hp, hbefore⟩
    refine ⟨(any_slot p hlt).mp hp, fun earlier he q hq hpq => ?_⟩
    exact hbefore earlier he ((any_slot p _).mpr ⟨q, hq, hpq⟩)
  · rintro ⟨⟨q, hq, hpq⟩, hbefore⟩
    refine ⟨lt_of_path? hq, (any_slot p _).mpr ⟨q, hq, hpq⟩, fun earlier he hp => ?_⟩
    obtain ⟨q', hq', hpq'⟩ := (any_slot p _).mp hp
    exact hbefore earlier he q' hq' hpq'

theorem find?_eq_none_iff (p : String → Bool) :
    e.find? (fun d => p d.path) = none ↔ ∀ doc q, e.path? doc = some q → ¬ p q := by
  unfold find?
  rw [List.findIdx?_eq_none_iff]
  constructor
  · intro h doc q hq hpq
    have hany := (any_slot p (lt_of_path? hq)).mpr ⟨q, hq, hpq⟩
    simp [h _ (List.getElem_mem (lt_of_path? hq))] at hany
  · intro h slot hs
    obtain ⟨doc, hlt, rfl⟩ := List.getElem_of_mem hs
    rw [← Bool.not_eq_true, any_slot]
    rintro ⟨q, hq, hpq⟩
    exact h doc q hq hpq

theorem findPath?_eq_some_iff :
    e.findPath? path = some doc ↔
      e.path? doc = some path ∧ ∀ earlier < doc, e.path? earlier ≠ some path := by
  refine (find?_eq_some_iff (· == path)).trans ?_
  simp only [beq_iff_eq]
  grind

theorem findBaseName?_eq_some_iff {name : String} :
    e.findBaseName? name = some doc ↔
      (∃ q, e.path? doc = some q ∧ Path.baseName q = name) ∧
        ∀ earlier < doc, ∀ q, e.path? earlier = some q → Path.baseName q ≠ name := by
  refine (find?_eq_some_iff (Path.baseName · == name)).trans ?_
  simp only [beq_iff_eq]

theorem findPath?_eq_none_iff : e.findPath? path = none ↔ ∀ doc, e.path? doc ≠ some path := by
  refine (find?_eq_none_iff (· == path)).trans ?_
  simp only [beq_iff_eq]
  grind

/-- A path finds the earliest document of that path, or without one the earliest document of
the same base name. -/
theorem locate?_eq_some_iff :
    e.locate? path = some doc ↔ path ≠ "" ∧
      (e.findPath? path = some doc ∨
        (∀ other, e.path? other ≠ some path) ∧
          e.findBaseName? (Path.baseName path) = some doc) := by
  unfold locate?
  rw [← findPath?_eq_none_iff]
  cases e.findPath? path <;> simp [String.isEmpty_iff]

theorem isSome_path?_of_locate? (h : e.locate? path = some doc) : (e.path? doc).isSome := by
  obtain ⟨-, hp | ⟨-, hb⟩⟩ := locate?_eq_some_iff.mp h
  · rw [(findPath?_eq_some_iff.mp hp).1]
    rfl
  · obtain ⟨⟨q, hq, -⟩, -⟩ := findBaseName?_eq_some_iff.mp hb
    rw [hq]
    rfl

/-- A document that is found stays found as long as it is open, no document appears before it,
and none appears that has the very path. -/
theorem locate?_mono (h : e.locate? path = some doc) (keep : e'.path? doc = e.path? doc)
    (before : ∀ earlier < doc, ∀ q, e'.path? earlier = some q → e.path? earlier = some q)
    (exact : (∀ other, e.path? other ≠ some path) → ∀ other, e'.path? other ≠ some path) :
    e'.locate? path = some doc := by
  obtain ⟨hne, hp | ⟨hn, hb⟩⟩ := locate?_eq_some_iff.mp h
  · obtain ⟨hp, hbefore⟩ := findPath?_eq_some_iff.mp hp
    refine locate?_eq_some_iff.mpr ⟨hne, .inl (findPath?_eq_some_iff.mpr ⟨keep.trans hp, ?_⟩)⟩
    exact fun earlier he hq => hbefore earlier he (before earlier he path hq)
  · obtain ⟨hq, hbefore⟩ := findBaseName?_eq_some_iff.mp hb
    refine locate?_eq_some_iff.mpr ⟨hne, .inr ⟨exact hn, findBaseName?_eq_some_iff.mpr ⟨?_, ?_⟩⟩⟩
    · rwa [keep]
    · exact fun earlier he q hq => hbefore earlier he q (before earlier he q hq)

theorem locate?_congr (h : ∀ doc, e'.path? doc = e.path? doc) (path : String) :
    e'.locate? path = e.locate? path := by
  refine Option.ext fun doc => ⟨fun hl => ?_, fun hl => ?_⟩
  · exact locate?_mono hl (h doc).symm (fun d _ q hq => (h d).trans hq)
      fun hn d hd => hn d ((h d).trans hd)
  · exact locate?_mono hl (h doc) (fun d _ q hq => (h d).symm.trans hq)
      fun hn d hd => hn d ((h d).symm.trans hd)

/-! ### Documents opened and closed -/

theorem doc?_openText (e : Editor) (path text : String) (doc : DocId) :
    (e.openText path text).1.doc? doc =
      if doc = e.slots.length then some (.new path text) else e.doc? doc := by
  simp only [doc?, openText]
  rcases Nat.lt_trichotomy doc e.slots.length with hlt | rfl | hgt
  · rw [List.getElem?_append_left hlt, if_neg (Nat.ne_of_lt hlt)]
  · simp
  · rw [List.getElem?_eq_none (by simp; omega), List.getElem?_eq_none (by omega),
      if_neg (Nat.ne_of_gt hgt)]

theorem path?_openText (e : Editor) (path text : String) (doc : DocId) :
    (e.openText path text).1.path? doc =
      if doc = e.slots.length then some path else e.path? doc := by
  rw [path?, doc?_openText]
  split_ifs <;> rfl

theorem path?_openText_of_some (h : e.path? doc = some path) (opened text : String) :
    (e.openText opened text).1.path? doc = e.path? doc := by
  rw [path?_openText, if_neg (Nat.ne_of_lt (lt_of_path? h))]

theorem path?_openPath_of_some (h : e.path? doc = some path) (opened : String) :
    (e.openPath opened).1.path? doc = e.path? doc := by
  unfold openPath
  split
  · rfl
  · exact path?_openText_of_some h opened _

theorem path?_close (e : Editor) (closed doc : DocId) :
    (e.close closed).path? doc = if doc = closed then none else e.path? doc := by
  simp only [path?, doc?, close, List.getElem?_modify]
  split_ifs with h h' h'
  · cases e.slots[doc]? <;> rfl
  · exact absurd h.symm h'
  · exact absurd h'.symm h
  · simp

theorem doc?_modifyDoc (e : Editor) (changed : DocId) (f : Document → Document) (doc : DocId) :
    (e.modifyDoc changed f).doc? doc =
      if changed = doc then (e.doc? doc).map f else e.doc? doc := by
  simp only [doc?, modifyDoc, List.getElem?_modify]
  split_ifs
  · rcases e.slots[doc]? with _ | _ | d <;> rfl
  · simp

theorem path?_modifyDoc (e : Editor) {f : Document → Document} (h : ∀ d, (f d).path = d.path)
    (changed doc : DocId) : (e.modifyDoc changed f).path? doc = e.path? doc := by
  simp only [path?, doc?_modifyDoc]
  split_ifs
  · cases e.doc? doc <;> simp [h]
  · rfl

theorem locate?_modifyDoc (e : Editor) {f : Document → Document} (h : ∀ d, (f d).path = d.path)
    (changed : DocId) (path : String) : (e.modifyDoc changed f).locate? path = e.locate? path :=
  locate?_congr (e.path?_modifyDoc h changed) path

theorem path_setMarkers (d : Document) (kind : MarkerKind) (s : LineSet) :
    (d.setMarkers kind s).path = d.path := by
  cases kind <;> rfl

@[simp]
theorem locate?_addMarker (e : Editor) (doc : DocId) (line : Nat) (kind : MarkerKind)
    (path : String) : (e.addMarker doc line kind).locate? path = e.locate? path :=
  e.locate?_modifyDoc (fun d => path_setMarkers d kind _) doc path

@[simp]
theorem locate?_removeMarker (e : Editor) (doc : DocId) (line : Nat) (kind : MarkerKind)
    (path : String) : (e.removeMarker doc line kind).locate? path = e.locate? path :=
  e.locate?_modifyDoc (fun d => path_setMarkers d kind _) doc path

@[simp]
theorem locate?_scrollTo (e : Editor) (doc : DocId) (line : Nat) (path : String) :
    (e.scrollTo doc line).locate? path = e.locate? path :=
  e.locate?_modifyDoc (f := fun d => { d with scroll := some line }) (fun _ => rfl) doc path

/-- Opening another document loses no document that is found, unless it is opened by the very
path that found one of the same base name. -/
theorem locate?_openText (h : e.locate? path = some doc) {opened : String}
    (other : opened = path → e.path? doc = some path) (text : String) :
    (e.openText opened text).1.locate? path = some doc := by
  have hlt : ∀ {found q}, e.path? found = some q → found ≠ e.slots.length :=
    fun hq => Nat.ne_of_lt (lt_of_path? hq)
  obtain ⟨q, hq⟩ := Option.isSome_iff_exists.mp (isSome_path?_of_locate? h)
  refine locate?_mono h ?_ (fun earlier he q' hq' => ?_) fun hn found hfound => ?_
  · rw [path?_openText, if_neg (hlt hq)]
  · rwa [path?_openText, if_neg (Nat.ne_of_lt (Nat.lt_trans he (lt_of_path? hq)))] at hq'
  · rw [path?_openText] at hfound
    split_ifs at hfound
    · exact hn doc (other (Option.some.inj hfound))
    · exact hn found hfound

theorem locate?_openPath (h : e.locate? path = some doc) {opened : String}
    (other : opened = path → e.path? doc = some path) :
    (e.openPath opened).1.locate? path = some doc := by
  unfold openPath
  split
  · exact h
  · exact locate?_openText h other _

theorem locate?_close (h : e.locate? path = some doc) {closed : DocId} (other : doc ≠ closed) :
    (e.close closed).locate? path = some doc := by
  have hpath : ∀ {found q}, (e.close closed).path? found = some q → e.path? found = some q := by
    intro found q hq
    rw [path?_close] at hq
    split_ifs at hq
    exact hq
  refine locate?_mono h ?_ (fun _ _ _ hq => hpath hq) fun hn found hf => hn found (hpath hf)
  rw [path?_close, if_neg other]

/-- With a document of the very path, no other is found. -/
theorem path?_of_locate? (h : e.locate? path = some doc) {other : DocId}
    (there : e.path? other = some path) : e.path? doc = some path := by
  obtain ⟨-, hp | ⟨hn, -⟩⟩ := locate?_eq_some_iff.mp h
  · exact (findPath?_eq_some_iff.mp hp).1
  · exact absurd there (hn other)

theorem exists_path?_openText (e : Editor) (path text : String) :
    ∃ doc, (e.openText path text).1.path? doc = some path :=
  ⟨e.slots.length, by rw [path?_openText, if_pos rfl]⟩

theorem exists_path?_openPath (e : Editor) (path : String) :
    ∃ doc, (e.openPath path).1.path? doc = some path := by
  unfold openPath
  split
  · next found hf => exact ⟨found, (findPath?_eq_some_iff.mp hf).1⟩
  · exact e.exists_path?_openText path _

/-! ### Documents located or opened -/

theorem findPath?_of_locate? (h : e.locate? path = none) (hne : path ≠ "") :
    e.findPath? path = none := by
  rw [locate?, if_neg (by simpa using hne)] at h
  exact (Option.or_eq_none_iff.mp h).1

/-- A document is opened for a path only if none is found. -/
theorem locateOrOpen_cases (e : Editor) (path : String) :
    (path = "" ∧ e.locateOrOpen path = (e, none)) ∨
      (∃ doc, e.locate? path = some doc ∧ e.locateOrOpen path = (e, some doc)) ∨
      path ≠ "" ∧ e.locate? path = none ∧
        e.locateOrOpen path = ((e.openText path (e.disk.text path)).1, some e.slots.length) := by
  unfold locateOrOpen
  split_ifs with he
  · exact .inl ⟨String.isEmpty_iff.mp he, rfl⟩
  · right
    cases hl : e.locate? path with
    | some doc => exact .inl ⟨doc, rfl, rfl⟩
    | none =>
      have hne : path ≠ "" := fun h => he (String.isEmpty_iff.mpr h)
      refine .inr ⟨hne, rfl, ?_⟩
      simp only [openPath, findPath?_of_locate? hl hne]
      rfl

theorem locateOrOpen_of_ne (h : path ≠ "") :
    ∃ doc, (e.locateOrOpen path).2 = some doc ∧
      (e.locateOrOpen path).1.locate? path = some doc := by
  rcases e.locateOrOpen_cases path with ⟨he, -⟩ | ⟨doc, hl, ho⟩ | ⟨-, hl, ho⟩
  · exact absurd he h
  · exact ⟨doc, by rw [ho], by rw [ho]; exact hl⟩
  · have hnone := findPath?_eq_none_iff.mp (findPath?_of_locate? hl h)
    refine ⟨e.slots.length, by rw [ho], ?_⟩
    rw [ho]
    refine locate?_eq_some_iff.mpr ⟨h, .inl (findPath?_eq_some_iff.mpr ⟨?_, ?_⟩)⟩
    · rw [path?_openText, if_pos rfl]
    · intro earlier he hq
      rw [path?_openText, if_neg (Nat.ne_of_lt he)] at hq
      exact hnone earlier hq

/-- What is found is not lost by locating another. -/
theorem locate?_locateOrOpen (h : e.locate? path = some doc) (other : String) :
    (e.locateOrOpen other).1.locate? path = some doc := by
  rcases e.locateOrOpen_cases other with ⟨-, ho⟩ | ⟨_, -, ho⟩ | ⟨-, hl, ho⟩
  · rwa [ho]
  · rwa [ho]
  · rw [ho]
    refine locate?_openText h (fun he => ?_) _
    rw [he, h] at hl
    cases hl

end Debugline.Editor
