import Debugline.Proofs.Session.Convergence
import Debugline.Proofs.Session.UserMarkers

/-! Breakpoints toggled by path. A path finds one document, the first of its path or of its base
name, and so a breakpoint that is only ever toggled by path stands in the first document of its
path. Then the list of breakpoints says of each path and line whether it is set there, and a toggle
changes it in one entry: that of the document that the path finds. -/

namespace Debugline

open Session Wire

namespace Editor

variable {e e' : Editor} {doc : DocId} {path file : String} {line : Nat}

/-! ### The first document of a path -/

theorem findPath?_congr (h : ∀ doc, e'.path? doc = e.path? doc) (path : String) :
    e'.findPath? path = e.findPath? path := by
  refine Option.ext fun doc => ?_
  rw [findPath?_eq_some_iff, findPath?_eq_some_iff, h]
  simp only [h]

/-- The document that a path finds is the first of its own path. -/
theorem findPath?_of_found (hl : e.locate? file = some doc) (hp : e.path? doc = some path) :
    e.findPath? path = some doc := by
  refine findPath?_eq_some_iff.mpr ⟨hp, fun earlier he hq => ?_⟩
  obtain ⟨-, hf | ⟨-, hb⟩⟩ := locate?_eq_some_iff.mp hl
  · obtain ⟨hfile, hfirst⟩ := findPath?_eq_some_iff.mp hf
    obtain rfl : path = file := Option.some.inj (hp.symm.trans hfile)
    exact hfirst earlier he hq
  · obtain ⟨⟨q, hpq, hname⟩, hfirst⟩ := findBaseName?_eq_some_iff.mp hb
    obtain rfl : path = q := Option.some.inj (hp.symm.trans hpq)
    exact hfirst earlier he path hq hname

theorem Intact.path? {kinds : List MarkerKind} (h : Intact kinds e e')
    (hp : e.path? doc = some path) : e'.path? doc = some path := by
  obtain ⟨d, hd, rfl⟩ := Option.map_eq_some_iff.mp hp
  obtain ⟨d', hd', ha⟩ := h.stays doc d hd
  rw [Editor.path?, hd', Option.map_some, ha.path]

/-- The first document of a path stays the first, as others are opened behind it. -/
theorem Intact.findPath? {kinds : List MarkerKind} (h : Intact kinds e e')
    (hf : e.findPath? path = some doc) : e'.findPath? path = some doc := by
  obtain ⟨hp, hfirst⟩ := findPath?_eq_some_iff.mp hf
  refine findPath?_eq_some_iff.mpr ⟨h.path? hp, fun earlier he hq => ?_⟩
  cases hd : e.doc? earlier with
  | some d =>
    have hpath : e.path? earlier = some d.path := by rw [Editor.path?, hd]; rfl
    have hsame := h.path? hpath
    rw [hq] at hsame
    exact hfirst earlier he (hpath.trans hsame.symm)
  | none =>
    obtain ⟨d', hd', -⟩ := Option.map_eq_some_iff.mp hq
    have hbehind := (h.opened earlier d' hd' hd).1
    exact absurd (Nat.lt_trans he (lt_of_path? hp)) (Nat.not_lt_of_le hbehind)

/-- A path finds a document of its own base name. It is one of the very path if such a document is
open, or no document of the base name is: then one is opened. -/
theorem path_of_locateOrOpen (ho : (e.locateOrOpen file).2 = some doc)
    (hp : (e.locateOrOpen file).1.path? doc = some path) :
    Path.baseName path = Path.baseName file ∧
      ((∃ other, e.path? other = some file) ∨
        (∀ other q, e.path? other = some q → Path.baseName q ≠ Path.baseName file) →
          path = file) := by
  have hsame : path = file → Path.baseName path = Path.baseName file ∧
      ((∃ other, e.path? other = some file) ∨
        (∀ other q, e.path? other = some q → Path.baseName q ≠ Path.baseName file) →
          path = file) := by
    rintro rfl
    exact ⟨rfl, fun _ => rfl⟩
  rcases e.locateOrOpen_cases file with ⟨-, he⟩ | ⟨found, hl, he⟩ | ⟨-, -, he⟩
  · rw [he] at ho
    cases ho
  · rw [he] at ho hp
    obtain rfl := Option.some.inj ho
    obtain ⟨-, hf | ⟨hn, hb⟩⟩ := locate?_eq_some_iff.mp hl
    · exact hsame (Option.some.inj (hp.symm.trans (findPath?_eq_some_iff.mp hf).1))
    · obtain ⟨⟨q, hq, hname⟩, -⟩ := findBaseName?_eq_some_iff.mp hb
      obtain rfl : path = q := Option.some.inj (hp.symm.trans hq)
      refine ⟨hname, ?_⟩
      rintro (⟨other, hfile⟩ | hnone)
      · exact absurd hfile (hn other)
      · exact absurd hname (hnone found path hq)
  · rw [he] at ho hp
    obtain rfl := Option.some.inj ho
    rw [path?_openText, if_pos rfl] at hp
    exact hsame (Option.some.inj hp).symm

/-! ### Leading breakpoints -/

/-- Each breakpoint stands in the first document of its path. -/
def Leading (e : Editor) : Prop :=
  ∀ doc line path, e.hasMarker doc line .breakpoint → e.path? doc = some path →
    e.findPath? path = some doc

theorem leading_of_none (h : ∀ doc line, e.hasMarker doc line .breakpoint = false) :
    e.Leading := by
  intro doc line path hm
  rw [h] at hm
  cases hm

theorem Leading.intact {kinds : List MarkerKind} (h : e.Leading) (hk : .breakpoint ∈ kinds)
    (hi : Intact kinds e e') : e'.Leading := by
  intro doc line path hm hp
  have hbefore : e.hasMarker doc line .breakpoint := by
    rwa [hasMarker, hi.markers hk] at hm
  obtain ⟨d, hd, -⟩ := hasMarker_iff_doc?.mp hbefore
  have hpath : e.path? doc = some d.path := by rw [path?, hd]; rfl
  obtain rfl : path = d.path := Option.some.inj (hp.symm.trans (hi.path? hpath))
  exact hi.findPath? (h doc line _ hbefore hpath)

theorem Leading.openText (h : e.Leading) (path text : String) :
    (e.openText path text).1.Leading := by
  have hi : Intact [.breakpoint] e (e.openText path text).1 := .openText e path text
  exact h.intact List.mem_cons_self hi

theorem Leading.locateOrOpen (h : e.Leading) (path : String) :
    (e.locateOrOpen path).1.Leading := by
  have hi : Intact [.breakpoint] e (e.locateOrOpen path).1 := .locateOrOpen e path
  exact h.intact List.mem_cons_self hi

theorem path?_toggle (s : Breakpoint.Schedule) (e : Editor) (doc : DocId) (line : Nat)
    (other : DocId) : (s.toggle e doc line).2.1.path? other = e.path? other := by
  unfold Breakpoint.Schedule.toggle
  split
  · exact e.path?_modifyDoc (fun d => path_setMarkers d _ _) doc other
  · exact e.path?_modifyDoc (fun d => path_setMarkers d _ _) doc other

theorem Leading.toggle (h : e.Leading) (hl : e.locate? file = some doc) (s : Breakpoint.Schedule)
    (line : Nat) : (s.toggle e doc line).2.1.Leading := by
  intro doc' line' path hm hp
  have hopen : (e.doc? doc).isSome := by simpa [Editor.path?] using isSome_path?_of_locate? hl
  rw [path?_toggle] at hp
  rw [findPath?_congr (path?_toggle s e doc line)]
  by_cases hd : doc' = doc
  · subst hd
    exact findPath?_of_found hl hp
  · rw [Breakpoint.Schedule.hasMarker_toggle s hopen] at hm
    exact h doc' line' path (by simpa [hd] using hm) hp

/-- Of a path, the list of breakpoints tells the lines that are marked in its first document. -/
theorem Leading.mem_ofEditor_iff (h : e.Leading) (hf : e.findPath? path = some doc) :
    ⟨path, line⟩ ∈ Breakpoint.ofEditor e ↔ e.hasMarker doc line .breakpoint := by
  rw [Breakpoint.mem_ofEditor]
  constructor
  · rintro ⟨doc', hp, hm⟩
    obtain rfl : doc' = doc := Option.some.inj ((h doc' line path hm hp).symm.trans hf)
    exact hm
  · intro hm
    exact ⟨doc, (findPath?_eq_some_iff.mp hf).1, hm⟩

end Editor

namespace Breakpoint.Schedule

variable {s : Schedule} {e : Editor}

/-- A toggle changes the list of breakpoints in no other entry. -/
theorem mem_ofEditor_toggle_of_ne {doc : DocId} {path : String} {line : Nat} {l : Location}
    (hp : e.path? doc = some path) (hne : l ≠ ⟨path, line⟩) :
    l ∈ ofEditor (s.toggle e doc line).2.1 ↔ l ∈ ofEditor e := by
  have hopen : (e.doc? doc).isSome := by
    have hsome : (e.path? doc).isSome := by rw [hp]; rfl
    simpa [Editor.path?] using hsome
  have hflip : ∀ doc', e.path? doc' = some l.file →
      (s.toggle e doc line).2.1.hasMarker doc' l.line .breakpoint =
        e.hasMarker doc' l.line .breakpoint := by
    intro doc' hp'
    have hother : ¬ (doc' = doc ∧ l.line = line) := by
      rintro ⟨rfl, rfl⟩
      obtain rfl : l.file = path := Option.some.inj (hp'.symm.trans hp)
      exact hne rfl
    rw [hasMarker_toggle s hopen]
    simp [hother]
  simp only [mem_ofEditor, Editor.path?_toggle]
  refine exists_congr fun doc' => and_congr_right fun hp' => ?_
  rw [hflip doc' hp']

/-! ### A complete resynchronization -/

/-- Once the debugger was cleared, the breakpoints are sent from the first that is not sent. -/
theorem take_of_clean (h : s.dirty = false) (limit : Nat) : (s.take e limit).2 =
    (((s.locations e).drop s.sent).take limit).map (·.command) := by
  induction limit generalizing s with
  | zero => simp [take]
  | succ limit ih =>
    cases hl : (s.locations e)[s.sent]? with
    | none =>
      have hnone := List.getElem?_eq_none_iff.mp hl
      simp [take, next_none h hl, List.drop_eq_nil_of_le hnone]
    | some l =>
      have hrest := ih (s := ⟨some (s.locations e), s.sent + 1, false⟩) rfl
      obtain ⟨hlt, hget⟩ := List.getElem?_eq_some_iff.mp hl
      rw [List.drop_eq_getElem_cons hlt, hget, List.take_succ_cons, List.map_cons]
      simp only [take, next_some h hl]
      exact congrArg (l.command :: ·) hrest

/-- After a change all breakpoints are cleared, and each that there is is set. -/
theorem drain_invalidate (s : Schedule) (e : Editor) :
    (s.invalidate.drain e).2 = .clearBreakpoints :: (ofEditor e).map (·.command) := by
  have hcleared := take_of_clean (s := ⟨some (ofEditor e), 0, false⟩) (e := e) rfl
    ((ofEditor e).length + 1)
  have hall : (ofEditor e).take ((ofEditor e).length + 1) = ofEditor e :=
    List.take_of_length_le (Nat.le_succ _)
  have hdrain : (s.invalidate.drain e).2 = .clearBreakpoints ::
      (take ⟨some (ofEditor e), 0, false⟩ e ((ofEditor e).length + 1)).2 := rfl
  rw [hdrain, hcleared]
  exact congrArg (fun ls => Command.clearBreakpoints :: ls.map Location.command) hall

end Breakpoint.Schedule

namespace Session

/-- The host opens documents, but it closes and marks none, and breakpoints are toggled by path. -/
def Happening.ByPath {τ : Type} : Happening τ → Prop
  | .edit (.openText _ _) => True
  | .edit _ | .call (.toggleBreakpoint _ _) => False
  | _ => True

end Session

namespace Controller

variable {τ : Type} [Transport τ] {c : Controller τ} {file : String} {line : Nat}

/-- Each breakpoint stands in the first document of its path, and those that are known are those
that there are. -/
structure Placed (c : Controller τ) : Prop where
  sound : c.outline.Sound
  fresh : c.outline.Fresh Eq
  leading : c.editor.Leading

omit [Transport τ] in
theorem placed_new (config : Config) (disk : Disk) :
    (Controller.new config (.new disk) : Controller τ).Placed where
  sound := sound_new config _
  fresh := nofun
  leading := Editor.leading_of_none fun _ _ => rfl

theorem call_leading (h : c.editor.Leading) {a : Call τ}
    (ha : ∀ doc line, a ≠ .toggleBreakpoint doc line) : (c.call a).editor.Leading := by
  cases hm : a.marks with
  | false => exact h.intact (by simp) (c.call_intact hm)
  | true =>
    cases a with
    | toggleBreakpoint doc line => exact absurd rfl (ha doc line)
    | toggleBreakpointAt path line =>
      by_cases hpath : path = ""
      · subst hpath
        exact h
      · obtain ⟨doc, -, hl, ht⟩ := c.toggleBreakpointAt_of_ne line hpath
        rw [call, ht, toggleBreakpoint_editor]
        exact (h.locateOrOpen path).toggle hl _ line
    | clearBreakpoints =>
      refine Editor.leading_of_none fun doc line => ?_
      rw [call, Editor.hasMarker, clearBreakpoints_markers]
      rfl
    | _ => cases hm

theorem Placed.after (h : c.Placed) {x : Happening τ} (hx : x.ByPath) : (c.after x).Placed := by
  cases x with
  | call a =>
    have hm := call_moves h.sound a
    refine ⟨hm.sound h.sound,
      hm.keep (fun _ hf m => m.fresh (fun _ => rfl) hf) h.sound h.fresh, ?_⟩
    refine call_leading h.leading fun doc line ha => ?_
    rw [ha] at hx
    exact hx
  | edit change =>
    cases change with
    | openText path text =>
      have hopened : (c.edit (.openText path text)).outline.located = c.outline.located :=
        Breakpoint.ofEditor_openText _ _ _
      refine ⟨h.sound.of_eq rfl rfl, fun known hk => ?_, ?_⟩
      · exact (h.fresh known hk).trans hopened.symm
      · exact h.leading.openText path text
    | _ => cases hx
  | meanwhile f =>
    have ho := c.outline_meanwhile f
    exact ⟨ho.symm ▸ h.sound, ho.symm ▸ h.fresh, h.leading⟩

theorem Placed.run (h : c.Placed) {hs : List (Happening τ)} (hx : ∀ x ∈ hs, x.ByPath) :
    (c.run hs).Placed := by
  induction hs generalizing c with
  | nil => exact h
  | cons x hs ih =>
    exact ih (h.after (hx x List.mem_cons_self)) fun y hy => hx y (List.mem_cons_of_mem _ hy)

omit [Transport τ] in
theorem Placed.listBreakpoints (h : c.Placed) :
    c.listBreakpoints.2 = Breakpoint.ofEditor c.editor := h.fresh.known fun _ => rfl

/-- A toggle by path is one of the document that the path finds. The answer says whether its
breakpoint is now set, and it was not so before; no other breakpoint is set or removed. -/
theorem Placed.toggleBreakpointAt (h : c.Placed) (hne : file ≠ "") (line : Nat) :
    ∃ doc path set, (c.editor.locateOrOpen file).2 = some doc ∧
      (c.editor.locateOrOpen file).1.path? doc = some path ∧
      (c.toggleBreakpointAt file line).2 = some set ∧
      (⟨path, line⟩ ∈ Breakpoint.ofEditor c.editor ↔ set = false) ∧
      (⟨path, line⟩ ∈ Breakpoint.ofEditor (c.toggleBreakpointAt file line).1.editor ↔ set = true) ∧
      ∀ l ≠ ⟨path, line⟩, l ∈ Breakpoint.ofEditor (c.toggleBreakpointAt file line).1.editor ↔
        l ∈ Breakpoint.ofEditor c.editor := by
  obtain ⟨doc, hdoc, hl, ht⟩ := c.toggleBreakpointAt_of_ne line hne
  obtain ⟨path, hp⟩ := Option.isSome_iff_exists.mp (Editor.isSome_path?_of_locate? hl)
  set opened := (c.editor.locateOrOpen file).1 with hopened
  have hlist : Breakpoint.ofEditor opened = Breakpoint.ofEditor c.editor :=
    Breakpoint.ofEditor_of_locateOrOpen rfl
  have hleading : opened.Leading := h.leading.locateOrOpen file
  have hfirst := Editor.findPath?_of_found hl hp
  have hthere : (opened.doc? doc).isSome := by simpa [Editor.path?] using congrArg Option.isSome hp
  have hset := c.breakpoints.toggle_set opened doc line
  have heditor : (c.toggleBreakpointAt file line).1.editor =
      (c.breakpoints.toggle opened doc line).2.1 := by
    rw [ht]
    exact toggleBreakpoint_editor _ _ _
  refine ⟨doc, path, !opened.hasMarker doc line .breakpoint, hdoc, hp, ?_, ?_, ?_, fun l hne => ?_⟩
  · rw [ht]
    exact congrArg some hset
  · rw [← hlist, hleading.mem_ofEditor_iff hfirst]
    simp
  · have hafter := Editor.findPath?_congr (Editor.path?_toggle c.breakpoints opened doc line) path
    rw [heditor, (hleading.toggle hl _ line).mem_ofEditor_iff (hafter.trans hfirst),
      Breakpoint.Schedule.hasMarker_toggle _ hthere]
    simp
  · rw [heditor, Breakpoint.Schedule.mem_ofEditor_toggle_of_ne hp hne, hlist]

end Controller

end Debugline
