import Debugline.Proofs.Session.Deeds
import Debugline.Transport.Script
import Mathlib.Data.List.Induction
import Mathlib.Tactic.IntervalCases

/-! The marker of the current line and the documents that a host opens and closes. A session
keeps the path and the line that it marked, not the document, and looks the document up again
to take the marker off. So it finds the marker as long as no document is opened by that very
path while another is marked that has only its base name; and once one is, the marker stays. -/

namespace Debugline

open Session Wire

namespace Editor

variable {e e' : Editor}

/-- Documents are found as before, and the current line is marked where it was. -/
structure Steady (e e' : Editor) : Prop where
  places : e'.places = e.places
  locate? : ∀ {path doc}, e.locate? path = some doc → e'.locate? path = some doc

theorem Aside.steady (h : e.Aside e') : e.Steady e' := by
  cases h with
  | locate path => exact ⟨e.places_locateOrOpen path, fun hl => locate?_locateOrOpen hl path⟩
  | scroll doc line => exact ⟨e.places_scrollTo doc line, fun hl => by rwa [locate?_scrollTo]⟩
  | mark doc line =>
    exact ⟨e.places_addMarker_of_ne (by decide) doc line, fun hl => by rwa [locate?_addMarker]⟩
  | unmark doc line =>
    have hp : (e.removeMarker doc line .breakpoint).places = e.places :=
      e.places_removeMarker_of_ne (by decide) doc line
    exact ⟨hp, fun hl => by rwa [locate?_removeMarker]⟩

end Editor

namespace Controller

variable {τ : Type} {c c' : Controller τ}

/-- The state is kept, and the marker of the current line with all that is needed to find it. -/
structure Steady (c c' : Controller τ) : Prop where
  state : c'.state = c.state
  marker : c'.marker? = c.marker?
  editor : c.editor.Steady c'.editor

namespace Steady

theorem of_eq (state : c'.state = c.state) (marker : c'.marker? = c.marker?)
    (editor : c'.editor = c.editor) : Steady c c' :=
  ⟨state, marker, by rw [editor], fun hl => by rwa [editor]⟩

theorem refl (c : Controller τ) : Steady c c := .of_eq rfl rfl rfl

theorem trans {c'' : Controller τ} (h : Steady c c') (h' : Steady c' c'') : Steady c c'' where
  state := h'.state.trans h.state
  marker := h'.marker.trans h.marker
  editor := ⟨h'.editor.places.trans h.editor.places,
    fun hl => h'.editor.locate? (h.editor.locate? hl)⟩

end Steady

theorem meanwhile_steady (c : Controller τ) (f : τ → τ) : Steady c (c.meanwhile f) :=
  .of_eq rfl (by rw [marker?_eq, marker?_eq, bare_meanwhile]) rfl

/-- Every marker of the current line is where the session looks for it, and there is none
unless the program is stopped. -/
structure Tracked (c : Controller τ) : Prop where
  found : c.editor.places ⊆ c.editor.sought c.marker?
  going : c.state ≠ .pausedAtPrompt → c.editor.places = ∅

/-- The current line is marked at one place at most, and only while the program is stopped. -/
structure Tidy (c : Controller τ) : Prop where
  single : c.editor.places.Subsingleton
  going : c.state ≠ .pausedAtPrompt → c.editor.places = ∅

namespace Tracked

theorem tidy (h : c.Tracked) : c.Tidy :=
  ⟨(c.editor.sought_subsingleton c.marker?).anti h.found, h.going⟩

theorem steady (h : c.Tracked) (hs : Steady c c') : c'.Tracked where
  found := by
    rw [hs.editor.places, hs.marker]
    intro p hp
    obtain ⟨path, hm, hl⟩ := h.found hp
    exact ⟨path, hm, hs.editor.locate? hl⟩
  going hg := by
    rw [hs.editor.places]
    exact h.going (hs.state ▸ hg)

theorem of_empty (h : c.editor.places = ∅) : c.Tracked :=
  ⟨h ▸ Set.empty_subset _, fun _ => h⟩

theorem places_of_idle (h : c.Tracked) (idle : c.session = none) : c.editor.places = ∅ := by
  have hf := h.found
  rw [marker?, idle, Option.bind_none, Editor.sought_none] at hf
  exact Set.subset_empty_iff.mp hf

/-- Once the marker is taken off, there is none. -/
theorem places_removeMarker (h : c.Tracked) : c.removeMarker.editor.places = ∅ := by
  rw [removeMarker_eq]
  exact (Editor.places_takeOff _ _).trans (Set.sdiff_eq_empty.mpr h.found)

/-- A stop leaves the marker of the line it was at. -/
theorem places_stopped (h : c.Tracked) {s : Session τ} (hs : c.session = some s) :
    (s.file = "" → c.stopped.editor.places = ∅) ∧
      (s.file ≠ "" → ∃ doc, c.stopped.editor.locate? s.file = some doc ∧
        c.stopped.editor.places = {(doc, s.line)}) := by
  have hoff : (c.editor.takeOff s.marker).places = ∅ := by
    have hr := h.places_removeMarker
    rw [removeMarker_eq] at hr
    simpa [marker?, hs] using hr
  rw [stopped_eq hs]
  refine ⟨fun hf => ?_, fun hf => ?_⟩
  · simpa [hf, Editor.putOn_empty] using hoff
  · obtain ⟨doc, hl, hputs⟩ := Editor.places_putOn hf (c.editor.takeOff s.marker) s.line
    exact ⟨doc, hl, by rw [hputs, hoff, insert_empty_eq]⟩

end Tracked

theorem marker?_stopped {s : Session τ} (hs : c.session = some s) :
    c.stopped.marker? = if s.file = "" then none else some (s.file, s.line) := by
  rw [stopped_eq hs]
  rfl

theorem Tracked.stopped (h : c.Tracked) {s : Session τ} (hs : c.session = some s) :
    c.stopped.Tracked := by
  obtain ⟨hnone, hsome⟩ := h.places_stopped hs
  by_cases hf : s.file = ""
  · exact .of_empty (hnone hf)
  · obtain ⟨doc, hl, hp⟩ := hsome hf
    refine ⟨?_, fun hg => absurd (by rw [stopped_eq hs]) hg⟩
    rw [hp, marker?_stopped hs, if_neg hf, Editor.sought_some hl]

/-! ### Deeds -/

variable [Transport τ]

theorem marker?_transmit (c : Controller τ) (what : Sent) :
    (c.transmit what).1.marker? = c.marker? := by
  rw [marker?_eq, marker?_eq, bare_transmit]

theorem transmit_steady (c : Controller τ) (what : Sent) : Steady c (c.transmit what).1 := by
  refine .of_eq ?_ (c.marker?_transmit what) ?_ <;> unfold transmit <;> split <;> rfl

theorem Aside.steady (h : Aside c c') : Steady c c' := by
  cases h with
  | send what _ => exact c.transmit_steady what
  | edit editor h => exact ⟨rfl, rfl, h.steady⟩
  | report | note | plan | ask | account => exact .of_eq rfl rfl rfl

theorem Asides.steady (h : Asides c c') : Steady c c' := by
  induction h with
  | refl => exact .refl c
  | tail _ h ih => exact ih.trans h.steady

/-- What stopped had a session, at the line that is reported. -/
theorem exists_session_of_prompt {p : Controller τ} {s : Session τ} (hs : p.session = some s)
    (h : Asides c.stopped p) :
    ∃ before, c.session = some before ∧ before.file = s.file ∧ before.line = s.line := by
  have hb := h.bare.trans c.bare_stopped
  rw [bare_eq hs] at hb
  obtain ⟨b, hb, hsb⟩ := Option.map_eq_some_iff.mp hb.symm
  obtain ⟨before, hbefore, rfl⟩ := bare_eq_some_iff.mp hb
  exact ⟨before, hbefore, congrArg (·.file) hsb, congrArg (·.line) hsb⟩

theorem Framed.tracked (h : Framed c c') (ht : c.Tracked) : c'.Tracked := by
  cases h with
  | aside h => exact ht.steady h.steady
  | @locate s hs file line => exact ht.steady (.of_eq rfl (by simp [marker?, hs]) rfl)
  | navigate => exact ht.steady (.of_eq rfl rfl rfl)
  | prompt hs h =>
    obtain ⟨before, hbefore, -⟩ := exists_session_of_prompt hs h
    exact (ht.stopped hbefore).steady (h.steady.trans (.of_eq rfl rfl rfl))

theorem Deed.tracked (h : Deed c c') (ht : c.Tracked) : c'.Tracked := by
  cases h with
  | framed h => exact h.tracked ht
  | listen hs => exact ht.steady (.of_eq rfl (by simp [marker?, hs]) rfl)
  | display text => exact ht.steady (.of_eq rfl rfl rfl)
  | resume | resumeFailed =>
    refine .of_empty ?_
    exact (transmit_steady _ _).editor.places.trans ht.places_removeMarker
  | finish => exact .of_empty ht.places_removeMarker
  | start idle mode transport =>
    have he : (c.start mode transport).editor = c.editor := by cases mode <;> rfl
    exact .of_empty (he ▸ ht.places_of_idle idle)
  | refuse idle => exact .of_empty (ht.places_of_idle idle)

theorem Deeds.tracked (h : Deeds c c') (ht : c.Tracked) : c'.Tracked := by
  induction h with
  | refl => exact ht
  | tail _ h ih => exact h.tracked ih

theorem Tracked.call (h : c.Tracked) (a : Call τ) : (c.call a).Tracked := by
  by_cases ha : a = .takeEvents
  · subst ha
    exact h.steady (.of_eq rfl rfl rfl)
  · exact (call_deeds c ha).tracked h

/-! ### What the host does -/

end Controller

/-- The path by which the host opens a document. -/
def Session.Happening.opens? {τ : Type} : Happening τ → Option String
  | .edit (.openText path _) | .edit (.openPath path) => some path
  | _ => none

namespace Controller

variable {τ : Type} {c c' : Controller τ}

/-- The marker was put under a path on a document of another path. A document that is opened by
that path is found in its place. -/
def Displaces (c : Controller τ) (path : String) : Prop :=
  ∃ p ∈ c.editor.places, c.marker? = some (path, p.2) ∧ c.editor.path? p.1 ≠ some path

/-- Markers that are left by a change are tracked if they are found as before. -/
theorem Tracked.edit (h : c.Tracked) {editor : Editor} (fewer : editor.places ⊆ c.editor.places)
    (found : ∀ p ∈ editor.places, ∀ path, c.marker? = some (path, p.2) →
      c.editor.locate? path = some p.1 → editor.locate? path = some p.1) :
    { c with editor }.Tracked where
  found p hp := by
    obtain ⟨path, hm, hl⟩ := h.found (fewer hp)
    exact ⟨path, hm, found p hp path hm hl⟩
  going hg := Set.subset_empty_iff.mp (h.going hg ▸ fewer)

theorem Tracked.change (h : c.Tracked) {change : Editor.Change}
    (own : ∀ doc line, change ≠ .addMarker doc line .currentLine)
    (kept : ∀ path, (Happening.edit (τ := τ) change).opens? = some path → ¬c.Displaces path) :
    (c.edit change).Tracked := by
  have other {opened : String} (hk : ¬c.Displaces opened) {p : DocId × Nat}
      (hp : p ∈ c.editor.places) {path : String} (hm : c.marker? = some (path, p.2))
      (he : opened = path) : c.editor.path? p.1 = some path := by
    by_contra hne
    exact hk ⟨p, hp, he ▸ hm, he ▸ hne⟩
  cases change with
  | openText opened text =>
    have hpl := c.editor.places_openText opened text
    refine h.edit hpl.subset fun p hp path hm hl => ?_
    exact Editor.locate?_openText hl (other (kept opened rfl) (hpl ▸ hp) hm) text
  | openPath opened =>
    have hpl := c.editor.places_openPath opened
    refine h.edit hpl.subset fun p hp path hm hl => ?_
    exact Editor.locate?_openPath hl (other (kept opened rfl) (hpl ▸ hp) hm)
  | close closed =>
    have hpl := c.editor.places_close closed
    refine h.edit (fun p hp => ?_) fun p hp path hm hl => ?_
    · exact (hpl ▸ hp).1
    · exact Editor.locate?_close hl (hpl ▸ hp).2
  | addMarker doc line kind =>
    have hk : kind ≠ .currentLine := fun hk => own doc line (hk ▸ rfl)
    have hpl := c.editor.places_addMarker_of_ne hk doc line
    exact h.edit hpl.subset fun p _ path _ hl => (Editor.locate?_addMarker ..).trans hl
  | removeMarker doc line kind =>
    refine h.edit (fun p hp => ?_) fun p _ path _ hl => (Editor.locate?_removeMarker ..).trans hl
    exact (Editor.hasMarker_removeMarker_iff.mp hp).1
  | scrollTo doc line =>
    have hpl := c.editor.places_scrollTo doc line
    exact h.edit hpl.subset fun p _ path _ hl => (Editor.locate?_scrollTo ..).trans hl
  | write path contents => exact h.edit subset_rfl fun p _ path _ hl => hl

variable [Transport τ]

theorem Tracked.after (h : c.Tracked) {x : Happening τ}
    (own : ∀ doc line, x ≠ .edit (.addMarker doc line .currentLine))
    (kept : ∀ path, x.opens? = some path → ¬c.Displaces path) : (c.after x).Tracked := by
  cases x with
  | call a => exact h.call a
  | edit change => exact h.change (fun doc line he => own doc line (he ▸ rfl)) kept
  | meanwhile f => exact h.steady (c.meanwhile_steady f)

theorem abort_editor (live : c.hasSession) :
    (c.call .abort).editor = c.editor.takeOff c.marker? := by
  cases hs : c.session with
  | none => simp [hasSession, hs] at live
  | some s =>
    simp [call, abort, hasSession, withTransport, hs, finish, push, removeMarker_eq, marker?]

/-- A document opened by the path of the marker is found by it from then on. -/
theorem Displaces.exists_place {x : Happening τ} {path : String} (opens : x.opens? = some path)
    (h : c.Displaces path) : (c.after x).hasSession ∧
      ∃ p ∈ (c.after x).editor.places, p ∉ (c.after x).editor.sought (c.after x).marker? := by
  obtain ⟨p, hp, hm, hne⟩ := h
  have live : c.hasSession := by
    obtain ⟨s, hs, -⟩ := Option.bind_eq_some_iff.mp hm
    simp [hasSession, hs]
  -- the opened editor has a document of the path, and the marked one is still not it
  have houtside {e : Editor} (he : ∃ doc, e.path? doc = some path)
      (hd : e.path? p.1 = c.editor.path? p.1) : p ∉ e.sought c.marker? := by
    rintro ⟨path', hm', hl⟩
    obtain rfl : path = path' := congrArg Prod.fst (Option.some.inj (hm.symm.trans hm'))
    obtain ⟨doc, hdoc⟩ := he
    exact hne (hd ▸ Editor.path?_of_locate? hl hdoc)
  obtain ⟨q, hq⟩ := Option.isSome_iff_exists.mp (Editor.isSome_path?_of_mem_places hp)
  cases x with
  | call | meanwhile => cases opens
  | edit change =>
    cases change with
    | openText opened text =>
      obtain rfl := Option.some.inj opens
      refine ⟨live, p, (c.editor.places_openText opened text).symm ▸ hp,
        houtside (c.editor.exists_path?_openText opened text) ?_⟩
      exact Editor.path?_openText_of_some hq opened text
    | openPath opened =>
      obtain rfl := Option.some.inj opens
      refine ⟨live, p, (c.editor.places_openPath opened).symm ▸ hp,
        houtside (c.editor.exists_path?_openPath opened) ?_⟩
      exact Editor.path?_openPath_of_some hq opened
    | _ => cases opens

/-- So the marker outlives the session. -/
theorem Displaces.not_tidy {x : Happening τ} {path : String} (opens : x.opens? = some path)
    (h : c.Displaces path) : ¬((c.after x).call .abort).Tidy := by
  obtain ⟨live, p, hp, hs⟩ := h.exists_place opens
  intro ht
  have hend : ((c.after x).call .abort).state = .terminated := by
    rw [Controller.call, abort, if_pos live]
    rfl
  have hnone := ht.going (by rw [hend]; nofun)
  rw [abort_editor live, Editor.places_takeOff] at hnone
  exact Set.eq_empty_iff_forall_notMem.mp hnone p ⟨hp, hs⟩

/-! ### Runs -/

/-- As long as no other adds markers of the current line: at each moment of a run, and were it
aborted there, the current line is marked at one place at most and nowhere once the program goes
on or is gone, if and only if no document is ever opened by the path of a marker that another
document has. -/
theorem always_tidy_iff (config : Config) {editor : Editor} (fresh : editor.places = ∅)
    {hs : List (Happening τ)} (own : ∀ doc line, .edit (.addMarker doc line .currentLine) ∉ hs) :
    (∀ past, past <+: hs → ((Controller.new config editor).run past).Tidy ∧
        (((Controller.new config editor).run past).call .abort).Tidy) ↔
      ∀ past x path, past ++ [x] <+: hs → x.opens? = some path →
        ¬((Controller.new config editor).run past).Displaces path := by
  have hsnoc (past : List (Happening τ)) (x : Happening τ) :
      (Controller.new config editor).run (past ++ [x]) =
        ((Controller.new config editor).run past).after x := by
    simp [run]
  constructor
  · intro htidy past x path hpast opens h
    have hx := (htidy _ hpast).2
    rw [hsnoc] at hx
    exact h.not_tidy opens hx
  · intro hkept
    -- tidiness alone is not kept by a step: that the marker is found must go along
    have htracked (past : List (Happening τ)) (hpast : past <+: hs) :
        ((Controller.new config editor).run past).Tracked := by
      induction past using List.reverseRecOn with
      | nil => exact .of_empty fresh
      | append_singleton past x ih =>
        rw [hsnoc]
        refine (ih ((List.prefix_append _ _).trans hpast)).after (fun doc line he => ?_)
          fun path => hkept past x path hpast
        exact own doc line (he ▸ hpast.subset (by simp))
    exact fun past hpast => ⟨(htracked past hpast).tidy, ((htracked past hpast).call .abort).tidy⟩

/-- A stop at a line of a document that has the base name of the debugger's file. -/
def stopBeside : List (Happening Script) :=
  [.edit (.openText "/x/main.p" ""), .call (.launch .debug fun _ => .ok (.new true [])),
    .meanwhile (·.cue (.writes "\x1b]>filemain.p\n\x1b]>5\n\x1b]>dbg> ")), .call .poll]

/-- Another document of that base name is opened and closed, and the program goes on. -/
theorem always_tidy_of_other_opened :
    let hs := stopBeside ++ [.edit (.openPath "/y/main.p"), .edit (.close 1), .call .stepOver]
    (Editor.new .empty).places = ∅ ∧
      (∀ doc line, .edit (.addMarker doc line .currentLine) ∉ hs) ∧
      ∀ past, past <+: hs → ((Controller.new .standard (.new .empty)).run past).Tidy ∧
        (((Controller.new .standard (.new .empty)).run past).call .abort).Tidy := by
  intro hs
  have fresh := Editor.places_new .empty
  have own : ∀ doc line, .edit (.addMarker doc line .currentLine) ∉ hs := by
    simp [hs, stopBeside]
  refine ⟨fresh, own, (always_tidy_iff .standard fresh own).mpr ?_⟩
  rintro past x path ⟨later, he⟩ opens ⟨p, -, hm, -⟩
  have hx : hs[past.length]? = some x := by simp [← he]
  have hpast : past = hs.take past.length := by simp [← he]
  generalize past.length = i at hx hpast
  subst hpast
  have hi : i < 7 := (List.getElem?_eq_some_iff.mp hx).1
  interval_cases i <;> cases hx <;> cases opens
  · cases hm
  · have hmarker : ((Controller.new .standard (.new .empty)).run stopBeside).marker? =
      some ("main.p", 4) := by decide +kernel
    exact absurd (hmarker.symm.trans hm) (by simp)

/-- A document is opened by the path of the marker: the program goes on and the marker stays, and
at the next stop there are two. -/
theorem marker_left_of_displaced :
    let hs := stopBeside ++ [.edit (.openText "main.p" ""), .call .stepOver]
    let went := (Controller.new .standard (.new .empty)).run hs
    let stops := (Controller.new .standard (.new .empty)).run
      (hs ++ [.meanwhile (·.cue (.writes "\x1b]>7\n\x1b]>dbg> ")), .call .poll])
    (Editor.new .empty).places = ∅ ∧
      went.state = .running ∧ went.editor.hasMarker 0 4 .currentLine ∧
      stops.editor.hasMarker 0 4 .currentLine ∧ stops.editor.hasMarker 1 6 .currentLine :=
  ⟨Editor.places_new .empty, by decide +kernel⟩

end Controller

end Debugline
