import Debugline.Proofs.Editor.Intact
import Debugline.Proofs.Session.Effects
import Debugline.Proofs.Session.Refusals
import Debugline.Transport.Script

/-! The markers of the user. A controller opens documents to show where the program is, scrolls them
and marks the current line; whatever the debugger says, it does no more to them, unless it is asked
to set or remove breakpoints. -/

namespace Debugline

open Session Editor

/-- Calls that set or remove breakpoints. -/
def Session.Call.marks {τ : Type} : Call τ → Bool
  | .toggleBreakpoint _ _ | .toggleBreakpointAt _ _ | .clearBreakpoints => true
  | _ => false

/-- A program is followed beside the markers of the user. -/
theorem Editor.Follows.intact {file : String} {e e' : Editor} (h : Follows file e e') :
    Intact [.breakpoint, .bookmark] e e' := by
  cases h with
  | locate => exact .locateOrOpen e file
  | scroll doc line => exact .scrollTo e doc line
  | mark doc line => exact .addMarker e (by decide) doc line
  | unmark doc line => exact .removeMarker e (by decide) doc line

theorem Editor.Intact.mono {kinds fewer : List MarkerKind} (h : fewer ⊆ kinds) {e e' : Editor}
    (hi : Intact kinds e e') : Intact fewer e e' where
  length := hi.length
  stays doc d hd := by
    obtain ⟨d', hd', ha⟩ := hi.stays doc d hd
    exact ⟨d', hd', ha.path, ha.lines, fun kind hk => ha.markers kind (h hk)⟩
  opened doc d' hd' hn := by
    obtain ⟨hlt, hnone⟩ := hi.opened doc d' hd' hn
    exact ⟨hlt, fun kind hk => hnone kind (h hk)⟩

namespace Controller

variable {τ : Type} [Transport τ]

theorem Effect.intact {c c' : Controller τ} (h : Effect c c') :
    Intact [.breakpoint, .bookmark] c.editor c'.editor := by
  cases h with
  | edit _ h => exact h.intact
  | breakpoint | watch | input =>
    rw [(transmit_editor _ _).1]
    exact .refl _
  | _ => exact .refl _

theorem Courses.intact {c c' : Controller τ} (h : Courses c c') :
    Intact [.breakpoint, .bookmark] c.editor c'.editor := by
  induction h with
  | refl => exact .refl _
  | tail _ h ih =>
    refine ih.trans ?_
    cases h with
    | effect h => exact h.intact
    | read | take => exact .refl _

theorem Effects.intact {c c' : Controller τ} (h : Effects c c') :
    Intact [.breakpoint, .bookmark] c.editor c'.editor := h.courses.intact

/-- Breakpoints are sent beside the documents. -/
theorem advanceBreakpoints_editor (c : Controller τ) : c.advanceBreakpoints.editor = c.editor := by
  unfold advanceBreakpoints sendScheduled
  split
  · split
    · rfl
    · rw [(transmit_editor _ _).1]
  · rfl

omit [Transport τ] in
theorem launch_editor (c : Controller τ) (mode : Mode) (spawn : Unit → Except Failure τ) :
    (c.launch mode spawn).1.editor = c.editor := by
  unfold launch
  split
  · rfl
  · dsimp only
    split
    · cases mode <;> rfl
    · rfl

omit [Transport τ] in
theorem deleteWatch_editor (c : Controller τ) (row : Nat) :
    (c.deleteWatch row).1.editor = c.editor := by
  unfold deleteWatch
  split <;> rfl

theorem evaluate_editor (c : Controller τ) (expr : String) (hover : Option Hover) :
    (c.evaluate expr hover).1.editor = c.editor := by
  unfold evaluate
  split
  · rfl
  · exact (transmit_editor _ _).1

theorem evaluateAt_editor (c : Controller τ) (doc : DocId) (position : Nat) :
    (c.evaluateAt doc position).1.editor = c.editor := by
  unfold evaluateAt
  split
  · rfl
  · split
    · rfl
    · exact evaluate_editor _ _ _

theorem step_intact (c : Controller τ) (command : Wire.Command) :
    Intact [.breakpoint, .bookmark] c.editor (c.step command).1.editor := by
  rcases c.step_cases command with he | ⟨-, hs⟩
  · rw [he]
    exact .refl _
  · have hsent := hs.intact
    rw [(transmit_editor _ _).1] at hsent
    exact c.removeMarker_effects.intact.trans hsent

/-- Calls that set and remove no breakpoints. -/
theorem call_intact (c : Controller τ) {a : Call τ} (h : a.marks = false) :
    Intact [.breakpoint, .bookmark] c.editor (c.call a).editor := by
  cases a with
  | launch mode spawn =>
    rw [call, launch_editor]
    exact .refl _
  | poll => exact c.poll_courses.intact
  | abort => exact c.abort_courses.intact
  | goOn | stepInto | stepOver | stepOut | runToLine | runToCursor => exact c.step_intact _
  | evaluate expr hover =>
    rw [call, evaluate_editor]
    exact .refl _
  | evaluateAt doc position =>
    rw [call, evaluateAt_editor]
    exact .refl _
  | sendInput text =>
    have hs : (c.sendInput text).1.editor = c.editor := (c.transmit_editor _).1
    rw [call, hs]
    exact .refl _
  | toggleBreakpoint | toggleBreakpointAt | clearBreakpoints => cases h
  | deleteWatch row =>
    rw [call, deleteWatch_editor]
    exact .refl _
  | documentsChanged | listBreakpoints | addWatch | editWatch | takeEvents | takeTraffic =>
    exact .refl _

/-! ### Calls that set and remove breakpoints -/

theorem toggleBreakpoint_editor (c : Controller τ) (doc : DocId) (line : Nat) :
    (c.toggleBreakpoint doc line).1.editor = (c.breakpoints.toggle c.editor doc line).2.1 :=
  advanceBreakpoints_editor _

/-- A toggle flips the breakpoint of a line, says whether it is now set, and undoes itself. -/
theorem toggleBreakpoint_flips (c : Controller τ) {doc : DocId} (line : Nat)
    (there : (c.editor.doc? doc).isSome) :
    let toggled := (c.toggleBreakpoint doc line).1
    (c.toggleBreakpoint doc line).2 = toggled.editor.hasMarker doc line .breakpoint ∧
      (∀ doc' line', toggled.editor.hasMarker doc' line' .breakpoint =
        (c.editor.hasMarker doc' line' .breakpoint ^^ decide (doc' = doc ∧ line' = line))) ∧
      (toggled.toggleBreakpoint doc line).1.editor = c.editor := by
  intro toggled
  have he : toggled.editor = (c.breakpoints.toggle c.editor doc line).2.1 :=
    c.toggleBreakpoint_editor doc line
  have hflip : ∀ doc' line', toggled.editor.hasMarker doc' line' .breakpoint =
      (c.editor.hasMarker doc' line' .breakpoint ^^ decide (doc' = doc ∧ line' = line)) := by
    intro doc' line'
    rw [he, Breakpoint.Schedule.hasMarker_toggle _ there]
  refine ⟨?_, hflip, ?_⟩
  · have hset : (c.toggleBreakpoint doc line).2 = !c.editor.hasMarker doc line .breakpoint :=
      c.breakpoints.toggle_set c.editor doc line
    rw [hset, hflip]
    simp
  · rw [toggleBreakpoint_editor, he]
    exact Breakpoint.Schedule.toggle_toggle _ _ there

theorem clearBreakpoints_editor (c : Controller τ) :
    c.clearBreakpoints.editor = (c.breakpoints.clearAll c.editor).2 :=
  advanceBreakpoints_editor _

theorem clearBreakpoints_markers (c : Controller τ) (doc : DocId) :
    c.clearBreakpoints.editor.markers doc .breakpoint = [] := by
  refine List.eq_nil_iff_forall_not_mem.mpr fun line hl => ?_
  rw [clearBreakpoints_editor] at hl
  have hnone := c.breakpoints.hasMarker_clearAll c.editor doc line
  rw [hasMarker, List.contains_iff_mem.mpr hl] at hnone
  cases hnone

/-- By path, a breakpoint is toggled in the document that is found, or opened for that. -/
theorem toggleBreakpointAt_of_ne (c : Controller τ) {path : String} (line : Nat)
    (hpath : path ≠ "") : ∃ doc, (c.editor.locateOrOpen path).2 = some doc ∧
      (c.editor.locateOrOpen path).1.locate? path = some doc ∧
      let found := { c with editor := (c.editor.locateOrOpen path).1 }
      c.toggleBreakpointAt path line =
        ((found.toggleBreakpoint doc line).1, some (found.toggleBreakpoint doc line).2) := by
  obtain ⟨doc, hdoc, hl⟩ := locateOrOpen_of_ne (e := c.editor) hpath
  refine ⟨doc, hdoc, hl, ?_⟩
  have ho : c.editor.locateOrOpen path = ((c.editor.locateOrOpen path).1, some doc) := by
    rw [← hdoc]
  unfold toggleBreakpointAt
  rw [ho]

/-- By path, the breakpoint of an open document is flipped, be it one that is opened for that. -/
theorem toggleBreakpointAt_cases (c : Controller τ) (path : String) (line : Nat) :
    c.toggleBreakpointAt path line = (c, none) ∨ ∃ editor doc,
      Intact [.breakpoint, .bookmark] c.editor editor ∧ (editor.doc? doc).isSome ∧
        c.toggleBreakpointAt path line =
          (({ c with editor }.toggleBreakpoint doc line).1,
            some ({ c with editor }.toggleBreakpoint doc line).2) := by
  by_cases hpath : path = ""
  · exact .inl (by rw [hpath]; rfl)
  · obtain ⟨doc, -, hl, ht⟩ := c.toggleBreakpointAt_of_ne line hpath
    have hopen : ((c.editor.locateOrOpen path).1.doc? doc).isSome := by
      simpa [Editor.path?] using isSome_path?_of_locate? hl
    exact .inr ⟨_, doc, .locateOrOpen c.editor path, hopen, ht⟩

/-- Each call leaves the documents, their paths, their lines and their bookmarks alone. -/
theorem call_intact_bookmarks (c : Controller τ) (a : Call τ) :
    Intact [.bookmark] c.editor (c.call a).editor := by
  cases hm : a.marks with
  | false => exact (c.call_intact hm).mono (by simp)
  | true =>
    cases a with
    | toggleBreakpoint doc line =>
      rw [call, toggleBreakpoint_editor]
      exact c.breakpoints.toggle_intact c.editor doc line
    | toggleBreakpointAt path line =>
      rcases c.toggleBreakpointAt_cases path line with he | ⟨editor, doc, hi, -, he⟩
      · rw [call, he]
        exact .refl _
      · rw [call, he, toggleBreakpoint_editor]
        exact (hi.mono (by simp)).trans (c.breakpoints.toggle_intact editor doc line)
    | clearBreakpoints =>
      rw [call, clearBreakpoints_editor]
      exact c.breakpoints.clearAll_intact c.editor
    | _ => cases hm

/-! ### Runs -/

/-- What calls leave alone, a run leaves alone in which the host changes no documents itself. -/
theorem run_intact {kinds : List MarkerKind} (c : Controller τ) {hs : List (Happening τ)}
    (hosted : ∀ change, .edit change ∉ hs)
    (calls : ∀ a, .call a ∈ hs → ∀ c : Controller τ, Intact kinds c.editor (c.call a).editor) :
    Intact kinds c.editor (c.run hs).editor := by
  induction hs generalizing c with
  | nil => exact .refl _
  | cons x hs ih =>
    have hx : Intact kinds c.editor (c.after x).editor := by
      cases x with
      | call a => exact calls a List.mem_cons_self c
      | edit change => exact absurd List.mem_cons_self (hosted change)
      | meanwhile f => exact .refl _
    exact hx.trans (ih _ (fun change hc => hosted change (List.mem_cons_of_mem _ hc))
      fun a ha => calls a (List.mem_cons_of_mem _ ha))

/-- In whatever state a controller is, and whatever the program does: its calls leave the documents
where they are, with their paths, lines and bookmarks, and open new ones behind them without any;
and calls that are not made for it set and remove no breakpoint. A breakpoint that is toggled in an
open document is flipped, and no other; the answer says whether it is set now, and toggling it once
more restores all documents. By path it is one of a document that was open, or was opened with no
breakpoint for that. None is left once all are removed. -/
theorem user_markers_left_alone (c : Controller τ) {hs : List (Happening τ)}
    (hosted : ∀ change, .edit change ∉ hs) :
    Intact [.bookmark] c.editor (c.run hs).editor ∧
      ((∀ a, .call a ∈ hs → a.marks = false) →
        Intact [.breakpoint, .bookmark] c.editor (c.run hs).editor ∧
          ∀ doc, (c.run hs).editor.markers doc .breakpoint = c.editor.markers doc .breakpoint) ∧
      (∀ doc line, (c.editor.doc? doc).isSome →
        let toggled := (c.toggleBreakpoint doc line).1
        (c.toggleBreakpoint doc line).2 = toggled.editor.hasMarker doc line .breakpoint ∧
          (∀ doc' line', toggled.editor.hasMarker doc' line' .breakpoint =
            (c.editor.hasMarker doc' line' .breakpoint ^^ decide (doc' = doc ∧ line' = line))) ∧
          (toggled.toggleBreakpoint doc line).1.editor = c.editor) ∧
      (∀ path line, c.toggleBreakpointAt path line = (c, none) ∨ ∃ editor doc,
        Intact [.breakpoint, .bookmark] c.editor editor ∧ (editor.doc? doc).isSome ∧
          c.toggleBreakpointAt path line =
            (({ c with editor }.toggleBreakpoint doc line).1,
              some ({ c with editor }.toggleBreakpoint doc line).2)) ∧
      ∀ doc, c.clearBreakpoints.editor.markers doc .breakpoint = [] := by
  refine ⟨c.run_intact hosted fun a _ c => c.call_intact_bookmarks a, fun hm => ?_,
    fun doc line => c.toggleBreakpoint_flips line, c.toggleBreakpointAt_cases,
    c.clearBreakpoints_markers⟩
  have hi := c.run_intact hosted fun a ha c => c.call_intact (hm a ha)
  exact ⟨hi, hi.markers (by simp)⟩

/-- A stop in a document that the debugger names, and that is opened for that. -/
theorem user_markers_left_alone_at_stop :
    let editor := ((Editor.new .empty).openText "main.p" "a\nb\n").1
    let c : Controller Script :=
      .new .standard ((editor.addMarker 0 0 .breakpoint).addMarker 0 1 .bookmark)
    let hs : List (Happening Script) := [.call (.launch .debug fun _ => .ok (.new true [])),
      .meanwhile (·.cue (.writes "\x1b]>fileother.p\n\x1b]>5\n\x1b]>dbg> ")), .call .poll, .call .goOn]
    (∀ change, .edit change ∉ hs) ∧ (∀ a, .call a ∈ hs → a.marks = false) ∧
      (c.run hs).editor.path? 1 = some "other.p" ∧
      Intact [.breakpoint, .bookmark] c.editor (c.run hs).editor ∧
      (c.run hs).editor.markers 0 .breakpoint = [0] := by
  intro editor c hs
  have hosted : ∀ change, .edit change ∉ hs := by simp [hs]
  have quiet : ∀ a, .call a ∈ hs → a.marks = false := by simp [hs, Call.marks]
  obtain ⟨hi, hm⟩ := (user_markers_left_alone c hosted).2.1 quiet
  exact ⟨hosted, quiet, by decide +kernel, hi, (hm 0).trans (by decide)⟩

end Controller

end Debugline
