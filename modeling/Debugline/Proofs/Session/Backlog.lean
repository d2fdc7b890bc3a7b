import Debugline.Proofs.Watch.Agreement

/-! What is left to be sent. Of the watches and of the breakpoints a list of commands is due, and
each prompt takes the first of each: the watch, then the breakpoint. -/

namespace Debugline

open Session Wire

namespace Watch.Table

/-- The last row is blank, and the row before it is not. -/
def EndsInOneBlank (t : Table) : Prop :=
  ∃ named blank, t.rows = named ++ [blank] ∧ blank.isBlank ∧
    ∀ last, named.getLast? = some last → last.isBlank = false

theorem normalize_endsInOneBlank (t : Table) : t.normalize.1.EndsInOneBlank := by
  obtain ⟨named, blanks, h⟩ := exists_parts t.rows
  have hparts := h.rows_normalize
  exact ⟨named, _, hparts.rows, hparts.blank _ List.mem_cons_self, hparts.last⟩

theorem settle_endsInOneBlank {t : Table} (h : t.pending = []) : t.settle.EndsInOneBlank := by
  rw [settle, if_pos (List.isEmpty_iff.mpr h)]
  exact t.normalize_endsInOneBlank

theorem commandFor_settle (t : Table) : t.settle.commandFor = t.commandFor := by
  funext row
  simp only [commandFor, nameOf_settle]

end Watch.Table

namespace Session

/-- A command that was accepted at a prompt. -/
def Mark.taken (command : Command) : Mark := .sent .pausedAtPrompt .debug (.command command) true

/-- The journal has grown by marks, the oldest first, if all commands in them were accepted. -/
def Grows (marks journal journal' : List Mark) : Prop :=
  ∃ new, journal' = new ++ journal ∧ (Accepted new → new.reverse = marks)

namespace Grows

variable {marks marks' journal journal' journal'' : List Mark}

theorem refl (journal : List Mark) : Grows [] journal journal := ⟨[], rfl, fun _ => rfl⟩

theorem trans (g : Grows marks journal journal') (g' : Grows marks' journal' journal'') :
    Grows (marks ++ marks') journal journal'' := by
  obtain ⟨new, hj, hm⟩ := g
  obtain ⟨new', hj', hm'⟩ := g'
  refine ⟨new' ++ new, by rw [hj', hj, List.append_assoc], fun ha => ?_⟩
  have hnew : Accepted new := fun m h => ha m (List.mem_append_right _ h)
  have hnew' : Accepted new' := fun m h => ha m (List.mem_append_left _ h)
  rw [List.reverse_append, hm hnew, hm' hnew']

theorem note (m : Mark) (journal : List Mark) : Grows [m] journal (m :: journal) :=
  ⟨[m], rfl, fun _ => rfl⟩

theorem send (command : Command) (ok : Bool) (journal : List Mark) :
    Grows [.taken command] journal
      (.sent .pausedAtPrompt .debug (.command command) ok :: journal) := by
  refine ⟨[.sent .pausedAtPrompt .debug (.command command) ok], rfl, fun ha => ?_⟩
  obtain rfl : ok = true := ha.command
  rfl

end Grows

end Session

namespace Outline

/-- The watch commands that are due. -/
def watchesDue (o : Outline) : List Command := o.watches.pending.map o.watches.commandFor

/-- The breakpoint commands that are due. -/
def breakpointsDue (o : Outline) : List Command :=
  if o.breakpoints.dirty then .clearBreakpoints :: o.known.map (·.command)
  else (o.known.drop o.breakpoints.sent).map (·.command)

theorem breakpointsDue_of_dirty {o : Outline} (h : o.breakpoints.dirty = true) :
    o.breakpointsDue = .clearBreakpoints :: o.known.map (·.command) := if_pos h

theorem breakpointsDue_of_clean {o : Outline} (h : o.breakpoints.dirty = false) :
    o.breakpointsDue = (o.known.drop o.breakpoints.sent).map (·.command) := if_neg (by simp [h])

/-- What is sent at a prompt, counted from 0. -/
def dueAt (o : Outline) (i : Nat) : List Command :=
  o.watchesDue[i]?.toList ++ o.breakpointsDue[i]?.toList

/-- What a prompt leaves in the journal. -/
def marksAt (o : Outline) (i : Nat) : List Mark := .frame .prompt :: (o.dueAt i).map .taken

/-- Unless a watch is due, the table ends in one blank row. -/
def Tidy (o : Outline) : Prop := o.watches.pending = [] → o.watches.EndsInOneBlank

/-- A number of prompts has gone by. -/
structure Progress (k : Nat) (o o' : Outline) : Prop where
  session : o'.session = o.session
  watches : o'.watchesDue = o.watchesDue.drop k
  breakpoints : o'.breakpointsDue = o.breakpointsDue.drop k
  journal : Grows ((List.range k).flatMap o.marksAt) o.journal o'.journal
  tidy : 0 < k ∨ o.Tidy → o'.Tidy

namespace Progress

variable {k k' : Nat} {o o' o'' : Outline}

theorem refl (o : Outline) : Progress 0 o o where
  session := rfl
  watches := rfl
  breakpoints := rfl
  journal := .refl o.journal
  tidy h := h.resolve_left (Nat.lt_irrefl 0)

theorem pending_eq_nil_iff (p : Progress k o o') :
    o'.watches.pending = [] ↔ o.watches.pending.length ≤ k := by
  have hdue (o : Outline) : o.watchesDue.length = o.watches.pending.length := List.length_map _
  rw [← List.length_eq_zero_iff, ← hdue, p.watches, List.length_drop, hdue]
  omega

theorem marksAt_eq (p : Progress k o o') : o'.marksAt = fun i => o.marksAt (k + i) := by
  funext i
  simp only [marksAt, dueAt, p.watches, p.breakpoints, List.getElem?_drop]

theorem trans (p : Progress k o o') (p' : Progress k' o' o'') : Progress (k + k') o o'' where
  session := p'.session.trans p.session
  watches := by rw [p'.watches, p.watches, List.drop_drop]
  breakpoints := by rw [p'.breakpoints, p.breakpoints, List.drop_drop]
  journal := by
    have hmarks : (List.range (k + k')).flatMap o.marksAt =
        (List.range k).flatMap o.marksAt ++ (List.range k').flatMap o'.marksAt := by
      rw [List.range_add, List.flatMap_append, List.flatMap_map, p.marksAt_eq]
    exact hmarks ▸ p.journal.trans p'.journal
  -- The table is put in order at a prompt, so one prompt in either part is enough.
  tidy h := by
    by_cases hk : 0 < k
    · exact p'.tidy (.inr (p.tidy (.inl hk)))
    · exact p'.tidy (h.imp (by omega) fun ht => p.tidy (.inr ht))

end Progress

/-- A prompt up to the breakpoints: the watch that is due is sent. -/
structure Prompted (o o' : Outline) : Prop where
  waits : o'.Waits
  unsent : o'.breakpointSent = false
  breakpoints : o'.breakpointsDue = o.breakpointsDue
  watches : o'.watchesDue = o.watchesDue.tail
  tidy : o'.Tidy
  journal : Grows (.frame .prompt :: o.watchesDue.head?.toList.map .taken) o.journal o'.journal

/-- The rest of a prompt: the breakpoint that is due is sent. -/
structure Advanced (o o' : Outline) : Prop where
  session : o'.session = o.session
  watches : o'.watches = o.watches
  breakpoints : o'.breakpointsDue = o.breakpointsDue.tail
  journal : Grows (o.breakpointsDue.head?.toList.map .taken) o.journal o'.journal

theorem Prompted.progress {o p o' : Outline} (h : Prompted o p) (h' : Advanced p o')
    (hs : o.session = some (.debug, true)) : Progress 1 o o' where
  session := (h'.session.trans h.waits.session).trans hs.symm
  watches := by
    rw [watchesDue, h'.watches, List.drop_one]
    exact h.watches
  breakpoints := by rw [h'.breakpoints, h.breakpoints, List.drop_one]
  journal := by
    have hmarks : (List.range 1).flatMap o.marksAt =
        (.frame .prompt :: o.watchesDue.head?.toList.map .taken) ++
          p.breakpointsDue.head?.toList.map .taken := by
      rw [h.breakpoints]
      simp [marksAt, dueAt, List.head?_eq_getElem?]
    exact hmarks ▸ h.journal.trans h'.journal
  tidy _ := by
    rw [Tidy, h'.watches]
    exact h.tidy

end Outline

namespace Controller

open Outline

variable {τ : Type}

theorem hasPending_eq_false_iff (c : Controller τ) :
    (c.breakpoints.hasPending c.editor).2 = false ↔ c.outline.breakpointsDue = [] := by
  have hknown : c.outline.known = c.breakpoints.locations c.editor := rfl
  have hschedule : c.outline.breakpoints = c.breakpoints := rfl
  unfold Outline.breakpointsDue Breakpoint.Schedule.hasPending
  rw [hknown, hschedule]
  cases c.breakpoints.dirty <;> simp

variable [Transport τ]

theorem prompted {c : Controller τ} (hs : c.outline.session = some (.debug, true)) :
    let paused := { c.note (.frame .prompt) with state := .pausedAtPrompt }
    Prompted c.outline
      { paused.placeMarker.advanceWatches.settleWatches with breakpointSent := false }.outline := by
  intro paused
  obtain ⟨hp, ho⟩ | ⟨row, rest, ok, hp, ho⟩ := outline_prompt hs
  · rw [ho]
    refine ⟨⟨rfl, hs⟩, rfl, rfl, ?_, fun _ => Watch.Table.settle_endsInOneBlank hp, ?_⟩
    · simp [watchesDue, Watch.Table.pending_settle, hp]
    · rw [watchesDue, hp]
      exact .note _ _
  · rw [ho]
    refine ⟨⟨rfl, hs⟩, rfl, rfl, ?_, fun hrest => ?_, ?_⟩
    · simp only [watchesDue, Watch.Table.pending_settle, Watch.Table.commandFor_settle, hp]
      rfl
    · rw [Watch.Table.pending_settle] at hrest
      exact Watch.Table.settle_endsInOneBlank hrest
    · rw [watchesDue, hp]
      exact (Grows.note _ _).trans (.send _ ok _)

theorem advanced {c : Controller τ} (h : c.outline.Waits) (hn : c.outline.breakpointSent = false) :
    Advanced c.outline c.advanceBreakpoints.outline := by
  obtain ⟨hd, ok, ho⟩ | ⟨l, ok, hd, hl, ho⟩ | ⟨hd, hl, ho⟩ := outline_advanceBreakpoints h hn
  · have hdue := breakpointsDue_of_dirty hd
    rw [ho]
    refine ⟨rfl, rfl, ?_, ?_⟩
    · rw [hdue]
      rfl
    · rw [hdue]
      exact .send _ ok _
  · have hdue := breakpointsDue_of_clean hd
    rw [ho]
    refine ⟨rfl, rfl, ?_, ?_⟩
    · rw [hdue, ← List.map_tail, List.tail_drop]
      rfl
    · rw [hdue, List.head?_map, List.head?_drop, hl]
      exact .send _ ok _
  · have hdue : c.outline.breakpointsDue = [] := by
      rw [breakpointsDue_of_clean hd, List.drop_eq_nil_of_le (List.getElem?_eq_none_iff.mp hl)]
      rfl
    rw [ho]
    refine ⟨rfl, rfl, ?_, ?_⟩
    · show c.outline.breakpointsDue = c.outline.breakpointsDue.tail
      rw [hdue]
      rfl
    · rw [hdue]
      exact .refl _

end Controller

end Debugline
