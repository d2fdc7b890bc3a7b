import Debugline.Proofs.Session.Stops
import Debugline.Proofs.Wire.Reading

/-! What a controller does, told with the data it does it with. An effect is one change: which
line a session reaches, which command is sent and where it comes from, which document is opened or
marked. All that a controller does by itself and all that frames do is a sequence of effects; so
what each effect keeps, they keep. What the host asks to be changed or sent is none. -/

namespace Debugline

open Session Wire

/-! ### Documents -/

/-- The line or row of an event that is printed. -/
def Session.Event.number? : Event → Option Nat
  | .watchUpdated row => some row
  | .paused _ line => some line
  | _ => none

namespace Editor

/-- What is done to documents to follow a program that is in a file. -/
inductive Follows (file : String) : Editor → Editor → Prop
  | locate {e} : Follows file e (e.locateOrOpen file).1
  | scroll {e} (doc : DocId) (line : Nat) : Follows file e (e.scrollTo doc line)
  | mark {e} (doc : DocId) (line : Nat) : Follows file e (e.addMarker doc line .currentLine)
  | unmark {e} (doc : DocId) (line : Nat) : Follows file e (e.removeMarker doc line .currentLine)

theorem takeOff_follows (e : Editor) (file : String) (marker : Option (String × Nat)) :
    Relation.ReflTransGen (Follows file) e (e.takeOff marker) := by
  unfold takeOff
  split
  · exact .refl
  · split
    · exact .refl
    · exact .single (.unmark _ _)

theorem putOn_follows (e : Editor) (file : String) (line : Nat) :
    Relation.ReflTransGen (Follows file) e (e.putOn file line) := by
  unfold putOn
  split
  · exact .refl
  · next editor doc ho =>
    obtain rfl : (e.locateOrOpen file).1 = editor := congrArg Prod.fst ho
    exact (Relation.ReflTransGen.single .locate).tail (.mark doc line)

end Editor

/-! ### Effects -/

namespace Controller

variable {τ : Type} [Transport τ]

inductive Effect : Controller τ → Controller τ → Prop
  | turn {c} (state : State) (breakpointSent : Bool) (hover : Option Hover)
      (traffic : List Traffic) : Effect c { c with state, breakpointSent, hover, traffic }
  /-- The output is scanned, or the current line is marked or no longer. -/
  | stand {c} {s : Session τ} (hs : c.session = some s) (scanner : Scanner)
      (marker : Option (String × Nat)) :
      Effect c { c with session := some { s with scanner, marker } }
  | name {c} {s : Session τ} (hs : c.session = some s) {file : String}
      (told : .frame (.file file) ∈ c.journal) :
      Effect c { c with session := some { s with file } }
  | reach {c} {s : Session τ} (hs : c.session = some s) {line : Nat}
      (told : line + 1 < Text.wordLimit) : Effect c { c with session := some { s with line } }
  | edit {c} {s : Session τ} (hs : c.session = some s) {editor : Editor}
      (h : Editor.Follows s.file c.editor editor) : Effect c { c with editor }
  | report {c} (e : Event) (h : e.number? = none) : Effect c (c.push e)
  | pause {c} {s : Session τ} (hs : c.session = some s) : Effect c (c.push (.paused s.file s.line))
  | note {c} (m : Mark) (h : m.command? = none) : Effect c (c.note m)
  | rebuild {c} : Effect c { c with breakpoints := c.breakpoints.rebuild c.editor }
  | breakpoint {c} {schedule : Breakpoint.Schedule} {command : Command}
      (due : c.breakpoints.next c.editor = (schedule, some command)) : Effect c
        ({ c with breakpoints := schedule, breakpointSent := true }.transmit (.command command)).1
  | watch {c} {row : Nat} {rest : List Nat} (due : c.watches.pending = row :: rest) : Effect c
        ({ c with watches := { c.watches with pending := rest } }.transmit
          (.command (c.watches.commandFor row))).1
  | settle {c} (none : c.watches.pending = []) :
      Effect c { c with watches := c.watches.normalize.1 }
  | update {c} {row i : Nat} {name value : String} {table : Watch.Table}
      (told : row < Text.wordLimit) (word : Text.IsWord name.toList)
      (h : c.watches.update row name value = (table, some i)) :
      Effect c ({ c with watches := table }.push (.watchUpdated i))
  | input {c} (text : String) : Effect c (c.transmit (.input text)).1
  | close {c} : Effect c { c with
      session := none, state := .terminated, hover := none, watches := c.watches.clearPending }

abbrev Effects : Controller τ → Controller τ → Prop := Relation.ReflTransGen Effect

/-- Effects while the program is read, and while the host takes events. -/
inductive Course : Controller τ → Controller τ → Prop
  | effect {c c'} (h : Effect c c') : Course c c'
  | read {c} {s : Session τ} (hs : c.session = some s) (transport : τ) :
      Course c { c with session := some { s with transport } }
  | take {c} : Course c c.takeEvents.1

abbrev Courses : Controller τ → Controller τ → Prop := Relation.ReflTransGen Course

theorem Effects.courses {c c' : Controller τ} (h : Effects c c') : Courses c c' :=
  h.lift id fun _ _ => .effect

theorem edit_effects {c : Controller τ} {s : Session τ} (hs : c.session = some s) {editor : Editor}
    (h : Relation.ReflTransGen (Editor.Follows s.file) c.editor editor) :
    Effects c { c with editor } := by
  induction h with
  | refl => exact .refl
  | @tail editor _ _ h ih => exact ih.tail (.edit (c := { c with editor }) hs h)

/-! ### Schedules and the marker -/

theorem advanceBreakpoints_effects (c : Controller τ) : Effects c c.advanceBreakpoints := by
  unfold advanceBreakpoints
  split
  · split
    · next schedule hn =>
      have hschedule : schedule = c.breakpoints.rebuild c.editor := by
        cases hd : c.breakpoints.dirty with
        | true =>
          rw [Breakpoint.Schedule.next_dirty hd] at hn
          cases hn
        | false =>
          cases hl : (c.breakpoints.locations c.editor)[c.breakpoints.sent]? with
          | none =>
            rw [Breakpoint.Schedule.next_none hd hl] at hn
            exact (congrArg Prod.fst hn).symm
          | some l =>
            rw [Breakpoint.Schedule.next_some hd hl] at hn
            cases hn
      rw [hschedule]
      exact .single .rebuild
    · next hn => exact .single (.breakpoint hn)
  · exact .refl

theorem advanceWatches_effects (c : Controller τ) : Effects c c.advanceWatches := by
  unfold advanceWatches Watch.Table.next
  split
  · exact .refl
  · next table command hn =>
    split at hn
    · cases hn
    · next hpending =>
      cases hn
      exact .single (.watch hpending)

theorem settleWatches_effects (c : Controller τ) : Effects c c.settleWatches := by
  unfold settleWatches
  split
  · next hp =>
    have hs : Effect c { c with watches := c.watches.normalize.1 } :=
      .settle (List.isEmpty_iff.mp hp)
    split
    · next table hn =>
      rw [hn] at hs
      exact (Relation.ReflTransGen.single hs).tail (.report .watchTableChanged rfl)
    · exact .refl
  · exact .refl

theorem removeMarker_effects (c : Controller τ) : Effects c c.removeMarker := by
  cases hs : c.session with
  | none =>
    have he : c.removeMarker = c := by simp only [removeMarker, hs]
    rw [he]
  | some s =>
    rw [removeMarker_eq, hs]
    let cleared := { c with editor := c.editor.takeOff c.marker? }
    have hedit : Effects c cleared := edit_effects hs (c.editor.takeOff_follows s.file c.marker?)
    exact hedit.tail (.stand (c := cleared) hs s.scanner none)

theorem placeMarker_effects (c : Controller τ) : Effects c c.placeMarker := by
  cases hs : c.session with
  | none =>
    have hnone : c.removeMarker.session = none := by simp [removeMarker_eq, hs]
    have hm := c.removeMarker_effects
    unfold placeMarker
    simp only [hnone]
    exact hm
  | some s =>
    rw [placeMarker_eq hs]
    let marked := { c with editor := (c.editor.takeOff s.marker).putOn s.file s.line }
    have hedit : Effects c marked := edit_effects hs
      ((c.editor.takeOff_follows s.file s.marker).trans (Editor.putOn_follows _ s.file s.line))
    exact hedit.tail (.stand (c := marked) hs s.scanner _)

theorem finish_effects (c : Controller τ) : Effects c c.finish := by
  let closed : Controller τ := { c.removeMarker with
    session := none
    state := .terminated
    hover := none
    watches := c.removeMarker.watches.clearPending }
  have hw : c.watches = c.removeMarker.watches := by rw [removeMarker_eq]
  have hclosed : Effects c closed := c.removeMarker_effects.tail .close
  have he : c.finish = closed.push .terminated := by rw [finish, hw]
  rw [he]
  exact hclosed.tail (.report .terminated rfl)

/-! ### Frames -/

theorem reachLine_effects (c : Controller τ) {line : Nat} (told : line < Text.wordLimit) :
    Effects c (c.reachLine line) := by
  unfold reachLine
  split
  · exact .refl
  · next s hs =>
    have hlimit : 1 < Text.wordLimit := by decide
    have hline : Effects c { c with session := some { s with line := line - 1 } } :=
      .single (.reach hs (by omega))
    dsimp only
    split
    · exact hline.tail (.report _ rfl)
    · next editor doc ho =>
      obtain rfl : (c.editor.locateOrOpen s.file).1 = editor := congrArg Prod.fst ho
      exact ((hline.tail (.edit rfl .locate)).tail (.edit rfl (.scroll doc (line - 1)))).tail
        (.report _ rfl)

theorem reportPause_effects (c : Controller τ) : Effects c c.reportPause := by
  unfold reportPause
  split
  · exact .refl
  · next s hs => exact .single (.pause hs)

theorem reachPrompt_effects (c : Controller τ) : Effects c c.reachPrompt := by
  let settled := { c with state := .pausedAtPrompt }.placeMarker.advanceWatches.settleWatches
  have hpaused : Effects c { c with state := .pausedAtPrompt } := .single (.turn _ _ _ _)
  have hsettled : Effects c settled :=
    ((hpaused.trans (placeMarker_effects _)).trans (advanceWatches_effects _)).trans
      (settleWatches_effects _)
  have hopen : Effects c { settled with breakpointSent := false } :=
    hsettled.tail (.turn _ _ _ _)
  exact (hopen.trans (advanceBreakpoints_effects _)).trans (reportPause_effects _)

theorem apply_effects (c : Controller τ) {f : Frame} (normal : f.Normal) :
    Effects c (c.apply f) := by
  have hnote : Effects c (c.note (.frame f)) := .single (.note _ rfl)
  cases f with
  | prompt => exact hnote.trans (reachPrompt_effects _)
  | file path =>
    unfold apply modifySession
    cases hs : c.session with
    | none => simpa only [note, hs, Option.map_none] using hnote
    | some s =>
      simp only [note, hs, Option.map_some]
      exact hnote.tail (.name (c := c.note (.frame (.file path))) hs List.mem_cons_self)
  | lineNumber line => exact hnote.trans (reachLine_effects _ normal)
  | watch row name value =>
    obtain ⟨-, told, word, -⟩ := normal
    unfold apply
    dsimp only
    split
    · exact .refl
    · next table i hu =>
      have hu : (c.note (.frame (.watch row name value))).watches.update row name value =
          (table, some i) := hu
      exact hnote.tail (.update told word hu)
  | localValue text | globalValue text | info text => exact hnote.tail (.report _ rfl)

theorem dispatch_effects (c : Controller τ) (body : String) : Effects c (c.dispatch body) := by
  unfold dispatch
  split
  · next f hf => exact c.apply_effects (Frame.normal_of_parse hf)
  · exact .refl

theorem dispatchAll_effects (c : Controller τ) (bodies : List String) :
    Effects c (bodies.foldl dispatch c) := by
  induction bodies generalizing c with
  | nil => exact .refl
  | cons body bodies ih => exact (c.dispatch_effects body).trans (ih _)

theorem pushText_effects (c : Controller τ) (text : List UInt8) : Effects c (c.pushText text) := by
  rcases c.pushText_eq text with h | h
  · rw [h]
  · rw [h]
    exact .single (.report _ rfl)

theorem takeOutput_effects (c : Controller τ) (bytes : List UInt8) :
    Effects c (c.takeOutput bytes) := by
  unfold takeOutput
  split
  · exact .refl
  · next s hs =>
    let fed := { c with session := some { s with scanner := (s.scanner.feed bytes).1 } }
    have hfed : Effects c fed := .single (.stand hs _ s.marker)
    exact (hfed.trans (dispatchAll_effects _ _)).trans (pushText_effects _ _)

/-- What was read is taken by effects. -/
theorem receive_effects (c : Controller τ) : Effects c.readStreams.1 c.receive :=
  (takeOutput_effects _ _).trans (pushText_effects _ _)

/-! ### Calls -/

theorem withTransport_courses {α : Type} (c : Controller τ) (absent : α) (f : τ → τ × α) :
    Courses c (c.withTransport absent f).1 := by
  unfold withTransport
  split
  · exact .refl
  · next s hs => exact .single (.read hs _)

theorem receive_courses (c : Controller τ) : Courses c c.receive := by
  have hread : Courses c c.readStreams.1 :=
    (withTransport_courses c (.ok []) Transport.readOutput).trans
      (withTransport_courses _ (.ok []) Transport.readErrors)
  exact hread.trans c.receive_effects.courses

theorem poll_courses (c : Controller τ) : Courses c c.poll := by
  unfold poll
  split
  · have ha := (receive_courses c).trans (withTransport_courses c.receive false Transport.alive)
    dsimp only
    split
    · next h => rwa [h] at ha
    · next h =>
      rw [h] at ha
      exact (ha.trans (receive_courses _)).trans (finish_effects _).courses
  · exact .refl

theorem abort_courses (c : Controller τ) : Courses c c.abort.1 := by
  unfold abort
  split
  · have ht := withTransport_courses c (.ok ()) Transport.terminate
    have hk := ht.trans (withTransport_courses _ (.ok ()) Transport.kill)
    exact (hk.tail (.effect (.turn _ _ _ _))).trans (finish_effects _).courses
  · exact .refl

theorem meanwhile_courses (c : Controller τ) (f : τ → τ) : Courses c (c.meanwhile f) := by
  cases hs : c.session with
  | none =>
    have he : c.meanwhile f = c := by
      simp only [meanwhile, modifySession, hs, Option.map_none]
      rw [← hs]
    rw [he]
  | some s =>
    have he : c.meanwhile f = { c with session := some { s with transport := f s.transport } } := by
      simp only [meanwhile, modifySession, hs, Option.map_some]
    rw [he]
    exact .single (.read hs _)

/-- A step takes the marker off, sends its command, and sets the program going if that is
accepted; or it does nothing. -/
theorem step_cases (c : Controller τ) (command : Command) :
    (c.step command).1 = c ∨ c.requirePaused = .ok () ∧
      Effects (c.removeMarker.transmit (.command command)).1 (c.step command).1 := by
  unfold step
  split
  · exact .inl rfl
  · next hp =>
    refine .inr ⟨hp, ?_⟩
    split
    · next h => rw [h]
    · next h =>
      rw [h]
      exact .single (.turn _ _ _ _)

end Controller

end Debugline
