import Debugline.Proofs.Session.Effects
import Debugline.Proofs.Text.Identifiers
import Debugline.Proofs.Watch.Naming
import Debugline.Proofs.Wire.Commands

/-! Where the texts in commands come from. They are expressions and paths that the host hands in,
paths that the debugger tells, and texts without blanks: the names that it tells, and identifiers of
documents. So what holds of those holds of each text that is sent. -/

namespace Debugline

open Session Wire Text

/-! ### Texts without blanks -/

namespace Text

/-- Holds of all texts without blanks. -/
def OfLetters (P : String → Prop) : Prop := ∀ s : String, (∀ c ∈ s.toList, isBlank c = false) → P s

end Text

/-! ### Texts that come in -/

namespace Editor

/-- The paths that a change hands in. -/
def Change.paths : Change → List String
  | .openText path _ | .openPath path => [path]
  | _ => []

/-- The open documents have paths of a kind. -/
def Paths (P : String → Prop) (e : Editor) : Prop := ∀ doc path, e.path? doc = some path → P path

namespace Paths

variable {P : String → Prop} {e : Editor}

theorem modifyDoc (h : e.Paths P) {f : Document → Document} (hf : ∀ d, (f d).path = d.path)
    (doc : DocId) : (e.modifyDoc doc f).Paths P := by
  intro doc' path hp
  rw [path?_modifyDoc e hf] at hp
  exact h doc' path hp

theorem addMarker (h : e.Paths P) (doc : DocId) (line : Nat) (kind : MarkerKind) :
    (e.addMarker doc line kind).Paths P :=
  h.modifyDoc (fun d => path_setMarkers d kind _) doc

theorem removeMarker (h : e.Paths P) (doc : DocId) (line : Nat) (kind : MarkerKind) :
    (e.removeMarker doc line kind).Paths P :=
  h.modifyDoc (fun d => path_setMarkers d kind _) doc

theorem scrollTo (h : e.Paths P) (doc : DocId) (line : Nat) : (e.scrollTo doc line).Paths P :=
  h.modifyDoc (f := fun d => { d with scroll := some line }) (fun _ => rfl) doc

theorem openText (h : e.Paths P) {path : String} (hp : P path) (text : String) :
    (e.openText path text).1.Paths P := by
  intro doc path' hpath
  rw [path?_openText] at hpath
  split_ifs at hpath
  · exact Option.some.inj hpath ▸ hp
  · exact h doc path' hpath

theorem openPath (h : e.Paths P) {path : String} (hp : P path) : (e.openPath path).1.Paths P := by
  unfold Editor.openPath
  split
  · exact h
  · exact h.openText hp _

theorem locateOrOpen (h : e.Paths P) {path : String} (hp : P path) :
    (e.locateOrOpen path).1.Paths P := by
  rcases e.locateOrOpen_cases path with ⟨-, ho⟩ | ⟨_, -, ho⟩ | ⟨-, -, ho⟩
  · rwa [ho]
  · rwa [ho]
  · rw [ho]
    exact h.openText hp _

theorem close (h : e.Paths P) (closed : DocId) : (e.close closed).Paths P := by
  intro doc path hp
  rw [path?_close] at hp
  split_ifs at hp
  exact h doc path hp

theorem change (h : e.Paths P) {change : Change} (hp : ∀ path ∈ change.paths, P path) :
    (e.change change).Paths P := by
  cases change with
  | openText path text => exact h.openText (hp path List.mem_cons_self) text
  | openPath path => exact h.openPath (hp path List.mem_cons_self)
  | close doc => exact h.close doc
  | addMarker doc line kind => exact h.addMarker doc line kind
  | removeMarker doc line kind => exact h.removeMarker doc line kind
  | scrollTo doc line => exact h.scrollTo doc line
  | write path contents => exact h

theorem follow (h : e.Paths P) {file : String} (hp : P file) {e' : Editor}
    (hf : Follows file e e') : e'.Paths P := by
  cases hf with
  | locate => exact h.locateOrOpen hp
  | scroll doc line => exact h.scrollTo doc line
  | mark doc line => exact h.addMarker doc line .currentLine
  | unmark doc line => exact h.removeMarker doc line .currentLine

theorem unmark (h : e.Paths P) (doc : DocId) (lines : List Nat) :
    (lines.foldl (fun e line => e.removeMarker doc line .breakpoint) e).Paths P := by
  induction lines generalizing e with
  | nil => exact h
  | cons line lines ih => exact ih (h.removeMarker doc line .breakpoint)

theorem clearAll (h : e.Paths P) (s : Breakpoint.Schedule) : (s.clearAll e).2.Paths P := by
  unfold Breakpoint.Schedule.clearAll
  dsimp only
  generalize e.documents = docs
  induction docs generalizing e with
  | nil => exact h
  | cons doc docs ih => exact ih (h.unmark doc _)

theorem ofEditor (h : e.Paths P) : ∀ l ∈ Breakpoint.ofEditor e, P l.file := by
  intro l hl
  obtain ⟨doc, hp, -⟩ := Breakpoint.mem_ofEditor.mp hl
  exact h doc _ hp

end Paths

end Editor

namespace Session

/-- The texts that the host hands in and that may come to be sent. -/
def Happening.texts {τ : Type} : Happening τ → List String
  | .call (.evaluate expr _) => [trimmed expr]
  | .call (.addWatch name) | .call (.editWatch _ name) => [trimmed name]
  | .call (.toggleBreakpointAt path _) => [path]
  | .edit change => change.paths
  | _ => []

/-- The path that the debugger tells. -/
def Mark.path? : Mark → Option String
  | .frame (.file path) => some path
  | _ => none

/-- The paths that were told are of a kind. -/
def Told (P : String → Prop) (journal : List Mark) : Prop :=
  ∀ path ∈ journal.filterMap Mark.path?, P path

end Session

namespace Controller

variable {τ : Type} {P : String → Prop}

/-- All texts that can come to be sent are of a kind, and so are those that were. -/
structure Texts (P : String → Prop) (c : Controller τ) : Prop where
  paths : c.editor.Paths P
  file : ∀ s, c.session = some s → P s.file
  known : ∀ known, c.breakpoints.known = some known → ∀ l ∈ known, P l.file
  names : ∀ row, P (c.watches.nameOf row)
  sent : ∀ command ∈ c.journal.filterMap Mark.command?, P command.argument

/-- The journal grows, and texts stay of a kind if the paths that are told are. -/
structure Keeps (P : String → Prop) (c c' : Controller τ) : Prop where
  journal : c.journal <:+ c'.journal
  texts : Told P c'.journal → c.Texts P → c'.Texts P

namespace Keeps

variable {c c' c'' : Controller τ}

theorem refl (c : Controller τ) : Keeps P c c := ⟨List.suffix_rfl, fun _ h => h⟩

theorem trans (k : Keeps P c c') (k' : Keeps P c' c'') : Keeps P c c'' := by
  refine ⟨k.journal.trans k'.journal, fun told h => k'.texts told (k.texts ?_ h)⟩
  exact fun path hp => told path ((k'.journal.filterMap _).subset hp)

theorem of_texts (journal : c'.journal = c.journal) (texts : c.Texts P → c'.Texts P) :
    Keeps P c c' :=
  ⟨journal ▸ List.suffix_rfl, fun _ => texts⟩

/-- Nothing changes that can come to be sent. -/
theorem still (editor : c'.editor = c.editor)
    (session : c'.session.map (·.file) = c.session.map (·.file))
    (breakpoints : c'.breakpoints = c.breakpoints) (watches : c'.watches = c.watches)
    (journal : c'.journal = c.journal) : Keeps P c c' := by
  refine of_texts journal fun h => ⟨editor ▸ h.paths, fun s hs => ?_, breakpoints ▸ h.known,
    watches ▸ h.names, journal ▸ h.sent⟩
  rw [hs, Option.map_some] at session
  obtain ⟨s', hs', hf⟩ := Option.map_eq_some_iff.mp session.symm
  exact hf ▸ h.file s' hs'

end Keeps

/-! ### What a controller does -/

theorem push_keeps (c : Controller τ) (e : Event) : Keeps P c (c.push e) :=
  .still rfl rfl rfl rfl rfl

theorem note_keeps (c : Controller τ) {m : Mark} (hm : m.command? = none) :
    Keeps P c (c.note m) := by
  refine ⟨List.suffix_cons m _, fun _ h => ⟨h.paths, h.file, h.known, h.names, ?_⟩⟩
  simpa [note, List.filterMap_cons_none hm] using h.sent

/-- The breakpoints that the schedule goes by are of documents. -/
theorem Texts.locations {c : Controller τ} (h : c.Texts P) :
    ∀ l ∈ c.breakpoints.locations c.editor, P l.file := by
  unfold Breakpoint.Schedule.locations
  cases hk : c.breakpoints.known with
  | none => exact h.paths.ofEditor
  | some known => exact h.known known hk

/-- The breakpoints are derived, if they have to be, and kept. -/
theorem schedule_keeps (c : Controller τ) {schedule : Breakpoint.Schedule}
    (h : schedule.known = some (c.breakpoints.locations c.editor)) (breakpointSent : Bool) :
    Keeps P c { c with breakpoints := schedule, breakpointSent } := by
  refine .of_texts rfl fun ht => ⟨ht.paths, ht.file, fun known hk => ?_, ht.names, ht.sent⟩
  obtain rfl := Option.some.inj (h.symm.trans hk)
  exact ht.locations

theorem watches_keeps (c : Controller τ) {watches : Watch.Table}
    (h : (∀ row, P (c.watches.nameOf row)) → ∀ row, P (watches.nameOf row)) :
    Keeps P c { c with watches } :=
  .of_texts rfl fun ht => ⟨ht.paths, ht.file, ht.known, h ht.names, ht.sent⟩

/-- Changes of breakpoints have them derived again. -/
theorem invalidate_keeps (c : Controller τ) {editor : Editor}
    (h : c.editor.Paths P → editor.Paths P) :
    Keeps P c { c with breakpoints := c.breakpoints.invalidate, editor } :=
  .of_texts rfl fun ht => ⟨h ht.paths, ht.file, nofun, ht.names, ht.sent⟩

theorem asked_keeps (c : Controller τ) (row : Nat) (name : String) {watches : Watch.Table}
    (h : (∀ row, P (c.watches.nameOf row)) → ∀ row, P (watches.nameOf row)) :
    Keeps P c ({ c.note (.asked row name) with watches }.push .watchTableChanged) := by
  have hnote := c.note_keeps (P := P) (m := .asked row name) rfl
  exact (hnote.trans (watches_keeps _ h)).trans (push_keeps _ _)

theorem editWatch_keeps (c : Controller τ) (row : Nat) {name : String} (h : P (trimmed name)) :
    Keeps P c (c.editWatch row name) := by
  refine c.asked_keeps _ _ fun names row' => ?_
  rw [Watch.Table.nameOf_edit]
  split
  · exact h
  · exact names row'

theorem deleteWatch_keeps (plain : OfLetters P) (c : Controller τ) (row : Nat) :
    Keeps P c (c.deleteWatch row).1 := by
  unfold deleteWatch
  split
  · next table hd =>
    have hrow : row < c.watches.rows.length := by
      by_contra hn
      simp [Watch.Table.delete, hn] at hd
    obtain rfl : (c.watches.delete row).1 = table := congrArg Prod.fst hd
    refine c.asked_keeps _ _ fun names row' => ?_
    rw [Watch.Table.nameOf_delete hrow]
    split
    · exact plain "" (by simp)
    · exact names row'
  · exact .refl c

theorem start_keeps (plain : OfLetters P) (c : Controller τ) (mode : Mode) (transport : τ) :
    Keeps P c (c.start mode transport) := by
  have hfile : ∀ s, (c.start mode transport).session = some s → P s.file := by
    cases mode <;>
    · intro s hs
      obtain rfl := Option.some.inj hs
      exact plain "" (by simp)
  have hjournal : (c.start mode transport).journal = .launched mode :: c.journal := by
    cases mode <;> rfl
  refine ⟨hjournal ▸ List.suffix_cons _ _, fun _ h => ?_⟩
  have hsent : ∀ command ∈ (c.start mode transport).journal.filterMap Mark.command?,
      P command.argument := by
    rw [hjournal, List.filterMap_cons_none rfl]
    exact h.sent
  cases mode with
  | run => exact ⟨h.paths, hfile, h.known, h.names, hsent⟩
  | debug =>
    exact ⟨h.paths, hfile, nofun, fun row => c.watches.nameOf_clearValues row ▸ h.names row, hsent⟩

theorem launch_keeps (plain : OfLetters P) (c : Controller τ) (mode : Mode)
    (spawn : Unit → Except Failure τ) : Keeps P c (c.launch mode spawn).1 := by
  unfold launch
  split
  · exact .refl c
  · dsimp only
    split
    · exact .trans (.still rfl rfl rfl rfl rfl) (start_keeps plain _ mode _)
    · exact .still rfl rfl rfl rfl rfl

variable [Transport τ]

theorem transmit_keeps (c : Controller τ) {what : Sent}
    (h : c.Texts P → ∀ command, what = .command command → P command.argument) :
    Keeps P c (c.transmit what).1 := by
  unfold transmit
  split
  · exact .refl c
  · next s hs =>
    refine ⟨List.suffix_cons _ _, fun _ ht => ⟨ht.paths, fun s' hs' => ?_, ht.known, ht.names,
      fun command hc => ?_⟩⟩
    · obtain rfl := Option.some.inj hs'
      exact ht.file s hs
    · rcases List.mem_filterMap.mp hc with ⟨m, hm, hcommand⟩
      rcases List.mem_cons.mp hm with rfl | hm
      · cases what with
        | command _ => exact Option.some.inj hcommand ▸ h ht _ rfl
        | input text => cases hcommand
      · exact ht.sent command (List.mem_filterMap.mpr ⟨m, hm, hcommand⟩)

/-- An effect brings a path that was told, or a name without blanks. -/
theorem Effect.keeps (plain : OfLetters P) {c c' : Controller τ} (h : Effect c c') :
    Keeps P c c' := by
  cases h with
  | stand hs | reach hs => exact .still rfl (by simp [hs]) rfl rfl rfl
  | @name s hs file told =>
    -- The one text of a kind only because it was told: the journal has it.
    refine ⟨List.suffix_rfl, fun ht h => ⟨h.paths, fun s' hs' => ?_, h.known, h.names, h.sent⟩⟩
    obtain rfl := Option.some.inj hs'
    exact ht file (List.mem_filterMap.mpr ⟨_, told, rfl⟩)
  | edit hs hf =>
    exact .of_texts rfl fun h =>
      ⟨h.paths.follow (h.file _ hs) hf, h.file, h.known, h.names, h.sent⟩
  | note m hm => exact c.note_keeps hm
  | rebuild => exact c.schedule_keeps rfl _
  | @breakpoint schedule command due =>
    obtain ⟨hknown, hdue⟩ := Breakpoint.Schedule.next_cases due
    refine (c.schedule_keeps hknown true).trans (transmit_keeps _ fun h issued hi => ?_)
    obtain rfl := Sent.command.inj hi
    rcases hdue with rfl | ⟨l, hl, rfl⟩
    · exact plain "" (by simp)
    · exact h.known _ hknown l hl
  | @watch row rest due =>
    have hnext : Keeps P c { c with watches := { c.watches with pending := rest } } :=
      c.watches_keeps id
    refine hnext.trans (transmit_keeps _ fun h issued hi => ?_)
    obtain rfl := Sent.command.inj hi
    unfold Watch.Table.commandFor
    split
    · exact plain "" (by simp)
    · exact h.names row
  | settle => exact c.watches_keeps fun names row => c.watches.nameOf_normalize row ▸ names row
  | @update row i name value table _ word hu =>
    refine (c.watches_keeps fun names row' => ?_).trans (push_keeps _ _)
    rw [Watch.Table.nameOf_update hu]
    split
    · exact plain name word.letters
    · exact names row'
  | input text => exact transmit_keeps c nofun
  | close => exact .of_texts rfl fun h => ⟨h.paths, nofun, h.known, h.names, h.sent⟩
  | turn | report | pause => exact .still rfl rfl rfl rfl rfl

theorem Courses.keeps (plain : OfLetters P) {c c' : Controller τ} (h : Courses c c') :
    Keeps P c c' := by
  induction h with
  | refl => exact .refl c
  | tail _ h ih =>
    refine ih.trans ?_
    cases h with
    | effect h => exact h.keeps plain
    | read hs => exact .still rfl (by simp [hs]) rfl rfl rfl
    | take => exact .still rfl rfl rfl rfl rfl

theorem Effects.keeps (plain : OfLetters P) {c c' : Controller τ} (h : Effects c c') :
    Keeps P c c' := h.courses.keeps plain

/-! ### Calls -/

theorem step_keeps (plain : OfLetters P) (c : Controller τ) {command : Command}
    (h : command.resumes = true) : Keeps P c (c.step command).1 := by
  have hargument : command.argument = "" := by cases command <;> first | rfl | cases h
  rcases c.step_cases command with he | ⟨-, hs⟩
  · rw [he]
    exact .refl c
  · refine (c.removeMarker_effects.keeps plain).trans (.trans ?_ (hs.keeps plain))
    refine transmit_keeps _ fun _ other hi => ?_
    rw [← Sent.command.inj hi, hargument]
    exact plain "" (by simp)

theorem evaluate_keeps (c : Controller τ) {expr : String} (h : P (trimmed expr))
    (hover : Option Hover) : Keeps P c (c.evaluate expr hover).1 := by
  unfold evaluate
  split
  · exact .refl c
  · have hh : Keeps P c { c with hover } := .still rfl rfl rfl rfl rfl
    exact hh.trans (transmit_keeps _ fun _ _ he => Sent.command.inj he ▸ h)

omit [Transport τ] in
theorem letters_of_identifierAt? {e : Editor} {doc : DocId} {position : Nat} {name : String}
    (h : identifierAt? e doc position = some name) : ∀ c ∈ name.toList, isBlank c = false := by
  unfold identifierAt? at h
  dsimp only at h
  split at h
  · cases h
  · obtain ⟨run, hrun, rfl⟩ := Option.map_eq_some_iff.mp h
    rw [String.toList_ofList]
    exact fun c hc => isBlank_of_isIdentifier (letters_of_identifierAt hrun c hc)

theorem evaluateAt_keeps (plain : OfLetters P) (c : Controller τ) (doc : DocId) (position : Nat) :
    Keeps P c (c.evaluateAt doc position).1 := by
  unfold evaluateAt
  split
  · exact .refl c
  · split
    · exact .refl c
    · next name hname =>
      have hletters := letters_of_identifierAt? hname
      -- An identifier is trimmed like any expression, and has nothing to be trimmed.
      refine evaluate_keeps c (plain _ ?_) _
      rwa [trimmed, trim_word hletters, String.ofList_toList]

theorem toggleBreakpoint_keeps (plain : OfLetters P) (c : Controller τ) (doc : DocId)
    (line : Nat) : Keeps P c (c.toggleBreakpoint doc line).1 := by
  obtain ⟨editor, set, ht, he⟩ : ∃ editor set,
      c.breakpoints.toggle c.editor doc line = (c.breakpoints.invalidate, editor, set) ∧
        (c.editor.Paths P → editor.Paths P) := by
    unfold Breakpoint.Schedule.toggle
    split
    · exact ⟨_, _, rfl, fun h => h.removeMarker doc line .breakpoint⟩
    · exact ⟨_, _, rfl, fun h => h.addMarker doc line .breakpoint⟩
  unfold toggleBreakpoint
  rw [ht]
  exact (c.invalidate_keeps he).trans ((advanceBreakpoints_effects _).keeps plain)

theorem toggleBreakpointAt_keeps (plain : OfLetters P) (c : Controller τ) {path : String}
    (h : P path) (line : Nat) : Keeps P c (c.toggleBreakpointAt path line).1 := by
  unfold toggleBreakpointAt
  split
  · exact .refl c
  · next editor doc ho =>
    obtain rfl : (c.editor.locateOrOpen path).1 = editor := congrArg Prod.fst ho
    have hopen : Keeps P c { c with editor := (c.editor.locateOrOpen path).1 } :=
      .of_texts rfl fun ht => ⟨ht.paths.locateOrOpen h, ht.file, ht.known, ht.names, ht.sent⟩
    exact hopen.trans (toggleBreakpoint_keeps plain _ doc line)

theorem call_keeps (plain : OfLetters P) (c : Controller τ) {a : Call τ}
    (h : ∀ text ∈ (Happening.call a).texts, P text) : Keeps P c (c.call a) := by
  cases a with
  | launch mode spawn => exact launch_keeps plain c mode spawn
  | poll => exact c.poll_courses.keeps plain
  | abort => exact c.abort_courses.keeps plain
  | goOn | stepInto | stepOver | stepOut | runToLine line | runToCursor doc position =>
    exact step_keeps plain c rfl
  | evaluate expr hover => exact evaluate_keeps c (h _ List.mem_cons_self) hover
  | evaluateAt doc position => exact evaluateAt_keeps plain c doc position
  | sendInput text => exact transmit_keeps c nofun
  | toggleBreakpoint doc line => exact toggleBreakpoint_keeps plain c doc line
  | toggleBreakpointAt path line =>
    exact toggleBreakpointAt_keeps plain c (h _ List.mem_cons_self) line
  | clearBreakpoints =>
    exact (c.invalidate_keeps fun hp => hp.clearAll c.breakpoints).trans
      ((advanceBreakpoints_effects _).keeps plain)
  | documentsChanged => exact c.invalidate_keeps id
  | listBreakpoints => exact c.schedule_keeps rfl _
  | addWatch name => exact editWatch_keeps c _ (h _ List.mem_cons_self)
  | editWatch row name => exact editWatch_keeps c row (h _ List.mem_cons_self)
  | deleteWatch row => exact deleteWatch_keeps plain c row
  | takeEvents | takeTraffic => exact .still rfl rfl rfl rfl rfl

theorem after_keeps (plain : OfLetters P) (c : Controller τ) {x : Happening τ}
    (h : ∀ text ∈ x.texts, P text) : Keeps P c (c.after x) := by
  cases x with
  | call a => exact call_keeps plain c h
  | edit change =>
    exact .of_texts rfl fun ht => ⟨ht.paths.change h, ht.file, ht.known, ht.names, ht.sent⟩
  | meanwhile f => exact (c.meanwhile_courses f).keeps plain

theorem run_keeps (plain : OfLetters P) (c : Controller τ) {hs : List (Happening τ)}
    (h : ∀ text ∈ hs.flatMap Happening.texts, P text) : Keeps P c (c.run hs) := by
  induction hs generalizing c with
  | nil => exact .refl c
  | cons x hs ih =>
    rw [List.flatMap_cons, List.forall_mem_append] at h
    exact (after_keeps plain c h.1).trans (ih _ h.2)

end Controller

end Debugline
