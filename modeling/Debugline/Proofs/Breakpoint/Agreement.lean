import Debugline.Proofs.Session.Moves
import Debugline.Transport.Script
import Mathlib.Data.Finset.Dedup
import Mathlib.Data.Finset.Insert

/-! The breakpoints that the debugger holds are those of the open documents, whenever no
command about them is left to be sent. What it holds is told from the journal: a debugger
starts with none, and forgets and learns by command. -/

namespace Debugline

open Session Wire

/-- The breakpoints of a debugger after a command. -/
def Wire.Command.breakpoints (c : Command) (held : Finset (String × Nat)) : Finset (String × Nat) :=
  match c with
  | .clearBreakpoints => ∅
  | .breakAt file line => insert (file, line) held
  | _ => held

namespace Session

def Mark.breakpoints (m : Mark) (held : Finset (String × Nat)) : Finset (String × Nat) :=
  match m with
  | .launched .debug => ∅
  | .sent _ _ (.command c) true => c.breakpoints held
  | _ => held

/-- The breakpoints of the debugger at the end of a journal, with lines counted from 1. -/
def held (journal : List Mark) : Finset (String × Nat) := journal.foldr Mark.breakpoints ∅

/-- A command that was not accepted never reached the debugger. -/
def Mark.lost : Mark → Bool
  | .sent _ _ (.command _) ok => !ok
  | _ => false

def Accepted (journal : List Mark) : Prop := ∀ m ∈ journal, m.lost = false

instance (journal : List Mark) : Decidable (Accepted journal) :=
  inferInstanceAs (Decidable (∀ m ∈ journal, m.lost = false))

theorem Accepted.past {m : Mark} {journal : List Mark} (h : Accepted (m :: journal)) :
    Accepted journal :=
  fun _ hm => h _ (List.mem_cons_of_mem _ hm)

theorem Accepted.command {state : State} {mode : Mode} {c : Command} {ok : Bool}
    {journal : List Mark} (h : Accepted (.sent state mode (.command c) ok :: journal)) :
    ok = true := by
  simpa [Mark.lost] using h _ List.mem_cons_self

end Session

theorem Wire.Command.breakpoints_of_resumes {c : Command} (h : c.resumes = true)
    (held : Finset (String × Nat)) : c.breakpoints held = held := by
  cases c <;> first | rfl | cases h

theorem Watch.Table.breakpoints_commandFor (t : Table) (row : Nat) (held : Finset (String × Nat)) :
    (t.commandFor row).breakpoints held = held := by
  unfold commandFor
  split <;> rfl

/-- A command that sets no breakpoint and clears none, accepted or not. -/
theorem Session.Mark.breakpoints_command {c : Command} (h : ∀ held, c.breakpoints held = held)
    (state : State) (mode : Mode) (ok : Bool) (held : Finset (String × Nat)) :
    (Mark.sent state mode (.command c) ok).breakpoints held = held := by
  cases ok with
  | false => rfl
  | true => exact h held

/-- A breakpoint as the debugger knows it. -/
def Breakpoint.Location.entry (l : Location) : String × Nat := (l.file, l.line + 1)

/-- The same breakpoints, in whatever order. -/
def Breakpoint.Alike (ls ls' : List Location) : Prop := ∀ l, l ∈ ls ↔ l ∈ ls'

theorem Breakpoint.alike_equivalence : Equivalence Alike :=
  ⟨fun _ _ => Iff.rfl, fun h l => (h l).symm, fun h h' l => (h l).trans (h' l)⟩

namespace Outline

/-- Unless the debugger is still to be cleared, it holds what was sent of the known
breakpoints. -/
def Synced (o : Outline) : Prop :=
  ∀ searched, o.session = some (.debug, searched) → o.breakpoints.dirty = false →
    ∃ known, o.breakpoints.known = some known ∧
      held o.journal = ((known.take o.breakpoints.sent).map Breakpoint.Location.entry).toFinset

variable {same : List Breakpoint.Location → List Breakpoint.Location → Prop} {o o' : Outline}

/-- The breakpoints that are known are those of the documents. -/
def Fresh (same : List Breakpoint.Location → List Breakpoint.Location → Prop) (o : Outline) : Prop :=
  ∀ known, o.breakpoints.known = some known → same known o.located

theorem Fresh.known (refl : ∀ ls, same ls ls) (h : o.Fresh same) : same o.known o.located := by
  rw [Outline.known]
  cases hk : o.breakpoints.known with
  | none => exact refl _
  | some known => exact h known hk

/-- What the debugger holds is changed by breakpoint commands only. -/
theorem Synced.quiet (h : Accepted o.journal → o.Synced) {m : Mark}
    (hm : ∀ held, m.breakpoints held = held) (hj : o'.journal = m :: o.journal)
    (hs : o'.session = o.session) (hb : o'.breakpoints = o.breakpoints)
    (ha : Accepted o'.journal) : o'.Synced := by
  intro searched hsession hdirty
  rw [hj] at ha
  rw [hs] at hsession
  rw [hb] at hdirty ⊢
  obtain ⟨known, hk, hheld⟩ := h ha.past searched hsession hdirty
  refine ⟨known, hk, ?_⟩
  rw [hj, held, List.foldr_cons, hm]
  exact hheld

theorem Move.synced (m : Move o o') (h : Accepted o.journal → o.Synced)
    (ha : Accepted o'.journal) : o'.Synced := by
  cases m with
  | refuse idle =>
    intro searched hs
    cases idle.symm.trans hs
  | finish => exact nofun
  | startRun => exact nofun
  | startDebug | invalidate => exact nofun
  | frame | report | promptIdle | edit | delete =>
    exact Synced.quiet h (fun _ => rfl) rfl rfl rfl ha
  | input text session ok =>
    exact Synced.quiet h (fun _ => by cases ok <;> rfl) rfl rfl rfl ha
  | evaluate => exact Synced.quiet h (Mark.breakpoints_command (fun _ => rfl) _ _ _) rfl rfl rfl ha
  | promptWatch session due ok =>
    have hp : Accepted (o.note (.frame .prompt)).journal → (o.note (.frame .prompt)).Synced :=
      Synced.quiet h (fun _ => rfl) rfl rfl rfl
    exact Synced.quiet hp (Mark.breakpoints_command (Watch.Table.breakpoints_commandFor _ _) _ _ _)
      rfl rfl rfl ha
  | resume waits resumes | resumeFailed waits resumes =>
    exact Synced.quiet h (Mark.breakpoints_command (Command.breakpoints_of_resumes resumes) _ _ _)
      rfl rfl rfl ha
  | rebuild =>
    intro searched hs hdirty
    obtain ⟨known, hk, hheld⟩ := h ha searched hs hdirty
    exact ⟨known, by simp [Outline.known, hk], hheld⟩
  | clear waits fresh dirty ok =>
    intro searched hs hdirty
    obtain rfl : ok = true := Accepted.command ha
    exact ⟨o.known, rfl, rfl⟩
  | @breakAt l waits fresh clean due ok =>
    intro searched hs _
    obtain rfl : ok = true := Accepted.command ha
    obtain ⟨known, hk, hheld⟩ := h ha.past searched hs clean
    have hknown : o.known = known := by simp [Outline.known, hk]
    rw [hknown] at due
    refine ⟨known, by rw [hknown], ?_⟩
    have hnow : held (.sent .pausedAtPrompt .debug (.command l.command) true :: o.journal) =
        insert l.entry (held o.journal) := rfl
    show held (.sent .pausedAtPrompt .debug (.command l.command) true :: o.journal) = _
    rw [hnow, hheld, List.take_add_one, due]
    ext p
    simp only [Finset.mem_insert, List.mem_toFinset, List.map_append, List.mem_append]
    simp [or_comm]

theorem Move.fresh (refl : ∀ ls, same ls ls) (m : Move o o') (h : o.Fresh same) :
    o'.Fresh same := by
  -- what is taken to be known is what is known already, or what the documents say
  have hknown : same o.known o.located := h.known refl
  cases m with
  | startDebug | invalidate => exact nofun
  | clear | breakAt | rebuild =>
    intro known hk
    obtain rfl := Option.some.inj hk
    exact hknown
  | _ => exact h

end Outline

namespace Controller

variable {τ : Type} [Transport τ]

/-- The controllers of runs, with a flag that says whether the host told of its changes of
breakpoints: whether each was followed by a call that says so. It need not tell of a change that
leaves the `same` breakpoints. -/
inductive Announced (same : List Breakpoint.Location → List Breakpoint.Location → Prop) :
    Bool → Controller τ → Prop
  | new (config : Config) (editor : Editor) : Announced same true (.new config editor)
  | call {c told} (a : Call τ) (h : Announced same told c) : Announced same told (c.call a)
  | announce {c told} (h : Announced same told c) : Announced same true (c.call .documentsChanged)
  /-- A change of something else, such as of another marker. -/
  | edit {c told} (change : Editor.Change)
      (kept : same (Breakpoint.ofEditor c.editor) (Breakpoint.ofEditor (c.editor.change change)))
      (h : Announced same told c) : Announced same told (c.edit change)
  | editBreakpoints {c told} (change : Editor.Change) (h : Announced same told c) :
      Announced same false (c.edit change)
  | meanwhile {c told} (f : τ → τ) (h : Announced same told c) :
      Announced same told (c.meanwhile f)

namespace Announced

variable {same : List Breakpoint.Location → List Breakpoint.Location → Prop} {c : Controller τ}
  {told : Bool}

theorem sound (h : Announced same told c) : c.outline.Sound := by
  induction h with
  | new config editor => exact sound_new config editor
  | call a _ ih => exact (call_moves ih a).sound ih
  | announce _ ih => exact (call_moves ih .documentsChanged).sound ih
  | edit _ _ _ ih | editBreakpoints _ _ ih => exact ih.of_eq rfl rfl
  | meanwhile f _ ih => rwa [outline_meanwhile]

theorem call_synced (hs : c.outline.Sound) (h : Accepted c.journal → c.outline.Synced)
    (a : Call τ) : Accepted (c.call a).journal → (c.call a).outline.Synced :=
  (call_moves hs a).keep (P := fun o => Accepted o.journal → o.Synced)
    (fun _ h m => m.synced h) hs h

theorem synced (h : Announced same told c) : Accepted c.journal → c.outline.Synced := by
  induction h with
  | new config editor => exact fun _ => nofun
  | call a h ih => exact call_synced h.sound ih a
  | announce h ih => exact call_synced h.sound ih .documentsChanged
  | edit _ _ _ ih | editBreakpoints _ _ ih => exact ih
  | meanwhile f _ ih => rwa [outline_meanwhile]

/-- Once it has told, nothing is taken to be known that the documents do not say. -/
theorem fresh (equiv : Equivalence same) (h : Announced same told c) :
    told = true → c.outline.Fresh same := by
  induction h with
  | new config editor => exact fun _ => nofun
  | call a h ih =>
    exact fun ht => (call_moves h.sound a).keep (fun _ h m => m.fresh equiv.refl h) h.sound (ih ht)
  | announce => exact fun _ => nofun
  | edit change kept _ ih => exact fun ht known hk => equiv.trans (ih ht known hk) kept
  | editBreakpoints => exact nofun
  | meanwhile f _ ih => rwa [outline_meanwhile]

end Announced

/-- As long as commands are accepted, a debugger to which nothing is left to be sent holds
the breakpoints of the open documents and no others. -/
theorem held_iff_marked {c : Controller τ} {s : Session τ} (h : Announced Breakpoint.Alike true c)
    (accepted : Accepted c.journal) (session : c.session = some s) (mode : s.mode = .debug)
    (idle : (c.breakpoints.hasPending c.editor).2 = false) (file : String) (line : Nat) :
    (file, line) ∈ held c.journal ↔ ∃ doc marked, c.editor.path? doc = some file ∧
      c.editor.hasMarker doc marked .breakpoint ∧ line = marked + 1 := by
  obtain ⟨hdirty, hsent⟩ : c.breakpoints.dirty = false ∧
      (c.breakpoints.locations c.editor).length ≤ c.breakpoints.sent := by
    simpa [Breakpoint.Schedule.hasPending] using idle
  have hsession : c.outline.session = some (.debug, s.scanner.enabled) := by
    rw [outline_session session, mode]
  obtain ⟨known, hk, hheld⟩ := h.synced accepted _ hsession hdirty
  replace hk : c.breakpoints.known = some known := hk
  replace hsent : known.length ≤ c.breakpoints.sent := by
    simpa [Breakpoint.Schedule.locations, hk] using hsent
  replace hheld : held c.journal = (known.map Breakpoint.Location.entry).toFinset := by
    rw [← List.take_of_length_le hsent]
    exact hheld
  have hmem (l : Breakpoint.Location) : l ∈ known ↔ l ∈ Breakpoint.ofEditor c.editor :=
    h.fresh Breakpoint.alike_equivalence rfl known hk l
  rw [hheld, List.mem_toFinset, List.mem_map]
  simp only [hmem, Breakpoint.mem_ofEditor]
  constructor
  · rintro ⟨l, ⟨doc, hpath, hmark⟩, he⟩
    obtain ⟨rfl, rfl⟩ : l.file = file ∧ l.line + 1 = line := by
      simpa [Breakpoint.Location.entry] using he
    exact ⟨doc, l.line, hpath, hmark, rfl⟩
  · rintro ⟨doc, marked, hpath, hmark, rfl⟩
    exact ⟨⟨file, marked⟩, ⟨doc, hpath, hmark⟩, rfl⟩

/-- A marker that the host sets itself and tells of, and two prompts: one to clear and
one for the breakpoint. -/
theorem held_iff_marked_of_two_prompts :
    let marked : Controller Script := (((Controller.new .standard (.new .empty)).edit
      (.openText "a.p" "")).edit (.addMarker 0 2 .breakpoint)).call .documentsChanged
    let c := ((marked.call (.launch .debug fun _ => .ok (.new true []))).meanwhile
      (·.cue (.writes "\x1b]>dbg> \x1b]>dbg> "))).call .poll
    Announced Breakpoint.Alike true c ∧ Accepted c.journal ∧ c.session.map (·.mode) = some .debug ∧
      (c.breakpoints.hasPending c.editor).2 = false ∧
      (("a.p", 3) ∈ held c.journal ↔ ∃ doc marked, c.editor.path? doc = some "a.p" ∧
        c.editor.hasMarker doc marked .breakpoint ∧ 3 = marked + 1) := by
  intro marked c
  have hmarked : Announced Breakpoint.Alike true marked :=
    .announce (.editBreakpoints _ (.editBreakpoints _ (.new _ _)))
  have h : Announced Breakpoint.Alike true c := .call _ (.meanwhile _ (.call _ hmarked))
  have ha : Accepted c.journal := by decide +kernel
  have hs : c.session.map (·.mode) = some .debug := by decide +kernel
  have hi : (c.breakpoints.hasPending c.editor).2 = false := by decide +kernel
  obtain ⟨s, hsession, hmode⟩ := Option.map_eq_some_iff.mp hs
  exact ⟨h, ha, hs, hi, held_iff_marked h ha hsession hmode hi "a.p" 3⟩

end Controller

end Debugline
