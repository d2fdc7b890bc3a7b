import Debugline.Proofs.Session.Moves
import Debugline.Transport.Script

/-! How often the debugger is spoken to. Commands are sent only while it waits at a
prompt, and after each prompt it hears of one breakpoint and of one watch at most,
whether they are sent at the prompt itself or after a change of breakpoints. -/

namespace Debugline

open Session Wire

namespace Wire.Command

/-- Commands of the breakpoint schedule. -/
def forBreakpoints : Command → Bool
  | .breakAt _ _ | .clearBreakpoints => true
  | _ => false

/-- Commands of the watch queue. -/
def forWatches : Command → Bool
  | .setWatch _ _ | .clearWatch _ => true
  | _ => false

theorem forBreakpoints_of_resumes {c : Command} (h : c.resumes = true) :
    c.forBreakpoints = false := by
  cases c <;> first | rfl | cases h

theorem forWatches_of_resumes {c : Command} (h : c.resumes = true) :
    c.forWatches = false := by
  cases c <;> first | rfl | cases h

end Wire.Command

namespace Watch.Table

theorem forBreakpoints_commandFor (t : Table) (row : Nat) :
    (t.commandFor row).forBreakpoints = false := by
  unfold commandFor
  split <;> rfl

end Watch.Table

namespace Session

/-- Whether a command of a kind was handed to the transport. -/
def Mark.sends (kind : Command → Bool) : Mark → Bool
  | .sent _ _ (.command c) _ => kind c
  | _ => false

/-- The commands of a kind since the last prompt. -/
def sentSincePrompt (kind : Command → Bool) : List Mark → Nat
  | [] => 0
  | .frame .prompt :: _ => 0
  | m :: past => sentSincePrompt kind past + if m.sends kind then 1 else 0

theorem sentSincePrompt_cons {kind : Command → Bool} {m : Mark} (h : m ≠ .frame .prompt)
    (past : List Mark) :
    sentSincePrompt kind (m :: past) =
      sentSincePrompt kind past + if m.sends kind then 1 else 0 := by
  rw [sentSincePrompt]
  exact h

theorem countP_le_sentSincePrompt (kind : Command → Bool) {stretch : List Mark}
    (h : .frame .prompt ∉ stretch) (past : List Mark) :
    stretch.countP (·.sends kind) ≤ sentSincePrompt kind (stretch ++ past) := by
  induction stretch with
  | nil => simp
  | cons m stretch ih =>
    simp only [List.mem_cons, not_or] at h
    rw [List.countP_cons, List.cons_append, sentSincePrompt_cons (Ne.symm h.1)]
    have := ih h.2
    omega

/-- At every moment of a journal, one breakpoint and one watch at most were sent since
the prompt before it. -/
def Paced (journal : List Mark) : Prop :=
  ∀ past, past <:+ journal →
    sentSincePrompt Command.forBreakpoints past ≤ 1 ∧ sentSincePrompt Command.forWatches past ≤ 1

theorem Paced.cons {journal : List Mark} {m : Mark} (h : Paced journal)
    (hb : sentSincePrompt Command.forBreakpoints (m :: journal) ≤ 1)
    (hw : sentSincePrompt Command.forWatches (m :: journal) ≤ 1) : Paced (m :: journal) := by
  intro past hp
  rcases List.suffix_cons_iff.mp hp with rfl | hp
  · exact ⟨hb, hw⟩
  · exact h past hp

theorem Paced.stretch {journal stretch : List Mark} (h : Paced journal)
    (hs : stretch <:+: journal) (hp : .frame .prompt ∉ stretch) :
    stretch.countP (·.sends Command.forBreakpoints) ≤ 1 ∧
      stretch.countP (·.sends Command.forWatches) ≤ 1 := by
  obtain ⟨later, past, rfl⟩ := hs
  have hk := h (stretch ++ past) ⟨later, by simp⟩
  exact ⟨Nat.le_trans (countP_le_sentSincePrompt _ hp past) hk.1,
    Nat.le_trans (countP_le_sentSincePrompt _ hp past) hk.2⟩

/-- Commands stand in a journal only as sent to a debugger that waits. -/
def InTurn (journal : List Mark) : Prop :=
  ∀ state mode command ok, .sent state mode (.command command) ok ∈ journal →
    state = .pausedAtPrompt ∧ mode = .debug

theorem InTurn.cons {journal : List Mark} {m : Mark} (h : InTurn journal)
    (hm : ∀ state mode command ok, m = .sent state mode (.command command) ok →
      state = .pausedAtPrompt ∧ mode = .debug) : InTurn (m :: journal) := by
  intro state mode command ok hmem
  rcases List.mem_cons.mp hmem with he | hmem
  · exact hm _ _ _ _ he.symm
  · exact h _ _ _ _ hmem

theorem InTurn.silent {journal : List Mark} {m : Mark} (h : InTurn journal)
    (hm : m.command? = none) : InTurn (m :: journal) :=
  h.cons fun _ _ _ _ he => by rw [he] at hm; cases hm

theorem InTurn.command {journal : List Mark} (h : InTurn journal) (command : Command) (ok : Bool) :
    InTurn (.sent .pausedAtPrompt .debug (.command command) ok :: journal) :=
  h.cons fun _ _ _ _ he => by cases he; exact ⟨rfl, rfl⟩

end Session

namespace Outline

/-- Commands are sent in turn; and as long as a breakpoint may be sent at a prompt, none
was sent at it. -/
structure Throttled (o : Outline) : Prop where
  inTurn : InTurn o.journal
  paced : Paced o.journal
  unsent : o.state = .pausedAtPrompt → o.breakpointSent = false →
    sentSincePrompt Command.forBreakpoints o.journal = 0

namespace Throttled

variable {o o' : Outline}

/-- What sends nothing and opens no prompt keeps the pace. -/
theorem still (h : o.Throttled) (hj : o'.journal = o.journal)
    (ho : o'.state = .pausedAtPrompt →
      o.state = .pausedAtPrompt ∧ o'.breakpointSent = o.breakpointSent) :
    o'.Throttled where
  inTurn := hj ▸ h.inTurn
  paced := hj ▸ h.paced
  unsent hs hb := by
    rw [hj]
    exact h.unsent (ho hs).1 ((ho hs).2 ▸ hb)

/-- So does a mark of something else than a prompt, a breakpoint or a watch. -/
theorem quiet (h : o.Throttled) {m : Mark} (hj : o'.journal = m :: o.journal)
    (hp : m ≠ .frame .prompt) (hb : m.sends Command.forBreakpoints = false)
    (hw : m.sends Command.forWatches = false) (ht : InTurn (m :: o.journal))
    (ho : o'.state = .pausedAtPrompt →
      o.state = .pausedAtPrompt ∧ o'.breakpointSent = o.breakpointSent) :
    o'.Throttled := by
  have hsb : sentSincePrompt Command.forBreakpoints (m :: o.journal) =
      sentSincePrompt Command.forBreakpoints o.journal := by simp [sentSincePrompt_cons hp, hb]
  have hsw : sentSincePrompt Command.forWatches (m :: o.journal) =
      sentSincePrompt Command.forWatches o.journal := by simp [sentSincePrompt_cons hp, hw]
  have hpaced := h.paced o.journal List.suffix_rfl
  refine ⟨hj ▸ ht, hj ▸ h.paced.cons (hsb ▸ hpaced.1) (hsw ▸ hpaced.2), fun hs hn => ?_⟩
  rw [hj, hsb]
  exact h.unsent (ho hs).1 ((ho hs).2 ▸ hn)

/-- A prompt begins a new stretch, with one watch in it or none. -/
theorem prompt (h : o.Throttled) (hj : o'.journal = .frame .prompt :: o.journal) :
    o'.Throttled where
  inTurn := hj ▸ h.inTurn.silent rfl
  paced := hj ▸ h.paced.cons (Nat.zero_le 1) (Nat.zero_le 1)
  unsent _ _ := by rw [hj]; rfl

theorem promptWatch (h : o.Throttled) {command : Command} {ok : Bool}
    (hb : command.forBreakpoints = false)
    (hj : o'.journal =
      .sent .pausedAtPrompt .debug (.command command) ok :: .frame .prompt :: o.journal) :
    o'.Throttled := by
  have hp : Mark.sent .pausedAtPrompt .debug (.command command) ok ≠ .frame .prompt := nofun
  have hsb : sentSincePrompt Command.forBreakpoints o'.journal = 0 := by
    rw [hj, sentSincePrompt_cons hp]
    simp [sentSincePrompt, Mark.sends, hb]
  have hsw : sentSincePrompt Command.forWatches o'.journal ≤ 1 := by
    rw [hj, sentSincePrompt_cons hp]
    simp only [sentSincePrompt]
    split <;> omega
  have hpaced : Paced (.frame .prompt :: o.journal) :=
    h.paced.cons (Nat.zero_le 1) (Nat.zero_le 1)
  have hturn : InTurn (.frame .prompt :: o.journal) := h.inTurn.silent rfl
  exact ⟨hj ▸ hturn.command command ok,
    hj ▸ hpaced.cons (by rw [← hj, hsb]; omega) (by rwa [← hj]), fun _ _ => hsb⟩

/-- The breakpoint of a prompt. -/
theorem breakpoint (h : o.Throttled) (hs : o.state = .pausedAtPrompt)
    (hn : o.breakpointSent = false) {command : Command} {ok : Bool}
    (hw : command.forWatches = false)
    (hj : o'.journal = .sent .pausedAtPrompt .debug (.command command) ok :: o.journal)
    (hsent : o'.breakpointSent = true) : o'.Throttled := by
  have hp : Mark.sent .pausedAtPrompt .debug (.command command) ok ≠ .frame .prompt := nofun
  have hsb : sentSincePrompt Command.forBreakpoints o'.journal ≤ 1 := by
    rw [hj, sentSincePrompt_cons hp, h.unsent hs hn]
    split <;> omega
  have hsw : sentSincePrompt Command.forWatches o'.journal ≤ 1 := by
    rw [hj, sentSincePrompt_cons hp]
    simpa [Mark.sends, hw] using (h.paced o.journal List.suffix_rfl).2
  refine ⟨hj ▸ h.inTurn.command command ok, hj ▸ h.paced.cons (by rwa [← hj]) (by rwa [← hj]),
    fun _ hf => ?_⟩
  rw [hsent] at hf
  cases hf

end Throttled

theorem Move.throttled {o o' : Outline} (m : Move o o') (h : o.Throttled) : o'.Throttled := by
  cases m with
  | refuse | finish => exact h.still rfl nofun
  | startRun | startDebug => exact h.quiet rfl nofun rfl rfl (h.inTurn.silent rfl) nofun
  | rebuild | invalidate => exact h.still rfl fun hs => ⟨hs, rfl⟩
  | frame f _ _ going =>
    exact h.quiet rfl (by simpa using going) rfl rfl (h.inTurn.silent rfl) fun hs => ⟨hs, rfl⟩
  | report | edit | delete =>
    exact h.quiet rfl nofun rfl rfl (h.inTurn.silent rfl) fun hs => ⟨hs, rfl⟩
  | promptIdle => exact h.prompt rfl
  | promptWatch => exact h.promptWatch (Watch.Table.forBreakpoints_commandFor _ _) rfl
  | clear waits fresh => exact h.breakpoint waits.state fresh rfl rfl rfl
  | breakAt waits fresh => exact h.breakpoint waits.state fresh rfl rfl rfl
  | @resume command waits resumes =>
    exact h.quiet rfl nofun (Command.forBreakpoints_of_resumes resumes)
      (Command.forWatches_of_resumes resumes) (h.inTurn.command _ _) nofun
  | @resumeFailed command waits resumes =>
    exact h.quiet rfl nofun (Command.forBreakpoints_of_resumes resumes)
      (Command.forWatches_of_resumes resumes) (h.inTurn.command _ _) fun hs => ⟨hs, rfl⟩
  | evaluate => exact h.quiet rfl nofun rfl rfl (h.inTurn.command _ _) fun hs => ⟨hs, rfl⟩
  | input =>
    exact h.quiet rfl nofun rfl rfl (h.inTurn.silent rfl)
      fun hs => ⟨hs, rfl⟩

end Outline

namespace Controller

variable {τ : Type} [Transport τ]

/-- In every run, commands are handed over only while a debugger waits at a prompt, and
of each stretch without a prompt the debugger hears of one breakpoint and of one watch
at most. -/
theorem run_throttled (config : Config) (editor : Editor) (hs : List (Happening τ)) :
    let journal := ((Controller.new config editor).run hs).journal
    (∀ state mode command ok, .sent state mode (.command command) ok ∈ journal →
      state = .pausedAtPrompt ∧ mode = .debug) ∧
      ∀ stretch, stretch <:+: journal → .frame .prompt ∉ stretch →
        stretch.countP (·.sends Command.forBreakpoints) ≤ 1 ∧
          stretch.countP (·.sends Command.forWatches) ≤ 1 := by
  intro journal
  have hnew : (Controller.new config editor : Controller τ).outline.Throttled :=
    ⟨nofun, fun past hp => by simp [List.suffix_nil.mp hp, sentSincePrompt], nofun⟩
  have h : ((Controller.new config editor).run hs).outline.Throttled :=
    run_keep (fun _ hp m => m.throttled hp) (fun _ hp => hp.still rfl fun hs => ⟨hs, rfl⟩)
      (sound_new config editor) hnew hs
  exact ⟨h.inTurn, fun stretch hi hp => h.paced.stretch hi hp⟩

/-- A prompt at which a watch is sent, and then all breakpoints are cleared. -/
theorem run_throttled_at_prompt :
    let journal := ((Controller.new .standard (.new .empty)).run
      [.call (.launch .debug fun _ => .ok (Script.new true [])), .call (.addWatch "x"),
        .meanwhile (·.cue (.writes "\x1b]>dbg> ")), .call .poll]).journal
    let stretch : List Mark := [.sent .pausedAtPrompt .debug (.command .clearBreakpoints) true,
      .sent .pausedAtPrompt .debug (.command (.setWatch 1 "x")) true]
    stretch <:+: journal ∧ .frame .prompt ∉ stretch ∧
      stretch.countP (·.sends Command.forBreakpoints) ≤ 1 ∧
        stretch.countP (·.sends Command.forWatches) ≤ 1 := by
  intro journal stretch
  have hi : stretch <:+: journal := ⟨[], journal.drop 2, by decide +kernel⟩
  have hp : .frame .prompt ∉ stretch := by decide
  exact ⟨hi, hp, (run_throttled .standard (.new .empty) _).2 stretch hi hp⟩

end Controller

end Debugline
