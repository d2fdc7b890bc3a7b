import Debugline.Proofs.Session.UserMarkers
import Debugline.Proofs.Watch.Agreement

/-! The numbers that a controller sends. Each is a line or a row counted from 0 and one more, but for
the lines that the program is made to run to; so it is not 0, and it fits in a word as long as the
lines and rows that the controller goes by do. -/

namespace Debugline

open Session Wire

/-- The line or row of a command. -/
def Wire.Command.number? : Command → Option Nat
  | .runToLine line | .breakAt _ line => some line
  | .setWatch row _ | .clearWatch row => some row
  | _ => none

/-- The row of an update is counted from 1 where the debugger tells it. -/
theorem Watch.Table.row_of_update {t table : Table} {row i : Nat} {name value : String}
    (h : t.update row name value = (table, some i)) : row = i + 1 := by
  cases row with
  | zero => cases h
  | succ index =>
    simp only [update] at h
    split_ifs at h <;> cases h <;> rfl

theorem Watch.Table.number?_commandFor (t : Table) (row : Nat) :
    (t.commandFor row).number? = some (row + 1) := by
  unfold commandFor
  split <;> rfl

namespace Controller

variable {τ : Type} [Transport τ] {c c' c'' : Controller τ}

omit [Transport τ] in
/-- Commands of a kind are sent, and no others. -/
def Issues (P : Command → Prop) (c c' : Controller τ) : Prop :=
  ∃ new, c'.journal = new ++ c.journal ∧ ∀ command ∈ new.filterMap Mark.command?, P command

namespace Issues

variable {P Q : Command → Prop}

omit [Transport τ] in
theorem of_eq (h : c'.journal = c.journal) : Issues P c c' := ⟨[], h, by simp⟩

omit [Transport τ] in
theorem trans (h : Issues P c c') (h' : Issues P c' c'') : Issues P c c'' := by
  obtain ⟨new, hj, hn⟩ := h
  obtain ⟨new', hj', hn'⟩ := h'
  refine ⟨new' ++ new, by rw [hj', hj, List.append_assoc], fun command hc => ?_⟩
  rw [List.filterMap_append, List.mem_append] at hc
  exact hc.elim (hn' command) (hn command)

omit [Transport τ] in
theorem mono (h : Issues P c c') (hpq : ∀ command, P command → Q command) : Issues Q c c' := by
  obtain ⟨new, hj, hn⟩ := h
  exact ⟨new, hj, fun command hc => hpq command (hn command hc)⟩

/-- What is sent is what was issued. -/
theorem transmit (c : Controller τ) {what : Sent}
    (h : ∀ command, what = .command command → P command) : Issues P c (c.transmit what).1 := by
  unfold Controller.transmit
  split
  · exact .of_eq rfl
  · next s _ =>
    refine ⟨[_], rfl, fun command hc => ?_⟩
    cases what with
    | command issued =>
      obtain rfl := List.mem_singleton.mp hc
      exact h _ rfl
    | input => cases hc

end Issues

/-- The lines and rows that a controller goes by can be counted from 1 in a word. -/
structure Fitting (c : Controller τ) : Prop where
  line : ∀ s, c.session = some s → s.line + 1 < Text.wordLimit
  row : ∀ row ∈ c.watches.pending, row + 1 < Text.wordLimit
  located : ∀ doc line, c.editor.hasMarker doc line .breakpoint → line + 1 < Text.wordLimit
  known : ∀ known, c.breakpoints.known = some known → ∀ l ∈ known, l.line + 1 < Text.wordLimit
  printed : ∀ e ∈ c.events, ∀ n, e.number? = some n → n + 1 < Text.wordLimit

/-- The number of a command is none of 0, and fits in a word if those that the controller goes by do. -/
def Ranged (c : Controller τ) (command : Command) : Prop :=
  ∀ k, command.number? = some k → 1 ≤ k ∧ (c.Fitting → k < Text.wordLimit)

omit [Transport τ] in
theorem Fitting.locations (h : c.Fitting) :
    ∀ l ∈ c.breakpoints.locations c.editor, l.line + 1 < Text.wordLimit := by
  unfold Breakpoint.Schedule.locations
  cases hk : c.breakpoints.known with
  | some known => exact h.known known hk
  | none =>
    intro l hl
    obtain ⟨doc, -, hm⟩ := Breakpoint.mem_ofEditor.mp hl
    exact h.located doc l.line hm

omit [Transport τ] in
theorem Fitting.of_eq (h : c.Fitting) (session : c'.session = c.session)
    (watches : c'.watches.pending = c.watches.pending) (editor : c'.editor = c.editor)
    (breakpoints : c'.breakpoints.known = c.breakpoints.known) (events : c'.events = c.events) :
    c'.Fitting where
  line := session ▸ h.line
  row := watches ▸ h.row
  located := editor ▸ h.located
  known := breakpoints ▸ h.known
  printed := events ▸ h.printed

omit [Transport τ] in
theorem Fitting.push (h : c.Fitting) {e : Event}
    (he : ∀ n, e.number? = some n → n + 1 < Text.wordLimit) : (c.push e).Fitting where
  line := h.line
  row := h.row
  located := h.located
  known := h.known
  printed e' he' := by
    rcases List.mem_append.mp he' with he' | he'
    · exact h.printed e' he'
    · obtain rfl := List.mem_singleton.mp he'
      exact he

/-! ### Effects -/

theorem transmit_fitting (h : c.Fitting) (what : Sent) : (c.transmit what).1.Fitting := by
  unfold transmit
  split
  · exact h
  · next s hs =>
    refine ⟨fun s' hs' => ?_, h.row, h.located, h.known, h.printed⟩
    obtain rfl := Option.some.inj hs'
    exact h.line s hs

theorem Effect.fitting (e : Effect c c') (h : c.Fitting) : c'.Fitting := by
  cases e with
  | @stand s hs | @name s hs =>
    refine ⟨fun s' hs' => ?_, h.row, h.located, h.known, h.printed⟩
    obtain rfl := Option.some.inj hs'
    exact h.line s hs
  | reach hs told =>
    refine ⟨fun s' hs' => ?_, h.row, h.located, h.known, h.printed⟩
    obtain rfl := Option.some.inj hs'
    exact told
  | edit _ he =>
    refine ⟨h.line, h.row, fun doc line hm => h.located doc line ?_, h.known, h.printed⟩
    rwa [Editor.hasMarker, he.intact.markers (by simp)] at hm
  | report e he => exact h.push fun n hn => by rw [he] at hn; cases hn
  | @pause s hs =>
    refine h.push fun n hn => ?_
    obtain rfl := Option.some.inj hn
    exact h.line s hs
  | rebuild =>
    refine ⟨h.line, h.row, h.located, fun known hk => ?_, h.printed⟩
    obtain rfl := Option.some.inj hk
    exact h.locations
  | @breakpoint schedule command due =>
    let next := { c with breakpoints := schedule, breakpointSent := true }
    have hnext : next.Fitting := by
      refine ⟨h.line, h.row, h.located, fun known hk => ?_, h.printed⟩
      obtain rfl := Option.some.inj ((Breakpoint.Schedule.next_cases due).1.symm.trans hk)
      exact h.locations
    exact transmit_fitting hnext _
  | @watch row rest due =>
    let next := { c with watches := { c.watches with pending := rest } }
    have hnext : next.Fitting := by
      refine ⟨h.line, fun i hi => h.row i ?_, h.located, h.known, h.printed⟩
      rw [due]
      exact List.mem_cons_of_mem _ hi
    exact transmit_fitting hnext _
  | settle none =>
    have hp := c.watches.pending_settle
    rw [Watch.Table.settle, if_pos (by simp [none])] at hp
    exact h.of_eq rfl hp rfl rfl rfl
  | @update row i name value table told _ hu =>
    have hp := c.watches.pending_update row name value
    rw [hu] at hp
    have htable : ({ c with watches := table } : Controller τ).Fitting :=
      h.of_eq rfl hp rfl rfl rfl
    refine htable.push fun n hn => ?_
    obtain rfl := Option.some.inj hn
    obtain rfl : row = i + 1 := Watch.Table.row_of_update hu
    exact told
  | input => exact transmit_fitting h _
  | close =>
    refine ⟨fun s hs => ?_, fun row hr => ?_, h.located, h.known, h.printed⟩
    · cases hs
    · cases hr
  | turn | note => exact h.of_eq rfl rfl rfl rfl rfl

/-- What an effect sends is a breakpoint or a watch of the controller, or no line and no row. -/
theorem Effect.issues (e : Effect c c') : Issues c.Ranged c c' := by
  cases e with
  | @breakpoint schedule command due =>
    refine .trans (.of_eq rfl) (.transmit _ fun issued hi k hk => ?_)
    obtain rfl := Sent.command.inj hi
    rcases (Breakpoint.Schedule.next_cases due).2 with rfl | ⟨l, hl, rfl⟩
    · cases hk
    · obtain rfl := Option.some.inj hk
      exact ⟨Nat.succ_pos _, fun h => h.locations l hl⟩
  | @watch row rest due =>
    refine .trans (.of_eq rfl) (.transmit _ fun issued hi k hk => ?_)
    obtain rfl := Sent.command.inj hi
    rw [Watch.Table.number?_commandFor] at hk
    obtain rfl := Option.some.inj hk
    exact ⟨Nat.succ_pos _, fun h => h.row row (by simp [due])⟩
  | input text => exact .transmit _ nofun
  | note m hm =>
    refine ⟨[m], rfl, fun command hc => ?_⟩
    rw [List.filterMap_cons_none hm] at hc
    cases hc
  | _ => exact .of_eq rfl

theorem Courses.fitting (h : Courses c c') (hf : c.Fitting) : c'.Fitting := by
  induction h with
  | refl => exact hf
  | tail _ h ih =>
    cases h with
    | effect e => exact e.fitting ih
    | @read s hs transport =>
      refine ⟨fun s' hs' => ?_, ih.row, ih.located, ih.known, ih.printed⟩
      obtain rfl := Option.some.inj hs'
      exact ih.line s hs
    | take => exact ⟨ih.line, ih.row, ih.located, ih.known, nofun⟩

theorem Courses.issues (h : Courses c c') : Issues c.Ranged c c' := by
  induction h with
  | refl => exact .of_eq rfl
  | @tail b _ hb h ih =>
    cases h with
    | effect e =>
      refine ih.trans (e.issues.mono fun command hr k hk => ?_)
      exact ⟨(hr k hk).1, fun hf => (hr k hk).2 (Courses.fitting hb hf)⟩
    | read | take => exact ih.trans (.of_eq rfl)

end Controller

end Debugline
