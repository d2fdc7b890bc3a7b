import Debugline.Proofs.Editor.Lines
import Debugline.Proofs.Session.Deeds
import Debugline.Proofs.Text.Identifiers
import Debugline.Transport.Script

/-! A cursor in a document. A line of a document and a column within it have a position, and from
the position the controller comes back to the line, to which it lets the program run, and to the
column, where it asks for the value of the identifier. -/

namespace Debugline

open Session Wire Text

/-- The identifier at a position is looked for in the line of the position, at its column. -/
theorem Controller.identifierAt?_eq {e : Editor} {doc : DocId} {line column : Nat} {text : String}
    (h : e.lineText? doc line = some text) (hc : column ≤ text.length) :
    identifierAt? e doc (e.lineStart doc line + column) =
      (identifierAt text.toList column).map .ofList := by
  simp [identifierAt?, Editor.lineAt_lineStart_add h hc, h]

/-- An identifier has no blanks to be trimmed. -/
theorem Text.trimmed_of_pointed {s w : List Char} {column : Nat} (h : Pointed s column (some w)) :
    trimmed (.ofList w) = .ofList w := by
  have hletters := letters_of_identifierAt (identifierAt_of_pointed h)
  rw [trimmed, String.toList_ofList, trim_word fun c hc => isBlank_of_isIdentifier (hletters c hc)]

namespace Controller

variable {τ : Type} [Transport τ] {c : Controller τ} {s : Session τ}

/-- A debugger waits for a command in a session. -/
structure Waits (c : Controller τ) (s : Session τ) : Prop where
  session : c.session = some s
  mode : s.mode = .debug
  state : c.state = .pausedAtPrompt

omit [Transport τ] in
theorem Waits.requirePaused (h : c.Waits s) : c.requirePaused = .ok () := by
  simp [Controller.requirePaused, h.session, h.mode, h.state]

/-- The controller after something was handed to the program. -/
def sending (c : Controller τ) (s : Session τ) (what : Sent) : Controller τ :=
  { c with
    session := some { s with transport := (Transport.write s.transport what.bytes).1 }
    traffic := c.traffic ++ [.write what (Transport.write s.transport what.bytes).2.isOk]
    journal := .sent c.state s.mode what (Transport.write s.transport what.bytes).2.isOk ::
      c.journal }

theorem transmit_eq (hs : c.session = some s) (what : Sent) :
    c.transmit what =
      (c.sending s what, (Transport.write s.transport what.bytes).2.mapError .transport) := by
  simp [transmit, hs, sending]

/-- A text is handed to the program with a carriage return behind it, and nothing else is. -/
def Writes (text : String) (c c' : Controller τ) : Prop :=
  ∃ s s' what, c.session = some s ∧ c'.session = some s' ∧
    what.bytes = encode text ++ [0x0d] ∧
    s'.transport = (Transport.write s.transport what.bytes).1 ∧
    c'.traffic = c.traffic ++ [.write what (Transport.write s.transport what.bytes).2.isOk]

/-- Whether it is accepted or not, a step is written once. -/
theorem step_writes (h : c.Waits s) (command : Command) :
    Writes command.text c (c.step command).1 := by
  have hs : c.removeMarker.session = some { s with marker := none } := by
    rw [removeMarker_eq, h.session]
    rfl
  have ht : c.removeMarker.traffic = c.traffic := by rw [removeMarker_eq]
  have hw : Writes command.text c
      (c.removeMarker.sending { s with marker := none } (.command command)) :=
    ⟨s, _, .command command, h.session, rfl, rfl, rfl, congrArg (· ++ _) ht⟩
  unfold step
  rw [h.requirePaused]
  dsimp only
  rw [transmit_eq hs]
  cases (Transport.write ({ s with marker := none } : Session τ).transport
      (Sent.command command).bytes).2 with
  | error cause => exact hw
  | ok =>
    obtain ⟨s, s', what, hs, hs', hw⟩ := hw
    exact ⟨s, s', what, hs, hs', hw⟩

/-- Lines and positions of a document go together, and the program is made to run to the line of the
cursor. -/
theorem cursor_goes_to_line {doc : DocId} {d : Document} (opened : c.editor.doc? doc = some d)
    (lines : d.lines ≠ []) :
    c.editor.Lined doc d.lines.length ∧
      ∀ s line text column, c.Waits s → c.editor.lineText? doc line = some text →
        column ≤ text.length →
        Writes ("g " ++ toString (line + 1)) c
          (c.runToCursor doc (c.editor.lineStart doc line + column)).1 := by
  refine ⟨Editor.lined opened lines, fun s line text column waits hline hc => ?_⟩
  have hcursor : c.runToCursor doc (c.editor.lineStart doc line + column) =
      c.step (.runToLine (line + 1)) := by
    rw [runToCursor, Editor.lineAt_lineStart_add hline hc]
    rfl
  rw [hcursor]
  exact step_writes waits _

/-- A program that waits at a prompt, beside a document with an empty line. -/
def waiting : Controller Script :=
  let editor := ((Editor.new .empty).openText "main.p" "é\n\nlet größe = 2x.y..\n").1
  (Controller.new .standard editor).run
    [.call (.launch .debug fun _ => .ok (.new true [])),
      .meanwhile (·.cue (.writes "\x1b]>dbg> ")), .call .poll]

theorem exists_waits : ∃ s, waiting.Waits s ∧
    ∀ bytes, (Transport.write s.transport bytes).2 = .ok () := by
  have hsome : waiting.session.map (fun s => (s.mode, s.transport.writeFault,
      s.transport.replies.isEmpty)) = some (.debug, none, true) := by decide +kernel
  obtain ⟨s, hs, he⟩ := Option.map_eq_some_iff.mp hsome
  simp only [Prod.mk.injEq, List.isEmpty_iff] at he
  refine ⟨s, ⟨hs, he.1, by decide +kernel⟩, fun bytes => ?_⟩
  simp only [Transport.write, Script.write, he]

/-- To the second character of the last line. -/
theorem cursor_goes_to_line_behind_empty :
    ∃ d s, waiting.editor.doc? 0 = some d ∧ d.lines ≠ [] ∧ waiting.Waits s ∧
      waiting.editor.lineText? 0 2 = some "let größe = 2x.y.." ∧
      waiting.editor.lineStart 0 2 = 3 ∧
      Writes "g 3" waiting (waiting.runToCursor 0 (3 + 1)).1 := by
  obtain ⟨s, waits, -⟩ := exists_waits
  have hline : waiting.editor.lineText? 0 2 = some "let größe = 2x.y.." := by decide +kernel
  have hstart : waiting.editor.lineStart 0 2 = 3 := by decide +kernel
  obtain ⟨d, hd, hget⟩ := Editor.exists_doc?_of_lineText? hline
  have hne : d.lines ≠ [] := by
    intro he
    simp [he] at hget
  have hwrites := (cursor_goes_to_line hd hne).2 s 2 _ 1 waits hline (by decide)
  rw [hstart] at hwrites
  exact ⟨d, s, hd, hne, waits, hline, hstart, hwrites⟩

/-! ### Identifiers under the cursor -/

theorem evaluate_eq (h : c.Waits s) (expr : String) (hover : Option Hover) :
    c.evaluate expr hover =
      ({ c with hover }.sending s (.command (.evaluate (trimmed expr))),
        (Transport.write s.transport
          (Sent.command (.evaluate (trimmed expr))).bytes).2.mapError .transport) := by
  have hs : ({ c with hover } : Controller τ).session = some s := h.session
  rw [evaluate, h.requirePaused]
  exact transmit_eq hs _

/-- The run of letters, digits, underscores and dots around a column alone tells the identifier that
it points at. At a prompt, the value of that identifier is asked for and the position remembered;
where there is none, nothing is done. -/
theorem hover_asks_identifier (c : Controller τ) :
    (∀ (text : List Char) (column : Nat),
      (∀ o, identifierAt text column = o ↔ Pointed text column o) ∧
        identifierAt text column ≠ some []) ∧
    ∀ s doc line text column, c.Waits s → c.editor.lineText? doc line = some text →
      column ≤ text.length →
      let position := c.editor.lineStart doc line + column
      (Pointed text.toList column none → c.evaluateAt doc position = (c, .ok none)) ∧
      ∀ w, Pointed text.toList column (some w) →
        (Transport.write s.transport (encode ("d " ++ .ofList w) ++ [0x0d])).2 = .ok () →
        Writes ("d " ++ .ofList w) c (c.evaluateAt doc position).1 ∧
          c.evaluateAt doc position =
            ({ c with hover := some ⟨doc, position⟩ }.sending s (.command (.evaluate (.ofList w))),
              .ok (some (.ofList w))) := by
  refine ⟨fun text column => ⟨fun o => identifierAt_eq_iff, fun he => ?_⟩, ?_⟩
  · obtain ⟨_, hhead, -⟩ := (identifierAt_eq_iff.mp he).begins
    cases hhead
  intro s doc line text column waits hline hc position
  have hpoint : ∀ o, Pointed text.toList column o →
      identifierAt? c.editor doc position = o.map .ofList := fun o ho => by
    rw [identifierAt?_eq hline hc, identifierAt_of_pointed ho]
  refine ⟨fun hnone => ?_, fun w hw accepted => ?_⟩
  · rw [evaluateAt, waits.requirePaused, hpoint _ hnone]
    rfl
  · have he : c.evaluateAt doc position =
        ({ c with hover := some ⟨doc, position⟩ }.sending s (.command (.evaluate (.ofList w))),
          .ok (some (.ofList w))) := by
      rw [evaluateAt, waits.requirePaused, hpoint _ hw]
      dsimp only [Option.map_some]
      rw [evaluate_eq waits, trimmed_of_pointed hw]
      have haccepted : (Transport.write s.transport
        (Sent.command (.evaluate (.ofList w))).bytes).2 = .ok () := accepted
      simp only [haccepted]
      rfl
    exact ⟨he ▸ ⟨s, _, .command (.evaluate (.ofList w)), waits.session, rfl, rfl, rfl, rfl⟩, he⟩

/-- On a dot at the end of a run that begins with a digit. -/
theorem hover_asks_identifier_at_dot :
    ∃ s, waiting.Waits s ∧
      waiting.editor.lineText? 0 2 = some "let größe = 2x.y.." ∧
      Pointed "let größe = 2x.y..".toList 16 (some "x.y".toList) ∧
      Pointed "let größe = 2x.y..".toList 12 none ∧
      (∀ bytes, (Transport.write s.transport bytes).2 = .ok ()) ∧
      Writes "d x.y" waiting (waiting.evaluateAt 0 (waiting.editor.lineStart 0 2 + 16)).1 ∧
      waiting.evaluateAt 0 (waiting.editor.lineStart 0 2 + 12) = (waiting, .ok none) := by
  obtain ⟨s, waits, accepts⟩ := exists_waits
  have hline : waiting.editor.lineText? 0 2 = some "let größe = 2x.y.." := by decide +kernel
  have around (column : Nat) (h : 12 ≤ column ∧ column < 18) :
      Run "let größe = 2x.y..".toList column "let größe = ".toList
        (['2'] ++ "x.y".toList ++ ['.', '.']) [] :=
    { text := by decide +kernel
      start := h.1
      stop := h.2
      letters := List.all_eq_true.mp (by decide)
      left := by simp; decide
      right := by simp }
  have hword : Pointed "let größe = 2x.y..".toList 16 (some "x.y".toList) :=
    .identifier (around 16 (by decide)) (by simp; decide) ⟨'x', by decide⟩ (by decide) (by simp)
      (by decide)
  have hnone : Pointed "let größe = 2x.y..".toList 12 none :=
    .unled (around 12 (by decide)) (by simp; decide)
  have hasks := (hover_asks_identifier waiting).2 s 0 2 "let größe = 2x.y.."
  obtain ⟨-, hask⟩ := hasks 16 waits hline (by decide +kernel)
  obtain ⟨hquiet, -⟩ := hasks 12 waits hline (by decide +kernel)
  exact ⟨s, waits, hline, hword, hnone, accepts, (hask _ hword (accepts _)).1, hquiet hnone⟩

end Controller

end Debugline
