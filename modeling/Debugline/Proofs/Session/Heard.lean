import Debugline.Proofs.Session.Texts
import Debugline.Transport.Script

/-! What the debugger hears in a run. A command is heard as the one that was issued unless its text
came in with a carriage return inside. -/

namespace Debugline.Controller

open Session Wire Text

variable {τ : Type} [Transport τ]

/-- The texts of a run that may come to be sent: the paths of the documents that were open, what the
host handed in, and the paths that the debugger told. -/
def given (editor : Editor) (hs : List (Happening τ)) (journal : List Mark) : List String :=
  editor.opened.map (·.2.path) ++ hs.flatMap Happening.texts ++ journal.filterMap Mark.path?

omit [Transport τ] in
theorem mem_opened_of_path? {e : Editor} {doc : DocId} {path : String}
    (h : e.path? doc = some path) : path ∈ e.opened.map (·.2.path) := by
  obtain ⟨d, hd, rfl⟩ := Option.map_eq_some_iff.mp h
  exact List.mem_map.mpr ⟨(doc, d), Editor.mem_opened.mpr hd, rfl⟩

omit [Transport τ] in
theorem unbroken_of_letters : OfLetters Unbroken := by
  intro s h hr
  exact absurd (h _ hr) (by decide)

/-- The text in a command holds no carriage return or came in with it. -/
theorem unbroken_or_given (config : Config) (editor : Editor) (hs : List (Happening τ))
    {command : Command} :
    let journal := ((Controller.new config editor).run hs).journal
    command ∈ journal.filterMap Mark.command? →
      Unbroken command.argument ∨ command.argument ∈ given editor hs journal := by
  intro journal
  let P (text : String) : Prop := Unbroken text ∨ text ∈ given editor hs journal
  have plain : OfLetters P := fun s h => .inl (unbroken_of_letters s h)
  have hnew : (Controller.new config editor : Controller τ).Texts P := by
    refine ⟨fun doc path hp => .inr ?_, nofun, nofun, fun row => ?_, nofun⟩
    · exact List.mem_append_left _ (List.mem_append_left _ (mem_opened_of_path? hp))
    · cases row <;> exact plain "" (by simp)
  have hin : ∀ text ∈ hs.flatMap Happening.texts, P text :=
    fun text ht => .inr (List.mem_append_left _ (List.mem_append_right _ ht))
  have htold : Told P journal := fun path hp => .inr (List.mem_append_right _ hp)
  exact ((run_keeps plain _ hin).texts htold hnew).sent command

/-- What is sent of a command ends with a carriage return, and holds no other just when the text in
the command holds none; and a debugger, which is sent what stands in a stretch of the journal, hears
just the commands that were issued when none of their texts holds one. A text that does came in with
it: as an expression or a path from the host, or as a path from the debugger. -/
theorem heard_as_issued_iff (config : Config) (editor : Editor) (hs : List (Happening τ)) :
    let journal := ((Controller.new config editor).run hs).journal
    ∀ stretch, stretch <:+: journal →
      let issued := stretch.reverse.filterMap Mark.command?
      (hears (issued.flatMap Command.wire) = issued.map some ↔
          ∀ command ∈ issued, Unbroken command.argument) ∧
        ∀ command ∈ issued, command.wire.getLast? = some terminator ∧
          (command.wire.count terminator = 1 ↔ Unbroken command.argument) ∧
          (Unbroken command.argument ∨ command.argument ∈ given editor hs journal) := by
  intro journal stretch hstretch issued
  refine ⟨Command.hears_iff_unbroken, fun command hc => ⟨List.getLast?_concat, ?_, ?_⟩⟩
  · exact Command.count_wire_eq_one_iff
  · refine unbroken_or_given config editor hs ((hstretch.filterMap _).subset ?_)
    simpa only [issued, List.filterMap_reverse, List.mem_reverse] using hc

/-- The second of two sessions, with a path that has a colon and a name that has blanks. -/
theorem heard_as_issued_of_second_session :
    let hs : List (Happening Script) := [.edit (.openText "C:/a 1.p" ""),
      .edit (.addMarker 0 2 .breakpoint), .call .documentsChanged, .call (.addWatch "a.b + 1"),
      .call (.launch .debug fun _ => .ok (.new true [])), .call .abort,
      .call (.launch .debug fun _ => .ok (.new true [])),
      .meanwhile (·.cue (.writes "\x1b]>dbg> \x1b]>dbg> ")), .call .poll,
      .call (.evaluate " x\n+ 1\r" none), .call .goOn]
    let journal := ((Controller.new .standard (.new .empty)).run hs).journal
    let stretch := journal.takeWhile (· != .launched .debug)
    let issued := stretch.reverse.filterMap Mark.command?
    stretch <:+: journal ∧ issued = [.setWatch 1 "a.b + 1", .clearBreakpoints,
        .breakAt "C:/a 1.p" 3, .evaluate "x\n+ 1", .go] ∧
      (∀ command ∈ issued, Unbroken command.argument) ∧
      hears (issued.flatMap Command.wire) = issued.map some := by
  intro hs journal stretch issued
  have hstretch : stretch <:+: journal := (List.takeWhile_prefix _).isInfix
  have hissued : issued = [.setWatch 1 "a.b + 1", .clearBreakpoints, .breakAt "C:/a 1.p" 3,
      .evaluate "x\n+ 1", .go] := by decide +kernel
  have hunbroken : ∀ command ∈ issued, Unbroken command.argument := by
    rw [hissued]
    decide
  have h := heard_as_issued_iff .standard (.new .empty) hs stretch hstretch
  exact ⟨hstretch, hissued, hunbroken, h.1.mpr hunbroken⟩

/-- An expression with a carriage return inside is heard as an expression and as a command that sets
the program going, which the controller does not know of. -/
theorem heard_other_than_issued :
    let c : Controller Script := (Controller.new .standard (.new .empty)).run
      [.call (.launch .debug fun _ => .ok (.new true [])),
        .meanwhile (·.cue (.writes "\x1b]>dbg> ")), .call .poll, .call (.evaluate "x\rg" none)]
    let issued := c.journal.reverse.filterMap Mark.command?
    issued = [.clearBreakpoints, .evaluate "x\rg"] ∧
      hears (issued.flatMap Command.wire) =
        [some .clearBreakpoints, some (.evaluate "x"), some .go] ∧
      c.state = .pausedAtPrompt := by
  decide +kernel

end Debugline.Controller
