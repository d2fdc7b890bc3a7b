import Debugline.Proofs.Breakpoint.ByPath
import Debugline.Proofs.Console.FromOne

/-! Breakpoints at the console. The user names a file, and the breakpoint is toggled in the document
that the name finds. The answer repeats the name, so it tells the truth about the list of
breakpoints just when that document is one of the very path. -/

namespace Debugline.Console

open Session Wire

namespace Request

/-- A breakpoint is asked for in a file that has a name. -/
theorem file_ne_of_parse {text file : String} {line : Nat}
    (h : parse text = some (.breakAt file line)) : file ≠ "" := by
  obtain ⟨_, _, _, _, hplace⟩ := parse_eq_some_iff.mp h
  exact hplace.named

end Request

variable {τ : Type} [Transport τ]

/-! ### Requests that are answered -/

/-- The lines that answer a request for a breakpoint stand between what was done to the program and
the events that waited. -/
theorem Host.handle_breakAt (h : Host τ) (file : String) (line : Nat) :
    let toggled := h.controller.toggleBreakpointAt file (line - 1)
    (h.handle (.breakAt file line)).1.controller.editor = toggled.1.editor ∧
      ∃ (traffic : List Traffic) (printed : List String),
        (h.handle (.breakAt file line)).1.log = h.log ++ traffic.map Entry.traffic ++
          [.out (toggleAnswer file line toggled.2 ++ "\n")] ++ printed.map Entry.out := by
  intro toggled
  let asked := (h.perform (.breakAt file line)).1.controller
  refine ⟨rfl, toggled.1.traffic, asked.events.map (describe asked.takeEvents.1), ?_⟩
  rw [List.map_map]
  rfl

namespace Moment

/-- A request that is answered was typed, and is remembered before it is carried out. -/
theorem next_of_request {m : Moment τ} {r : Request} (h : m.request? = some r) (hq : r ≠ .quit) :
    ∃ text, Request.parse (Text.trimmed text) = some r ∧ m.next.host =
      (((m.host.write (.prompt (Host.promptText false))).write
        (.history (Text.trimmed text))).handle r).1 := by
  obtain ⟨live, waits⟩ := live_of_request h
  obtain ⟨hstage, text, rest, htyped, hparse⟩ := asking_of_request h
  obtain ⟨stage, typed, host⟩ := m
  obtain rfl : stage = .asking := hstage
  obtain rfl : typed = .line text :: rest := htyped
  refine ⟨text, hparse, ?_⟩
  have hne : (Text.trimmed text).isEmpty = false := by
    rw [Bool.eq_false_iff]
    intro he
    rw [String.isEmpty_iff.mp he] at hparse
    cases hparse
  have hanswer : ∀ h' : Host τ, h'.answer text =
      (h'.write (.history (Text.trimmed text))).handle r := by
    intro h'
    simp only [Host.answer, hne, hparse]
    cases r with
    | quit => exact absurd rfl hq
    | _ => rfl
  have hnext : (Moment.mk .asking (.line text :: rest) host).next =
      (Moment.mk .asking (.line text :: rest) host).ask := if_pos live
  rw [hnext, ask]
  simp only [waits, if_false, decide_false, hanswer]
  split <;> next hd => rw [hd]

/-! ### Breakpoints -/

/-- The console toggles breakpoints by path, and changes no documents itself. -/
theorem does_byPath (m : Moment τ) : ∀ x ∈ m.does, x.ByPath := by
  have hcontrolled {a : Call τ} (ha : ∀ doc line, a ≠ .toggleBreakpoint doc line) :
      ∀ x ∈ controlled a, x.ByPath := by
    intro x hx
    rcases List.mem_pair.mp hx with rfl | rfl
    · cases a with
      | toggleBreakpoint doc line => exact absurd rfl (ha doc line)
      | _ => trivial
    · trivial
  rcases m.does_cases with ⟨later, hd, hl⟩ | ⟨-, hd | hd | ⟨text, hd⟩ | ⟨r, -, hd⟩⟩ <;> rw [hd]
  · intro x hx
    rcases List.mem_append.mp hx with hx | hx
    · exact hcontrolled (a := .poll) (fun _ _ => nofun) x hx
    · rcases hl with rfl | rfl
      · obtain rfl := List.mem_singleton.mp hx
        trivial
      · rcases List.mem_pair.mp hx with rfl | rfl <;> trivial
  · exact nofun
  · intro x hx
    rcases List.mem_append.mp hx with hx | hx
    · exact hcontrolled (a := .abort) (fun _ _ => nofun) x hx
    · obtain rfl := List.mem_singleton.mp hx
      trivial
  · exact hcontrolled fun _ _ => nofun
  · intro x hx
    rcases List.mem_append.mp hx with hx | hx
    · cases hcall : (r.call? : Option (Call τ)) with
      | none => simp [hcall] at hx
      | some a =>
        rw [hcall] at hx
        refine hcontrolled (fun doc line he => ?_) x hx
        subst he
        cases r with
        | unwatch row => cases row <;> cases hcall
        | _ => cases hcall
    · split_ifs at hx
      · obtain rfl := List.mem_singleton.mp hx
        trivial
      · cases hx

theorem after_placed {m : Moment τ} (h : m.host.controller.Placed) (n : Nat) :
    (m.after n).host.controller.Placed := by
  induction n with
  | zero => exact h
  | succ n ih =>
    rw [after, next_controller]
    exact ih.run (does_byPath _)

end Moment

/-- Whatever documents are open, whatever was typed and whatever the program does: a request for a
breakpoint is answered with the file that was named, and is about the document that this name finds.
That is one of the very path if there is such a document, or no other has the base name. The answer
says whether the breakpoint is now set; it was not so before, it is now listed or is no longer, and
no other entry of the list comes or goes. One that is set is sent with the path of its document
whenever all breakpoints are. -/
theorem breakpoint_toggled_where_found (config : Config) (disk : Disk)
    (texts : List (String × String)) (mode : Mode) (spawn : Unit → Except Failure τ)
    (interval : Nat) (log : List Entry) (typed : List Typed) (n : Nat) {file : String}
    {line : Nat} :
    let opened : Controller τ := (Controller.new config (.new disk)).run
      (texts.map fun d => .edit (.openText d.1 d.2))
    let h : Host τ := ⟨(opened.launch mode spawn).1, interval, log⟩
    let m := (Moment.first typed h).after n
    m.request? = some (.breakAt file line) →
      ∃ doc path set, (m.host.controller.editor.locateOrOpen file).2 = some doc ∧
        (m.host.controller.editor.locateOrOpen file).1.path? doc = some path ∧
        ((∃ other, m.host.controller.editor.path? other = some file) ∨
          (∀ other q, m.host.controller.editor.path? other = some q →
            Path.baseName q ≠ Path.baseName file) → path = file) ∧
        (∃ (text : String) (traffic : List Traffic) (printed : List String),
          m.next.host.log = m.host.log ++
            [.prompt (Host.promptText false), .history (Text.trimmed text)] ++
            traffic.map Entry.traffic ++
            [.out (Host.toggleAnswer file line (some set) ++ "\n")] ++ printed.map Entry.out) ∧
        let entry : Breakpoint.Location := ⟨path, line - 1⟩
        let before := m.host.controller.listBreakpoints.2
        let after := m.next.host.controller.listBreakpoints.2
        let resync := m.next.host.controller.breakpoints.invalidate.drain
          m.next.host.controller.editor
        (set = true → entry ∉ before ∧ entry ∈ after ∧ .breakAt path line ∈ resync.2) ∧
          (set = false → entry ∈ before ∧ entry ∉ after) ∧
          ∀ l ≠ entry, l ∈ after ↔ l ∈ before := by
  intro opened h m request
  have hopened : opened.Placed := by
    refine (Controller.placed_new config disk).run fun x hx => ?_
    obtain ⟨d, -, rfl⟩ := List.mem_map.mp hx
    trivial
  have hfirst : (Moment.first typed h).host.controller.Placed :=
    hopened.after (x := .call (.launch mode spawn)) trivial
  have hplaced : m.host.controller.Placed := Moment.after_placed hfirst n
  have hnext : m.next.host.controller.Placed := Moment.after_placed hfirst (n + 1)
  obtain ⟨text, hparse, hhost⟩ := Moment.next_of_request request nofun
  have hline : 1 ≤ line := (Request.told_of_parse hparse).1
  obtain ⟨doc, path, set, hdoc, hpath, hset, hbefore, hafter, hothers⟩ :=
    hplaced.toggleBreakpointAt (Request.file_ne_of_parse hparse) (line - 1)
  obtain ⟨heditor, traffic, printed, hlog⟩ :=
    ((m.host.write (.prompt (Host.promptText false))).write
      (.history (Text.trimmed text))).handle_breakAt file line
  rw [← hhost] at heditor hlog
  change m.next.host.controller.editor =
    (m.host.controller.toggleBreakpointAt file (line - 1)).1.editor at heditor
  change _ = _ ++ [Entry.out (Host.toggleAnswer file line
    (m.host.controller.toggleBreakpointAt file (line - 1)).2 ++ "\n")] ++ _ at hlog
  rw [← heditor] at hafter hothers
  rw [hset] at hlog
  refine ⟨doc, path, set, hdoc, hpath, (Editor.path_of_locateOrOpen hdoc hpath).2,
    ⟨text, traffic, printed, ?_⟩, ?_⟩
  · rw [hlog]
    simp [Host.write]
  · simp only [hplaced.listBreakpoints, hnext.listBreakpoints,
      Breakpoint.Schedule.drain_invalidate]
    refine ⟨fun hs => ?_, fun hs => ?_, hothers⟩
    · subst hs
      have hin := hafter.mpr rfl
      refine ⟨by simp [hbefore], hin, List.mem_cons_of_mem _ (List.mem_map.mpr ⟨_, hin, ?_⟩)⟩
      simp only [Breakpoint.Location.command, Nat.sub_add_cancel hline]
    · subst hs
      exact ⟨hbefore.mpr rfl, by simp [hafter]⟩

/-- A user with one document open, whose debugger waits for a command. -/
def waitingWith (path request : String) : Moment Script :=
  let script : Script := { Script.new true [] with output := [.ok (Text.encode "\x1b]>dbg> ")] }
  let opened : Controller Script := (Controller.new .standard (.new .empty)).run
    ([(path, "")].map fun d => .edit (.openText d.1 d.2))
  (Moment.first [.line request] ⟨(opened.launch .debug fun _ => .ok script).1, 0, []⟩).after 4

/-- A base name finds the document in its directory. -/
theorem breakpoint_toggled_where_found_by_base_name :
    let m := waitingWith "/a/main.p" "break main.p:3"
    m.request? = some (.breakAt "main.p" 3) ∧
      ⟨"/a/main.p", 2⟩ ∈ m.next.host.controller.listBreakpoints.2 ∧
      .breakAt "/a/main.p" 3 ∈ (m.next.host.controller.breakpoints.invalidate.drain
        m.next.host.controller.editor).2 := by
  intro m
  have request : m.request? = some (.breakAt "main.p" 3) := by decide +kernel
  have none : m.host.controller.listBreakpoints.2 = [] := by decide +kernel
  have found : (m.host.controller.editor.locateOrOpen "main.p").2 = some 0 := by decide +kernel
  have there : (m.host.controller.editor.locateOrOpen "main.p").1.path? 0 = some "/a/main.p" := by
    decide +kernel
  obtain ⟨doc, path, set, hdoc, hpath, -, -, hset, hremoved, -⟩ :=
    breakpoint_toggled_where_found .standard .empty [("/a/main.p", "")] .debug _ 0 []
      [.line "break main.p:3"] 4 request
  obtain rfl : 0 = doc := Option.some.inj (found.symm.trans hdoc)
  obtain rfl : "/a/main.p" = path := Option.some.inj (there.symm.trans hpath)
  cases set with
  | false =>
    have hbefore := (hremoved rfl).1
    change _ ∈ m.host.controller.listBreakpoints.2 at hbefore
    rw [none] at hbefore
    cases hbefore
  | true => exact ⟨request, (hset rfl).2⟩

/-- In another directory a document of the same name is open. The answer names the file that was
named, and the breakpoint is listed for the document. -/
theorem breakpoint_set_where_not_named :
    let m := waitingWith "/a/main.p" "break /b/main.p:3"
    m.request? = some (.breakAt "/b/main.p" 3) ∧
      m.next.host.log = m.host.log ++ [.prompt "(tansa) ", .history "break /b/main.p:3",
        .out "Breakpoint set at /b/main.p:3\n"] ∧
      m.host.controller.listBreakpoints.2 = [] ∧
      m.next.host.controller.listBreakpoints.2 = [⟨"/a/main.p", 2⟩] ∧
      ⟨"/b/main.p", 2⟩ ∉ m.next.host.controller.listBreakpoints.2 ∧
      .breakAt "/b/main.p" 3 ∉ (m.next.host.controller.breakpoints.invalidate.drain
        m.next.host.controller.editor).2 := by
  decide +kernel

end Debugline.Console
