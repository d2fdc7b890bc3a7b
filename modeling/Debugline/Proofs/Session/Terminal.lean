import Debugline.Proofs.Session.Beside
import Debugline.Proofs.Wire.Cuts

/-! The text of the terminal and the polls that bring it. Each poll shows the text of what it
read; frames, and all else that the host asks for in between, show nothing and leave the scanner
alone. So the text of a session depends on how its output is cut into polls just as the scanner
makes it. -/

namespace Debugline

namespace Session

/-- All the text that events show. -/
def terminalText : List Event → String
  | [] => ""
  | .terminal text :: events => text ++ terminalText events
  | _ :: events => terminalText events

theorem terminalText_append (events new : List Event) :
    terminalText (events ++ new) = terminalText events ++ terminalText new := by
  induction events with
  | nil => simp [terminalText]
  | cons e events ih =>
    rw [List.cons_append]
    cases e <;> simp [terminalText, ih, String.append_assoc]

theorem terminalText_of_isAside {events : List Event} (h : ∀ e ∈ events, e.isAside) :
    terminalText events = "" := by
  induction events with
  | nil => rfl
  | cons e events ih =>
    have hrest := ih fun e' he => h e' (List.mem_cons_of_mem e he)
    have he := h e List.mem_cons_self
    cases e with
    | terminal => cases he
    | _ => exact hrest

end Session

namespace Controller

open Session Wire

variable {τ : Type} {c c' : Controller τ}

def scanner? (c : Controller τ) : Option Scanner := c.session.map (·.scanner)

theorem scanner?_eq (c : Controller τ) : c.scanner? = c.stand?.map (·.1) := by
  rw [stand?, bare, Option.map_map, Option.map_map]
  rfl

/-- Nothing is read and nothing is shown. -/
structure Silent (c c' : Controller τ) : Prop where
  scanner : c'.scanner? = c.scanner?
  text : terminalText c'.events = terminalText c.events

theorem Silent.trans {c'' : Controller τ} (h : Silent c c') (h' : Silent c' c'') : Silent c c'' :=
  ⟨h'.scanner.trans h.scanner, h'.text.trans h.text⟩

theorem push_silent (c : Controller τ) {e : Event} (h : terminalText [e] = "") :
    Silent c (c.push e) :=
  ⟨rfl, by rw [push, terminalText_append, h, String.append_empty]⟩

theorem Beside.silent (h : Beside c c') : Silent c c' where
  scanner := by rw [scanner?_eq, scanner?_eq, h.stand]
  text := by
    obtain ⟨new, he, hn⟩ := h.events
    rw [he, terminalText_append, terminalText_of_isAside hn, String.append_empty]

variable [Transport τ]

theorem Framed.silent (h : Framed c c') : Silent c c' := by
  cases h with
  | aside h => exact h.beside.silent
  | @locate s hs file line => exact ⟨by simp [scanner?, hs], rfl⟩
  | navigate => exact c.push_silent rfl
  | prompt hs h => exact (c.stopped_beside.trans h.beside).silent.trans (push_silent _ rfl)

theorem Frameds.silent (h : Frameds c c') : Silent c c' := by
  induction h with
  | refl => exact ⟨rfl, rfl⟩
  | tail _ h ih => exact ih.trans h.silent

/-! ### Polls -/

omit [Transport τ] in
theorem text_pushText (c : Controller τ) (text : List UInt8) :
    terminalText (c.pushText text).events =
      terminalText c.events ++ Text.decodeLossy text := by
  unfold pushText
  split
  · next h =>
    rw [List.isEmpty_iff.mp h]
    exact String.append_empty.symm
  · rw [push, terminalText_append, terminalText, terminalText, String.append_empty]

omit [Transport τ] in
theorem scanner?_pushText (c : Controller τ) (text : List UInt8) :
    (c.pushText text).scanner? = c.scanner? := by
  unfold pushText
  split <;> rfl

/-- A chunk is shown as the scanner parts it, and the scanner goes on behind it. -/
theorem text_takeOutput {s : Scanner} (h : c.scanner? = some s) (chunk : List UInt8) :
    terminalText (c.takeOutput chunk).events = terminalText c.events ++ s.shownOf chunk ∧
      (c.takeOutput chunk).scanner? = some (s.feed chunk).1 := by
  obtain ⟨session, hs, rfl⟩ := Option.map_eq_some_iff.mp h
  let fed := { c with session := some { session with scanner := (session.scanner.feed chunk).1 } }
  have hframes : Silent fed ((session.scanner.feed chunk).2.frames.foldl dispatch fed) :=
    (dispatchAll_frameds rfl _).silent
  rw [takeOutput_eq hs]
  refine ⟨?_, ?_⟩
  · rw [text_pushText, hframes.text]
    rfl
  · rw [scanner?_pushText, hframes.scanner]
    rfl

/-- A poll reads a chunk of the output and nothing of the error stream, and the program lives on. -/
structure Reads (c : Controller τ) (chunk : List UInt8) : Prop where
  live : c.hasSession
  streams : c.readStreams.2 = (chunk, [])
  alive : c.foundAlive

theorem text_poll {chunk : List UInt8} (reads : c.Reads chunk) {s : Scanner}
    (h : c.scanner? = some s) :
    terminalText c.poll.events = terminalText c.events ++ s.shownOf chunk ∧
      c.poll.scanner? = some (s.feed chunk).1 := by
  have hread := c.readStreams_beside.silent
  have hreceive : c.receive = c.readStreams.1.takeOutput chunk := by
    rw [receive]
    simp only [reads.streams]
    rfl
  have halive := (c.receive.withTransport_beside false Transport.alive).silent
  obtain ⟨htext, hscanner⟩ := text_takeOutput (hread.scanner.trans h) chunk
  rw [poll_eq_of_alive reads.live reads.alive, halive.text, halive.scanner, hreceive, htext,
    hread.text]
  exact ⟨rfl, hscanner⟩

/-! ### Deliveries -/

/-- The polls of a run find the program alive and read chunks of its output one after the other;
between them the program goes on and the host does as it likes. -/
inductive Delivers : Controller τ → List (Happening τ) → List (List UInt8) → Prop
  | done {c : Controller τ} : Delivers c [] []
  | beside {c : Controller τ} {x : Happening τ} {hs : List (Happening τ)}
      {chunks : List (List UInt8)} (h : x.isBeside) (later : Delivers (c.after x) hs chunks) :
      Delivers c (x :: hs) chunks
  | poll {c : Controller τ} {chunk : List UInt8} {hs : List (Happening τ)}
      {chunks : List (List UInt8)} (reads : c.Reads chunk) (later : Delivers c.poll hs chunks) :
      Delivers c (.call .poll :: hs) (chunk :: chunks)

theorem Delivers.text {hs : List (Happening τ)} {chunks : List (List UInt8)}
    (d : Delivers c hs chunks) {s : Scanner} (h : c.scanner? = some s) :
    terminalText (c.run hs).events = terminalText c.events ++ s.shown chunks := by
  induction d generalizing s with
  | done => exact String.append_empty.symm
  | @beside c x _ _ hx _ ih =>
    have hsilent := (c.after_beside hx).silent
    exact (ih (hsilent.scanner.trans h)).trans (by rw [hsilent.text])
  | poll reads _ ih =>
    obtain ⟨htext, hscanner⟩ := text_poll reads h
    exact (ih hscanner).trans (by rw [htext, Scanner.shown, String.append_assoc])

/-- Of two runs that deliver the same output, let one have no cut that parts a character or that a
backspace reaches over; one chunk has none. Then the other shows the same text if and only if it
has no such cut either. -/
theorem same_text_iff_seamless {s : Scanner} (live : c.scanner? = some s)
    {hs₁ hs₂ : List (Happening τ)} {chunks₁ chunks₂ : List (List UInt8)}
    (d₁ : Delivers c hs₁ chunks₁) (d₂ : Delivers c hs₂ chunks₂)
    (same : chunks₁.flatten = chunks₂.flatten) (seamless : s.Seamless chunks₂) :
    terminalText (c.run hs₁).events = terminalText (c.run hs₂).events ↔ s.Seamless chunks₁ := by
  rw [d₁.text live, d₂.text live, String.append_right_inj]
  exact Scanner.shown_eq_iff same seamless

/-- A session that has just launched. -/
def launched (mode : Mode) : Controller Script :=
  (Controller.new .standard (.new .empty)).run [.call (.launch mode fun _ => .ok (.new true []))]

/-- A cut inside an escape is not seen. -/
theorem same_text_of_cut_in_escape :
    let hs₁ : List (Happening Script) := [.meanwhile (·.cue (.writes "a\x1b")), .call .poll,
      .meanwhile (·.cue (.writes "]>7\nb")), .call .poll]
    let hs₂ : List (Happening Script) := [.meanwhile (·.cue (.writes "a\x1b]>7\nb")), .call .poll]
    let chunks₁ : List (List UInt8) := [[0x61, 0x1b], [0x5d, 0x3e, 0x37, 0x0a, 0x62]]
    let chunks₂ : List (List UInt8) := [[0x61, 0x1b, 0x5d, 0x3e, 0x37, 0x0a, 0x62]]
    (launched .debug).scanner? = some (.new .standard true) ∧
      Delivers (launched .debug) hs₁ chunks₁ ∧ Delivers (launched .debug) hs₂ chunks₂ ∧
      chunks₁.flatten = chunks₂.flatten ∧ (Scanner.new .standard true).Seamless chunks₂ ∧
      terminalText ((launched .debug).run hs₁).events =
        terminalText ((launched .debug).run hs₂).events ∧
      (Scanner.new .standard true).Seamless chunks₁ := by
  intro hs₁ hs₂ chunks₁ chunks₂
  have live : (launched .debug).scanner? = some (.new .standard true) := by decide +kernel
  have d₁ : Delivers (launched .debug) hs₁ chunks₁ :=
    .beside rfl (.poll ⟨by decide +kernel, by decide +kernel, by decide +kernel⟩
      (.beside rfl (.poll ⟨by decide +kernel, by decide +kernel, by decide +kernel⟩ .done)))
  have d₂ : Delivers (launched .debug) hs₂ chunks₂ :=
    .beside rfl (.poll ⟨by decide +kernel, by decide +kernel, by decide +kernel⟩ .done)
  have seamless : (Scanner.new .standard true).Seamless chunks₂ := Scanner.seamless_singleton _ _
  have htext : terminalText ((launched .debug).run hs₁).events =
      terminalText ((launched .debug).run hs₂).events := by decide +kernel
  exact ⟨live, d₁, d₂, rfl, seamless, htext,
    (same_text_iff_seamless live d₁ d₂ rfl seamless).mp htext⟩

/-- The two bytes of a character that come with two polls are shown as two malformed pieces. -/
theorem text_differs_of_parted_character :
    let hs₁ : List (Happening Script) :=
      [.meanwhile fun p => { p with output := [.ok [0xc3], .ok [0xa9]] }, .call .poll, .call .poll]
    let hs₂ : List (Happening Script) :=
      [.meanwhile fun p => { p with output := [.ok [0xc3, 0xa9]] }, .call .poll]
    Delivers (launched .run) hs₁ [[0xc3], [0xa9]] ∧ Delivers (launched .run) hs₂ [[0xc3, 0xa9]] ∧
      terminalText ((launched .run).run hs₁).events = "\uFFFD\uFFFD" ∧
      terminalText ((launched .run).run hs₂).events = "\u00E9" := by
  intro hs₁ hs₂
  have d₁ : Delivers (launched .run) hs₁ [[0xc3], [0xa9]] :=
    .beside rfl (.poll ⟨by decide +kernel, by decide +kernel, by decide +kernel⟩
      (.poll ⟨by decide +kernel, by decide +kernel, by decide +kernel⟩ .done))
  have d₂ : Delivers (launched .run) hs₂ [[0xc3, 0xa9]] :=
    .beside rfl (.poll ⟨by decide +kernel, by decide +kernel, by decide +kernel⟩ .done)
  exact ⟨d₁, d₂, by decide +kernel, by decide +kernel⟩

end Controller

end Debugline
