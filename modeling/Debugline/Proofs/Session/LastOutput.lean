import Debugline.Proofs.Session.Convergence
import Debugline.Proofs.Session.Reported
import Debugline.Proofs.Session.Twins

/-! What a program writes before it ends. A program goes on between any two operations of its
transport, so it may write and end after the first reads of a poll and before it is asked whether
it lives. No byte is lost by that: a poll that finds the program gone reads once more, and then all
that the program ever wrote has been taken. -/

namespace Debugline

open Session Wire

/-! ### Programs that go on between the operations -/

/-- What a program does by itself. -/
inductive Act
  | output (bytes : List UInt8)
  | errors (bytes : List UInt8)
  | exit

namespace Act

/-- What acts write to the output, up to the exit. -/
def outputOf : List Act → List UInt8
  | [] | .exit :: _ => []
  | .output bytes :: acts => bytes ++ outputOf acts
  | .errors _ :: acts => outputOf acts

/-- What acts write to the error stream, up to the exit. -/
def errorsOf : List Act → List UInt8
  | [] | .exit :: _ => []
  | .output _ :: acts => errorsOf acts
  | .errors bytes :: acts => bytes ++ errorsOf acts

end Act

/-- A program whose acts are laid down. A read takes all that was written and not yet read. -/
structure Timeline where
  output : List UInt8
  errors : List UInt8
  exited : Bool
  /-- What the program does before each operation to come. -/
  turns : List (List Act)
  /-- How the writes to come are answered. -/
  answers : List (Except Failure Unit)

namespace Timeline

/-- A program that has ended does nothing. -/
def act (p : Timeline) (a : Act) : Timeline :=
  if p.exited then p
  else
    match a with
    | .output bytes => { p with output := p.output ++ bytes }
    | .errors bytes => { p with errors := p.errors ++ bytes }
    | .exit => { p with exited := true }

/-- The program goes on up to the next operation. -/
def turn (p : Timeline) : Timeline :=
  (p.turns.headD []).foldl act { p with turns := p.turns.tail }

instance : Transport Timeline where
  readOutput p := ({ p.turn with output := [] }, .ok p.turn.output)
  readErrors p := ({ p.turn with errors := [] }, .ok p.turn.errors)
  write p _ := ({ p.turn with answers := p.answers.tail }, p.answers.headD (.ok ()))
  alive p := (p.turn, !p.turn.exited)
  terminate p := (p.turn, .ok ())
  kill p := ({ p.turn with exited := true }, .ok ())
  wait p _ := p.turn

/-- All output that nobody has read, whether it is written already or not. -/
def allOutput (p : Timeline) : List UInt8 :=
  p.output ++ if p.exited then [] else Act.outputOf p.turns.flatten

/-- The same of the error stream. -/
def allErrors (p : Timeline) : List UInt8 :=
  p.errors ++ if p.exited then [] else Act.errorsOf p.turns.flatten

/-- Acts that are done are no longer to come. -/
theorem foldl_act (acts : List Act) (p : Timeline) :
    (acts.foldl act p).allOutput = { p with turns := acts :: p.turns }.allOutput ∧
      (acts.foldl act p).allErrors = { p with turns := acts :: p.turns }.allErrors := by
  induction acts generalizing p with
  | nil => exact ⟨rfl, rfl⟩
  | cons a acts ih =>
    rw [List.foldl_cons, (ih _).1, (ih _).2]
    cases hp : p.exited <;> cases a <;>
      simp [act, hp, allOutput, allErrors, Act.outputOf, Act.errorsOf]

theorem all_turn (p : Timeline) :
    p.turn.allOutput = p.allOutput ∧ p.turn.allErrors = p.allErrors := by
  obtain ⟨houtput, herrors⟩ := foldl_act (p.turns.headD []) { p with turns := p.turns.tail }
  rw [turn, houtput, herrors]
  cases hturns : p.turns <;> simp [allOutput, allErrors, hturns]

theorem act_of_exited {p : Timeline} (h : p.exited) (a : Act) : p.act a = p := if_pos h

theorem turn_of_exited {p : Timeline} (h : p.exited) :
    p.turn = { p with turns := p.turns.tail } := by
  have hacts (acts : List Act) (q : Timeline) (hq : q.exited) : acts.foldl act q = q := by
    induction acts with
    | nil => rfl
    | cons a acts ih => rw [List.foldl_cons, act_of_exited hq, ih]
  rw [turn, hacts _ { p with turns := p.turns.tail } h]

/-- What is left for others than reads to leave alone. -/
structure Owes (output errors : List UInt8) (p : Timeline) : Prop where
  output : p.allOutput = output
  errors : p.allErrors = errors

theorem owes_self (p : Timeline) : p.Owes p.allOutput p.allErrors := ⟨rfl, rfl⟩

variable {output errors : List UInt8} {p : Timeline}

theorem Owes.turn (h : p.Owes output errors) : p.turn.Owes output errors :=
  ⟨p.all_turn.1.trans h.output, p.all_turn.2.trans h.errors⟩

theorem Owes.write (h : p.Owes output errors) (bytes : List UInt8) :
    (Transport.write p bytes).1.Owes output errors :=
  ⟨h.turn.output, h.turn.errors⟩

theorem Owes.readOutput (h : p.Owes output errors) : ∃ output',
    output = p.turn.output ++ output' ∧ (Transport.readOutput p).1.Owes output' errors := by
  refine ⟨_, ?_, rfl, h.turn.errors⟩
  rw [← h.turn.output]
  rfl

theorem Owes.readErrors (h : p.Owes output errors) : ∃ errors',
    errors = p.turn.errors ++ errors' ∧ (Transport.readErrors p).1.Owes output errors' := by
  refine ⟨_, ?_, h.turn.output, rfl⟩
  rw [← h.turn.errors]
  rfl

/-- Once a program has ended, what it wrote is all read at once. -/
theorem owes_of_exited (h : p.exited) :
    (Transport.readErrors (Transport.readOutput p).1).1.Owes [] [] := by
  have houtput : (Transport.readOutput p).1 = { p.turn with output := [] } := rfl
  have hexited : (Transport.readOutput p).1.exited := by rwa [houtput, turn_of_exited h]
  have herrors : (Transport.readErrors (Transport.readOutput p).1).1 =
      { (Transport.readOutput p).1.turn with errors := [] } := rfl
  rw [herrors, turn_of_exited hexited, houtput, turn_of_exited h]
  exact ⟨by simp [allOutput, h], by simp [allErrors, h]⟩

end Timeline

/-! ### What a session does, step by step -/

namespace Session

/-- What a session deals with. -/
inductive Matter (τ : Type)
  /-- A chunk is fed to the scanner. -/
  | fed (chunk : List UInt8)
  /-- The body of a frame is applied. -/
  | frame (body : String)
  /-- A chunk of the error stream is shown. -/
  | errors (chunk : List UInt8)
  /-- Something happens beside the polls. -/
  | beside (x : Happening τ)

namespace Matter

variable {τ : Type}

/-- All that is fed to the scanner. -/
def output (ms : List (Matter τ)) : List UInt8 :=
  ms.flatMap fun
    | .fed chunk => chunk
    | _ => []

/-- All that is shown of the error stream. -/
def errorOutput (ms : List (Matter τ)) : List UInt8 :=
  ms.flatMap fun
    | .errors chunk => chunk
    | _ => []

def bodies (ms : List (Matter τ)) : List String :=
  ms.filterMap fun
    | .frame body => some body
    | _ => none

def happenings (ms : List (Matter τ)) : List (Happening τ) :=
  ms.filterMap fun
    | .beside x => some x
    | _ => none

@[simp]
theorem output_append (ms ms' : List (Matter τ)) : output (ms ++ ms') = output ms ++ output ms' :=
  List.flatMap_append

@[simp]
theorem errorOutput_append (ms ms' : List (Matter τ)) :
    errorOutput (ms ++ ms') = errorOutput ms ++ errorOutput ms' := List.flatMap_append

@[simp]
theorem bodies_append (ms ms' : List (Matter τ)) : bodies (ms ++ ms') = bodies ms ++ bodies ms' :=
  List.filterMap_append

@[simp]
theorem happenings_append (ms ms' : List (Matter τ)) :
    happenings (ms ++ ms') = happenings ms ++ happenings ms' := List.filterMap_append

/-- What one reading of both streams brings. -/
def reading (chunk : List UInt8) (frames : List String) (errors : List UInt8) : List (Matter τ) :=
  .fed chunk :: frames.map .frame ++ [.errors errors]

theorem output_reading (chunk : List UInt8) (frames : List String) (errors : List UInt8) :
    output (reading (τ := τ) chunk frames errors) = chunk := by
  simp [output, reading, List.flatMap_map]

theorem errorOutput_reading (chunk : List UInt8) (frames : List String) (errors : List UInt8) :
    errorOutput (reading (τ := τ) chunk frames errors) = errors := by
  simp [errorOutput, reading, List.flatMap_map]

theorem bodies_reading (chunk : List UInt8) (frames : List String) (errors : List UInt8) :
    bodies (reading (τ := τ) chunk frames errors) = frames := by
  simp [bodies, reading]

theorem happenings_reading (chunk : List UInt8) (frames : List String) (errors : List UInt8) :
    happenings (reading (τ := τ) chunk frames errors) = [] := by
  simp [happenings, reading]

end Matter

def Happening.isPoll {τ : Type} : Happening τ → Bool
  | .call .poll => true
  | _ => false

end Session

namespace Controller

variable {τ : Type} [Transport τ]

/-- A controller deals with matters, one after the other. -/
inductive Deals : Controller τ → List (Matter τ) → Controller τ → Prop
  | done (c : Controller τ) : Deals c [] c
  /-- The transport alone is asked something. -/
  | ask {c c' : Controller τ} {ms : List (Matter τ)} (f : τ → τ)
      (later : Deals (c.meanwhile f) ms c') : Deals c ms c'
  /-- A chunk is fed to the scanner, the frames that end in it are applied in order, and its text is
  shown. -/
  | feed {c c' : Controller τ} {ms : List (Matter τ)} {s : Session τ} (hs : c.session = some s)
      (chunk : List UInt8)
      (later : Deals (((s.scanner.feed chunk).2.frames.foldl dispatch
        { c with session := some { s with scanner := (s.scanner.feed chunk).1 } }).pushText
        (s.scanner.feed chunk).2.text) ms c') :
      Deals c (.fed chunk :: (s.scanner.feed chunk).2.frames.map .frame ++ ms) c'
  | display {c c' : Controller τ} {ms : List (Matter τ)} (chunk : List UInt8)
      (later : Deals { c with events := c.events ++ shown chunk } ms c') :
      Deals c (.errors chunk :: ms) c'
  | beside {c c' : Controller τ} {ms : List (Matter τ)} (x : Happening τ)
      (later : Deals (c.after x) ms c') : Deals c (.beside x :: ms) c'

theorem Deals.append {c c' c'' : Controller τ} {ms ms' : List (Matter τ)} (h : Deals c ms c')
    (h' : Deals c' ms' c'') : Deals c (ms ++ ms') c'' := by
  induction h with
  | done => exact h'
  | ask f _ ih => exact .ask f (ih h')
  | feed hs chunk _ ih =>
    rw [List.append_assoc]
    exact .feed hs chunk (ih h')
  | display chunk _ ih => exact .display chunk (ih h')
  | beside x _ ih => exact .beside x (ih h')

/-! ### What is done beside the polls leaves to the transport -/

/-- What holds of the transport and the scanner, if there is a session. -/
def Holds (P : τ → Scanner → Prop) (c : Controller τ) : Prop :=
  ∀ s, c.session = some s → P s.transport s.scanner

/-- A controller and itself, of whose transport and scanner something holds. -/
def Holding (P : τ → Scanner → Prop) (t : τ) (s : Scanner) (u : τ) (s' : Scanner) : Prop :=
  t = u ∧ s = s' ∧ P t s

namespace Holds

variable {P : τ → Scanner → Prop} {c d : Controller τ}

omit [Transport τ] in
theorem twin (h : Holds P c) : Twin (Holding P) (fun _ _ => True) c c := by
  refine ⟨rfl, rfl, rfl, ?_, rfl, rfl, rfl, rfl, trivial, rfl, rfl⟩
  cases hs : c.session with
  | none => exact .none
  | some s => exact .some ⟨⟨rfl, rfl, h s hs⟩, rfl, rfl, rfl, rfl⟩

omit [Transport τ] in
theorem of_twin (h : Twin (Holding P) (fun _ _ => True) c d) : Holds P c := by
  intro s hs
  rcases h.sessions with ⟨hc, -⟩ | ⟨s', t, hc, -, hst⟩
  · cases hs.symm.trans hc
  · obtain rfl := Option.some.inj (hs.symm.trans hc)
    exact hst.linked.2.2

variable (writes : ∀ {t s} (bytes : List UInt8), P t s → P (Transport.write t bytes).1 s)
include writes

theorem lockstep : Lockstep (Holding P) (fun _ _ => True) where
  push _ _ := trivial
  write h bytes := by
    obtain ⟨rfl, rfl, hp⟩ := h
    exact ⟨rfl, rfl, rfl, writes bytes hp⟩

theorem dispatchAll (h : Holds P c) (bodies : List String) :
    Holds P (bodies.foldl dispatch c) :=
  of_twin (Twin.dispatchAll (lockstep writes) h.twin bodies)

theorem call (h : Holds P c) {a : Call τ} (ha : (Happening.call a).isBeside) :
    Holds P (c.call a) :=
  of_twin (Twin.call (lockstep writes) h.twin ha)

end Holds

/-! ### Polls -/

omit [Transport τ] in
theorem withTransport_eq_meanwhile {α : Type} (c : Controller τ) (absent : α) (f : τ → τ × α) :
    (c.withTransport absent f).1 = c.meanwhile fun t => (f t).1 := by
  cases hs : c.session with
  | none =>
    simp only [withTransport, meanwhile, modifySession, hs, Option.map_none]
    cases c
    simp_all
  | some s => simp only [withTransport, meanwhile, modifySession, hs, Option.map_some]

section

variable {p : Timeline} {start : Scanner} {ms : List (Matter Timeline)}
  {due dueErrors : List UInt8} {c c' : Controller Timeline}

/-- What was dealt with since a program began, and what is still due of what it writes. -/
structure Account (p : Timeline) (start : Scanner) (ms : List (Matter Timeline))
    (due dueErrors : List UInt8) (c : Controller Timeline) : Prop where
  output : Matter.output ms ++ due = p.allOutput
  errors : Matter.errorOutput ms ++ dueErrors = p.allErrors
  bodies : Matter.bodies ms = (start.feed (Matter.output ms)).2.frames
  holds : Holds (fun t s => t.Owes due dueErrors ∧ s = (start.feed (Matter.output ms)).1) c

theorem owes_of_write {t : Timeline} {s : Scanner} (bytes : List UInt8)
    (h : t.Owes due dueErrors ∧ s = start) :
    (Transport.write t bytes).1.Owes due dueErrors ∧ s = start := ⟨h.1.write bytes, h.2⟩

/-- What is read is dealt with. If the program has ended, nothing is due any more. -/
theorem Account.receive (h : Account p start ms due dueErrors c) {s : Session Timeline}
    (hs : c.session = some s) : ∃ ms' due' dueErrors', Deals c ms' c.receive ∧
      Account p start (ms ++ ms') due' dueErrors' c.receive ∧
      Matter.happenings ms' = [] ∧
      (s.transport.exited → due' = [] ∧ dueErrors' = []) := by
  obtain ⟨howes, hscanner⟩ := h.holds s hs
  obtain ⟨due', rfl, howes₁⟩ := howes.readOutput
  obtain ⟨dueErrors', rfl, howes₂⟩ := howes₁.readErrors
  let t := (Transport.readErrors (Transport.readOutput s.transport).1).1
  let o := s.transport.turn.output
  let e := (Transport.readOutput s.transport).1.turn.errors
  let fed : Controller Timeline :=
    { c with session := some { s with transport := t, scanner := (s.scanner.feed o).1 } }
  let applied := (s.scanner.feed o).2.frames.foldl dispatch fed
  let typed := applied.pushText (s.scanner.feed o).2.text
  have hreceive : c.receive = { typed with events := typed.events ++ shown e } := by
    have listen : Transport.listen s.transport = (t, o, e) := rfl
    rw [receive_of_listen hs listen]
    exact pushText_eq_shown typed e
  refine ⟨Matter.reading o (s.scanner.feed o).2.frames e, due', dueErrors', ?_, ?_,
    Matter.happenings_reading _ _ _, fun hexited => ?_⟩
  · have hlistened : ((c.meanwhile fun t => (Transport.readOutput t).1).meanwhile fun t =>
        (Transport.readErrors t).1).session = some { s with transport := t } := by
      simp only [meanwhile, modifySession, hs, Option.map_some]
      rfl
    rw [hreceive]
    exact .ask _ (.ask _ (.feed hlistened o (.display e (.done _))))
  · have hfed : (start.feed (Matter.output ms ++ o)).1 = (s.scanner.feed o).1 := by
      rw [Scanner.feed_append_scanner, hscanner]
    have hread : Holds (fun u s' => u.Owes due' dueErrors' ∧ s' = (s.scanner.feed o).1) fed := by
      intro s' hs'
      obtain rfl := Option.some.inj hs'
      exact ⟨howes₂, rfl⟩
    exact {
      output := by
        rw [Matter.output_append, Matter.output_reading, List.append_assoc]
        exact h.output
      errors := by
        rw [Matter.errorOutput_append, Matter.errorOutput_reading, List.append_assoc]
        exact h.errors
      bodies := by
        rw [Matter.output_append, Matter.output_reading, Matter.bodies_append,
          Matter.bodies_reading, Scanner.feed_append_frames, ← hscanner, ← h.bodies]
      holds := by
        rw [Matter.output_append, Matter.output_reading, hfed, hreceive]
        simp only [typed, pushText_eq_shown]
        exact hread.dispatchAll (owes_of_write ·) _ }
  · have hnone := Timeline.owes_of_exited hexited
    exact ⟨howes₂.output.symm.trans hnone.output, howes₂.errors.symm.trans hnone.errors⟩

/-- What happens beside the polls is dealt with as it is. -/
theorem Account.beside (h : Account p start ms due dueErrors c) {x : Happening Timeline}
    (own : ∀ f, x ≠ .meanwhile f) (hx : x.isPoll = false) (live : c.hasSession)
    (still : (c.after x).hasSession) :
    Account p start (ms ++ [.beside x]) due dueErrors (c.after x) := by
  have hholds : Holds (fun t s => t.Owes due dueErrors ∧
      s = (start.feed (Matter.output ms)).1) (c.after x) := by
    cases x with
    | meanwhile f => exact absurd rfl (own f)
    | edit change => exact h.holds
    | call a =>
      by_cases hb : (Happening.call a).isBeside
      · exact h.holds.call (owes_of_write ·) hb
      cases a with
      | poll => cases hx
      | takeEvents => exact h.holds
      | launch mode spawn => simpa [after, Controller.call, launch_live live] using h.holds
      | abort =>
        obtain ⟨c', -, he⟩ := abort_live live
        rw [after, Controller.call, he] at still
        cases still
      | _ => exact absurd rfl hb
  have houtput : Matter.output (ms ++ [.beside x]) = Matter.output ms := by simp [Matter.output]
  refine ⟨houtput ▸ h.output, ?_, ?_, houtput ▸ hholds⟩
  · simpa [Matter.errorOutput] using h.errors
  · rw [houtput, ← h.bodies]
    simp [Matter.bodies]

/-- A poll that has read and asked. If it found the program dead, nothing is written any more. -/
theorem Account.asked (h : Account p start ms due dueErrors c) (live : c.hasSession) :
    ∃ ms' due' dueErrors', Deals c ms' c.asked ∧
      Account p start (ms ++ ms') due' dueErrors' c.asked ∧ Matter.happenings ms' = [] ∧
      ∃ s, c.asked.session = some s ∧ (c.foundAlive = false → s.transport.exited) := by
  obtain ⟨s, hs⟩ := Option.isSome_iff_exists.mp live
  obtain ⟨ms', due', dueErrors', hdeals, haccount, hnone, -⟩ := h.receive hs
  obtain ⟨s', hs'⟩ : ∃ s', c.receive.session = some s' := by
    obtain ⟨_, hr⟩ := c.receive_along
    exact Option.isSome_iff_exists.mp (hr.session.trans live)
  have hasked : c.asked =
      { c.receive with session := some { s' with transport := s'.transport.turn } } := by
    rw [Controller.asked, withTransport, hs']
    rfl
  have hmeanwhile : c.asked = c.receive.meanwhile fun t => (Transport.alive t).1 :=
    withTransport_eq_meanwhile c.receive false Transport.alive
  have halive : c.foundAlive = !s'.transport.turn.exited := by
    rw [foundAlive, withTransport, hs']
    rfl
  refine ⟨ms', due', dueErrors', ?_, ⟨haccount.output, haccount.errors, haccount.bodies, ?_⟩,
    hnone, { s' with transport := s'.transport.turn }, by rw [hasked], fun dead => ?_⟩
  · have hask : Deals c.receive [] c.asked := by
      rw [hmeanwhile]
      exact .ask _ (.done _)
    simpa using hdeals.append hask
  · rw [hasked]
    intro t ht
    obtain rfl := Option.some.inj ht
    obtain ⟨howes, hscanner⟩ := haccount.holds s' hs'
    exact ⟨howes.turn, hscanner⟩
  · rw [halive] at dead
    simpa using dead

/-- Each happening of a session that goes on is dealt with. -/
theorem Account.after (h : Account p start ms due dueErrors c) {x : Happening Timeline}
    (own : ∀ f, x ≠ .meanwhile f) (live : c.hasSession) (still : (c.after x).hasSession) :
    ∃ ms' due' dueErrors', Deals c ms' (c.after x) ∧
      Account p start (ms ++ ms') due' dueErrors' (c.after x) ∧
      Matter.happenings ms' = [x].filter (!·.isPoll) := by
  cases hx : x.isPoll with
  | false =>
    exact ⟨[.beside x], due, dueErrors, .beside x (.done _), h.beside own hx live still,
      by simp [Matter.happenings, hx]⟩
  | true =>
    obtain rfl : x = .call .poll := by
      unfold Happening.isPoll at hx
      split at hx
      · rfl
      · cases hx
    obtain ⟨ms', due', dueErrors', hdeals, haccount, hnone, -⟩ := h.asked live
    cases alive : c.foundAlive with
    | true =>
      have hpoll : c.after (.call .poll) = c.asked := poll_eq_of_alive live alive
      rw [hpoll]
      exact ⟨ms', due', dueErrors', hdeals, haccount, hnone⟩
    | false =>
      rw [Controller.after, Controller.call, poll_eq_of_dead live alive] at still
      cases still

theorem Account.run (h : Account p start ms due dueErrors c) {hs : List (Happening Timeline)}
    (own : ∀ f, .meanwhile f ∉ hs) (live : ∀ n ≤ hs.length, (c.run (hs.take n)).hasSession) :
    ∃ ms' due' dueErrors', Deals c ms' (c.run hs) ∧
      Account p start (ms ++ ms') due' dueErrors' (c.run hs) ∧
      Matter.happenings ms' = hs.filter (!·.isPoll) := by
  induction hs generalizing c ms due dueErrors with
  | nil => exact ⟨[], due, dueErrors, .done c, by rwa [List.append_nil], rfl⟩
  | cons x hs ih =>
    obtain ⟨ms₁, due₁, dueErrors₁, hdeals₁, h₁, hx⟩ := h.after
      (fun f he => own f (he ▸ List.mem_cons_self)) (live 0 (by simp)) (live 1 (by simp))
    obtain ⟨ms₂, due₂, dueErrors₂, hdeals₂, h₂, hxs⟩ := ih h₁
      (fun f hm => own f (List.mem_cons_of_mem _ hm)) fun n hn => live (n + 1) (by simpa using hn)
    refine ⟨ms₁ ++ ms₂, due₂, dueErrors₂, hdeals₁.append hdeals₂, by rwa [← List.append_assoc], ?_⟩
    rw [Matter.happenings_append, hx, hxs, ← List.filter_append]
    rfl

end

/-! ### Events -/

/-- In a session that goes on, no end is reported. -/
theorem after_adds {c : Controller τ} {x : Happening τ} (live : c.hasSession)
    (still : (c.after x).hasSession) (hx : x ≠ .call .takeEvents) : c.Adds (c.after x) := by
  rcases c.turn_or_along hx with ⟨s, t⟩ | ha
  · have hturned := t.turned fun _ => live
    refine hturned.adds fun he => ?_
    rw [(hturned.ended he).session] at still
    cases still
  · exact ha.events

theorem reported_adds {c : Controller τ} {hs : List (Happening τ)}
    (live : ∀ n ≤ hs.length, (c.run (hs.take n)).hasSession) :
    ∃ new, c.reported hs = c.events ++ new ∧ .terminated ∉ new := by
  induction hs generalizing c with
  | nil => exact ⟨[], by simp [reported], by simp⟩
  | cons x hs ih =>
    obtain ⟨new, hreported, hnew⟩ := ih (c := c.after x) fun n hn =>
      live (n + 1) (by simpa using hn)
    rw [reported_cons, hreported]
    by_cases hx : x = .call .takeEvents
    · obtain rfl := hx
      exact ⟨new, rfl, hnew⟩
    · have hlive : c.hasSession := live 0 (by simp)
      obtain ⟨first, hfirst, hnone⟩ := after_adds hlive (live 1 (by simp)) hx
      exact ⟨first ++ new, by rw [c.taken_of_ne hx, hfirst, List.nil_append, List.append_assoc],
        by simp [hnone, hnew]⟩

/-- The end of a session is reported last and once. -/
theorem reported_end {c : Controller τ} {hs : List (Happening τ)}
    (live : ∀ n ≤ hs.length, (c.run (hs.take n)).hasSession)
    (dead : (c.run hs).foundAlive = false) : ∃ new,
      c.reported (hs ++ [.call .poll]) = c.events ++ new ++ [.terminated] ∧ .terminated ∉ new := by
  have hlive : (c.run hs).hasSession := by simpa using live hs.length (Nat.le_refl _)
  obtain ⟨new, hreported, hnew⟩ := reported_adds live
  obtain ⟨_, c', ha, hpoll⟩ := poll_dead hlive dead
  obtain ⟨last, hlast, hnone⟩ := ha.ended.events
  have hafter : ((c.run hs).after (.call .poll)).events =
      (c.run hs).events ++ last ++ [.terminated] := (congrArg Controller.events hpoll).trans hlast
  refine ⟨new ++ last, ?_, by simp [hnew, hnone]⟩
  calc c.reported (hs ++ [.call .poll])
      = c.handed hs ++ ((c.run hs).events ++ last ++ [.terminated]) := by
        rw [reported_concat, hafter]
        rfl
    _ = c.reported hs ++ (last ++ [.terminated]) := by simp [reported_eq]
    _ = c.events ++ (new ++ last) ++ [.terminated] := by rw [hreported]; simp

/-- No output is lost when a program ends. Between the operations on its transport the program
writes and ends as it likes, the host asks for what it likes, and some poll ends the session. By
then all that the program ever wrote was fed to the scanner, or shown of its error stream, once and
in order, and all frames of it were applied; only then is the end reported, and no poll reports
anything after it. -/
theorem no_output_lost {before c : Controller Timeline} {mode : Mode}
    {spawn : Unit → Except Failure Timeline} {p : Timeline} (spawned : spawn () = .ok p)
    (launched : before.launch mode spawn = (c, .ok ())) {hs : List (Happening Timeline)}
    (own : ∀ f, .meanwhile f ∉ hs) (live : ∀ n ≤ hs.length, (c.run (hs.take n)).hasSession)
    (ends : (c.run hs).poll.hasSession = false) :
    (∃ ms c', Deals c ms c' ∧ (c.run hs).poll = c'.finish ∧
      Matter.output ms = p.allOutput ∧ Matter.errorOutput ms = p.allErrors ∧
      Matter.bodies ms = ((Scanner.new c.config (mode = .debug)).feed p.allOutput).2.frames ∧
      Matter.happenings ms = hs.filter (!·.isPoll)) ∧
    (∃ new, c.reported (hs ++ [.call .poll]) = c.events ++ new ++ [.terminated] ∧
      .terminated ∉ new) ∧
    (c.run hs).poll.poll = (c.run hs).poll := by
  have hsession : c.session = some ⟨p, .new c.config (mode = .debug), mode, "", 0, none⟩ := by
    obtain ⟨t, ht, rfl⟩ := start_of_launch launched
    obtain rfl := Except.ok.inj (ht.symm.trans spawned)
    cases mode <;> rfl
  have hstart : Account p (.new c.config (mode = .debug)) [] p.allOutput p.allErrors c := by
    refine ⟨rfl, rfl, rfl, fun s hs => ?_⟩
    obtain rfl := Option.some.inj (hsession.symm.trans hs)
    exact ⟨p.owes_self, rfl⟩
  have hlive : (c.run hs).hasSession := by simpa using live hs.length (Nat.le_refl _)
  obtain ⟨ms₁, due₁, dueErrors₁, hdeals₁, h₁, hhappened⟩ := hstart.run own live
  obtain ⟨ms₂, due₂, dueErrors₂, hdeals₂, h₂, hnone₂, s, hasked, hexited⟩ := h₁.asked hlive
  have dead : (c.run hs).foundAlive = false := by
    by_contra halive
    have hpoll : (c.run hs).poll = (c.run hs).asked :=
      poll_eq_of_alive hlive (by simpa using halive)
    rw [hpoll, hasSession, hasked] at ends
    cases ends
  obtain ⟨ms₃, due₃, dueErrors₃, hdeals₃, h₃, hnone₃, hread⟩ := h₂.receive hasked
  obtain ⟨rfl, rfl⟩ := hread (hexited dead)
  have houtput : Matter.output (ms₁ ++ ms₂ ++ ms₃) = p.allOutput := by simpa using h₃.output
  refine ⟨⟨ms₁ ++ ms₂ ++ ms₃, _, (hdeals₁.append hdeals₂).append hdeals₃,
    poll_eq_of_dead hlive dead, houtput, by simpa using h₃.errors, ?_, ?_⟩,
    reported_end live dead, ?_⟩
  · rw [← houtput]
    exact h₃.bodies
  · simp [hhappened, hnone₂, hnone₃]
  · rw [poll, if_neg (by simp [ends])]

/-- The second half of a frame, and a last error, are written after the second poll has read and
before it asks whether the program lives. -/
theorem no_output_lost_before_exit :
    let p : Timeline := ⟨[], [], false, [[.output (Text.encode "a\x1b]>in")], [], [], [],
      [.errors (Text.encode "e")],
      [.output (Text.encode "fo b\n"), .errors (Text.encode "f"), .exit]], []⟩
    let before : Controller Timeline := .new .standard (.new .empty)
    let c := (before.launch .debug fun _ => .ok p).1
    let hs : List (Happening Timeline) := [.call .poll, .call (.addWatch "x")]
    before.launch .debug (fun _ => .ok p) = (c, .ok ()) ∧ (∀ f, .meanwhile f ∉ hs) ∧
      (∀ n ≤ hs.length, (c.run (hs.take n)).hasSession) ∧ (c.run hs).poll.hasSession = false ∧
      c.reported (hs ++ [.call .poll]) =
        [.terminal "a", .watchTableChanged, .terminal "e", .status "b", .terminal "f",
          .terminated] ∧
      ∃ ms c', Deals c ms c' ∧ (c.run hs).poll = c'.finish ∧
        Matter.output ms = Text.encode "a\x1b]>info b\n" ∧
        Matter.errorOutput ms = Text.encode "ef" ∧ Matter.bodies ms = ["info b"] := by
  intro p before c hs
  have launched : before.launch .debug (fun _ => .ok p) = (c, .ok ()) := rfl
  have own : ∀ f, .meanwhile f ∉ hs := by simp [hs]
  have live : ∀ n ≤ hs.length, (c.run (hs.take n)).hasSession := by decide +kernel
  have ends : (c.run hs).poll.hasSession = false := by decide +kernel
  have houtput : p.allOutput = Text.encode "a\x1b]>info b\n" := by decide +kernel
  have herrors : p.allErrors = Text.encode "ef" := by decide +kernel
  have hbodies : ((Scanner.new c.config true).feed p.allOutput).2.frames = ["info b"] := by
    decide +kernel
  obtain ⟨⟨ms, c', hdeals, hpoll, ho, he, hb, -⟩, -, -⟩ :=
    @no_output_lost before c .debug (fun _ => .ok p) p rfl launched hs own live ends
  exact ⟨launched, own, live, ends, by decide +kernel,
    ms, c', hdeals, hpoll, ho.trans houtput, he.trans herrors, hb.trans hbodies⟩

end Controller

end Debugline
