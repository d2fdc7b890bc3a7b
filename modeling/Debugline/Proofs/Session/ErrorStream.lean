import Debugline.Proofs.Session.Convergence
import Debugline.Proofs.Session.Reported
import Debugline.Proofs.Session.Twins

/-! What a program writes to its error stream is shown and does nothing else. Of two runs whose
transports answer alike but for that stream, one is at each step as the other, and each reports the
same events once the text of its own error stream is left out. -/

namespace Debugline

open Session Wire

/-- A list is made of two others, each of them in its order. -/
inductive Interleaves {α : Type} : List α → List α → List α → Prop
  | nil : Interleaves [] [] []
  | left {l m r : List α} (a : α) (h : Interleaves l m r) : Interleaves (a :: l) m (a :: r)
  | right {l m r : List α} (a : α) (h : Interleaves l m r) : Interleaves l (a :: m) (a :: r)

namespace Interleaves

variable {α : Type} {l m r l' m' r' : List α}

theorem append (h : Interleaves l m r) (h' : Interleaves l' m' r') :
    Interleaves (l ++ l') (m ++ m') (r ++ r') := by
  induction h with
  | nil => exact h'
  | left a _ ih => exact .left a ih
  | right a _ ih => exact .right a ih

theorem all_left (l : List α) : Interleaves l [] l := by
  induction l with
  | nil => exact .nil
  | cons a l ih => exact .left a ih

theorem all_right (m : List α) : Interleaves [] m m := by
  induction m with
  | nil => exact .nil
  | cons a m ih => exact .right a ih

end Interleaves

variable {τ : Type} [Transport τ]

/-- Transports that are so related answer alike, but for their error streams, whatever is done to
both. -/
structure Transport.Alike (R : τ → τ → Prop) : Prop where
  readOutput {t u : τ} (h : R t u) : (readOutput t).2 = (readOutput u).2 ∧
    R (readOutput t).1 (readOutput u).1
  readErrors {t u : τ} (h : R t u) : R (readErrors t).1 (readErrors u).1
  write {t u : τ} (h : R t u) (bytes : List UInt8) : (write t bytes).2 = (write u bytes).2 ∧
    R (write t bytes).1 (write u bytes).1
  alive {t u : τ} (h : R t u) : (alive t).2 = (alive u).2 ∧ R (alive t).1 (alive u).1
  terminate {t u : τ} (h : R t u) : R (terminate t).1 (terminate u).1
  kill {t u : τ} (h : R t u) : R (kill t).1 (kill u).1

namespace Session

omit [Transport τ] in
/-- The same happening in two runs; the programs differ as the relation allows. -/
inductive Happening.Paired (R : τ → τ → Prop) : Happening τ → Happening τ → Prop
  | spawned {mode : Mode} {spawn spawn' : Unit → Except Failure τ} {t u : τ}
      (ht : spawn () = .ok t) (hu : spawn' () = .ok u) (h : R t u) :
      Paired R (.call (.launch mode spawn)) (.call (.launch mode spawn'))
  | failed {mode : Mode} {spawn spawn' : Unit → Except Failure τ} {cause : Failure}
      (ht : spawn () = .error cause) (hu : spawn' () = .error cause) :
      Paired R (.call (.launch mode spawn)) (.call (.launch mode spawn'))
  | call {a : Call τ} (other : ∀ mode spawn, a ≠ .launch mode spawn) :
      Paired R (.call a) (.call a)
  | edit (change : Editor.Change) : Paired R (.edit change) (.edit change)
  | meanwhile {f g : τ → τ} (h : ∀ {t u}, R t u → R (f t) (g u)) :
      Paired R (.meanwhile f) (.meanwhile g)

omit [Transport τ] in
theorem Happening.Paired.eq_call_iff {R : τ → τ → Prop} {x y : Happening τ} (h : x.Paired R y)
    {a : Call τ} (other : ∀ mode spawn, a ≠ .launch mode spawn) :
    x = .call a ↔ y = .call a := by
  constructor <;> rintro rfl <;> cases h <;> first | rfl | exact absurd rfl (other _ _)

end Session

namespace Controller

/-- The chunks that a poll reads of the error stream. If it finds the program dead, it reads once
more. -/
def errorsPolled (c : Controller τ) : List (List UInt8) :=
  if !c.hasSession then []
  else if c.foundAlive then [c.readStreams.2.2]
  else [c.readStreams.2.2, c.asked.readStreams.2.2]

/-- Only polls read the error stream. -/
def errorsHeard (c : Controller τ) : Happening τ → List (List UInt8)
  | .call .poll => c.errorsPolled
  | _ => []

theorem errorsHeard_of_ne (c : Controller τ) {x : Happening τ} (hx : x ≠ .call .poll) :
    c.errorsHeard x = [] := by
  unfold errorsHeard
  split <;> trivial

/-- The chunks that a run reads of the error stream. -/
def errorsRead (c : Controller τ) : List (Happening τ) → List (List UInt8)
  | [] => []
  | x :: hs => c.errorsHeard x ++ (c.after x).errorsRead hs

/-- The transports are related and the scanners are the same. -/
def Tied (R : τ → τ → Prop) (t : τ) (s : Scanner) (u : τ) (s' : Scanner) : Prop :=
  R t u ∧ s = s'

/-- Two lists of events are one list into which each has its own events put. -/
def Parted (l m es fs : List Event) : Prop :=
  ∃ common, Interleaves common l es ∧ Interleaves common m fs

theorem Parted.append {l m es fs l' m' es' fs' : List Event} (h : Parted l m es fs)
    (h' : Parted l' m' es' fs') : Parted (l ++ l') (m ++ m') (es ++ es') (fs ++ fs') := by
  obtain ⟨common, hl, hm⟩ := h
  obtain ⟨common', hl', hm'⟩ := h'
  exact ⟨common ++ common', hl.append hl', hm.append hm'⟩

variable {R : τ → τ → Prop} {c d : Controller τ} {l m : List Event}

theorem lockstep (alike : Transport.Alike R) (l m : List Event) :
    Lockstep (Tied R) (Parted l m) where
  push e h := by
    have hboth : Parted [] [] [e] [e] := ⟨[e], .all_left _, .all_left _⟩
    simpa using h.append hboth
  write h bytes :=
    have ⟨hr, ht⟩ := alike.write h.1 bytes
    ⟨hr, ht, h.2⟩

/-! ### Polls -/

namespace Twin

theorem readStreams (alike : Transport.Alike R) {E : List Event → List Event → Prop}
    (h : Twin (Tied R) E c d) : Twin (Tied R) E c.readStreams.1 d.readStreams.1 ∧
      c.readStreams.2.1 = d.readStreams.2.1 := by
  have hstate := h.withTransport (R := Tied R) (.ok []) (f := Transport.readOutput)
    (g := Transport.readOutput) fun hq => ⟨(alike.readOutput hq.1).2, hq.2⟩
  have hanswer := h.withTransport_answer (.ok []) (f := Transport.readOutput)
    (g := Transport.readOutput) fun hq => (alike.readOutput hq.1).1
  have herrors := hstate.withTransport (R := Tied R) (.ok []) (f := Transport.readErrors)
    (g := Transport.readErrors) fun hq => ⟨alike.readErrors hq.1, hq.2⟩
  exact ⟨herrors, congrArg (fun r => r.toOption.getD []) hanswer⟩

theorem takeOutput {E : List Event → List Event → Prop} (lock : Lockstep (Tied R) E)
    (h : Twin (Tied R) E c d) (bytes : List UInt8) :
    Twin (Tied R) E (c.takeOutput bytes) (d.takeOutput bytes) := by
  unfold Controller.takeOutput
  rcases h.sessions with ⟨hc, hd⟩ | ⟨s, t, hc, hd, hst⟩
  · simpa only [hc, hd] using h
  · have hs : Twin (Tied R) E
        { c with session := some { s with scanner := (s.scanner.feed bytes).1 } }
        { d with session := some { t with scanner := (t.scanner.feed bytes).1 } } :=
      { h with session := .some { hst with linked := ⟨hst.linked.1, by rw [hst.linked.2]⟩ } }
    have hout : (s.scanner.feed bytes).2 = (t.scanner.feed bytes).2 := by rw [hst.linked.2]
    simp only [hc, hd, hout]
    exact pushText lock (dispatchAll lock hs _) _

omit [Transport τ] in
/-- The bytes of the error streams may differ. -/
theorem takeErrors (h : Twin (Tied R) (Parted l m) c d) (bytes bytes' : List UInt8) :
    Twin (Tied R) (Parted (l ++ shown bytes) (m ++ shown bytes')) (c.takeErrors bytes)
      (d.takeErrors bytes') := by
  unfold Controller.takeErrors
  rw [pushText_eq_shown, pushText_eq_shown]
  exact { h with events := h.events.append ⟨[], .all_right _, .all_right _⟩ }

theorem receive (alike : Transport.Alike R) (h : Twin (Tied R) (Parted l m) c d) :
    Twin (Tied R) (Parted (l ++ shown c.readStreams.2.2) (m ++ shown d.readStreams.2.2))
      c.receive d.receive := by
  obtain ⟨hread, hout⟩ := readStreams alike h
  unfold Controller.receive
  dsimp only
  rw [hout]
  exact takeErrors (takeOutput (lockstep alike l m) hread _) _ _

theorem poll (alike : Transport.Alike R) (h : Twin (Tied R) (Parted l m) c d) :
    Twin (Tied R) (Parted (l ++ c.errorsPolled.flatMap shown) (m ++ d.errorsPolled.flatMap shown))
      c.poll d.poll := by
  have hlive := h.hasSession
  unfold errorsPolled
  cases hd : d.hasSession with
  | false =>
    rw [hd] at hlive
    simpa [Controller.poll, hlive, hd] using h
  | true =>
    rw [hd] at hlive
    have hreceive := receive alike h
    have hasked : Twin (Tied R) (Parted (l ++ shown c.readStreams.2.2)
        (m ++ shown d.readStreams.2.2)) c.asked d.asked :=
      hreceive.withTransport false fun hq => ⟨(alike.alive hq.1).2, hq.2⟩
    have halive : c.foundAlive = d.foundAlive :=
      hreceive.withTransport_answer false fun hq => (alike.alive hq.1).1
    cases ha : d.foundAlive with
    | true =>
      rw [ha] at halive
      have hc : c.poll = c.asked := poll_eq_of_alive hlive halive
      have hd : d.poll = d.asked := poll_eq_of_alive hd ha
      simpa [hc, hd, hlive, halive, ‹d.hasSession = true›] using hasked
    | false =>
      rw [ha] at halive
      rw [poll_eq_of_dead hlive halive, poll_eq_of_dead hd ha]
      have hend := finish (lockstep alike _ _) (receive alike hasked)
      simpa [hlive, halive, hd] using hend

/-! ### Runs -/

theorem after (alike : Transport.Alike R) (h : Twin (Tied R) (Parted l m) c d)
    {x y : Happening τ} (paired : x.Paired R y) (hx : x ≠ .call .takeEvents) :
    Twin (Tied R)
      (Parted (l ++ (c.errorsHeard x).flatMap shown) (m ++ (d.errorsHeard y).flatMap shown))
      (c.after x) (d.after y) := by
  have hpolls : x = .call .poll ↔ y = .call .poll := paired.eq_call_iff (by simp)
  by_cases hp : x = .call .poll
  · obtain rfl := hp
    obtain rfl := hpolls.mp rfl
    exact poll alike h
  -- nothing else reads errors
  suffices hs : Twin (Tied R) (Parted l m) (c.after x) (d.after y) by
    rw [c.errorsHeard_of_ne hp, d.errorsHeard_of_ne (mt hpolls.mpr hp)]
    simpa using hs
  have lock := lockstep alike l m
  cases paired with
  | @spawned mode _ _ t u hspawn hspawn' hr =>
    exact launch lock h mode (.inl ⟨t, u, hspawn, hspawn', hr, rfl⟩)
  | @failed mode _ _ cause hspawn hspawn' =>
    exact launch lock h mode (.inr ⟨cause, hspawn, hspawn'⟩)
  | edit change => exact { h with editor := congrArg (·.change change) h.editor }
  | meanwhile hf => exact h.meanwhile fun hq => ⟨hf hq.1, hq.2⟩
  | @call a other =>
    by_cases hb : (Happening.call a).isBeside
    · exact call lock h hb
    cases a with
    | poll => exact absurd rfl hp
    | takeEvents => exact absurd rfl hx
    | launch mode spawn => exact absurd rfl (other mode spawn)
    | abort =>
      exact abort lock h (fun hq => ⟨alike.terminate hq.1, hq.2⟩) fun hq => ⟨alike.kill hq.1, hq.2⟩
    | _ => exact absurd rfl hb

theorem run (alike : Transport.Alike R) (h : Twin (Tied R) (Parted l m) c d)
    {hs xs : List (Happening τ)} (paired : List.Forall₂ (Happening.Paired R) hs xs) :
    Twin (Tied R) (fun _ _ => True) (c.run hs) (d.run xs) ∧
      Parted (l ++ (c.errorsRead hs).flatMap shown) (m ++ (d.errorsRead xs).flatMap shown)
        (c.reported hs) (d.reported xs) := by
  induction paired generalizing c d l m with
  | nil =>
    refine ⟨{ h with events := trivial }, ?_⟩
    simpa [errorsRead, reported] using h.events
  | @cons x y hs xs hxy _ ih =>
    simp only [errorsRead, List.flatMap_append, reported_cons]
    have htakes : x = .call .takeEvents ↔ y = .call .takeEvents := hxy.eq_call_iff (by simp)
    by_cases hx : x = .call .takeEvents
    · obtain rfl := hx
      obtain rfl := htakes.mp rfl
      have hempty : Twin (Tied R) (Parted [] []) c.takeEvents.1 d.takeEvents.1 :=
        { h with events := ⟨[], .nil, .nil⟩ }
      obtain ⟨htwin, hparted⟩ := ih hempty
      exact ⟨htwin, h.events.append hparted⟩
    · obtain ⟨htwin, hparted⟩ := ih (after alike h hxy hx)
      rw [c.taken_of_ne hx, d.taken_of_ne (mt htakes.mpr hx), ← List.append_assoc,
        ← List.append_assoc]
      exact ⟨htwin, hparted⟩

end Twin

/-- What a program writes to its error stream is shown and does nothing else. Let two runs have the
same happenings, with transports that answer alike to all but the reading of their error streams.
Then the two controllers are the same, but for the transports and the events; and the events are
the same too, but for the text of what each read of its error stream. -/
theorem error_stream_only_shown (alike : Transport.Alike R) (config : Config) (editor : Editor)
    {hs xs : List (Happening τ)} (paired : List.Forall₂ (Happening.Paired R) hs xs) :
    let c : Controller τ := .new config editor
    Twin (Tied R) (fun _ _ => True) (c.run hs) (c.run xs) ∧
      ∃ common, Interleaves common ((c.errorsRead hs).flatMap shown) (c.reported hs) ∧
        Interleaves common ((c.errorsRead xs).flatMap shown) (c.reported xs) := by
  intro c
  have hnew : Twin (Tied R) (Parted [] []) c c :=
    ⟨rfl, rfl, rfl, .none, rfl, rfl, rfl, rfl, ⟨[], .nil, .nil⟩, rfl, rfl⟩
  exact hnew.run alike paired

end Controller

/-- Two scripts that differ in their errors, and go on whether these are read or not. -/
structure Script.SameOutput (s t : Script) : Prop where
  output : s.output = t.output
  replies : s.replies = [] ∧ t.replies = []
  dead : s.dead = t.dead
  exits : s.exits = false ∧ t.exits = false
  writeFault : s.writeFault = t.writeFault
  survives : s.survives = t.survives

namespace Script.SameOutput

variable {s t : Script}

theorem takeOutput (h : s.SameOutput t) :
    s.takeOutput.2 = t.takeOutput.2 ∧ s.takeOutput.1.SameOutput t.takeOutput.1 := by
  have ho := h.output
  unfold Script.takeOutput
  rw [ho]
  split
  · exact ⟨rfl, h⟩
  · exact ⟨rfl, { h with output := rfl }⟩

theorem takeErrors (h : s.SameOutput t) : s.takeErrors.1.SameOutput t.takeErrors.1 := by
  have hs (u : Script) : ∃ errors, u.takeErrors.1 = { u with errors } := by
    unfold Script.takeErrors
    split
    · exact ⟨_, rfl⟩
    · exact ⟨u.errors, rfl⟩
  obtain ⟨_, hs'⟩ := hs s
  obtain ⟨_, ht'⟩ := hs t
  rw [hs', ht']
  exact { h with }

theorem write (h : s.SameOutput t) (bytes : List UInt8) :
    (s.write bytes).2 = (t.write bytes).2 ∧ (s.write bytes).1.SameOutput (t.write bytes).1 := by
  have hs (u : Script) (hu : u.replies = []) :
      u.write bytes = (u, u.writeFault.elim (.ok ()) .error) := by
    cases hf : u.writeFault <;> simp [Script.write, hf, hu]
  rw [hs s h.replies.1, hs t h.replies.2, h.writeFault]
  exact ⟨rfl, h⟩

theorem kill (h : s.SameOutput t) : s.kill.1.SameOutput t.kill.1 := by
  by_cases ht : t.survives
  · rwa [Script.kill, Script.kill, if_pos (h.survives.trans ht), if_pos ht]
  · rw [Script.kill, Script.kill, if_neg (h.survives ▸ ht), if_neg ht]
    exact { h with dead := rfl }

theorem alike : Transport.Alike Script.SameOutput where
  readOutput := takeOutput
  readErrors := takeErrors
  write := write
  alive h := ⟨by simp [Transport.alive, Script.alive, h.dead, h.exits], h⟩
  terminate := id
  kill := kill

end Script.SameOutput

namespace Controller

/-- Between the two halves of a frame, one program writes a prompt to its error stream, and the
error stream of the other cannot be read. -/
theorem error_stream_only_shown_of_prompt :
    let start (errors : Chunk) : List (Happening Script) :=
      [.call (.launch .debug fun _ => .ok (.new true [])),
        .meanwhile fun p => { p with
          output := [.ok (Text.encode "\x1b]>in"), .ok (Text.encode "fo a\n")]
          errors := [errors] },
        .call .poll, .call .poll]
    let hs := start (.ok (Text.encode "\x1b]>dbg> "))
    let xs := start (.error .inputClosed)
    let c : Controller Script := .new .standard (.new .empty)
    Transport.Alike Script.SameOutput ∧ List.Forall₂ (Happening.Paired Script.SameOutput) hs xs ∧
      c.reported hs = [.terminal "\x1b]>dbg> ", .status "a"] ∧ c.reported xs = [.status "a"] ∧
      Twin (Tied Script.SameOutput) (fun _ _ => True) (c.run hs) (c.run xs) ∧
      ∃ common, Interleaves common ((c.errorsRead hs).flatMap shown) (c.reported hs) ∧
        Interleaves common ((c.errorsRead xs).flatMap shown) (c.reported xs) := by
  intro start hs xs c
  have hnew : (Script.new true []).SameOutput (.new true []) := by constructor <;> trivial
  have paired : List.Forall₂ (Happening.Paired Script.SameOutput) hs xs :=
    .cons (.spawned rfl rfl hnew) (.cons (.meanwhile fun h => { h with output := rfl })
      (.cons (.call nofun) (.cons (.call nofun) .nil)))
  exact ⟨Script.SameOutput.alike, paired, by decide +kernel, by decide +kernel,
    error_stream_only_shown Script.SameOutput.alike .standard (.new .empty) paired⟩

end Controller

end Debugline
