import Debugline.Proofs.Session.Positions

/-! The frames that arrive in a run, each with the controller that it arrives at. They are those of
all the output that the run reads, and each is applied to a position that the frames before it told,
so the positions that a session reports are those that its frames tell. -/

namespace Debugline

open Session Wire

namespace Session

/-- A frame, and the controller that it arrives at. -/
structure Arrival (τ : Type) where
  controller : Controller τ
  frame : Frame

end Session

variable {τ : Type} [Transport τ]

namespace Session

/-- A frame is applied behind those of the past: it reports its positions, each once, and a line
that it reaches is shown in the document that the path named last finds; else it scrolls nothing. -/
structure Arrival.Follows (past : List Frame) (a : Arrival τ) : Prop where
  reports : ∃ new, (a.controller.apply a.frame).events = a.controller.events ++ new ∧
    new.filter Event.isPosition = a.frame.reports (lastFile past) (lastLine past)
  shows : ∀ n, a.frame = .lineNumber n → Editor.Shows (lastFile past) (max n 1 - 1)
    a.controller.editor (a.controller.apply a.frame).editor
  still : (∀ n, a.frame ≠ .lineNumber n) → ∀ doc,
    (a.controller.apply a.frame).editor.scrolledTo? doc = a.controller.editor.scrolledTo? doc

/-- Each frame follows those of the past and those before it. -/
def InOrder (past : List Frame) (arrivals : List (Arrival τ)) : Prop :=
  ∀ (i : Nat) (a : Arrival τ), arrivals[i]? = some a →
    a.Follows (past ++ (arrivals.map (·.frame)).take i)

variable {past : List Frame} {arrivals later : List (Arrival τ)}

theorem InOrder.nil (past : List Frame) : InOrder past ([] : List (Arrival τ)) :=
  fun i a ha => by simp at ha

theorem InOrder.singleton {a : Arrival τ} (h : a.Follows past) : InOrder past [a] := by
  intro i b hb
  obtain ⟨rfl, rfl⟩ : i = 0 ∧ a = b := by simpa [List.getElem?_singleton] using hb
  simpa using h

theorem InOrder.append (h : InOrder past arrivals)
    (h' : InOrder (past ++ arrivals.map (·.frame)) later) : InOrder past (arrivals ++ later) := by
  intro i a ha
  rw [List.map_append, List.take_append, List.length_map]
  by_cases hi : i < arrivals.length
  · rw [List.getElem?_append_left hi] at ha
    rw [Nat.sub_eq_zero_of_le hi.le, List.take_zero, List.append_nil]
    exact h i a ha
  · have hle : arrivals.length ≤ i := Nat.le_of_not_lt hi
    rw [List.getElem?_append_right hle] at ha
    rw [List.take_of_length_le (by simpa using hle), ← List.append_assoc]
    exact h' _ a ha

/-- From one editor to another, documents are scrolled by the frames that arrive, in their order,
and by nothing else. -/
def ScrollsAlong : List (Arrival τ) → Editor → Editor → Prop
  | [], e, e' => ∀ doc, e'.scrolledTo? doc = e.scrolledTo? doc
  | a :: later, e, e' => (∀ doc, a.controller.editor.scrolledTo? doc = e.scrolledTo? doc) ∧
      ScrollsAlong later (a.controller.apply a.frame).editor e'

theorem ScrollsAlong.trans {e e' e'' : Editor} (h : ScrollsAlong arrivals e e')
    (h' : ScrollsAlong later e' e'') : ScrollsAlong (arrivals ++ later) e e'' := by
  induction arrivals generalizing e with
  | nil =>
    cases later with
    | nil => exact fun doc => (h' doc).trans (h doc)
    | cons a later => exact ⟨fun doc => (h'.1 doc).trans (h doc), h'.2⟩
  | cons a arrivals ih => exact ⟨h.1, ih h.2⟩

theorem ScrollsAlong.still {e e' e'' : Editor} (h : ScrollsAlong arrivals e e')
    (still : ∀ doc, e''.scrolledTo? doc = e'.scrolledTo? doc) : ScrollsAlong arrivals e e'' := by
  have hnil : ScrollsAlong ([] : List (Arrival τ)) e' e'' := still
  rw [← List.append_nil arrivals]
  exact h.trans hnil

end Session

namespace Controller

/-! ### The frames that arrive -/

/-- The frames among bodies that are dispatched in order. -/
def arriving (c : Controller τ) : List String → List (Arrival τ)
  | [] => []
  | body :: bodies =>
    match Frame.parse body c.config.prompt with
    | .ok f => ⟨c, f⟩ :: (c.dispatch body).arriving bodies
    | .error _ => (c.dispatch body).arriving bodies

/-- The frames that end in a chunk of the output. -/
def arrivingIn (c : Controller τ) (bytes : List UInt8) : List (Arrival τ) :=
  match c.session with
  | none => []
  | some s =>
    let (scanner, out) := s.scanner.feed bytes
    { c with session := some { s with scanner } }.arriving out.frames

/-- The frames that a reading of the streams brings. -/
def received (c : Controller τ) : List (Arrival τ) := c.readStreams.1.arrivingIn c.readStreams.2.1

/-- The frames that a poll brings. If it finds the program dead, it reads once more. -/
def polledFrames (c : Controller τ) : List (Arrival τ) :=
  if !c.hasSession then []
  else if c.foundAlive then c.received
  else c.received ++ c.asked.received

theorem polledFrames_of_idle {c : Controller τ} (idle : c.hasSession = false) :
    c.polledFrames = [] := by
  simp [polledFrames, idle]

theorem polledFrames_of_alive {c : Controller τ} (live : c.hasSession) (alive : c.foundAlive) :
    c.polledFrames = c.received := by
  simp [polledFrames, live, alive]

theorem polledFrames_of_dead {c : Controller τ} (live : c.hasSession)
    (dead : c.foundAlive = false) : c.polledFrames = c.received ++ c.asked.received := by
  simp [polledFrames, live, dead]

/-- The frames that arrive in a run. -/
def arrivals (c : Controller τ) : List (Happening τ) → List (Arrival τ)
  | [] => []
  | .call .poll :: hs => c.polledFrames ++ c.poll.arrivals hs
  | x :: hs => (c.after x).arrivals hs

/-- The session, if there is one, scans on, and its position is what the frames of the past told. -/
def Stands (scanner : Scanner) (past : List Frame) (c : Controller τ) : Prop :=
  ∀ p, c.stand? = some p → p = (scanner, lastFile past, lastLine past)

variable {c c' : Controller τ} {scanner scanner' : Scanner} {past told told' : List Frame}
  {as as' : List (Arrival τ)}

omit [Transport τ] in
theorem Stands.apart (h : c.Stands scanner past) (a : Apart c c') : c'.Stands scanner past :=
  fun p hp => h p (a.stand.symm.trans hp)

omit [Transport τ] in
theorem Stands.of_none (h : c.stand? = none) : c.Stands scanner past := by
  intro p hp
  rw [h] at hp
  cases hp

/-- Frames arrive behind those of the past: each is applied in its turn and reports its positions,
and the session stands where they leave it. -/
structure Tells (past told : List Frame) (as : List (Arrival τ)) (scanner : Scanner)
    (c c' : Controller τ) : Prop where
  frames : as.map (·.frame) = told
  order : InOrder past as
  positions : c'.positions = c.positions ++ Session.positions past told
  stands : c'.Stands scanner (past ++ told)

namespace Tells

theorem of_apart (a : Apart c c') (h : c.Stands scanner past) : Tells past [] [] scanner c c' where
  frames := rfl
  order := .nil past
  positions := by rw [a.positions]; exact (List.append_nil _).symm
  stands := by
    rw [List.append_nil]
    exact h.apart a

theorem trans {c'' : Controller τ} (t : Tells past told as scanner c c')
    (t' : Tells (past ++ told) told' as' scanner' c' c'') :
    Tells past (told ++ told') (as ++ as') scanner' c c'' where
  frames := by rw [List.map_append, t.frames, t'.frames]
  order := t.order.append (t.frames.symm ▸ t'.order)
  positions := by rw [t'.positions, t.positions, positions_append, List.append_assoc]
  stands := by
    rw [← List.append_assoc]
    exact t'.stands

theorem apart {c'' : Controller τ} (t : Tells past told as scanner c c') (a : Apart c' c'') :
    Tells past told as scanner c c'' :=
  ⟨t.frames, t.order, a.positions.trans t.positions, t.stands.apart a⟩

theorem behind {c'' : Controller τ} (t : Tells past told as scanner c' c'') (a : Apart c c') :
    Tells past told as scanner c c'' :=
  ⟨t.frames, t.order, a.positions ▸ t.positions, t.stands⟩

end Tells

omit [Transport τ] in
theorem isSome_bare {p : Scanner × String × Nat} (h : c.stand? = some p) : c.bare.isSome := by
  obtain ⟨s, hs, -⟩ := stand?_eq_some_iff.mp h
  rw [bare_eq hs]
  rfl

theorem apply_follows (h : c.stand? = some (scanner, lastFile past, lastLine past)) (f : Frame) :
    Arrival.Follows past ⟨c, f⟩ := by
  refine ⟨?_, fun n hn => ?_, fun hn doc => ?_⟩
  · obtain ⟨new, hnew⟩ := (apply_frameds (isSome_bare h) f).deeds.appends
    refine ⟨new, hnew.symm, (List.append_right_inj c.positions).mp ?_⟩
    rw [← (apply_tells h f).2, Controller.positions, ← List.filter_append, hnew]
    rfl
  · obtain rfl : f = .lineNumber n := hn
    obtain ⟨s, hs, -, hfile, -⟩ := stand?_eq_some_iff.mp h
    rw [apply_lineNumber hs, ← hfile]
    exact Editor.showLine_shows _ _ _
  · refine c.scrolledTo?_apply ?_ doc
    cases f <;> first | rfl | exact absurd rfl (hn _)

/-! ### Output -/

theorem apply_arrives (h : c.stand? = some (scanner, lastFile past, lastLine past)) (f : Frame) :
    Tells past [f] [⟨c, f⟩] scanner c (c.apply f) where
  frames := rfl
  order := .singleton (apply_follows h f)
  positions := by
    rw [(apply_tells h f).2, Session.positions, Session.positions, List.append_nil]
  stands p hp := by
    rw [lastFile_concat, lastLine_concat]
    exact Option.some.inj (hp.symm.trans (apply_tells h f).1)

theorem dispatch_of_ok {body : String} {f : Frame} (h : Frame.parse body c.config.prompt = .ok f) :
    c.dispatch body = c.apply f := by rw [dispatch, h]

theorem dispatch_of_error {body : String} {cause : FrameError}
    (h : Frame.parse body c.config.prompt = .error cause) : c.dispatch body = c := by
  rw [dispatch, h]

theorem arriving_tells (h : c.stand? = some (scanner, lastFile past, lastLine past))
    (bodies : List String) : Tells past (Frame.readAll c.config.prompt bodies) (c.arriving bodies)
      scanner c (bodies.foldl dispatch c) := by
  induction bodies generalizing c past with
  | nil => exact .of_apart (.refl c) fun p hp => Option.some.inj (hp.symm.trans h)
  | cons body bodies ih =>
    rw [List.foldl_cons, arriving]
    cases hf : Frame.parse body c.config.prompt with
    | error =>
      rw [dispatch_of_error hf]
      simpa [Frame.readAll, hf, Except.toOption] using ih h
    | ok f =>
      have ha := apply_arrives h f
      have hstand : (c.apply f).stand? =
          some (scanner, lastFile (past ++ [f]), lastLine (past ++ [f])) := by
        rw [lastFile_concat, lastLine_concat]
        exact (apply_tells h f).1
      have hconfig : (c.apply f).config = c.config := (apply_frameds (isSome_bare h) f).deeds.config
      have hrest := ih hstand
      rw [hconfig] at hrest
      rw [dispatch_of_ok hf]
      have hall := ha.trans hrest
      simpa [Frame.readAll, hf, Except.toOption] using hall

theorem arrivingIn_eq {s : Session τ} (hs : c.session = some s) (bytes : List UInt8) :
    c.arrivingIn bytes =
      { c with session := some { s with scanner := (s.scanner.feed bytes).1 } }.arriving
        (s.scanner.feed bytes).2.frames := by
  simp only [arrivingIn, hs]

/-- A chunk of the output tells the frames that end in it. -/
theorem takeOutput_tells (h : c.Stands scanner past) (live : c.hasSession) (bytes : List UInt8) :
    Tells past (Frame.readAll c.config.prompt (scanner.feed bytes).2.frames) (c.arrivingIn bytes)
      (scanner.feed bytes).1 c (c.takeOutput bytes) := by
  obtain ⟨s, hs⟩ := Option.isSome_iff_exists.mp live
  obtain ⟨rfl, hfile, hline⟩ : s.scanner = scanner ∧ s.file = lastFile past ∧
      s.line = lastLine past := by
    simpa using h _ (stand?_eq_some_iff.mpr ⟨s, hs, rfl, rfl, rfl⟩)
  let fed := { c with session := some { s with scanner := (s.scanner.feed bytes).1 } }
  have hfed : fed.stand? = some ((s.scanner.feed bytes).1, lastFile past, lastLine past) :=
    stand?_eq_some_iff.mpr ⟨_, rfl, rfl, hfile, hline⟩
  have ht := (arriving_tells hfed (s.scanner.feed bytes).2.frames).apart
    (pushText_apart _ (s.scanner.feed bytes).2.text)
  rw [takeOutput_eq hs, arrivingIn_eq hs]
  exact ⟨ht.frames, ht.order, ht.positions, ht.stands⟩

theorem receive_tells (h : c.Stands scanner past) (live : c.hasSession) :
    Tells past (Frame.readAll c.config.prompt (scanner.feed c.readStreams.2.1).2.frames) c.received
      (scanner.feed c.readStreams.2.1).1 c c.receive := by
  have hread := c.readStreams_beside.apart
  have ht := takeOutput_tells (h.apart hread) (c.readStreams_along.session.trans live)
    c.readStreams.2.1
  rw [c.readStreams_deeds.config] at ht
  exact (ht.behind hread).apart (pushText_apart _ c.readStreams.2.2)

/-- A poll tells the frames that end in what it reads, be it the last. -/
theorem poll_tells (h : c.Stands scanner past) :
    Tells past (Frame.readAll c.config.prompt (scanner.feed c.polled).2.frames) c.polledFrames
      (scanner.feed c.polled).1 c c.poll := by
  by_cases live : c.hasSession
  · have hreceive := receive_tells h live
    have hasked := hreceive.apart (c.receive.withTransport_beside false Transport.alive).apart
    by_cases alive : c.foundAlive
    · rw [poll_eq_of_alive live alive, polled_of_alive live alive, polledFrames_of_alive live alive]
      exact hasked
    · have dead : c.foundAlive = false := by simpa using alive
      have hagain := receive_tells (c := c.asked) hasked.stands (asked_live live)
      rw [c.asked_deeds.config] at hagain
      have hall := hasked.trans hagain
      rw [poll_eq_of_dead live dead, polled_of_dead live dead, polledFrames_of_dead live dead,
        Scanner.feed_append_frames, Scanner.feed_append_scanner, Frame.readAll_append]
      obtain ⟨hstand, hpositions⟩ := finish_positions c.asked.receive
      exact ⟨hall.frames, hall.order, hpositions.trans hall.positions, .of_none hstand⟩
  · have idle : c.hasSession = false := by simpa using live
    have hnone : (scanner.feed []).2.frames = [] := rfl
    rw [(poll_of_idle idle).1, (poll_of_idle idle).2, polledFrames_of_idle idle, hnone]
    exact .of_apart (.refl c) h

/-! ### Documents that are scrolled -/

omit [Transport τ] in
theorem withTransport_editor {α : Type} (c : Controller τ) (absent : α) (f : τ → τ × α) :
    (c.withTransport absent f).1.editor = c.editor := by
  unfold withTransport
  split <;> rfl

omit [Transport τ] in
theorem pushText_editor (c : Controller τ) (text : List UInt8) :
    (c.pushText text).editor = c.editor := by
  unfold pushText
  split <;> rfl

theorem arriving_scrolls (c : Controller τ) (bodies : List String) :
    ScrollsAlong (c.arriving bodies) c.editor (bodies.foldl dispatch c).editor := by
  induction bodies generalizing c with
  | nil => exact fun _ => rfl
  | cons body bodies ih =>
    rw [List.foldl_cons, arriving]
    cases hf : Frame.parse body c.config.prompt with
    | error =>
      rw [dispatch_of_error hf]
      exact ih c
    | ok f =>
      rw [dispatch_of_ok hf]
      exact ⟨fun _ => rfl, ih _⟩

theorem received_scrolls (c : Controller τ) :
    ScrollsAlong c.received c.editor c.receive.editor := by
  have hread : c.readStreams.1.editor = c.editor :=
    (withTransport_editor _ _ _).trans (withTransport_editor _ _ _)
  have hreceive : c.receive.editor = (c.readStreams.1.takeOutput c.readStreams.2.1).editor :=
    pushText_editor _ _
  rw [received, hreceive, ← hread]
  cases hs : c.readStreams.1.session with
  | none =>
    simp only [arrivingIn, takeOutput, hs]
    exact fun _ => rfl
  | some s =>
    rw [arrivingIn_eq hs, takeOutput_eq hs, pushText_editor]
    exact arriving_scrolls _ _

/-- A poll scrolls as the frames do that it brings. -/
theorem poll_scrolls (c : Controller τ) :
    ScrollsAlong c.polledFrames c.editor c.poll.editor := by
  have hasked : ScrollsAlong c.received c.editor c.asked.editor := by
    rw [asked, withTransport_editor]
    exact c.received_scrolls
  by_cases live : c.hasSession
  · by_cases alive : c.foundAlive
    · have hpoll : c.poll = c.asked := poll_eq_of_alive live alive
      rw [hpoll, polledFrames_of_alive live alive]
      exact hasked
    · have dead : c.foundAlive = false := by simpa using alive
      have hfinish (d : Controller τ) (doc : DocId) :
          d.finish.editor.scrolledTo? doc = d.editor.scrolledTo? doc := by
        rw [finish, push, removeMarker_eq, Editor.scrolledTo?_takeOff]
      rw [poll_eq_of_dead live dead, polledFrames_of_dead live dead]
      exact (hasked.trans c.asked.received_scrolls).still (hfinish _)
  · have idle : c.hasSession = false := by simpa using live
    rw [(poll_of_idle idle).1, polledFrames_of_idle idle]
    exact fun _ => rfl

/-! ### Runs -/

/-- No launch of a run succeeds. -/
def LaunchesNone (c : Controller τ) (hs : List (Happening τ)) : Prop :=
  ∀ (i : Nat) (mode : Mode) (spawn : Unit → Except Failure τ),
    hs[i]? = some (.call (.launch mode spawn)) → ((c.run (hs.take i)).launch mode spawn).2 ≠ .ok ()

theorem LaunchesNone.tail {x : Happening τ} {hs : List (Happening τ)}
    (h : c.LaunchesNone (x :: hs)) : (c.after x).LaunchesNone hs :=
  fun i mode spawn hi => h (i + 1) mode spawn hi

theorem abort_tells (h : c.Stands scanner past) :
    c.abort.1.Stands scanner past ∧ c.abort.1.positions = c.positions := by
  by_cases live : c.hasSession
  · let killed :=
      ((c.withTransport (.ok ()) Transport.terminate).1.withTransport (.ok ()) Transport.kill).1
    let ended := { killed with traffic := killed.traffic ++ [Traffic.terminate, Traffic.kill] }
    have habort : c.abort.1 = ended.finish := by rw [abort, if_pos live]
    have hkilled : Beside c killed :=
      (c.withTransport_beside (.ok ()) Transport.terminate).trans
        (withTransport_beside _ (.ok ()) Transport.kill)
    rw [habort]
    obtain ⟨hstand, hpositions⟩ := finish_positions ended
    exact ⟨.of_none hstand, hpositions.trans hkilled.apart.positions⟩
  · have habort : c.abort.1 = c := by rw [abort, if_neg live]
    rw [habort]
    exact ⟨h, rfl⟩

theorem positions_queuedBy {x : Happening τ} (hx : x ≠ .call .takeEvents) {new : List Event}
    (h : (c.after x).positions = c.positions ++ new) :
    (c.queuedBy x).filter Event.isPosition = new := by
  have hq := c.events_queuedBy x
  rw [c.taken_of_ne hx, List.nil_append] at hq
  refine (List.append_right_inj c.positions).mp ?_
  rw [← h, Controller.positions, ← List.filter_append, hq]
  rfl

/-- Between polls no position changes and none is reported. -/
theorem after_stands (h : c.Stands scanner past) {x : Happening τ} (hx : x ≠ .call .poll)
    (refused : ∀ mode spawn, x = .call (.launch mode spawn) → (c.launch mode spawn).2 ≠ .ok ()) :
    (c.after x).Stands scanner past ∧ (c.queuedBy x).filter Event.isPosition = [] := by
  by_cases ht : x = .call .takeEvents
  · subst ht
    exact ⟨h, rfl⟩
  have hkeep : (c.after x).Stands scanner past ∧ (c.after x).positions = c.positions := by
    by_cases hb : x.isBeside
    · exact ⟨h.apart (c.after_beside hb).apart, (c.after_beside hb).apart.positions⟩
    cases x with
    | edit | meanwhile => exact absurd rfl hb
    | call a =>
      cases a with
      | poll => exact absurd rfl hx
      | takeEvents => exact absurd rfl ht
      | abort => exact abort_tells h
      | launch mode spawn =>
        have ha := (launch_beside (refused mode spawn rfl)).apart
        exact ⟨h.apart ha, ha.positions⟩
      | _ => exact absurd rfl hb
  exact ⟨hkeep.1, positions_queuedBy ht (hkeep.2.trans (List.append_nil _).symm)⟩

theorem reads_cons {x : Happening τ} (hx : x ≠ .call .poll) (hs : List (Happening τ)) :
    c.reads (x :: hs) = (c.after x).reads hs := by
  cases x with
  | edit | meanwhile => rfl
  | call a => cases a <;> first | rfl | exact absurd rfl hx

theorem arrivals_cons {x : Happening τ} (hx : x ≠ .call .poll) (hs : List (Happening τ)) :
    c.arrivals (x :: hs) = (c.after x).arrivals hs := by
  cases x with
  | edit | meanwhile => rfl
  | call a => cases a <;> first | rfl | exact absurd rfl hx

/-- The frames of all that a run reads arrive in it, and their positions are what it reports. -/
theorem run_tells (h : c.Stands scanner past) {hs : List (Happening τ)} (alone : c.LaunchesNone hs) :
    (c.arrivals hs).map (·.frame) =
        Frame.readAll c.config.prompt (scanner.feed (c.reads hs)).2.frames ∧
      InOrder past (c.arrivals hs) ∧
      (c.queued hs).filter Event.isPosition = Session.positions past
        (Frame.readAll c.config.prompt (scanner.feed (c.reads hs)).2.frames) := by
  induction hs generalizing c scanner past with
  | nil => exact ⟨rfl, .nil past, rfl⟩
  | cons x hs ih =>
    by_cases hx : x = .call .poll
    · subst hx
      have hp := poll_tells h
      obtain ⟨hframes, horder, hqueued⟩ := ih (c := c.poll) hp.stands alone.tail
      rw [c.poll_deeds.config] at hframes hqueued
      rw [queued, List.filter_append, positions_queuedBy (x := .call .poll) (by simp) hp.positions,
        reads, arrivals, Scanner.feed_append_frames, Frame.readAll_append]
      refine ⟨?_, hp.order.append (hp.frames.symm ▸ horder), ?_⟩
      · rw [List.map_append, hp.frames, hframes]
      · rw [positions_append]
        exact congrArg _ hqueued
    · obtain ⟨hstands, hnone⟩ := after_stands h hx fun mode spawn he => alone 0 mode spawn (he ▸ rfl)
      have hrest := ih hstands alone.tail
      rw [after_config] at hrest
      rw [reads_cons hx, arrivals_cons hx, queued, List.filter_append, hnone]
      exact hrest

/-- A session reports the positions that its frames tell, all of them and no others. The frames are
those of all its output in one piece: whatever the cuts and whatever else goes on, and whatever was
told to a session before it. Each frame that arrives follows those before it in the session, and
documents are scrolled in a poll by these frames alone. -/
theorem positions_follow_frames {before c : Controller τ} {spawn : Unit → Except Failure τ}
    (launched : before.launch .debug spawn = (c, .ok ())) {hs : List (Happening τ)}
    (alone : c.LaunchesNone hs) :
    let told := Frame.readAll c.config.prompt
      ((Scanner.new c.config true).feed (c.reads hs)).2.frames
    (c.queued hs).filter Event.isPosition = Session.positions [] told ∧
      (c.arrivals hs).map (·.frame) = told ∧
      (∀ (i : Nat) (a : Arrival τ), (c.arrivals hs)[i]? = some a → a.Follows (told.take i)) ∧
      ∀ early late, hs = early ++ .call .poll :: late →
        ScrollsAlong (c.run early).polledFrames (c.run early).editor (c.run early).poll.editor := by
  intro told
  have hstands : c.Stands (.new c.config true) [] := by
    obtain ⟨transport, -, rfl⟩ := start_of_launch launched
    exact fun p hp => (Option.some.inj hp).symm
  obtain ⟨hframes, horder, hqueued⟩ := run_tells hstands alone
  refine ⟨hqueued, hframes, fun i a ha => ?_, fun early _ _ => (c.run early).poll_scrolls⟩
  have hfollows := horder i a ha
  rwa [hframes] at hfollows

/-- A session after one that was told a path and a line. Its first prompt comes before any path of
its own; then a frame is cut in two, one cannot be read, and a line 0 is told. -/
theorem positions_follow_frames_of_second_session :
    let spawn : Unit → Except Failure Script := fun _ => .ok (.new true [])
    let before : Controller Script := (Controller.new .standard (.new .empty)).run
      [.call (.launch .debug spawn), .meanwhile (·.cue (.writes "\x1b]>file a.p\n\x1b]>5\n")),
        .call .poll, .call .abort]
    let c := (before.launch .debug spawn).1
    let hs : List (Happening Script) := [.meanwhile (·.cue (.writes "\x1b]>dbg> \x1b]>fi")),
      .call .poll, .call .takeEvents, .call (.addWatch "x"),
      .meanwhile (·.cue (.writes "le b.p\n\x1b]>?\n\x1b]>0\n\x1b]>dbg> \x1b]>7\n")),
      .call .poll, .call .abort]
    let told : List Frame := [.prompt, .file "b.p", .lineNumber 0, .prompt, .lineNumber 7]
    before.launch .debug spawn = (c, .ok ()) ∧ c.LaunchesNone hs ∧
      Frame.readAll c.config.prompt ((Scanner.new c.config true).feed (c.reads hs)).2.frames = told ∧
      Session.positions [] told =
        [.paused "" 0, .navigate "b.p" 0, .paused "b.p" 0, .navigate "b.p" 6] ∧
      (c.queued hs).filter Event.isPosition = Session.positions [] told ∧
      (c.arrivals hs).map (·.frame) = told ∧ (c.run hs).editor.scrolledTo? 1 = some 6 := by
  intro spawn before c hs told
  have idle : before.hasSession = false := by decide +kernel
  have launched : before.launch .debug spawn = (c, .ok ()) :=
    Prod.ext rfl (by simp [launch, idle, spawn])
  have alone : c.LaunchesNone hs := by
    intro i mode spawn hi
    simpa [hs] using List.mem_of_getElem? hi
  have htold : Frame.readAll c.config.prompt
      ((Scanner.new c.config true).feed (c.reads hs)).2.frames = told := by decide +kernel
  have h := positions_follow_frames launched alone
  simp only [htold] at h
  exact ⟨launched, alone, htold, rfl, h.1, h.2.1, by decide +kernel⟩

end Controller

end Debugline
