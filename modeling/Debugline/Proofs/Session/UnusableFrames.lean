import Debugline.Proofs.Session.Convergence
import Debugline.Proofs.Session.Twins
import Debugline.Proofs.Wire.Insertions

/-! Frames of which a session can make nothing. Their bodies cannot be read, or they report a watch
of a row that the table has no place for. Such a frame can be left out of the output of a debugger,
however that is cut into polls, and nothing shows that it was there. -/

namespace Debugline

open Session Wire Splice

/-- A program whose output is laid down, one chunk for each read. In all else it is as another. -/
structure Piped (σ : Type) where
  output : List (List UInt8)
  rest : σ

instance {σ : Type} [Transport σ] : Transport (Piped σ) where
  readOutput p := ({ p with output := p.output.tail }, .ok (p.output.headD []))
  readErrors p := (Transport.readErrors p.rest).map ({ p with rest := · }) id
  write p bytes := (Transport.write p.rest bytes).map ({ p with rest := · }) id
  alive p := (Transport.alive p.rest).map ({ p with rest := · }) id
  terminate p := (Transport.terminate p.rest).map ({ p with rest := · }) id
  kill p := (Transport.kill p.rest).map ({ p with rest := · }) id
  wait p ms := { p with rest := Transport.wait p.rest ms }

/-- What a table learns from the body of a frame: a report of a watch, or that a prompt was
reached, at which one row is sent. -/
def Watch.Table.hear (prompt : String) (t : Table) (body : String) : Table :=
  match Frame.parse body prompt with
  | .ok (.watch row name value) => (t.update row name value).1
  | .ok .prompt => t.next.1.settle
  | _ => t

/-- What a table of some rows can make nothing of. -/
def Wire.Frame.Unusable (rows : Nat) : Except FrameError Frame → Prop
  | .error _ => True
  | .ok (.watch row _ _) => rows + 1 < row
  | .ok _ => False

theorem Watch.Table.update_none {t : Table} {row : Nat} (h : t.rows.length + 1 < row)
    (name value : String) : t.update row name value = (t, none) := by
  obtain ⟨index, rfl⟩ : ∃ index, row = index + 1 := ⟨row - 1, by omega⟩
  simp only [update]
  rw [if_neg (by omega), if_neg (by omega)]

theorem Watch.Table.eq_of_update_none {t t' : Table} {row : Nat} {name value : String}
    (h : t.update row name value = (t', none)) : t' = t := by
  revert h
  unfold update
  split
  · simp_all
  · split
    · simp
    · split <;> simp_all

theorem Wire.Scanner.phase_of_holdback {s : Scanner} (h : s.holdback = 0) : s.phase = .text 0 := by
  unfold holdback at h
  split at h
  · next held hs =>
    obtain rfl : held = 0 := Fin.ext h
    exact hs
  · cases h

namespace Controller

section

variable {τ : Type} [Transport τ] {c d : Controller τ}

/-! ### What frames do to the watches -/

theorem transmit_watches (c : Controller τ) (what : Sent) :
    (c.transmit what).1.watches = c.watches := by
  unfold transmit
  split <;> rfl

theorem advanceBreakpoints_watches (c : Controller τ) :
    c.advanceBreakpoints.watches = c.watches := by
  unfold advanceBreakpoints
  split
  · split
    · rfl
    · exact transmit_watches _ _
  · rfl

theorem advanceWatches_watches (c : Controller τ) :
    c.advanceWatches.watches = c.watches.next.1 := by
  unfold advanceWatches Watch.Table.next
  cases c.watches.pending with
  | nil => rfl
  | cons row rest => exact transmit_watches _ _

theorem reachPrompt_watches (c : Controller τ) :
    c.reachPrompt.watches = c.watches.next.1.settle := by
  let placed := { c with state := .pausedAtPrompt }.placeMarker
  let sent := placed.advanceWatches.settleWatches
  have hplaced : placed.watches = c.watches :=
    congrArg Outline.watches (outline_placeMarker { c with state := .pausedAtPrompt })
  have hsent : sent.watches = placed.advanceWatches.watches.settle :=
    congrArg Outline.watches (outline_settleWatches placed.advanceWatches)
  have hreported : c.reachPrompt.watches =
      ({ sent with breakpointSent := false }.advanceBreakpoints).watches :=
    congrArg Outline.watches (outline_reportPause _)
  rw [hreported, advanceBreakpoints_watches, hsent, advanceWatches_watches, hplaced]

theorem dispatch_watches (c : Controller τ) (body : String) :
    (c.dispatch body).watches = c.watches.hear c.config.prompt body := by
  unfold dispatch Watch.Table.hear
  cases Frame.parse body c.config.prompt with
  | error => rfl
  | ok frame =>
    cases frame with
    | watch row name value =>
      simp only [apply]
      split
      · next table hupdate =>
        rw [hupdate]
        exact (Watch.Table.eq_of_update_none hupdate).symm
      · next table i hupdate => rw [hupdate]; rfl
    | prompt => exact reachPrompt_watches _
    | lineNumber line => exact congrArg Outline.watches (outline_reachLine _ line)
    | file | localValue | globalValue | info => rfl

theorem dispatchAll_watches (live : c.bare.isSome) (bodies : List String) :
    (bodies.foldl dispatch c).watches =
      bodies.foldl (Watch.Table.hear c.config.prompt) c.watches := by
  induction bodies generalizing c with
  | nil => rfl
  | cons body bodies ih =>
    have hframes := dispatch_frameds live body
    rw [List.foldl_cons, List.foldl_cons, ih (hframes.live.trans live), dispatch_watches,
      hframes.deeds.config]

/-- A frame of which nothing can be made does nothing. -/
theorem dispatch_of_unusable {body : String}
    (h : Frame.Unusable c.watches.rows.length (Frame.parse body c.config.prompt)) :
    c.dispatch body = c := by
  unfold dispatch
  cases hframe : Frame.parse body c.config.prompt with
  | error => rfl
  | ok frame =>
    rw [hframe] at h
    cases frame with
    | watch row name value => simp only [apply, Watch.Table.update_none h]
    | _ => cases h

/-- The bodies of the frames among segments. -/
def bodies (config : Config) (segments : List Segment) : List String :=
  (segments.filterMap (Segment.body? config)).map Text.decodeLossy

/-- What a table learns from a segment. -/
def hearSegment (config : Config) (t : Watch.Table) (σ : Segment) : Watch.Table :=
  (σ.body? config).elim t fun body => t.hear config.prompt (Text.decodeLossy body)

theorem foldl_hearSegment (config : Config) (segments : List Segment) (t : Watch.Table) :
    segments.foldl (hearSegment config) t =
      (bodies config segments).foldl (Watch.Table.hear config.prompt) t := by
  induction segments generalizing t with
  | nil => rfl
  | cons σ segments ih =>
    rw [List.foldl_cons, ih]
    cases hbody : σ.body? config <;> simp [hearSegment, bodies, hbody]

/-- A line of which nothing can be made is left out. -/
theorem dispatchAll_insert (live : c.bare.isSome) {l r : List Segment} {body : List UInt8}
    (unusable : Frame.Unusable (l.foldl (hearSegment c.config) c.watches).rows.length
      (Frame.parse (Text.decodeLossy body) c.config.prompt)) :
    (bodies c.config (l ++ .line body :: r)).foldl dispatch c =
      (bodies c.config (l ++ r)).foldl dispatch c := by
  have hbodies : bodies c.config (l ++ .line body :: r) =
      bodies c.config l ++ Text.decodeLossy body :: bodies c.config r := by
    simp [bodies, Segment.body?]
  have hframes := dispatchAll_frameds live (bodies c.config l)
  have hnothing : ((bodies c.config l).foldl dispatch c).dispatch (Text.decodeLossy body) =
      (bodies c.config l).foldl dispatch c := by
    refine dispatch_of_unusable ?_
    rwa [hframes.deeds.config, dispatchAll_watches live, ← foldl_hearSegment]
  rw [hbodies, List.foldl_append, List.foldl_cons, hnothing, ← List.foldl_append]
  simp [bodies]

omit [Transport τ] in
theorem pushText_watches (c : Controller τ) (text : List UInt8) :
    (c.pushText text).watches = c.watches :=
  congrArg Outline.watches (c.outline_pushText text)

/-- The frames among segments are applied in order, and then their text is shown. -/
def takeSegments (c : Controller τ) (segments : List Segment) : Controller τ :=
  ((bodies c.config segments).foldl dispatch c).pushText (Segment.shown c.config segments)

theorem takeSegments_watches (live : c.bare.isSome) (segments : List Segment) :
    (c.takeSegments segments).watches = segments.foldl (hearSegment c.config) c.watches := by
  rw [takeSegments, pushText_watches, dispatchAll_watches live, foldl_hearSegment]

/-- A line of which nothing can be made is neither seen nor shown. -/
theorem takeSegments_insert (live : c.bare.isSome) {l r : List Segment} {body : List UInt8}
    (unusable : Frame.Unusable (l.foldl (hearSegment c.config) c.watches).rows.length
      (Frame.parse (Text.decodeLossy body) c.config.prompt)) :
    c.takeSegments (l ++ .line body :: r) = c.takeSegments (l ++ r) := by
  rw [takeSegments, takeSegments, dispatchAll_insert live unusable, Segment.shown_insert rfl]

/-- A chunk is taken as the segments that end in it. -/
theorem takeOutput_inPhase {config : Config} (hconfig : c.config = config) {s : Session τ}
    (hs : c.session = some s) {φ : Phase} (hscanner : s.scanner = .inPhase config φ)
    (chunk : List UInt8) :
    c.takeOutput chunk = takeSegments
      { c with session := some { s with scanner := .inPhase config (φ.after config chunk) } }
      (φ.segments config chunk) := by
  obtain rfl := hconfig
  simp only [takeOutput, hs, hscanner, Scanner.feed_inPhase]
  rfl

/-! ### The scanner of a session -/

/-- The scanner is one of the configuration. -/
def Scans (c : Controller τ) : Prop := ∀ s, c.scanner? = some s →
  s = { Scanner.new c.config s.enabled with phase := s.phase }

omit [Transport τ] in
theorem start_scanner? (c : Controller τ) (mode : Mode) (transport : τ) :
    (c.start mode transport).scanner? = some (.new c.config (mode = .debug)) := by
  cases mode <;> rfl

omit [Transport τ] in
theorem scanner?_eq_some {s : Session τ} (hs : c.session = some s) :
    c.scanner? = some s.scanner := by simp [scanner?, hs]

omit [Transport τ] in
theorem launch_scans (h : Scans c) (mode : Mode) (spawn : Unit → Except Failure τ) :
    Scans (c.launch mode spawn).1 := by
  unfold launch
  split
  · exact h
  · dsimp only
    split
    · intro s hs
      rw [start_scanner?] at hs
      obtain rfl := Option.some.inj hs
      cases mode <;> rfl
    · exact h

theorem receive_scanner? {s : Scanner} (h : c.scanner? = some s) :
    c.receive.scanner? = some (s.feed c.readStreams.2.1).1 :=
  (scanner?_pushText _ _).trans (text_takeOutput (c.readStreams_beside.silent.scanner.trans h) _).2

theorem poll_scans (h : Scans c) : Scans c.poll := by
  intro s hs
  rw [show c.poll.config = c.config from after_config c (.call .poll)]
  cases live : c.hasSession with
  | false =>
    rw [Controller.poll, if_neg (by simp [live])] at hs
    exact h s hs
  | true =>
    cases alive : c.foundAlive with
    | false =>
      rw [poll_eq_of_dead live alive] at hs
      cases hs
    | true =>
      obtain ⟨s₀, hs₀⟩ : ∃ s₀, c.scanner? = some s₀ := by
        obtain ⟨session, hsession⟩ := Option.isSome_iff_exists.mp live
        exact ⟨_, scanner?_eq_some hsession⟩
      have hasked := (c.receive.withTransport_beside false Transport.alive).silent.scanner
      rw [poll_eq_of_alive live alive, hasked, receive_scanner? hs₀] at hs
      obtain rfl := Option.some.inj hs
      have hfed := h s₀ hs₀
      exact congrArg (fun s => { s with phase := (s₀.scan c.readStreams.2.1).phase }) hfed

theorem Scans.after (h : Scans c) (x : Happening τ) : Scans (c.after x) := by
  by_cases hx : x.isBeside
  · intro s hs
    rw [after_config]
    exact h s ((c.after_beside hx).silent.scanner ▸ hs)
  cases x with
  | edit | meanwhile => exact absurd rfl hx
  | call a =>
    cases a with
    | takeEvents => exact h
    | launch mode spawn => exact launch_scans h mode spawn
    | poll => exact poll_scans h
    | abort =>
      cases live : c.hasSession with
      | false => simpa [Controller.after, call, abort, live] using h
      | true =>
        obtain ⟨c', -, he⟩ := abort_live live
        rw [Controller.after, call, he]
        intro s hs
        cases hs
    | _ => exact absurd rfl hx

theorem run_scans (config : Config) (editor : Editor) (hs : List (Happening τ)) :
    Scans ((Controller.new config editor).run hs) := by
  have hrun {c : Controller τ} (h : Scans c) (hs : List (Happening τ)) : Scans (c.run hs) := by
    induction hs generalizing c with
    | nil => exact h
    | cons x hs ih => exact ih (h.after x)
  refine hrun (fun s hs => ?_) hs
  cases hs

theorem run_config (c : Controller τ) (hs : List (Happening τ)) : (c.run hs).config = c.config := by
  induction hs generalizing c with
  | nil => rfl
  | cons x hs ih => exact (ih _).trans (after_config c x)

/-- The output of a debugger is searched for frames, from whatever phase. -/
theorem scanner_of_debugger {config : Config} {editor : Editor} {hs : List (Happening τ)}
    {s : Session τ} (live : ((Controller.new config editor).run hs).session = some s)
    (debug : s.mode = .debug) : s.scanner = .inPhase config s.scanner.phase := by
  have hsound : ((Controller.new config editor).run hs : Controller τ).outline.Sound :=
    run_keep (fun h _ m => m.sound h) (fun _ h => h.of_eq rfl rfl) (sound_new config editor)
      (sound_new config editor) hs
  have henabled : s.scanner.enabled = true := by
    simpa [debug] using hsound.searched _ _ (outline_session live)
  have hscans := run_scans config editor hs s.scanner (scanner?_eq_some live)
  rwa [run_config, henabled] at hscans

end

/-! ### Two programs, one with the frame and one without it -/

variable {σ : Type} {config : Config} {stream : List Splice} {φ₁ φ₂ : Phase}
  {c d : Controller (Piped σ)} {body : List UInt8} {goal : Watch.Table}

/-- Two programs are the same but for their outputs, the second of which has what is marked, and
the scanners are in phases. -/
structure Poured (config : Config) (stream : List Splice) (φ₁ φ₂ : Phase) (t : Piped σ)
    (s : Scanner) (u : Piped σ) (s' : Scanner) : Prop where
  all : t.output = stream.map all
  kept : u.output = stream.map kept
  rest : t.rest = u.rest
  first : s = .inPhase config φ₁
  second : s' = .inPhase config φ₂

variable [Transport σ]

theorem poured_lockstep : Lockstep (Poured (σ := σ) config stream φ₁ φ₂) Eq where
  push e h := by rw [h]
  write h bytes := ⟨congrArg (fun r : σ => (Transport.write r bytes).2) h.rest,
    { h with rest := congrArg (fun r : σ => (Transport.write r bytes).1) h.rest }⟩

namespace Twin

theorem readStreams_poured (h : Twin (Poured config stream φ₁ φ₂) Eq c d) (live : c.hasSession) :
    Twin (Poured config stream.tail φ₁ φ₂) Eq c.readStreams.1 d.readStreams.1 ∧
      ∃ errors, c.readStreams.2 = (all (stream.headD []), errors) ∧
        d.readStreams.2 = (kept (stream.headD []), errors) := by
  have hout := h.withTransport (R := Poured config stream.tail φ₁ φ₂) (.ok [])
    (f := Transport.readOutput) (g := Transport.readOutput) fun hq =>
      { hq with
        all := by simp [Transport.readOutput, hq.all]
        kept := by simp [Transport.readOutput, hq.kept] }
  have herrors := hout.withTransport (R := Poured config stream.tail φ₁ φ₂) (.ok [])
    (f := Transport.readErrors) (g := Transport.readErrors) fun hq =>
      { hq with rest := congrArg (fun r : σ => (Transport.readErrors r).1) hq.rest }
  have hanswer := hout.withTransport_answer (.ok []) (f := Transport.readErrors)
    (g := Transport.readErrors) fun hq =>
      congrArg (fun r : σ => (Transport.readErrors r).2) hq.rest
  refine ⟨herrors, d.readStreams.2.2, ?_⟩
  rcases h.sessions with ⟨hc, -⟩ | ⟨s, t, hc, hd, hst⟩
  · simp [Controller.hasSession, hc] at live
  · have hfirst : (c.withTransport (.ok []) Transport.readOutput).2 =
        .ok (all (stream.headD [])) := by
      rw [Controller.withTransport, hc]
      exact congrArg Except.ok (by rw [hst.linked.all]; cases stream <;> rfl)
    have hsecond : (d.withTransport (.ok []) Transport.readOutput).2 =
        .ok (kept (stream.headD [])) := by
      rw [Controller.withTransport, hd]
      exact congrArg Except.ok (by rw [hst.linked.kept]; cases stream <;> rfl)
    exact ⟨Prod.ext (congrArg (fun r => r.toOption.getD []) hfirst)
      (congrArg (fun r => r.toOption.getD []) hanswer),
      Prod.ext (congrArg (fun r => r.toOption.getD []) hsecond) rfl⟩

/-- The frames among segments are applied in both. -/
theorem takeSegments {Q : Piped σ → Scanner → Piped σ → Scanner → Prop}
    {E : List Event → List Event → Prop} (lock : Lockstep Q E) (h : Twin Q E c d)
    (segments : List Segment) : Twin Q E (c.takeSegments segments) (d.takeSegments segments) := by
  unfold Controller.takeSegments
  rw [h.config]
  exact pushText lock (dispatchAll lock h _) _

omit [Transport σ] in
theorem eq_of_idle (h : Twin (Poured config stream φ₁ φ₂) Eq c d) (idle : c.hasSession = false) :
    c = d := by
  rcases h.sessions with ⟨hc, hd⟩ | ⟨s, t, hc, -, -⟩
  · exact h.eq_of_session (hc.trans hd.symm)
  · simp [Controller.hasSession, hc] at idle

omit [Transport σ] in
/-- Once all is read and the scanners are in one phase, nothing is left to differ in. -/
theorem eq_of_read (h : Twin (Poured config [] φ₁ φ₁) Eq c d) : c = d := by
  refine h.eq_of_session ?_
  rcases h.sessions with ⟨hc, hd⟩ | ⟨s, t, hc, hd, hst⟩
  · exact hc.trans hd.symm
  · obtain ⟨⟨_, _⟩, _, _, _, _, _⟩ := s
    obtain ⟨⟨_, _⟩, _, _, _, _, _⟩ := t
    obtain ⟨⟨hall, hkept, hrest, hfirst, hsecond⟩, hmode, hfile, hline, hmarker⟩ := hst
    simp_all

variable (fits : (Segment.line body).Fits config)
  (unusable : Frame.Unusable goal.rows.length
    (Frame.parse (Text.decodeLossy body) config.prompt))
include fits unusable

theorem takeOutput_poured {w rest : Splice} (h : Twin (Poured config stream φ₁ φ₂) Eq c d)
    (live : c.hasSession) (hconfig : c.config = config)
    (around : Around config (hearSegment config) (.line body) goal φ₁ φ₂ c.watches (w ++ rest)) :
    Twin (Poured config stream (φ₁.after config (all w)) (φ₂.after config (kept w))) Eq
        (c.takeOutput (all w)) (d.takeOutput (kept w)) ∧
      Around config (hearSegment config) (.line body) goal (φ₁.after config (all w))
        (φ₂.after config (kept w)) (c.takeOutput (all w)).watches rest := by
  obtain rfl := hconfig
  obtain ⟨hrest, hends⟩ := around.chunk fits
  rcases h.sessions with ⟨hc, -⟩ | ⟨s, t, hc, hd, hst⟩
  · simp [Controller.hasSession, hc] at live
  let ended := φ₂.segments c.config (kept w)
  let fed : Controller (Piped σ) :=
    { c with session := some { s with scanner := .inPhase c.config (φ₁.after c.config (all w)) } }
  let fed' : Controller (Piped σ) :=
    { d with session := some { t with scanner := .inPhase c.config (φ₂.after c.config (kept w)) } }
  have hfed : Twin (Poured c.config stream (φ₁.after c.config (all w))
      (φ₂.after c.config (kept w))) Eq fed fed' :=
    { h with
      session := .some { hst with linked := { hst.linked with first := rfl, second := rfl } } }
  have hfirst : c.takeOutput (all w) = fed.takeSegments ended := by
    rw [takeOutput_inPhase rfl hc hst.linked.first]
    rcases hends with heq | ⟨l, r, hl, hr, rfl⟩
    · rw [heq]
    · simp only [ended, hl, hr]
      exact takeSegments_insert rfl unusable
  have hsecond : d.takeOutput (kept w) = fed'.takeSegments ended :=
    takeOutput_inPhase h.config.symm hd hst.linked.second _
  rw [hfirst, hsecond]
  refine ⟨takeSegments poured_lockstep hfed _, ?_⟩
  rwa [takeSegments_watches rfl]

theorem receive_poured (h : Twin (Poured config stream φ₁ φ₂) Eq c d)
    (live : c.hasSession) (hconfig : c.config = config)
    (around : Around config (hearSegment config) (.line body) goal φ₁ φ₂ c.watches
      stream.flatten) :
    ∃ φ₁' φ₂', Twin (Poured config stream.tail φ₁' φ₂') Eq c.receive d.receive ∧
      Around config (hearSegment config) (.line body) goal φ₁' φ₂' c.receive.watches
        stream.tail.flatten := by
  obtain ⟨hread, errors, hc, hd⟩ := readStreams_poured h live
  have hsplit : stream.flatten = stream.headD [] ++ stream.tail.flatten := by cases stream <;> rfl
  have hreadwatches : c.readStreams.1.watches = c.watches :=
    congrArg Outline.watches c.outline_readStreams
  have hreadlive : c.readStreams.1.hasSession := c.readStreams_along.session.trans live
  have hreadconfig : c.readStreams.1.config = config := (readStreams_deeds c).config.trans hconfig
  rw [hsplit, ← hreadwatches] at around
  obtain ⟨htwin, haround⟩ := takeOutput_poured fits unusable hread hreadlive hreadconfig around
  have hfirst : c.receive =
      (c.readStreams.1.takeOutput (all (stream.headD []))).takeErrors errors := by
    simp only [Controller.receive, hc]
  have hsecond : d.receive =
      (d.readStreams.1.takeOutput (kept (stream.headD []))).takeErrors errors := by
    simp only [Controller.receive, hd]
  rw [hfirst, hsecond]
  refine ⟨_, _, pushText poured_lockstep htwin errors, ?_⟩
  rwa [Controller.takeErrors, pushText_watches]

theorem asked_poured (h : Twin (Poured config stream φ₁ φ₂) Eq c d)
    (live : c.hasSession) (hconfig : c.config = config)
    (around : Around config (hearSegment config) (.line body) goal φ₁ φ₂ c.watches
      stream.flatten) :
    ∃ φ₁' φ₂', Twin (Poured config stream.tail φ₁' φ₂') Eq c.asked d.asked ∧
      Around config (hearSegment config) (.line body) goal φ₁' φ₂' c.asked.watches
        stream.tail.flatten ∧
      c.foundAlive = d.foundAlive := by
  obtain ⟨φ₁', φ₂', hreceive, haround⟩ := receive_poured fits unusable h live hconfig around
  have hwatches : c.asked.watches = c.receive.watches :=
    congrArg Outline.watches (c.receive.outline_withTransport false Transport.alive)
  refine ⟨φ₁', φ₂', ?_, by rwa [hwatches], ?_⟩
  · exact hreceive.withTransport false fun hq =>
      { hq with rest := congrArg (fun r : σ => (Transport.alive r).1) hq.rest }
  · exact hreceive.withTransport_answer false fun hq =>
      congrArg (fun r : σ => (Transport.alive r).2) hq.rest

/-- Of two programs that differ in a frame of which nothing can be made, as many polls as there are
chunks make the same. -/
theorem polls_eq (h : Twin (Poured config stream φ₁ φ₂) Eq c d) (hconfig : c.config = config)
    (around : Around config (hearSegment config) (.line body) goal φ₁ φ₂ c.watches
      stream.flatten) :
    c.run (stream.map fun _ => .call .poll) = d.run (stream.map fun _ => .call .poll) := by
  induction stream generalizing c d φ₁ φ₂ with
  | nil =>
    obtain rfl := around.phase_eq
    rw [h.eq_of_read]
  | cons w stream ih =>
    cases live : c.hasSession with
    | false => rw [h.eq_of_idle live]
    | true =>
      have live' : d.hasSession := h.hasSession ▸ live
      obtain ⟨_, _, hasked, haround, halive⟩ :=
        asked_poured fits unusable h live hconfig around
      have haskedconfig : c.asked.config = config := c.asked_deeds.config.trans hconfig
      cases alive : c.foundAlive with
      | true =>
        have hpoll : c.poll = c.asked := poll_eq_of_alive live alive
        have hpoll' : d.poll = d.asked := poll_eq_of_alive live' (halive ▸ alive)
        have hlater := ih hasked haskedconfig haround
        rwa [← hpoll, ← hpoll'] at hlater
      | false =>
        -- one more chunk is read, and at the end of the session all that may differ goes with it
        obtain ⟨_, _, hagain, -⟩ :=
          receive_poured fits unusable hasked (asked_live live) haskedconfig haround
        have hend : c.poll = d.poll := by
          rw [poll_eq_of_dead live alive, poll_eq_of_dead live' (halive ▸ alive)]
          exact (finish poured_lockstep hagain).eq_of_idle rfl
        exact congrArg (Controller.run · (stream.map fun _ => .call .poll)) hend

end Twin

/-- Lays chunks down as output, and polls once for each. -/
def deliver (c : Controller (Piped σ)) (chunks : List (List UInt8)) : Controller (Piped σ) :=
  c.run (.meanwhile (fun p => { p with output := chunks }) :: chunks.map fun _ => .call .poll)

/-- A frame of which nothing can be made is not seen. Into the output of a debugger, at a place
where the scanner holds nothing, the frame is put in, its body short, without a line feed and with
no beginning that is the prompt: however all of it is cut into polls, these leave the controller as
they do without the frame, program and events included. -/
theorem unusable_frame_invisible {config : Config} {editor : Editor}
    {past : List (Happening (Piped σ))} (reached : c = (Controller.new config editor).run past)
    {s : Session (Piped σ)} (live : c.session = some s) (debug : s.mode = .debug)
    {stream : List Splice} {before behind : List UInt8}
    (cut : stream.flatten =
      Splice.around before (config.escape.toList ++ body ++ [lineFeed]) behind)
    (idle : (s.scanner.feed before).1.holdback = 0) (short : body.length ≤ maxFrame)
    (unended : Unended config body)
    (unusable : Frame.Unusable (c.takeOutput before).watches.rows.length
      (Frame.parse (Text.decodeLossy body) config.prompt)) :
    c.deliver (stream.map Splice.all) = c.deliver (stream.map Splice.kept) := by
  let φ := s.scanner.phase
  have hconfig : c.config = config := reached ▸ run_config _ past
  have hscanner : s.scanner = .inPhase config φ := by
    subst reached
    exact scanner_of_debugger live debug
  have hidle : φ.after config before = .text 0 := by
    rw [hscanner, Scanner.feed_inPhase] at idle
    exact Scanner.phase_of_holdback idle
  have hbefore : (c.takeOutput before).watches =
      (φ.segments config before).foldl (hearSegment config) c.watches := by
    rw [takeOutput_inPhase hconfig live hscanner, takeSegments_watches rfl, hconfig]
  rw [hbefore] at unusable
  have fits : (Segment.line body).Fits config := ⟨short, unended⟩
  have around : Around config (hearSegment config) (.line body) _ φ φ c.watches
      (Splice.around before ((Segment.line body).bytes config) behind) :=
    .of_idle fits hidle rfl behind
  have htwin : Twin (Poured config stream φ φ) Eq
      (c.meanwhile ({ · with output := stream.map all }))
      (c.meanwhile ({ · with output := stream.map kept })) := by
    refine ⟨rfl, rfl, rfl, ?_, rfl, rfl, rfl, rfl, rfl, rfl, rfl⟩
    simp only [meanwhile, modifySession, live, Option.map_some]
    exact .some ⟨⟨rfl, rfl, rfl, hscanner, hscanner⟩, rfl, rfl, rfl, rfl⟩
  have hpolls := htwin.polls_eq fits unusable hconfig (cut ▸ around)
  have hdeliver (part : Splice → List UInt8) : c.deliver (stream.map part) =
      (c.meanwhile ({ · with output := stream.map part })).run
        (stream.map fun _ => .call .poll) := by
    rw [deliver, List.map_map]
    rfl
  rw [hdeliver, hdeliver, hpolls]

/-- A report of the ninth watch, where there is no second one, comes in two polls, the second of
which goes on with a backspace. -/
theorem unusable_frame_invisible_of_ninth_row :
    let past : List (Happening (Piped Script)) :=
      [.call (.launch .debug fun _ => .ok ⟨[], .new true []⟩)]
    let c := (Controller.new .standard (.new .empty)).run past
    let before := Text.encode "ab"
    let body := Text.encode "watch 9 x 1"
    let behind := Text.encode "\x08c\x1b]>7\n"
    let stream : List Splice :=
      [Splice.of true before ++ Splice.of false (Config.standard.escape.toList ++ body.take 5),
        Splice.of false (body.drop 5 ++ [lineFeed]) ++ Splice.of true behind]
    ∃ s, c.session = some s ∧ s.mode = .debug ∧
      stream.flatten = Splice.around before
        (Config.standard.escape.toList ++ body ++ [lineFeed]) behind ∧
      (s.scanner.feed before).1.holdback = 0 ∧ body.length ≤ maxFrame ∧
      Unended .standard body ∧
      Frame.Unusable (c.takeOutput before).watches.rows.length
        (Frame.parse (Text.decodeLossy body) Config.standard.prompt) ∧
      (c.deliver (stream.map Splice.all)).events =
        [.terminal "ab", .navigate "" 6, .terminal "c"] ∧
      c.deliver (stream.map Splice.all) = c.deliver (stream.map Splice.kept) := by
  intro past c before body behind stream
  have unended : Unended .standard body := by
    refine ⟨by decide +kernel, fun start hs _ _ => ?_⟩
    have hinits : ∀ start ∈ body.inits, start ≠ Text.encode Config.standard.prompt := by
      decide +kernel
    exact hinits start ((List.mem_inits _ _).mpr hs)
  have cut : stream.flatten = Splice.around before
      (Config.standard.escape.toList ++ body ++ [lineFeed]) behind := by decide +kernel
  have idle : ((Scanner.new .standard true).feed before).1.holdback = 0 := by decide +kernel
  have short : body.length ≤ maxFrame := by decide +kernel
  have hparse : Frame.parse (Text.decodeLossy body) Config.standard.prompt =
      .ok (.watch 9 "x" "1") := by decide +kernel
  have hrows : (c.takeOutput before).watches.rows.length = 1 := by decide +kernel
  have unusable : Frame.Unusable (c.takeOutput before).watches.rows.length
      (Frame.parse (Text.decodeLossy body) Config.standard.prompt) := by
    rw [hparse, hrows, Frame.Unusable]
    decide
  exact ⟨_, rfl, rfl, cut, idle, short, unended, unusable, by decide +kernel,
    unusable_frame_invisible rfl rfl rfl cut idle short unended unusable⟩

end Controller

end Debugline
