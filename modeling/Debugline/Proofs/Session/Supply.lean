import Debugline.Proofs.Session.Beside
import Debugline.Proofs.Session.Effects
import Debugline.Proofs.Session.Reported
import Debugline.Transport.Script

/-! What there is to read of a program. A program that has only so much to give is read only so
often: a poll that reports something uses some of it up, or ends the session. Events wait in the
order they were queued, and each is taken once. -/

namespace Debugline

open Session

/-- Each read that gives something uses up some of the work of a program, and nothing adds to it. -/
structure Transport.Exhausts {τ : Type} [Transport τ] (work : τ → Nat) : Prop where
  readOutput : ∀ t : τ, work (Transport.readOutput t).1 < work t ∨
    work (Transport.readOutput t).1 = work t ∧ (Transport.readOutput t).2.toOption.getD [] = []
  readErrors : ∀ t : τ, work (Transport.readErrors t).1 < work t ∨
    work (Transport.readErrors t).1 = work t ∧ (Transport.readErrors t).2.toOption.getD [] = []
  write : ∀ (t : τ) bytes, work (Transport.write t bytes).1 ≤ work t
  alive : ∀ t : τ, work (Transport.alive t).1 ≤ work t
  terminate : ∀ t : τ, work (Transport.terminate t).1 ≤ work t
  kill : ∀ t : τ, work (Transport.kill t).1 ≤ work t
  wait : ∀ (t : τ) ms, work (Transport.wait t ms) ≤ work t

namespace Script

theorem work_eq (s : Script) : s.work = s.output.length + s.errors.length +
    (s.replies.map fun c => c.output.length + c.errors.length).sum := by
  unfold work
  induction s.replies with
  | nil => rfl
  | cons c replies ih => simp only [List.foldr_cons, ih, List.map_cons, List.sum_cons]; omega

/-- A cue that a write gives is laid down among what there is to read. -/
theorem work_cue (s : Script) (c : Cue) :
    (s.cue c).work = s.work + (c.output.length + c.errors.length) := by
  simp only [work_eq, cue, List.length_append]
  omega

theorem exhausts : Transport.Exhausts work where
  readOutput s := by
    change s.takeOutput.1.work < s.work ∨
      s.takeOutput.1.work = s.work ∧ s.takeOutput.2.toOption.getD [] = []
    unfold takeOutput
    split
    · exact .inr ⟨rfl, rfl⟩
    · next ho =>
      refine .inl ?_
      simp only [work_eq, ho, List.length_cons]
      omega
  readErrors s := by
    change s.takeErrors.1.work < s.work ∨
      s.takeErrors.1.work = s.work ∧ s.takeErrors.2.toOption.getD [] = []
    unfold takeErrors
    split
    · next he =>
      refine .inl ?_
      simp only [work_eq, he, List.length_cons]
      omega
    · exact .inr ⟨rfl, rfl⟩
  write s bytes := by
    change work (s.write bytes).1 ≤ s.work
    unfold write
    split
    · exact Nat.le_refl _
    · exact Nat.le_refl _
    · next reply rest _ hr =>
      rw [work_cue]
      simp only [work_eq, hr, List.map_cons, List.sum_cons]
      omega
  alive _ := Nat.le_refl _
  terminate _ := Nat.le_refl _
  kill s := by
    change work s.kill.1 ≤ s.work
    unfold kill
    split <;> exact Nat.le_refl _
  wait _ _ := Nat.le_refl _

end Script

namespace Controller

variable {τ : Type} [Transport τ] {c c' : Controller τ} {work : τ → Nat}

/-- What is left of the program to be read. -/
def supply (work : τ → Nat) (c : Controller τ) : Nat :=
  (c.session.map fun s => work s.transport).getD 0

theorem transmit_supply (x : Transport.Exhausts work) (c : Controller τ) (what : Sent) :
    (c.transmit what).1.supply work ≤ c.supply work := by
  unfold transmit
  split
  · exact Nat.le_refl _
  · next s hs =>
    simp only [supply, hs, Option.map_some, Option.getD_some]
    exact x.write s.transport _

theorem Effect.supply (x : Transport.Exhausts work) (h : Effect c c') :
    c'.supply work ≤ c.supply work := by
  cases h with
  | stand hs | name hs | reach hs => simp [Controller.supply, hs]
  | breakpoint | watch => exact (transmit_supply x _ _).trans (Nat.le_refl _)
  | input => exact transmit_supply x _ _
  | close => simp [Controller.supply]
  | _ => exact Nat.le_refl _

theorem Effects.supply (x : Transport.Exhausts work) (h : Effects c c') :
    c'.supply work ≤ c.supply work := by
  induction h with
  | refl => exact Nat.le_refl _
  | tail _ h ih => exact (h.supply x).trans ih

/-! ### Polls -/

omit [Transport τ] in
theorem withTransport_supply {α : Type} (c : Controller τ) (absent : α) {f : τ → τ × α}
    (h : ∀ t, work (f t).1 ≤ work t) :
    (c.withTransport absent f).1.supply work ≤ c.supply work := by
  cases hs : c.session with
  | none => simp [withTransport, hs]
  | some s => simpa [withTransport, hs, supply] using h s.transport

/-- A reading gives nothing, or uses something up. -/
theorem readStreams_supply (x : Transport.Exhausts work) (c : Controller τ) :
    c.readStreams.1.supply work < c.supply work ∨
      c.readStreams.1.supply work ≤ c.supply work ∧ c.readStreams.2 = ([], []) := by
  cases hs : c.session with
  | none => exact .inr (by simp [readStreams, withTransport, hs, Except.toOption])
  | some s =>
    have hread : c.readStreams.1.supply work =
        work (Transport.readErrors (Transport.readOutput s.transport).1).1 := by
      simp [readStreams, withTransport, hs, supply]
    have hbytes : c.readStreams.2 = ((Transport.readOutput s.transport).2.toOption.getD [],
        (Transport.readErrors (Transport.readOutput s.transport).1).2.toOption.getD []) := by
      simp [readStreams, withTransport, hs]
    have hsupply : c.supply work = work s.transport := by simp [supply, hs]
    rw [hread, hbytes, hsupply]
    rcases x.readOutput s.transport with ho | ⟨ho, hout⟩ <;>
      rcases x.readErrors (Transport.readOutput s.transport).1 with he | ⟨he, herr⟩
    · exact .inl (he.trans ho)
    · exact .inl (he ▸ ho)
    · exact .inl (ho ▸ he)
    · exact .inr ⟨(he.trans ho).le, by rw [hout, herr]⟩

/-- What did not come is not reported. -/
theorem receive_events_of_empty {c : Controller τ} (h : c.readStreams.2 = ([], [])) :
    c.receive.events = c.events := by
  have hread : c.readStreams.1.events = c.events :=
    (withTransport_events _ _ _).trans (withTransport_events _ _ _)
  have hempty : ∀ d : Controller τ, (d.takeOutput []).events = d.events := by
    intro d
    unfold takeOutput
    split <;> rfl
  have hreceive : c.receive = (c.readStreams.1.takeOutput []).takeErrors [] := by
    rw [receive]
    simp only [h]
  rw [hreceive]
  exact (hempty _).trans hread

theorem receive_supply (x : Transport.Exhausts work) (c : Controller τ) :
    c.receive.supply work < c.supply work ∨
      c.receive.supply work ≤ c.supply work ∧ c.receive.events = c.events := by
  have hle := c.receive_effects.supply x
  rcases c.readStreams_supply x with hlt | ⟨hread, hempty⟩
  · exact .inl (hle.trans_lt hlt)
  · exact .inr ⟨hle.trans hread, receive_events_of_empty hempty⟩

/-- A poll that leaves the session there uses something up, or reports nothing. -/
theorem poll_supply (x : Transport.Exhausts work) {c : Controller τ} (live : c.hasSession)
    (still : c.poll.hasSession) : c.poll.supply work < c.supply work ∨
      c.poll.supply work ≤ c.supply work ∧ c.poll.events = c.events := by
  cases alive : c.foundAlive with
  | false =>
    obtain ⟨_, d, -, hd⟩ := poll_dead live alive
    rw [hd] at still
    cases still
  | true =>
    rw [poll_eq_of_alive live alive]
    have hle := c.receive.withTransport_supply false x.alive
    rw [withTransport_events]
    rcases c.receive_supply x with hlt | ⟨hreceive, he⟩
    · exact .inl (hle.trans_lt hlt)
    · exact .inr ⟨hle.trans hreceive, he⟩

/-! ### Events -/

omit [Transport τ] in
theorem Beside.appends (h : Beside c c') : c.events <+: c'.events := by
  obtain ⟨new, he, -⟩ := h.events
  exact ⟨new, he.symm⟩

theorem Deed.appends (h : Deed c c') : c.events <+: c'.events := by
  have hsent (what : Sent) : c.events <+: (c.removeMarker.transmit what).1.events :=
    (c.removeMarker_beside.trans (transmit_beside _ what)).appends
  cases h with
  | framed h =>
    cases h with
    | aside h => exact h.beside.appends
    | locate => exact List.prefix_rfl
    | navigate => exact List.prefix_append _ _
    | prompt _ h =>
      exact (c.stopped_beside.trans h.beside).appends.trans (List.prefix_append _ _)
  | display => exact List.prefix_append _ _
  | resume | resumeFailed => exact hsent _
  | finish => exact c.removeMarker_beside.appends.trans (List.prefix_append _ _)
  | start _ mode => cases mode <;> exact List.prefix_rfl
  | listen | refuse => exact List.prefix_rfl

theorem Deeds.appends (h : Deeds c c') : c.events <+: c'.events := by
  induction h with
  | refl => exact List.prefix_rfl
  | tail _ h ih => exact ih.trans h.appends

/-- Events are queued behind those that wait; only the host takes them away. -/
theorem after_appends (c : Controller τ) {x : Happening τ} (hx : x ≠ .call .takeEvents) :
    c.events <+: (c.after x).events := by
  cases x with
  | call a => exact (c.call_deeds fun he => hx (he ▸ rfl)).appends
  | edit | meanwhile => exact List.prefix_rfl

/-- The events that are queued with a happening: those that stand behind the ones that waited. -/
def queuedBy (c : Controller τ) (x : Happening τ) : List Event :=
  match x with
  | .call .takeEvents => []
  | _ => (c.after x).events.drop c.events.length

/-- The events that are queued in a run. -/
def queued (c : Controller τ) : List (Happening τ) → List Event
  | [] => []
  | x :: hs => c.queuedBy x ++ (c.after x).queued hs

/-- What waits and what is queued with a happening is taken with it or waits after it. -/
theorem events_queuedBy (c : Controller τ) (x : Happening τ) :
    c.events ++ c.queuedBy x = c.taken x ++ (c.after x).events := by
  by_cases hx : x = .call .takeEvents
  · subst hx
    rfl
  · have hq : c.queuedBy x = (c.after x).events.drop c.events.length := by
      unfold queuedBy
      split
      · exact absurd rfl hx
      · rfl
    rw [c.taken_of_ne hx, hq, List.nil_append]
    exact List.prefix_iff_eq_append.mp (c.after_appends hx)

/-- What is queued in a run is taken in it or waits at its end. -/
theorem events_queued (c : Controller τ) (hs : List (Happening τ)) :
    c.events ++ c.queued hs = c.handed hs ++ (c.run hs).events := by
  induction hs generalizing c with
  | nil => simp [queued, handed, run]
  | cons x hs ih =>
    calc c.events ++ c.queued (x :: hs)
        = (c.events ++ c.queuedBy x) ++ (c.after x).queued hs := (List.append_assoc _ _ _).symm
      _ = c.taken x ++ ((c.after x).events ++ (c.after x).queued hs) := by
        rw [events_queuedBy, List.append_assoc]
      _ = c.handed (x :: hs) ++ (c.run (x :: hs)).events := by
        rw [ih, handed, List.append_assoc]
        rfl

end Controller

end Debugline
