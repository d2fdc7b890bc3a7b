import Debugline.Proofs.Session.Deeds
import Debugline.Proofs.Session.Lifecycle

/-! What goes on beside the polls. Between two polls the program goes on and the host does as it
likes; no output is scanned by it, the session stays where it is, and no text, no position and no
end is reported. -/

namespace Debugline

open Session Wire

/-- Happenings that neither begin nor end a session, read no output and take no events. -/
def Session.Happening.isBeside {τ : Type} : Happening τ → Bool
  | .call (.launch _ _) | .call .poll | .call .abort | .call .takeEvents => false
  | _ => true

namespace Controller

variable {τ : Type} {c c' : Controller τ}

/-- The scanner and the position of the session. -/
def stand? (c : Controller τ) : Option (Scanner × String × Nat) :=
  c.bare.map fun s => (s.scanner, s.file, s.line)

/-- Nothing is scanned, the session stays where it is, and what is reported is reported aside. -/
structure Beside (c c' : Controller τ) : Prop where
  stand : c'.stand? = c.stand?
  events : ∃ new, c'.events = c.events ++ new ∧ ∀ e ∈ new, e.isAside

namespace Beside

theorem of_eq (stand : c'.stand? = c.stand?) (events : c'.events = c.events) : Beside c c' :=
  ⟨stand, [], by rw [events, List.append_nil], nofun⟩

theorem refl (c : Controller τ) : Beside c c := of_eq rfl rfl

theorem trans {c'' : Controller τ} (h : Beside c c') (h' : Beside c' c'') : Beside c c'' := by
  obtain ⟨new, he, hn⟩ := h.events
  obtain ⟨new', he', hn'⟩ := h'.events
  refine ⟨h'.stand.trans h.stand, new ++ new', by rw [he', he, List.append_assoc], ?_⟩
  exact List.forall_mem_append.mpr ⟨hn, hn'⟩

end Beside

theorem push_beside (c : Controller τ) {e : Event} (h : e.isAside) : Beside c (c.push e) :=
  ⟨rfl, [e], rfl, by simpa using h⟩

theorem withTransport_beside {α : Type} (c : Controller τ) (absent : α) (f : τ → τ × α) :
    Beside c (c.withTransport absent f).1 :=
  .of_eq (by rw [stand?, bare_withTransport]; rfl) (c.withTransport_events absent f)

theorem removeMarker_beside (c : Controller τ) : Beside c c.removeMarker := by
  rw [removeMarker_eq]
  refine .of_eq ?_ rfl
  cases hs : c.session <;> simp [stand?, bare, hs, Session.bare]

theorem stopped_beside (c : Controller τ) : Beside c c.stopped := by
  refine .of_eq ?_ ?_
  · rw [stand?, bare_stopped, Option.map_map]
    rfl
  · cases hs : c.session with
    | none => simp [stopped, placeMarker, removeMarker, note, hs]
    | some s => rw [stopped_eq hs]

theorem meanwhile_beside (c : Controller τ) (f : τ → τ) : Beside c (c.meanwhile f) :=
  .of_eq (by rw [stand?, bare_meanwhile]; rfl) rfl

theorem launch_beside {mode : Mode} {spawn : Unit → Except Failure τ}
    (refused : (c.launch mode spawn).2 ≠ .ok ()) : Beside c (c.launch mode spawn).1 := by
  by_cases live : c.hasSession
  · rw [launch_live live]
    exact .refl c
  · cases hs : spawn () with
    | ok transport => exact absurd (by simp [launch, live, hs]) refused
    | error cause =>
      have hl : (c.launch mode spawn).1 = { c with state := .notRunning }.push
          (.status (Refusal.spawnFailed cause).message) := by
        simp [launch, live, hs]
      have hc : Beside c { c with state := .notRunning } := .of_eq rfl rfl
      rw [hl]
      exact hc.trans (push_beside _ rfl)

variable [Transport τ]

theorem transmit_beside (c : Controller τ) (what : Sent) : Beside c (c.transmit what).1 :=
  .of_eq (by rw [stand?, bare_transmit]; rfl) (c.transmit_events what)

theorem readStreams_beside (c : Controller τ) : Beside c c.readStreams.1 :=
  (c.withTransport_beside (.ok []) Transport.readOutput).trans
    (withTransport_beside _ (.ok []) Transport.readErrors)

theorem Aside.beside (h : Aside c c') : Beside c c' := by
  cases h with
  | report e h => exact c.push_beside h
  | send what _ => exact c.transmit_beside what
  | note | plan | edit | ask | account => exact .of_eq rfl rfl

theorem Asides.beside (h : Asides c c') : Beside c c' := by
  induction h with
  | refl => exact .refl c
  | tail _ h ih => exact ih.trans h.beside

theorem step_beside (c : Controller τ) (command : Command) : Beside c (c.step command).1 := by
  have hsent := c.removeMarker_beside.trans (transmit_beside _ (.command command))
  unfold step
  split
  · exact .refl c
  · split
    · next h =>
      rw [h] at hsent
      exact hsent
    · next h =>
      rw [h] at hsent
      exact hsent.trans (.of_eq rfl rfl)

theorem call_beside (c : Controller τ) {a : Call τ} (h : (Happening.call a).isBeside) :
    Beside c (c.call a) := by
  by_cases ha : a.isAside
  · exact (call_asides c ha).beside
  cases a with
  | launch | poll | abort | takeEvents => cases h
  | goOn | stepInto | stepOver | stepOut | runToLine line | runToCursor doc position =>
    exact step_beside c _
  | _ => exact absurd rfl ha

theorem after_beside (c : Controller τ) {x : Happening τ} (h : x.isBeside) :
    Beside c (c.after x) := by
  cases x with
  | call a => exact c.call_beside h
  | edit change => exact .of_eq rfl rfl
  | meanwhile f => exact c.meanwhile_beside f

end Controller

end Debugline
