import Debugline.Transport.Outbox
import Mathlib.Data.List.Basic

/-! Input is delivered in order. Whatever a pipe does, the bytes that it has taken and those that
still wait are the bytes that were written, until nobody reads it any more; from then on it is left
alone. -/

namespace Debugline

/-- What a pipe was offered, and what it did. -/
structure Offer where
  bytes : List UInt8
  answer : Attempt

/-- The bytes that the pipe took. -/
def Offer.taken (o : Offer) : List UInt8 :=
  match o.answer with
  | .accepted count => o.bytes.take count
  | .full | .interrupted | .broken | .failed _ => []

/-- The last of the offers is the first that found the pipe broken. -/
def Offer.Break (offers : List Offer) : Prop :=
  ∃ before o, offers = before ++ [o] ∧ o.answer = .broken ∧ ∀ q ∈ before, q.answer ≠ .broken

namespace Offer.Break

variable {offers before after : List Offer} {o : Offer}

theorem cons (h : Break offers) (ho : o.answer ≠ .broken) : Break (o :: offers) := by
  obtain ⟨before, last, rfl, hlast, hbefore⟩ := h
  exact ⟨o :: before, last, rfl, hlast, List.forall_mem_cons.mpr ⟨ho, hbefore⟩⟩

theorem append (h : Break offers) (hbefore : ∀ q ∈ before, q.answer ≠ .broken) :
    Break (before ++ offers) := by
  induction before with
  | nil => exact h
  | cons q before ih =>
    obtain ⟨hq, hbefore⟩ := List.forall_mem_cons.mp hbefore
    exact (ih hbefore).cons hq

end Offer.Break

/-- Whether the pipe takes no more for now. -/
def Attempt.refuses : Attempt → Bool
  | .accepted 0 | .full | .failed _ => true
  | .accepted (_ + 1) | .interrupted | .broken => false

variable {σ : Type}

/-- A pipe that keeps a record of what it was offered. -/
def Pipe.recorded (p : Pipe σ) : Pipe (σ × List Offer) where
  offer s bytes :=
    let (t, answer) := p.offer s.1 bytes
    ((t, s.2 ++ [⟨bytes, answer⟩]), answer)
  patience s := p.patience s.1
  wears h := by
    obtain ⟨rfl, ha⟩ := Prod.mk.inj h
    exact p.wears (Prod.ext rfl ha)

theorem Pipe.record_of_offer {p : Pipe σ} {s t : σ × List Offer} {bytes : List UInt8}
    {answer : Attempt} (h : p.recorded.offer s bytes = (t, answer)) :
    t.2 = s.2 ++ [⟨bytes, answer⟩] := by
  obtain ⟨rfl, rfl⟩ := Prod.mk.inj h
  rfl

theorem Pipe.offer_of_recorded {p : Pipe σ} {s t : σ × List Offer} {bytes : List UInt8}
    {answer : Attempt} (h : p.recorded.offer s bytes = (t, answer)) :
    p.offer s.1 bytes = (t.1, answer) := by
  obtain ⟨rfl, rfl⟩ := Prod.mk.inj h
  rfl

namespace Outbox

/-- What is offered until the pipe takes no more, and what then waits. -/
inductive Round : Outbox → List Offer → Outbox → Prop
  | done {b} (empty : b.waiting = []) : Round b [] b
  | refused {b answer} (refuses : answer.refuses) : Round b [⟨b.waiting, answer⟩] b
  | accepted {b b' offers} (count : Nat)
      (h : Round { b with waiting := b.waiting.drop count } offers b') :
      Round b (⟨b.waiting, .accepted count⟩ :: offers) b'
  | interrupted {b b' offers} (h : Round b offers b') :
      Round b (⟨b.waiting, .interrupted⟩ :: offers) b'
  | broken {b} : Round b [⟨b.waiting, .broken⟩] ⟨[], false⟩

theorem offerAll_round (p : Pipe σ) (b : Outbox) (s : σ × List Offer) :
    ∃ offers, (b.offerAll p.recorded s).1.2.2 = s.2 ++ offers ∧
      Round b offers (b.offerAll p.recorded s).1.1 := by
  fun_induction offerAll p.recorded b s with
  | case1 b s empty => exact ⟨[], (List.append_nil _).symm, .done empty⟩
  | case2 b s _ t ho => exact ⟨_, Pipe.record_of_offer ho, .refused rfl⟩
  | case3 b s _ t ho => exact ⟨_, Pipe.record_of_offer ho, .refused rfl⟩
  | case4 b s _ t n ho ih =>
    obtain ⟨offers, hlog, hround⟩ := ih
    refine ⟨_ :: offers, ?_, .accepted (n + 1) hround⟩
    rw [hlog, Pipe.record_of_offer ho, List.append_assoc, List.singleton_append]
  | case5 b s _ t ho ih =>
    obtain ⟨offers, hlog, hround⟩ := ih
    refine ⟨_ :: offers, ?_, .interrupted hround⟩
    rw [hlog, Pipe.record_of_offer ho, List.append_assoc, List.singleton_append]
  | case6 b s _ t ho => exact ⟨_, Pipe.record_of_offer ho, .broken⟩
  | case7 b s _ t cause ho => exact ⟨_, Pipe.record_of_offer ho, .refused rfl⟩

namespace Round

variable {b b' : Outbox} {offers : List Offer}

/-- Unless the pipe breaks, what it takes and what still waits is what waited. -/
theorem conserves (h : Round b offers b') (whole : ∀ o ∈ offers, o.answer ≠ .broken) :
    b'.isOpen = b.isOpen ∧ offers.flatMap Offer.taken ++ b'.waiting = b.waiting := by
  induction h with
  | done empty => exact ⟨rfl, rfl⟩
  | @refused b answer refuses =>
    have htaken : Offer.taken ⟨b.waiting, answer⟩ = [] := by
      match answer with
      | .accepted 0 | .full | .failed _ => rfl
      | .accepted (_ + 1) | .interrupted | .broken => cases refuses
    exact ⟨rfl, by simp [htaken]⟩
  | accepted count h ih =>
    obtain ⟨hopen, hbytes⟩ := ih fun o ho => whole o (List.mem_cons_of_mem _ ho)
    refine ⟨hopen, ?_⟩
    rw [List.flatMap_cons, List.append_assoc, hbytes]
    exact List.take_append_drop count _
  | interrupted h ih => exact ih fun o ho => whole o (List.mem_cons_of_mem _ ho)
  | broken => exact absurd rfl (whole _ List.mem_cons_self)

/-- A broken pipe drops what waits, and is offered no more. -/
theorem of_broken (h : Round b offers b') (broken : ∃ o ∈ offers, o.answer = .broken) :
    b' = ⟨[], false⟩ ∧ Offer.Break offers := by
  induction h with
  | done =>
    obtain ⟨_, ho, -⟩ := broken
    cases ho
  | @refused b answer refuses =>
    obtain ⟨o, ho, hbroken⟩ := broken
    obtain rfl := List.mem_singleton.mp ho
    obtain rfl : answer = .broken := hbroken
    cases refuses
  | accepted count h ih | interrupted h ih =>
    obtain ⟨o, ho, hbroken⟩ := broken
    rcases List.mem_cons.mp ho with rfl | ho
    · cases hbroken
    · obtain ⟨hend, hbreak⟩ := ih ⟨o, ho, hbroken⟩
      exact ⟨hend, hbreak.cons nofun⟩
  | broken => exact ⟨rfl, [], _, rfl, rfl, nofun⟩

theorem ends (h : Round b offers b') :
    b'.waiting = [] ∨
      ∃ o, offers.getLast? = some o ∧ o.bytes = b'.waiting ∧ o.answer.refuses := by
  induction h with
  | done empty => exact .inl empty
  | refused refuses => exact .inr ⟨_, rfl, rfl, refuses⟩
  | accepted count h ih | interrupted h ih =>
    refine ih.imp_right ?_
    rintro ⟨o, hlast, ho⟩
    exact ⟨o, by rw [List.getLast?_cons, hlast, Option.getD_some], ho⟩
  | broken => exact .inl rfl

end Round

/-- The record is all that a recorded pipe adds. -/
theorem offerAll_recorded (p : Pipe σ) (b : Outbox) (s : σ × List Offer) :
    b.offerAll p s.1 = (b.offerAll p.recorded s).map (fun (b, t) => (b, t.1)) id := by
  fun_induction offerAll p.recorded b s with
  | case1 b s empty => rw [offerAll, dif_pos empty]; rfl
  | case2 b s hw t ho | case3 b s hw t ho | case6 b s hw t ho | case7 b s hw t cause ho =>
    have hplain := Pipe.offer_of_recorded ho
    rw [offerAll, dif_neg hw]
    split <;> simp_all
  | case4 b s hw t n ho ih | case5 b s hw t ho ih =>
    have hplain := Pipe.offer_of_recorded ho
    rw [offerAll, dif_neg hw]
    split <;> simp_all

theorem flush_open {p : Pipe σ} {b : Outbox} (h : b.isOpen = true) (s : σ) :
    b.flush p s = b.offerAll p s := by
  rw [flush, if_pos h]

theorem write_open {p : Pipe σ} {b : Outbox} (h : b.isOpen = true) (s : σ) (bytes : List UInt8) :
    b.write p s bytes = { b with waiting := b.waiting ++ bytes }.offerAll p s := by
  have hopen : ({ b with waiting := b.waiting ++ bytes } : Outbox).isOpen = true := h
  rw [write, if_pos h, flush_open hopen]

end Outbox

/-! ### Uses of an outbox -/

/-- Input on its way, and all that the pipe was offered. -/
structure Sending (σ : Type) where
  outbox : Outbox
  pipe : σ
  record : List Offer

namespace Sending

inductive Use (σ : Type)
  | write (bytes : List UInt8)
  /-- What the program has written is read, and what waits is sent. -/
  | read
  /-- The pipe changes by itself. -/
  | meanwhile (f : σ → σ)

def Use.written : Use σ → List UInt8
  | .write bytes => bytes
  | .read | .meanwhile _ => []

def new (s : σ) : Sending σ := ⟨.new, s, []⟩

/-- What is left by an outbox with a recorded pipe. -/
def left (r : (Outbox × σ × List Offer) × Except Failure Unit) : Sending σ :=
  ⟨r.1.1, r.1.2.1, r.1.2.2⟩

def after (p : Pipe σ) (x : Sending σ) : Use σ → Sending σ
  | .write bytes => left (x.outbox.write p.recorded (x.pipe, x.record) bytes)
  | .read => left (x.outbox.flush p.recorded (x.pipe, x.record))
  | .meanwhile f => { x with pipe := f x.pipe }

def run (p : Pipe σ) (x : Sending σ) (uses : List (Use σ)) : Sending σ := uses.foldl (after p) x

/-- How a write ends. -/
def report (p : Pipe σ) (x : Sending σ) (bytes : List UInt8) : Except Failure Unit :=
  (x.outbox.write p x.pipe bytes).2

/-- The pipe is read, and `bytes` is what was written. -/
structure Delivers (x : Sending σ) (bytes : List UInt8) : Prop where
  isOpen : x.outbox.isOpen = true
  whole : ∀ o ∈ x.record, o.answer ≠ .broken
  inOrder : x.record.flatMap Offer.taken ++ x.outbox.waiting = bytes

/-- Nobody reads the pipe any more. -/
structure Ended (x : Sending σ) : Prop where
  outbox : x.outbox = ⟨[], false⟩
  broken : Offer.Break x.record

variable {p : Pipe σ} {x : Sending σ} {bytes : List UInt8}

/-- The outbox and the pipe go on as they do without a record. -/
theorem after_write (p : Pipe σ) (x : Sending σ) (bytes : List UInt8) :
    ((x.after p (.write bytes)).outbox, (x.after p (.write bytes)).pipe) =
      (x.outbox.write p x.pipe bytes).1 := by
  cases h : x.outbox.isOpen with
  | true =>
    rw [Outbox.write_open h, Outbox.offerAll_recorded p _ (x.pipe, x.record), after,
      Outbox.write_open h]
    rfl
  | false => simp only [after, Outbox.write, h, Bool.false_eq_true, if_false, left]

theorem after_read (p : Pipe σ) (x : Sending σ) :
    ((x.after p .read).outbox, (x.after p .read).pipe) = (x.outbox.flush p x.pipe).1 := by
  cases h : x.outbox.isOpen with
  | true =>
    rw [Outbox.flush_open h, Outbox.offerAll_recorded p _ (x.pipe, x.record), after,
      Outbox.flush_open h]
    rfl
  | false => simp only [after, Outbox.flush, h, Bool.false_eq_true, if_false, left]

/-- A use of a pipe that is there is one round of offers. -/
theorem round_after (h : x.outbox.isOpen = true) {u : Use σ} (hu : ∀ f, u ≠ .meanwhile f) :
    ∃ offers, (x.after p u).record = x.record ++ offers ∧
      Outbox.Round { x.outbox with waiting := x.outbox.waiting ++ u.written } offers
        (x.after p u).outbox := by
  cases u with
  | write bytes =>
    have hafter := congrArg left (Outbox.write_open h (p := p.recorded) (x.pipe, x.record) bytes)
    rw [after, hafter]
    exact Outbox.offerAll_round p _ (x.pipe, x.record)
  | read =>
    have hafter := congrArg left (Outbox.flush_open h (p := p.recorded) (x.pipe, x.record))
    rw [after, hafter, Use.written, List.append_nil]
    exact Outbox.offerAll_round p x.outbox (x.pipe, x.record)
  | meanwhile f => exact absurd rfl (hu f)

theorem Delivers.after (h : x.Delivers bytes) (u : Use σ) :
    (x.after p u).Delivers (bytes ++ u.written) ∨ (x.after p u).Ended := by
  by_cases hu : ∃ f, u = .meanwhile f
  · obtain ⟨f, rfl⟩ := hu
    exact .inl ⟨h.isOpen, h.whole, by rw [Use.written, List.append_nil]; exact h.inOrder⟩
  · obtain ⟨offers, hrecord, hround⟩ := round_after (p := p) h.isOpen fun f hf => hu ⟨f, hf⟩
    by_cases hbroken : ∃ o ∈ offers, o.answer = .broken
    · obtain ⟨houtbox, hbreak⟩ := hround.of_broken hbroken
      exact .inr ⟨houtbox, by rw [hrecord]; exact hbreak.append h.whole⟩
    · have hwhole : ∀ o ∈ offers, o.answer ≠ .broken := fun o ho ha => hbroken ⟨o, ho, ha⟩
      obtain ⟨hopen, hbytes⟩ := hround.conserves hwhole
      refine .inl ⟨hopen.trans h.isOpen, fun o ho => ?_, ?_⟩
      · rw [hrecord, List.mem_append] at ho
        exact ho.elim (h.whole o) (hwhole o)
      · rw [hrecord, List.flatMap_append, List.append_assoc, hbytes, ← List.append_assoc, h.inOrder]

theorem Ended.of_eq {y : Sending σ} (h : x.Ended) (houtbox : y.outbox = x.outbox)
    (hrecord : y.record = x.record) : y.Ended :=
  ⟨houtbox.trans h.outbox, by rw [hrecord]; exact h.broken⟩

/-- A pipe that nobody reads is left alone. -/
theorem Ended.after (h : x.Ended) (u : Use σ) :
    (x.after p u).outbox = x.outbox ∧ (x.after p u).record = x.record := by
  obtain ⟨outbox, pipe, record⟩ := x
  obtain rfl : outbox = ⟨[], false⟩ := h.outbox
  cases u <;> exact ⟨rfl, rfl⟩

theorem Ended.run (h : x.Ended) (uses : List (Use σ)) :
    (x.run p uses).outbox = x.outbox ∧ (x.run p uses).record = x.record := by
  induction uses generalizing x with
  | nil => exact ⟨rfl, rfl⟩
  | cons u uses ih =>
    obtain ⟨houtbox, hrecord⟩ := h.after (p := p) u
    obtain ⟨houtbox', hrecord'⟩ := ih (h.of_eq houtbox hrecord)
    exact ⟨houtbox'.trans houtbox, hrecord'.trans hrecord⟩

theorem Delivers.run (h : x.Delivers bytes) (uses : List (Use σ)) :
    (x.run p uses).Delivers (bytes ++ uses.flatMap Use.written) ∨ (x.run p uses).Ended := by
  induction uses generalizing x bytes with
  | nil => exact .inl (by rw [List.flatMap_nil, List.append_nil]; exact h)
  | cons u uses ih =>
    rcases h.after (p := p) u with hdelivers | hended
    · rw [List.flatMap_cons, ← List.append_assoc]
      exact ih hdelivers
    · obtain ⟨houtbox, hrecord⟩ := hended.run (p := p) uses
      exact .inr (hended.of_eq houtbox hrecord)

theorem Ended.report (h : x.Ended) (bytes : List UInt8) :
    x.report p bytes = .error .inputClosed := by
  rw [Sending.report, h.outbox]
  rfl

/-- A pipe that answers as it is laid down. -/
def scripted : Pipe (List Attempt) where
  offer script _ :=
    match script with
    | [] => ([], .full)
    | answer :: script => (script, answer)
  patience script _ := script.length
  wears {script _ _} h := by
    cases script with
    | nil => cases h
    | cons answer script =>
      cases h
      exact Nat.lt_succ_self _

end Sending

end Debugline
