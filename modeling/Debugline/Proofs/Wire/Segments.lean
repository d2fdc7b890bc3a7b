import Debugline.Proofs.Wire.Chunks
import Mathlib.Data.List.Induction
import Mathlib.Data.List.Infix

/-! The segments of a stream. Whatever a scanner is given, it deals with it in pieces: an
escape that is broken off, a body that grows too long, and a frame. Such pieces end nowhere
before their last byte, so a stream is cut into them in one way only; text and frames are
those of the pieces in order, and what is left at the end is held. -/

namespace Debugline.Wire

open Text

variable (config : Config)

/-- A body that none of its bytes ends: it has no line feed, and no beginning of it is the
prompt. One that is too long is not compared with the prompt. -/
structure Unended (body : List UInt8) : Prop where
  line : lineFeed ∉ body
  prompt : ∀ start, start <+: body → start ≠ [] → start.length ≤ maxFrame →
    start ≠ encode config.prompt

/-- A piece of a stream with which the scanner is done. -/
inductive Segment
  /-- The first bytes of an escape, and a byte that is not its next one. -/
  | broken (held : Fin 3) (b : UInt8)
  /-- An escape and a body that is too long. -/
  | oversized (body : List UInt8)
  /-- An escape, a body and a line feed. -/
  | line (body : List UInt8)
  /-- An escape and the prompt. -/
  | prompt
  deriving DecidableEq

namespace Segment

def bytes : Segment → List UInt8
  | .broken held b => config.escape.toList.take held ++ [b]
  | .oversized body => config.escape.toList ++ body
  | .line body => config.escape.toList ++ body ++ [lineFeed]
  | .prompt => config.escape.toList ++ encode config.prompt

def Fits : Segment → Prop
  | .broken held b => b ≠ config.escape.get held
  | .oversized body => body.length = maxFrame + 1 ∧ Unended config body
  | .line body => body.length ≤ maxFrame ∧ Unended config body
  | .prompt => encode config.prompt ≠ [] ∧ (encode config.prompt).length ≤ maxFrame ∧
      lineFeed ∉ encode config.prompt

def isText : Segment → Bool
  | .broken _ _ | .oversized _ => true
  | .line _ | .prompt => false

/-- The body of a frame. -/
def body? : Segment → Option (List UInt8)
  | .broken _ _ | .oversized _ => none
  | .line body => some body
  | .prompt => some (encode config.prompt)

/-- What a segment does to the text of a terminal, newest byte first. The bytes of an escape
stand as they are, even a backspace. -/
def type (text : List UInt8) : Segment → List UInt8
  | .broken held b => typed ((config.escape.toList.take held).reverse ++ text) b
  | .oversized body => body.foldl typed (config.escape.toList.reverse ++ text)
  | .line _ | .prompt => text

/-- The text of segments that end in one chunk. -/
def shown (segments : List Segment) : List UInt8 := (segments.foldl (type config) []).reverse

end Segment

/-- A stream cut into segments, the last of which has only begun. -/
structure Cut where
  segments : List Segment
  rest : List UInt8
  fits : ∀ σ ∈ segments, σ.Fits config
  begun : ∃ σ : Segment, σ.Fits config ∧ rest <+: σ.bytes config ∧ rest ≠ σ.bytes config

variable {config}

def Cut.bytes (c : Cut config) : List UInt8 := c.segments.flatMap (Segment.bytes config) ++ c.rest

theorem Cut.eq_of {c c' : Cut config} (hs : c.segments = c'.segments) (hr : c.rest = c'.rest) :
    c = c' := by
  cases c
  cases c'
  simp_all

/-! ### Bodies -/

namespace Unended

variable {body start : List UInt8} {b : UInt8}

theorem nil : Unended config [] :=
  ⟨by simp, fun start hs hne => absurd (List.prefix_nil.mp hs) hne⟩

theorem of_prefix (h : Unended config body) (hs : start <+: body) : Unended config start :=
  ⟨fun hm => h.line (hs.subset hm), fun s hp => h.prompt s (hp.trans hs)⟩

theorem concat (h : Unended config body) (hb : b ≠ lineFeed)
    (hp : body.length + 1 ≤ maxFrame → body ++ [b] ≠ encode config.prompt) :
    Unended config (body ++ [b]) := by
  refine ⟨?_, fun start hs hne hl => ?_⟩
  · simpa [h.line] using hb.symm
  · rcases List.prefix_concat_iff.mp hs with rfl | hs
    · exact hp (by simpa using hl)
    · exact h.prompt start hs hne hl

theorem ne_prompt (h : Unended config body) (hne : body ≠ []) (hl : body.length ≤ maxFrame) :
    body ≠ encode config.prompt :=
  h.prompt body List.prefix_rfl hne hl

end Unended

/-! ### One byte -/

/-- The bytes seen of an escape are fewer than three. -/
instance neZeroThree : @NeZero Nat Zero.ofOfNat0 3 := ⟨by decide⟩

namespace Phase

variable (config)

/-- The bytes that wait in a phase. -/
def pending : Phase → List UInt8
  | .text held => config.escape.toList.take held
  | .frame body => config.escape.toList ++ body.toList

/-- The phase after a byte, and the segment that ends with the byte. -/
def advance : Phase → UInt8 → Phase × Option Segment
  | .text held, b =>
    if b = config.escape.get held then
      if more : held.val + 1 < 3 then (.text ⟨held.val + 1, more⟩, none) else (.frame #[], none)
    else (.text 0, some (.broken held b))
  | .frame body, b =>
    if b = lineFeed then (.text 0, some (.line body.toList))
    else if maxFrame < body.size + 1 then (.text 0, some (.oversized (body.toList ++ [b])))
    else if body.push b = (encode config.prompt).toArray then (.text 0, some .prompt)
    else (.frame (body.push b), none)

/-- What holds of a body before its end. -/
def Open : Phase → Prop
  | .text _ => True
  | .frame body => body.size ≤ maxFrame ∧ Unended config body.toList

variable {config}

theorem open_text (held : Fin 3) : (Phase.text held).Open config := trivial

variable (config) in
theorem take_escape_succ (held : Fin 3) :
    config.escape.toList.take (held.val + 1) =
      config.escape.toList.take held ++ [config.escape.get held] := by
  have hget : config.escape.toList[held.val]? = some (config.escape.get held) := by
    simp [Vector.get]
  rw [List.take_add_one, hget]
  rfl

theorem take_escape_three : config.escape.toList.take 3 = config.escape.toList :=
  List.take_of_length_le (by simp)

variable (config) in
/-- No byte gets lost: what waited and the byte are a segment or wait. -/
theorem pending_advance (φ : Phase) (b : UInt8) :
    φ.pending config ++ [b] = (φ.advance config b).2.toList.flatMap (Segment.bytes config) ++
      (φ.advance config b).1.pending config := by
  cases φ with
  | text held =>
    have hnext := take_escape_succ config held
    simp only [advance]
    split_ifs with hb more
    · simp [pending, hb, hnext]
    · have hall : held.val + 1 = 3 := by omega
      rw [hall, take_escape_three] at hnext
      simpa [pending, hb] using hnext.symm
    · simp [pending, Segment.bytes]
  | frame body =>
    simp only [advance]
    split_ifs with hb hl hp
    · simp [pending, Segment.bytes, hb]
    · simp [pending, Segment.bytes]
    · have hbytes : body.toList ++ [b] = encode config.prompt := by
        rw [← Array.toList_push, hp]
      simp [pending, Segment.bytes, hbytes]
    · simp [pending]

theorem advance_open {φ : Phase} (h : φ.Open config) (b : UInt8) :
    (φ.advance config b).1.Open config := by
  cases φ with
  | text held =>
    simp only [advance]
    split_ifs
    · trivial
    · exact ⟨by simp, .nil⟩
    · trivial
  | frame body =>
    simp only [advance]
    split_ifs with hb hl hp
    · trivial
    · trivial
    · trivial
    · refine ⟨by simpa using Nat.le_of_not_lt hl, ?_⟩
      rw [Array.toList_push]
      refine h.2.concat hb fun _ he => hp ?_
      rw [← he, ← Array.toList_push]

theorem advance_fits {φ : Phase} (h : φ.Open config) {b : UInt8} {σ : Segment}
    (hσ : (φ.advance config b).2 = some σ) : σ.Fits config := by
  cases φ with
  | text held =>
    simp only [advance] at hσ
    split_ifs at hσ with hb more
    obtain rfl := Option.some.inj hσ
    exact hb
  | frame body =>
    have hsize : body.toList.length = body.size := rfl
    simp only [advance] at hσ
    split_ifs at hσ with hb hl hp
    · obtain rfl := Option.some.inj hσ
      exact h
    · obtain rfl := Option.some.inj hσ
      have hlength : body.size = maxFrame := by have := h.1; omega
      refine ⟨by simp [hlength], h.2.concat hb fun hle => ?_⟩
      omega
    · obtain rfl := Option.some.inj hσ
      have hbytes : encode config.prompt = body.toList ++ [b] := by
        rw [← Array.toList_push, hp]
      refine ⟨by simp [hbytes], by rw [hbytes]; simp; omega, ?_⟩
      rw [hbytes]
      simpa [h.2.line] using Ne.symm hb

/-- What waits is the beginning of a segment. -/
theorem pending_begun {φ : Phase} (h : φ.Open config) :
    ∃ σ : Segment, σ.Fits config ∧ φ.pending config <+: σ.bytes config ∧
      φ.pending config ≠ σ.bytes config := by
  cases φ with
  | text held =>
    have hother : config.escape.get held + 1 ≠ config.escape.get held := by simp
    exact ⟨.broken held _, hother, List.prefix_append _ _, by simp [pending, Segment.bytes]⟩
  | frame body =>
    exact ⟨.line body.toList, h, List.prefix_append _ _, by simp [pending, Segment.bytes]⟩

/-! ### A stream -/

variable (config)

def after (φ : Phase) (stream : List UInt8) : Phase :=
  stream.foldl (fun φ b => (φ.advance config b).1) φ

/-- The segments that end in a stream. -/
def segments : Phase → List UInt8 → List Segment
  | _, [] => []
  | φ, b :: stream =>
    (φ.advance config b).2.toList ++ segments (φ.advance config b).1 stream

variable {config}

theorem after_append (φ : Phase) (s t : List UInt8) :
    φ.after config (s ++ t) = (φ.after config s).after config t := List.foldl_append

theorem segments_append (φ : Phase) (s t : List UInt8) :
    φ.segments config (s ++ t) = φ.segments config s ++ (φ.after config s).segments config t := by
  induction s generalizing φ with
  | nil => rfl
  | cons b s ih => simp [segments, ih, after]

variable (config) in
theorem pending_append (φ : Phase) (stream : List UInt8) :
    φ.pending config ++ stream = (φ.segments config stream).flatMap (Segment.bytes config) ++
      (φ.after config stream).pending config := by
  induction stream generalizing φ with
  | nil => simp [segments, after]
  | cons b stream ih =>
    have hb := φ.pending_advance config b
    calc φ.pending config ++ b :: stream
        = (φ.pending config ++ [b]) ++ stream := by simp
      _ = (φ.advance config b).2.toList.flatMap (Segment.bytes config) ++
            ((φ.advance config b).1.pending config ++ stream) := by rw [hb, List.append_assoc]
      _ = _ := by rw [ih]; simp [segments, after]

theorem after_open {φ : Phase} (h : φ.Open config) (stream : List UInt8) :
    (φ.after config stream).Open config := by
  induction stream generalizing φ with
  | nil => exact h
  | cons b stream ih => exact ih (advance_open h b)

theorem segments_fit {φ : Phase} (h : φ.Open config) (stream : List UInt8) :
    ∀ σ ∈ φ.segments config stream, σ.Fits config := by
  induction stream generalizing φ with
  | nil => simp [segments]
  | cons b stream ih =>
    intro σ hσ
    rcases List.mem_append.mp hσ with hσ | hσ
    · exact advance_fits h (by simpa using hσ)
    · exact ih (advance_open h b) σ hσ

end Phase

/-- The cut that a scanner makes. -/
def Cut.ofStream (config : Config) (stream : List UInt8) : Cut config where
  segments := (Phase.text 0).segments config stream
  rest := ((Phase.text 0).after config stream).pending config
  fits := Phase.segments_fit (Phase.open_text 0) stream
  begun := Phase.pending_begun (Phase.after_open (Phase.open_text 0) stream)

theorem Cut.bytes_ofStream (config : Config) (stream : List UInt8) :
    (ofStream config stream).bytes = stream :=
  ((Phase.text 0).pending_append config stream).symm

/-! ### One cut only -/

namespace Phase

variable (config)

/-- From a phase, bytes lead to another one, and no segment ends in them. -/
def Silent (φ : Phase) (bytes : List UInt8) (φ' : Phase) : Prop :=
  φ.segments config bytes = [] ∧ φ.after config bytes = φ'

variable {config} {φ φ' φ'' : Phase}

theorem silent_byte {b : UInt8} (h : φ.advance config b = (φ', none)) :
    φ.Silent config [b] φ' := by
  simp [Silent, segments, after, h]

theorem Silent.append {s t : List UInt8} (h : φ.Silent config s φ') (h' : φ'.Silent config t φ'') :
    φ.Silent config (s ++ t) φ'' := by
  refine ⟨?_, ?_⟩
  · rw [segments_append, h.1, h.2, h'.1, List.append_nil]
  · rw [after_append, h.2, h'.2]

/-- No segment ends in the beginning of bytes in which none does. -/
theorem Silent.segments_prefix {s t : List UInt8} (h : φ.Silent config t φ') (hs : s <+: t) :
    φ.segments config s = [] := by
  obtain ⟨u, rfl⟩ := hs
  have hnil := h.1
  rw [segments_append] at hnil
  exact (List.append_eq_nil_iff.mp hnil).1

theorem silent_escape (n : Nat) (hn : n < 3) :
    (Phase.text 0).Silent config (config.escape.toList.take n) (.text ⟨n, hn⟩) := by
  induction n with
  | zero => exact ⟨rfl, rfl⟩
  | succ n ih =>
    have hnext := take_escape_succ config ⟨n, by omega⟩
    rw [hnext]
    exact (ih (by omega)).append (silent_byte (by simp [advance, hn]))

/-- A whole escape opens a body. -/
theorem silent_whole_escape :
    (Phase.text 0).Silent config config.escape.toList (.frame #[]) := by
  have hlast : config.escape.toList = config.escape.toList.take 2 ++ [config.escape.get 2] :=
    take_escape_three.symm.trans (take_escape_succ config 2)
  rw [hlast]
  exact (silent_escape 2 (by omega)).append (silent_byte (by simp [advance]))

/-- A body that is not ended goes on. -/
theorem silent_body {body : List UInt8} (h : Unended config body) (hl : body.length ≤ maxFrame) :
    (Phase.frame #[]).Silent config body (.frame body.toArray) := by
  induction body using List.reverseRecOn with
  | nil => exact ⟨rfl, rfl⟩
  | append_singleton body b ih =>
    have hlength : body.length + 1 ≤ maxFrame := by simpa using hl
    have hb : b ≠ lineFeed := fun he => h.line (by simp [he])
    have hp : body ++ [b] ≠ encode config.prompt := h.ne_prompt (by simp) hl
    have hbyte : (Phase.frame body.toArray).advance config b =
        (.frame (body ++ [b]).toArray, none) := by
      have hp' : body.toArray.push b ≠ (encode config.prompt).toArray := by
        simpa [List.push_toArray] using hp
      simp only [advance]
      rw [if_neg hb, if_neg (by simp; omega), if_neg hp', List.push_toArray]
    exact (ih (h.of_prefix (List.prefix_append _ _)) (by omega)).append (silent_byte hbyte)

end Phase

namespace Segment.Fits

variable {σ : Segment}

/-- A segment ends with its last byte and not before. -/
theorem ends (h : σ.Fits config) : ∃ start last φ, σ.bytes config = start ++ [last] ∧
    (Phase.text 0).Silent config start φ ∧ φ.advance config last = (.text 0, some σ) := by
  cases σ with
  | broken held b =>
    have hb : b ≠ config.escape.get held := h
    exact ⟨_, b, .text held, rfl, Phase.silent_escape held.val held.isLt,
      by simp [Phase.advance, hb]⟩
  | oversized body =>
    obtain ⟨hl, hu⟩ := h
    rcases List.eq_nil_or_concat body with rfl | ⟨start, last, rfl⟩
    · simp at hl
    · have hlength : start.length = maxFrame := by simpa using hl
      have hlast : last ≠ lineFeed := fun he => hu.line (by simp [he])
      have hstart : Unended config start := hu.of_prefix (by simp)
      refine ⟨config.escape.toList ++ start, last, .frame start.toArray, by simp [bytes],
        Phase.silent_whole_escape.append (Phase.silent_body hstart (by omega)), ?_⟩
      simp only [Phase.advance]
      rw [if_neg hlast, if_pos (by simp; omega)]
      simp
  | line body =>
    exact ⟨config.escape.toList ++ body, lineFeed, .frame body.toArray, rfl,
      Phase.silent_whole_escape.append (Phase.silent_body h.2 h.1), by simp [Phase.advance]⟩
  | prompt =>
    obtain ⟨hne, hl, hline⟩ := h
    rcases List.eq_nil_or_concat (encode config.prompt) with he | ⟨start, last, he⟩
    · exact absurd he hne
    · rw [he] at hl hline
      have hlength : start.length + 1 ≤ maxFrame := by simpa using hl
      have hlast : last ≠ lineFeed := fun he => hline (by simp [he])
      have hstart : Unended config start := by
        refine ⟨fun hm => hline (by simp [hm]), fun s hs _ _ hp => ?_⟩
        have hle := hs.length_le
        rw [hp, he, List.length_concat] at hle
        omega
      refine ⟨config.escape.toList ++ start, last, .frame start.toArray, by simp [bytes, he],
        Phase.silent_whole_escape.append (Phase.silent_body hstart (by omega)), ?_⟩
      simp only [Phase.advance]
      rw [if_neg hlast, if_neg (by simp; omega), if_pos (by simp [he])]

theorem segments_bytes (h : σ.Fits config) :
    (Phase.text 0).segments config (σ.bytes config) = [σ] ∧
      (Phase.text 0).after config (σ.bytes config) = .text 0 := by
  obtain ⟨start, last, φ, hb, hs, ha⟩ := h.ends
  rw [hb, Phase.segments_append, Phase.after_append, hs.1, hs.2]
  simp [Phase.segments, Phase.after, ha]

theorem segments_begun (h : σ.Fits config) {rest : List UInt8} (hp : rest <+: σ.bytes config)
    (hne : rest ≠ σ.bytes config) : (Phase.text 0).segments config rest = [] := by
  obtain ⟨start, last, φ, hb, hs, -⟩ := h.ends
  rw [hb] at hp hne
  rcases List.prefix_concat_iff.mp hp with he | hp
  · exact absurd he hne
  · exact hs.segments_prefix hp

end Segment.Fits

theorem Phase.segments_flatMap {segments : List Segment} (h : ∀ σ ∈ segments, σ.Fits config) :
    (Phase.text 0).segments config (segments.flatMap (Segment.bytes config)) = segments ∧
      (Phase.text 0).after config (segments.flatMap (Segment.bytes config)) = .text 0 := by
  induction segments with
  | nil => exact ⟨rfl, rfl⟩
  | cons σ segments ih =>
    have hσ := (h σ List.mem_cons_self).segments_bytes
    have hrest := ih fun σ' hm => h σ' (List.mem_cons_of_mem _ hm)
    rw [List.flatMap_cons, segments_append, after_append, hσ.1, hσ.2, hrest.1, hrest.2]
    exact ⟨rfl, rfl⟩

/-- Whatever cuts a stream is the cut that a scanner makes of it. -/
theorem Cut.eq_ofStream {c : Cut config} {stream : List UInt8} (h : c.bytes = stream) :
    c = ofStream config stream := by
  obtain ⟨σ, hσ, hp, hne⟩ := c.begun
  obtain ⟨hsegments, hafter⟩ := Phase.segments_flatMap c.fits
  have hrest := hσ.segments_begun hp hne
  have hpending : ((Phase.text 0).after config c.rest).pending config = c.rest := by
    have hall := (Phase.text 0).pending_append config c.rest
    rw [hrest] at hall
    simpa [Phase.pending] using hall.symm
  refine eq_of ?_ ?_
  · show c.segments = (Phase.text 0).segments config stream
    rw [← h, bytes, Phase.segments_append, hafter, hsegments, hrest, List.append_nil]
  · show c.rest = ((Phase.text 0).after config stream).pending config
    rw [← h, bytes, Phase.after_append, hafter, hpending]

/-! ### What the scanner gives -/

namespace Scanner

variable (config)

/-- An enabled scanner in a phase. -/
def inPhase (φ : Phase) : Scanner := { new config true with phase := φ }

variable {config}

theorem step_eq (p : Progress) (b : UInt8) :
    (new config true).step p b =
      let (φ, ended) := p.phase.advance config b
      ⟨φ, ended.elim p.text (Segment.type config p.text),
        (ended.bind (Segment.body? config)).toList.map List.toArray ++ p.frames⟩ := by
  obtain ⟨φ, text, frames⟩ := p
  cases φ with
  | text held =>
    have hstep : (new config true).step ⟨.text held, text, frames⟩ b =
        (new config true).stepText held ⟨.text held, text, frames⟩ b := if_pos rfl
    rw [hstep]
    simp only [stepText, new, Phase.advance]
    split_ifs <;> rfl
  | frame body =>
    have hstep : (new config true).step ⟨.frame body, text, frames⟩ b =
        (new config true).stepFrame body ⟨.frame body, text, frames⟩ b := if_pos rfl
    rw [hstep]
    simp only [stepFrame, new, Phase.advance, Array.size_push]
    split_ifs with hb hl hp
    · rfl
    · simp [Segment.type, Segment.body?]
    · simp [Segment.type, Segment.body?, hp]
    · simp [hp]

/-- A chunk gives what its segments give, one after the other. -/
theorem foldl_step_eq (p : Progress) (chunk : List UInt8) :
    chunk.foldl (new config true).step p =
      let ended := p.phase.segments config chunk
      ⟨p.phase.after config chunk, ended.foldl (Segment.type config) p.text,
        ((ended.filterMap (Segment.body? config)).map List.toArray).reverse ++ p.frames⟩ := by
  induction chunk generalizing p with
  | nil => rfl
  | cons b chunk ih =>
    rw [List.foldl_cons, ih, step_eq]
    cases hσ : (p.phase.advance config b).2 with
    | none => simp [Phase.after, Phase.segments, hσ]
    | some σ => cases hbody : σ.body? config <;> simp [Phase.after, Phase.segments, hσ, hbody]

theorem feed_inPhase (φ : Phase) (chunk : List UInt8) :
    (inPhase config φ).feed chunk = (inPhase config (φ.after config chunk),
      ⟨Segment.shown config (φ.segments config chunk),
        ((φ.segments config chunk).filterMap (Segment.body? config)).map decodeLossy⟩) := by
  have hscan : (inPhase config φ).scan chunk = chunk.foldl (new config true).step ⟨φ, [], []⟩ := rfl
  rw [feed, hscan, foldl_step_eq]
  simp [inPhase, Segment.shown, Function.comp_def]

end Scanner

namespace Phase

/-- The segments of a stream by the chunk that each ends in. -/
def segmentsByChunk (config : Config) : Phase → List (List UInt8) → List (List Segment)
  | _, [] => []
  | φ, chunk :: chunks =>
    φ.segments config chunk :: segmentsByChunk config (φ.after config chunk) chunks

variable (config) in
theorem flatten_segmentsByChunk (φ : Phase) (chunks : List (List UInt8)) :
    (φ.segmentsByChunk config chunks).flatten = φ.segments config chunks.flatten := by
  induction chunks generalizing φ with
  | nil => rfl
  | cons chunk chunks ih => simp [segmentsByChunk, segments_append, ih]

theorem length_segmentsByChunk (φ : Phase) (chunks : List (List UInt8)) :
    (φ.segmentsByChunk config chunks).length = chunks.length := by
  induction chunks generalizing φ with
  | nil => rfl
  | cons chunk chunks ih => simp [segmentsByChunk, ih]

theorem take_segmentsByChunk (φ : Phase) (chunks : List (List UInt8)) (n : Nat) :
    (φ.segmentsByChunk config chunks).take n = φ.segmentsByChunk config (chunks.take n) := by
  induction chunks generalizing φ n with
  | nil => simp [segmentsByChunk]
  | cons chunk chunks ih => cases n <;> simp [segmentsByChunk, ih]

end Phase

namespace Scanner

theorem feedAll_inPhase (φ : Phase) (chunks : List (List UInt8)) :
    let ended := φ.segments config chunks.flatten
    (inPhase config φ).feedAll chunks = (inPhase config (φ.after config chunks.flatten),
      ⟨(φ.segmentsByChunk config chunks).flatMap (Segment.shown config),
        (ended.filterMap (Segment.body? config)).map decodeLossy⟩) := by
  induction chunks generalizing φ with
  | nil => rfl
  | cons chunk chunks ih =>
    rw [feedAll, feed_inPhase]
    dsimp only
    rw [ih]
    simp [Phase.segmentsByChunk, Phase.segments_append, Phase.after_append]

end Scanner

/-! ### Text without backspaces -/

namespace Segment

/-- A segment of which no byte takes a character off. -/
def Plain : Segment → Prop
  | .broken _ b => b ≠ backspace
  | .oversized body => backspace ∉ body
  | .line _ | .prompt => True

theorem type_plain {σ : Segment} (h : σ.Plain) (text : List UInt8) :
    σ.type config text = (if σ.isText then σ.bytes config else []).reverse ++ text := by
  cases σ with
  | broken held b =>
    rw [type, Scanner.typed_plain _ h]
    simp [isText, bytes]
  | oversized body =>
    rw [type, Scanner.foldl_typed_plain _ h]
    simp [isText, bytes]
  | line | prompt => rfl

theorem foldl_type_plain {segments : List Segment} (h : ∀ σ ∈ segments, σ.Plain)
    (text : List UInt8) :
    segments.foldl (type config) text =
      ((segments.filter isText).flatMap (bytes config)).reverse ++ text := by
  induction segments generalizing text with
  | nil => rfl
  | cons σ segments ih =>
    rw [List.foldl_cons, type_plain (h σ List.mem_cons_self),
      ih fun σ' hm => h σ' (List.mem_cons_of_mem _ hm)]
    cases ht : σ.isText <;> simp [ht]

theorem shown_plain {segments : List Segment} (h : ∀ σ ∈ segments, σ.Plain) :
    shown config segments = (segments.filter isText).flatMap (bytes config) := by
  rw [shown, foldl_type_plain h]
  simp

theorem flatMap_shown_plain {groups : List (List Segment)} (h : ∀ σ ∈ groups.flatten, σ.Plain) :
    groups.flatMap (shown config) = (groups.flatten.filter isText).flatMap (bytes config) := by
  induction groups with
  | nil => rfl
  | cons group groups ih =>
    simp only [List.flatten_cons, List.mem_append] at h
    rw [List.flatMap_cons, shown_plain fun σ hm => h σ (.inl hm), ih fun σ hm => h σ (.inr hm)]
    simp

theorem plain_of_bytes {σ : Segment} (h : backspace ∉ σ.bytes config) : σ.Plain := by
  cases σ with
  | broken held b => simpa [bytes, Plain] using fun he => h (by simp [bytes, he])
  | oversized body => exact fun hm => h (by simp [bytes, hm])
  | line | prompt => trivial

end Segment

namespace Scanner

/-- However a stream is fed, it is cut into segments in one way and no other. What the
scanner holds at the end is the rest; the frames are the bodies of its segments in order; and
the text of a chunk is what the segments do that end in it, which are those of the stream up
to that chunk and were not of the stream before it. Without a backspace, the text is that of
the segments. -/
theorem feedAll_segments (config : Config) (chunks : List (List UInt8)) :
    let fed := (new config true).feedAll chunks
    ∃ cut : Cut config, (∀ cut' : Cut config, cut'.bytes = chunks.flatten ↔ cut' = cut) ∧
      cut.rest = fed.1.phase.pending config ∧
      fed.2.frames = (cut.segments.filterMap (Segment.body? config)).map decodeLossy ∧
      (∃ groups : List (List Segment), fed.2.text = groups.flatMap (Segment.shown config) ∧
        groups.length = chunks.length ∧
        ∀ n, ∃ begun : Cut config, begun.bytes = (chunks.take n).flatten ∧
          begun.segments = (groups.take n).flatten) ∧
      (backspace ∉ chunks.flatten →
        fed.2.text = (cut.segments.filter Segment.isText).flatMap (Segment.bytes config)) := by
  intro fed
  have hfed : fed = (inPhase config (.text 0)).feedAll chunks := rfl
  rw [feedAll_inPhase] at hfed
  refine ⟨Cut.ofStream config chunks.flatten, fun cut' => ⟨Cut.eq_ofStream, ?_⟩, ?_, ?_,
    ⟨(Phase.text 0).segmentsByChunk config chunks, ?_, ?_, fun n => ?_⟩, fun hb => ?_⟩
  · rintro rfl
    exact Cut.bytes_ofStream config _
  · rw [hfed]; rfl
  · rw [hfed]; rfl
  · rw [hfed]
  · exact Phase.length_segmentsByChunk _ chunks
  · refine ⟨Cut.ofStream config (chunks.take n).flatten, Cut.bytes_ofStream config _, ?_⟩
    rw [Phase.take_segmentsByChunk, Phase.flatten_segmentsByChunk]
    rfl
  · have hplain : ∀ σ ∈ (Phase.text 0).segments config chunks.flatten, σ.Plain := by
      intro σ hσ
      refine Segment.plain_of_bytes fun hm : backspace ∈ σ.bytes config => hb ?_
      rw [← Cut.bytes_ofStream config chunks.flatten]
      exact List.mem_append_left _ (List.mem_flatMap.mpr ⟨σ, hσ, hm⟩)
    rw [hfed]
    dsimp only
    rw [← Phase.flatten_segmentsByChunk] at hplain
    rw [Segment.flatMap_shown_plain hplain, Phase.flatten_segmentsByChunk]
    rfl

end Scanner

end Debugline.Wire
