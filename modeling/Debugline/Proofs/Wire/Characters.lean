import Debugline.Proofs.Text.Characters
import Debugline.Proofs.Wire.Backspaces
import Debugline.Proofs.Wire.Commands
import Debugline.Proofs.Wire.Segments

/-! Backspaces and characters. The scanner takes bytes off its text, but of a text it takes off
characters, as if they were typed on a stack. Frames are cut out of a text between two characters,
so what is shown of a text is a text, even where a body that is too long is given back within a
character. -/

namespace Debugline.Wire

open Text

/-- Characters of a terminal, newest first: a backspace takes the last one off. -/
def press (shown : List Char) (c : Char) : List Char :=
  if c = '\x08' then shown.drop 1 else c :: shown

/-- What is left of a text after its backspaces. -/
def pressed (text : String) : String := .ofList (text.toList.foldl press []).reverse

/-! ### Typed characters -/

/-- The bytes of characters; both stand newest first. -/
def standing (shown : List Char) : List UInt8 :=
  (shown.reverse.flatMap String.utf8EncodeChar).reverse

theorem standing_cons (c : Char) (shown : List Char) :
    standing (c :: shown) = (String.utf8EncodeChar c).reverse ++ standing shown := by
  simp [standing]

theorem backspace_not_mem_utf8EncodeChar {c : Char} (h : c ≠ '\x08') :
    backspace ∉ String.utf8EncodeChar c := by
  rw [mem_utf8EncodeChar_iff (by decide)]
  exact fun hvalue => h (Char.toNat_inj.mp hvalue)

theorem erase_standing (shown : List Char) : erase (standing shown) = standing (shown.drop 1) := by
  cases shown with
  | nil => rfl
  | cons c shown =>
    obtain ⟨first, more, hchar, begins, continued⟩ := utf8EncodeChar_eq_cons c
    rw [standing_cons, hchar, List.reverse_cons, List.append_assoc, List.singleton_append]
    exact erase_of_begins begins continued

theorem foldl_typed_char (shown : List Char) (c : Char) :
    (String.utf8EncodeChar c).foldl typed (standing shown) = standing (press shown c) := by
  by_cases hc : c = '\x08'
  · have hbyte : String.utf8EncodeChar '\x08' = [backspace] := by decide
    rw [hc, press, if_pos rfl, hbyte, List.foldl_cons, List.foldl_nil, typed_backspace,
      erase_standing]
  · rw [press, if_neg hc, standing_cons,
      Scanner.foldl_typed_plain _ (backspace_not_mem_utf8EncodeChar hc)]

theorem foldl_typed_chars (cs shown : List Char) :
    (cs.flatMap String.utf8EncodeChar).foldl typed (standing shown) =
      standing (cs.foldl press shown) := by
  induction cs generalizing shown with
  | nil => rfl
  | cons c cs ih => rw [List.flatMap_cons, List.foldl_append, foldl_typed_char, ih, List.foldl_cons]

/-- Bytes of a text are typed as its characters are. -/
theorem reverse_foldl_typed_encode (text : String) :
    ((encode text).foldl typed []).reverse = encode (pressed text) := by
  have hchars := foldl_typed_chars text.toList []
  simpa [encode, pressed, standing] using congrArg List.reverse hchars

/-! ### Text among segments -/

variable {config : Config}

namespace Segment

/-- An escape without a backspace is typed like any other text. -/
theorem type_eq (h : backspace ∉ config.escape.toList) (text : List UInt8) (σ : Segment) :
    σ.type config text = (if σ.isText then σ.bytes config else []).foldl typed text := by
  cases σ with
  | broken held b =>
    have htake : backspace ∉ config.escape.toList.take held := fun hm => h (List.mem_of_mem_take hm)
    simp [type, isText, bytes, Scanner.foldl_typed_plain _ htake]
  | oversized body => simp [type, isText, bytes, Scanner.foldl_typed_plain _ h]
  | line | prompt => rfl

theorem shown_eq (h : backspace ∉ config.escape.toList) (segments : List Segment) :
    shown config segments =
      (((segments.filter isText).flatMap (bytes config)).foldl typed []).reverse := by
  have hfold (text : List UInt8) : segments.foldl (type config) text =
      ((segments.filter isText).flatMap (bytes config)).foldl typed text := by
    induction segments generalizing text with
    | nil => rfl
    | cons σ segments ih =>
      rw [List.foldl_cons, type_eq h, ih]
      cases ht : σ.isText <;> simp [ht]
  rw [shown, hfold]

variable (ascii : ∀ b ∈ config.escape.toList, b.toNat < 128)
include ascii

theorem begins_of_escape (bytes : List UInt8) : Begins (config.escape.toList ++ bytes) := by
  have hpos : 0 < config.escape.toList.length := by simp
  obtain ⟨b, more, hescape⟩ := List.exists_cons_of_length_pos hpos
  rw [hescape]
  exact begins_of_ascii (ascii b (by simp [hescape])) _

theorem begins_of_frame {σ : Segment} (hσ : σ.isText = false) (rest : List UInt8) :
    Begins (σ.bytes config ++ rest) := by
  cases σ with
  | broken | oversized => cases hσ
  | line body =>
    rw [bytes, List.append_assoc, List.append_assoc]
    exact begins_of_escape ascii _
  | prompt =>
    rw [bytes, List.append_assoc]
    exact begins_of_escape ascii _

/-- Behind a frame in a text there is a text. -/
theorem isText_behind {σ : Segment} (hσ : σ.isText = false) {rest : List UInt8}
    (h : IsText (σ.bytes config ++ rest)) : IsText rest := by
  cases σ with
  | broken | oversized => cases hσ
  | line body =>
    rw [bytes, List.append_assoc] at h
    obtain ⟨-, hline⟩ := h.split (begins_of_ascii (b := lineFeed) (by decide) rest)
    have hfeed : IsText [lineFeed] := .ascii (List.forall_mem_singleton.mpr (by decide))
    exact hfeed.of_append hline
  | prompt =>
    refine IsText.of_append (.append (.ascii ascii) (.encode config.prompt)) ?_
    exact h

/-- A text stays one if the frames are taken out of it. -/
theorem isText_filter {segments : List Segment} (front : List UInt8) {rest : List UInt8}
    (hrest : Begins rest) (h : IsText (front ++ (segments.flatMap (bytes config) ++ rest))) :
    IsText (front ++ (segments.filter isText).flatMap (bytes config)) := by
  induction segments generalizing front with
  | nil =>
    rw [List.flatMap_nil, List.nil_append] at h
    rw [List.filter_nil, List.flatMap_nil, List.append_nil]
    exact (h.split hrest).1
  | cons σ segments ih =>
    rw [List.flatMap_cons, List.append_assoc] at h
    cases ht : σ.isText with
    | true =>
      rw [List.filter_cons_of_pos ht, List.flatMap_cons, ← List.append_assoc]
      exact ih _ (by rwa [List.append_assoc])
    | false =>
      obtain ⟨hfront, hframe⟩ := h.split (begins_of_frame ascii ht _)
      rw [List.filter_cons_of_neg (by simp [ht])]
      exact ih _ (hfront.append (isText_behind ascii ht hframe))

end Segment

/-- What waits for the end of a segment begins with the escape. -/
theorem Phase.begins_of_pending (φ : Phase)
    (ascii : ∀ b ∈ config.escape.toList, b.toNat < 128) : Begins (φ.pending config) := by
  cases φ with
  | text held =>
    cases hp : (Phase.text held).pending config with
    | nil => exact nofun
    | cons b bytes =>
      have hmem : b ∈ config.escape.toList.take held := by
        rw [show config.escape.toList.take held = b :: bytes from hp]
        exact List.mem_cons_self
      exact begins_of_ascii (ascii b (List.mem_of_mem_take hmem)) bytes
  | frame body => exact Segment.begins_of_escape ascii _

namespace Scanner

/-- The bytes of a stream that are text. -/
def kept (config : Config) (stream : List UInt8) : List UInt8 :=
  (((Phase.text 0).segments config stream).filter Segment.isText).flatMap (Segment.bytes config)

theorem text_feed (h : backspace ∉ config.escape.toList) (stream : List UInt8) :
    ((new config true).feed stream).2.text = ((kept config stream).foldl typed []).reverse := by
  have hfeed : (inPhase config (.text 0)).feed stream = _ := feed_inPhase _ _
  rw [kept, ← Segment.shown_eq h]
  exact congrArg (·.2.text) hfeed

theorem isText_kept (ascii : ∀ b ∈ config.escape.toList, b.toNat < 128) (text : String) :
    IsText (kept config (encode text)) := by
  have hstream := (Phase.text 0).pending_append config (encode text)
  have hrest := ((Phase.text 0).after config (encode text)).begins_of_pending ascii
  exact Segment.isText_filter ascii [] hrest ⟨text, hstream.symm⟩

/-- Without the first byte of an escape, every byte is text. -/
theorem kept_of_not_mem {stream : List UInt8} (h : config.escape.get 0 ∉ stream) :
    kept config stream = stream := by
  unfold kept
  induction stream with
  | nil => rfl
  | cons b stream ih =>
    simp only [List.mem_cons, not_or] at h
    have hadvance : (Phase.text 0).advance config b = (.text 0, some (.broken 0 b)) := by
      rw [Phase.advance, if_neg (Ne.symm h.1)]
    rw [Phase.segments, hadvance]
    exact congrArg (b :: ·) (ih h.2)

/-- What a scanner shows of a text is a text, if the bytes of its escape are characters and no
backspaces. Where nothing can be an escape, it is what backspaces leave of the characters. -/
theorem feed_encode (config : Config) (enabled : Bool) (text : String)
    (ascii : enabled = true → ∀ b ∈ config.escape.toList, b.toNat < 128 ∧ b ≠ backspace) :
    let out := ((new config enabled).feed (encode text)).2
    (∃ shown, out.text = encode shown) ∧
      (enabled = false ∨ config.escape.get 0 ∉ encode text → out.text = encode (pressed text)) := by
  intro out
  cases enabled with
  | false =>
    obtain ⟨kept, hsettles, hfeed⟩ := feed_of_disabled (s := new config false) rfl (encode text)
    have htext : out.text = encode (pressed text) := by
      rw [← reverse_foldl_typed_encode, ← hsettles.eq]
      exact congrArg (·.2.text) hfeed
    exact ⟨⟨_, htext⟩, fun _ => htext⟩
  | true =>
    have hplain : backspace ∉ config.escape.toList := fun hb => (ascii rfl _ hb).2 rfl
    have htext : out.text = ((kept config (encode text)).foldl typed []).reverse :=
      text_feed hplain (encode text)
    obtain ⟨t, ht⟩ := isText_kept (fun b hb => (ascii rfl b hb).1) text
    refine ⟨⟨pressed t, by rw [htext, ht, reverse_foldl_typed_encode]⟩, fun absent => ?_⟩
    rw [htext, kept_of_not_mem (absent.resolve_left nofun), reverse_foldl_typed_encode]

/-- A character of two bytes that is taken off again, and no escape. -/
theorem feed_encode_of_umlaut :
    (∀ b ∈ Config.standard.escape.toList, b.toNat < 128 ∧ b ≠ backspace) ∧
      Config.standard.escape.get 0 ∉ encode "aä\x08b" ∧
      ((new .standard true).feed (encode "aä\x08b")).2.text = encode "ab" := by
  have hascii : ∀ b ∈ Config.standard.escape.toList, b.toNat < 128 ∧ b ≠ backspace := by
    decide +kernel
  have habsent : Config.standard.escape.get 0 ∉ encode "aä\x08b" := by decide
  have hpressed : pressed "aä\x08b" = "ab" := by decide
  obtain ⟨-, htext⟩ := feed_encode .standard true "aä\x08b" fun _ => hascii
  exact ⟨hascii, habsent, hpressed ▸ htext (.inr habsent)⟩

end Scanner

end Debugline.Wire
