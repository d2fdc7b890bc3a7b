import Debugline.Proofs.Text.Pieces
import Debugline.Proofs.Wire.Chunks
import Mathlib.Data.List.Induction
import Mathlib.Data.List.TakeWhile
import Mathlib.Logic.Function.Iterate

/-! What cuts of a stream do to the text that is shown. The scanner keeps its place between
chunks, but each chunk is shown for itself: its text begins empty and is decoded alone. So a cut
is seen if a backspace behind it reaches over it, or if it parts a character; and each such cut
makes the text that is shown longer. -/

namespace Debugline.Wire

open Text

/-- Takes the last character off a text that stands newest first. -/
def erase (text : List UInt8) : List UInt8 := (text.dropWhile isContinuation).drop 1

theorem typed_backspace (text : List UInt8) : typed text backspace = erase text := if_pos rfl

theorem erase_eq_nil {text : List UInt8} (h : ∀ b ∈ text, isContinuation b) : erase text = [] := by
  rw [erase, List.dropWhile_eq_nil_iff.mpr h]
  rfl

/-- The last character is taken off the upper of two texts. -/
theorem erase_append {upper : List UInt8} (h : ¬∀ b ∈ upper, isContinuation b)
    (under : List UInt8) : erase (upper ++ under) = erase upper ++ under := by
  have hbegins : upper.dropWhile isContinuation ≠ [] := fun he =>
    h (List.dropWhile_eq_nil_iff.mp he)
  unfold erase
  rw [List.dropWhile_append, if_neg (by simpa using hbegins),
    List.drop_append_of_le_length (List.length_pos_iff.mpr hbegins)]

/-- If no byte of the upper one begins a character, it is taken off the lower one. -/
theorem erase_append_of_continued {upper : List UInt8} (h : ∀ b ∈ upper, isContinuation b)
    (under : List UInt8) : erase (upper ++ under) = erase under := by
  rw [erase, List.dropWhile_append, if_pos (by simp [List.dropWhile_eq_nil_iff.mpr h])]
  rfl

/-- Backspaces take pieces off a text. -/
theorem length_iterate_erase_lt (n : Nat) {text : List UInt8} (h : text ≠ []) :
    (pieces (erase^[n + 1] text).reverse).length < (pieces text.reverse).length := by
  induction n with
  | zero => exact length_pieces_erase_lt h
  | succ n ih =>
    rw [Function.iterate_succ_apply']
    by_cases he : erase^[n + 1] text = []
    · rw [he] at ih ⊢
      exact ih
    · exact Nat.lt_trans (length_pieces_erase_lt he) ih

/-! ### Keys -/

/-- A byte that is put on a text. One that is given back stands as it is, and one that is typed may
be a backspace. -/
inductive Key
  | given (b : UInt8)
  | typed (b : UInt8)

def Key.strike : Key → List UInt8 → List UInt8
  | .given b, text => b :: text
  | .typed b, text => Wire.typed text b

def strike (text : List UInt8) (keys : List Key) : List UInt8 :=
  keys.foldl (fun text k => k.strike text) text

theorem strike_append (text : List UInt8) (keys more : List Key) :
    strike text (keys ++ more) = strike (strike text keys) more := List.foldl_append

theorem strike_concat (text : List UInt8) (keys : List Key) (k : Key) :
    strike text (keys ++ [k]) = k.strike (strike text keys) := strike_append _ _ _

theorem strike_given (text bytes : List UInt8) :
    strike text (bytes.map .given) = bytes.reverse ++ text := by
  induction bytes generalizing text with
  | nil => rfl
  | cons b bytes ih =>
    rw [List.reverse_cons, List.append_assoc]
    exact ih (b :: text)

theorem strike_typed (text bytes : List UInt8) :
    strike text (bytes.map .typed) = bytes.foldl typed text := List.foldl_map

/-- A key on the upper of two texts, unless it is a backspace that finds no character there. -/
theorem Key.strike_append {k : Key} {upper : List UInt8}
    (h : ¬(k = .typed backspace ∧ ∀ b ∈ upper, isContinuation b)) (under : List UInt8) :
    k.strike (upper ++ under) = k.strike upper ++ under := by
  cases k with
  | given b => rfl
  | typed b =>
    by_cases hb : b = backspace
    · subst hb
      simp only [strike, typed_backspace]
      exact erase_append (fun hc => h ⟨rfl, hc⟩) under
    · simp only [strike, Scanner.typed_plain _ hb, List.cons_append]

/-- One of the keys is a backspace, and none of the bytes that stand before it begins a character:
it reaches back to what was there first. -/
def Overruns (keys : List Key) : Prop :=
  ∃ front rest, keys = front ++ .typed backspace :: rest ∧ ∀ b ∈ strike [] front, isContinuation b

theorem overruns_concat_iff {keys : List Key} {k : Key} : Overruns (keys ++ [k]) ↔
    Overruns keys ∨ k = .typed backspace ∧ ∀ b ∈ strike [] keys, isContinuation b := by
  constructor
  · rintro ⟨front, rest, hkeys, hfront⟩
    rcases List.eq_nil_or_concat rest with rfl | ⟨rest, last, rfl⟩
    · obtain ⟨rfl, hk⟩ := List.append_inj' hkeys rfl
      exact .inr ⟨(List.cons.inj hk).1, hfront⟩
    · rw [List.concat_eq_append, ← List.cons_append, ← List.append_assoc] at hkeys
      obtain ⟨rfl, -⟩ := List.append_inj' hkeys rfl
      exact .inl ⟨front, rest, rfl, hfront⟩
  · rintro (⟨front, rest, rfl, hfront⟩ | ⟨rfl, hkeys⟩)
    · exact ⟨front, rest ++ [k], by simp, hfront⟩
    · exact ⟨keys, [], rfl, hkeys⟩

/-- Keys put their bytes on a text; those that overrun take characters off it first. -/
theorem strike_cases (keys : List Key) (under : List UInt8) :
    ¬Overruns keys ∧ strike under keys = strike [] keys ++ under ∨
      Overruns keys ∧ ∃ n, strike under keys = strike [] keys ++ erase^[n + 1] under := by
  induction keys using List.reverseRecOn with
  | nil =>
    have hno : ¬Overruns [] := by
      rintro ⟨front, rest, h, -⟩
      simp at h
    exact .inl ⟨hno, rfl⟩
  | append_singleton keys k ih =>
    simp only [overruns_concat_iff, strike_concat]
    by_cases hk : k = .typed backspace ∧ ∀ b ∈ strike [] keys, isContinuation b
    · obtain ⟨rfl, hcontinued⟩ := hk
      have hnone : Key.strike (.typed backspace) (strike [] keys) = [] :=
        (typed_backspace _).trans (erase_eq_nil hcontinued)
      have hback (text : List UInt8) :
          Key.strike (.typed backspace) (strike [] keys ++ text) = erase text :=
        (typed_backspace _).trans (erase_append_of_continued hcontinued text)
      refine .inr ⟨.inr ⟨rfl, hcontinued⟩, ?_⟩
      rcases ih with ⟨-, he⟩ | ⟨-, n, he⟩
      · exact ⟨0, by rw [he, hback, hnone]; rfl⟩
      · exact ⟨n + 1, by rw [he, hback, hnone, Function.iterate_succ_apply' _ (n + 1)]; rfl⟩
    · rcases ih with ⟨hno, he⟩ | ⟨hover, n, he⟩
      · exact .inl ⟨not_or.mpr ⟨hno, hk⟩, by rw [he, Key.strike_append hk]⟩
      · exact .inr ⟨.inl hover, n, by rw [he, Key.strike_append hk]⟩

namespace Scanner

variable (s : Scanner)

/-- What a byte puts on the text. -/
def keysAt (φ : Phase) (b : UInt8) : List Key :=
  if s.enabled then
    match φ with
    | .text held =>
      if b = s.escape.get held then []
      else (s.escape.toList.take held).map .given ++ [.typed b]
    | .frame body =>
      if b ≠ lineFeed ∧ maxFrame < (body.push b).size then
        s.escape.toList.map .given ++ (body.push b).toList.map .typed
      else []
  else [.typed b]

theorem text_step (p : Progress) (b : UInt8) :
    (s.step p b).text = strike p.text (s.keysAt p.phase b) := by
  obtain ⟨φ, text, frames⟩ := p
  unfold step keysAt
  split_ifs with enabled
  · cases φ with
    | text held =>
      simp only [stepText]
      split_ifs
      · rfl
      · rfl
      · rw [strike_concat, strike_given]
        rfl
    | frame body =>
      have hgiven : strike text (s.escape.toList.map .given ++ (body.push b).toList.map .typed) =
          (body.push b).toList.foldl typed (s.escape.toList.reverse ++ text) := by
        rw [strike_append, strike_given, strike_typed]
      simp only [stepFrame]
      by_cases hend : b = lineFeed
      · simp [hend, strike]
      · simp only [hend, if_false, ne_eq, not_false_eq_true, true_and]
        split_ifs
        · exact hgiven.symm
        · rfl
        · rfl
  · rfl

/-- What a chunk puts on the text. -/
def keysFrom (s : Scanner) : Phase → List UInt8 → List Key
  | _, [] => []
  | φ, b :: chunk => s.keysAt φ b ++ s.keysFrom (s.alone φ b).phase chunk

theorem text_foldl_step (p : Progress) (chunk : List UInt8) :
    (chunk.foldl s.step p).text = strike p.text (s.keysFrom p.phase chunk) := by
  induction chunk generalizing p with
  | nil => rfl
  | cons b chunk ih =>
    rw [List.foldl_cons, ih, text_step, step_phase, keysFrom, strike_append]

def keys (chunk : List UInt8) : List Key := s.keysFrom s.phase chunk

theorem feed_text (chunk : List UInt8) :
    (s.feed chunk).2.text = (strike [] (s.keys chunk)).reverse :=
  congrArg List.reverse (s.text_foldl_step ⟨s.phase, [], []⟩ chunk)

theorem text_feed_append (before chunk : List UInt8) : (s.feed (before ++ chunk)).2.text =
    (strike (s.feed before).2.text.reverse ((s.feed before).1.keys chunk)).reverse := by
  have h := (s.feed before).1.text_foldl_step (s.scan before) chunk
  simp only [feed, List.reverse_reverse]
  rw [scan, List.foldl_append]
  exact congrArg List.reverse h

/-! ### Cuts -/

/-- The cut between what was fed and the next chunk is not seen: no backspace of the chunk reaches
over it, unless nothing is there, and no character is parted by it. -/
structure Clean (before chunk : List UInt8) : Prop where
  kept : (s.feed before).2.text = [] ∨ ¬Overruns ((s.feed before).1.keys chunk)
  whole : ¬Torn (s.feed before).2.text ((s.feed before).1.feed chunk).2.text

/-- No backspace reaches over a cut just if the texts of the two parts make the text of both. -/
theorem text_feed_append_iff (before chunk : List UInt8) : (s.feed (before ++ chunk)).2.text =
      (s.feed before).2.text ++ ((s.feed before).1.feed chunk).2.text ↔
    (s.feed before).2.text = [] ∨ ¬Overruns ((s.feed before).1.keys chunk) := by
  rw [text_feed_append, feed_text (s.feed before).1]
  generalize hunder : (s.feed before).2.text = under
  rcases strike_cases ((s.feed before).1.keys chunk) under.reverse with ⟨hno, he⟩ | ⟨hover, n, he⟩
  · exact iff_of_true (by simp [he]) (.inr hno)
  · have hempty : erase^[n + 1] under.reverse = under.reverse ↔ under = [] := by
      refine ⟨fun h => ?_, fun h => ?_⟩
      · by_contra hne
        have hlt := length_iterate_erase_lt n (List.reverse_eq_nil_iff.not.mpr hne)
        rw [h] at hlt
        exact Nat.lt_irrefl _ hlt
      · rw [h]
        exact Function.iterate_fixed rfl _
    rw [he, List.reverse_append, List.append_left_inj, ← List.reverse_inj, List.reverse_reverse,
      hempty]
    simp [hover]

/-- What is shown of a chunk. -/
def shownOf (s : Scanner) (chunk : List UInt8) : String := decodeLossy (s.feed chunk).2.text

theorem shownOf_append {s : Scanner} {before chunk : List UInt8} (h : s.Clean before chunk) :
    s.shownOf (before ++ chunk) = s.shownOf before ++ (s.feed before).1.shownOf chunk := by
  rw [shownOf, (s.text_feed_append_iff before chunk).mpr h.kept, decodeLossy_append h.whole]
  rfl

/-- A cut that is seen makes more be shown. -/
theorem length_shownOf_append_lt {s : Scanner} {before chunk : List UInt8}
    (h : ¬s.Clean before chunk) :
    (s.shownOf (before ++ chunk)).length <
      (s.shownOf before).length + ((s.feed before).1.shownOf chunk).length := by
  simp only [shownOf, length_decodeLossy]
  by_cases hkept : (s.feed before).2.text = [] ∨ ¬Overruns ((s.feed before).1.keys chunk)
  · have htorn := by_contra fun hw => h ⟨hkept, hw⟩
    rw [(s.text_feed_append_iff before chunk).mpr hkept]
    exact length_pieces_append_lt htorn
  · obtain ⟨hne, hover⟩ := not_or.mp hkept
    obtain ⟨n, hn⟩ := ((strike_cases _ _).resolve_left fun h => hover h.1).2
    have hlt := length_iterate_erase_lt n (List.reverse_eq_nil_iff.not.mpr hne)
    rw [List.reverse_reverse] at hlt
    rw [text_feed_append, hn, List.reverse_append, ← feed_text]
    exact Nat.lt_of_le_of_lt (length_pieces_append_le _ _) (Nat.add_lt_add_right hlt _)

/-- No cut between the chunks is seen, nor the one in front of them. -/
def SeamlessAfter (s : Scanner) (before : List UInt8) : List (List UInt8) → Prop
  | [] => True
  | chunk :: chunks => s.Clean before chunk ∧ s.SeamlessAfter (before ++ chunk) chunks

/-- No cut between the chunks is seen. -/
def Seamless (s : Scanner) (chunks : List (List UInt8)) : Prop := s.SeamlessAfter [] chunks

/-- What is shown of chunks that come one after the other. -/
def shown (s : Scanner) : List (List UInt8) → String
  | [] => ""
  | chunk :: chunks => s.shownOf chunk ++ (s.feed chunk).1.shown chunks

theorem shown_after {s : Scanner} {before : List UInt8} {chunks : List (List UInt8)}
    (h : s.SeamlessAfter before chunks) :
    s.shownOf (before ++ chunks.flatten) =
      s.shownOf before ++ (s.feed before).1.shown chunks := by
  induction chunks generalizing before with
  | nil => simp [shown]
  | cons chunk chunks ih =>
    obtain ⟨hc, hrest⟩ := h
    rw [List.flatten_cons, ← List.append_assoc, ih hrest, shownOf_append hc, shown,
      feed_append_scanner, String.append_assoc]

theorem length_shownOf_append_le (s : Scanner) (before chunk : List UInt8) :
    (s.shownOf (before ++ chunk)).length ≤
      (s.shownOf before).length + ((s.feed before).1.shownOf chunk).length := by
  by_cases h : s.Clean before chunk
  · exact Nat.le_of_eq (by rw [shownOf_append h, String.length_append])
  · exact Nat.le_of_lt (length_shownOf_append_lt h)

/-- Chunks with a cut that is seen show more than they do when joined. -/
theorem length_shown_after_lt {s : Scanner} {before : List UInt8} {chunks : List (List UInt8)}
    (h : ¬s.SeamlessAfter before chunks) :
    (s.shownOf (before ++ chunks.flatten)).length <
      (s.shownOf before).length + ((s.feed before).1.shown chunks).length := by
  induction chunks generalizing before with
  | nil => exact absurd trivial h
  | cons chunk chunks ih =>
    have hjoin := s.length_shownOf_append_le before chunk
    rw [List.flatten_cons, ← List.append_assoc, shown, String.length_append,
      ← feed_append_scanner]
    -- the cut that is seen is this one if no later one is
    by_cases hrest : s.SeamlessAfter (before ++ chunk) chunks
    · have hlt := length_shownOf_append_lt fun hc => h ⟨hc, hrest⟩
      rw [shown_after hrest, String.length_append]
      omega
    · have hlt := ih hrest
      omega

/-- Two ways of cutting a stream, one of them without a cut that is seen: the other shows the same
if and only if none of its cuts is seen either. -/
theorem shown_eq_iff {s : Scanner} {chunks chunks' : List (List UInt8)}
    (same : chunks.flatten = chunks'.flatten) (h : s.Seamless chunks') :
    s.shown chunks = s.shown chunks' ↔ s.Seamless chunks := by
  have hempty : s.shownOf [] = "" := rfl
  have hwhole (cs : List (List UInt8)) (hs : s.Seamless cs) :
      s.shownOf cs.flatten = s.shown cs := by
    simpa [hempty, feed, scan] using shown_after hs
  constructor
  · intro he
    by_contra hn
    have hlt := length_shown_after_lt hn
    rw [List.nil_append, same, hwhole _ h, ← he] at hlt
    simp [hempty, feed, scan] at hlt
  · intro hs
    rw [← hwhole _ h, ← hwhole _ hs, same]

/-- A stream that comes in one chunk has no cut. -/
theorem seamless_singleton (s : Scanner) (chunk : List UInt8) : s.Seamless [chunk] := by
  refine ⟨⟨.inl rfl, ?_⟩, trivial⟩
  rintro ⟨o, ho, -⟩
  cases ho

end Scanner

end Debugline.Wire
