import Debugline.Proofs.Text.Utf8
import Debugline.Proofs.Text.Words
import Debugline.Proofs.Wire.Segments
import Debugline.Wire.Frame

/-! Reading undoes writing. A debugger writes plain text, and frames each as an escape, a
body and a line feed, but for the prompt, which needs no line feed. Scanning what it wrote
and reading the bodies gives its text and its frames back, however the stream is cut. -/

namespace Debugline.Wire

open Text

namespace Frame

/-- The body by which a frame is told. -/
def body (prompt : String) : Frame → String
  | .file path => "file" ++ path
  | .watch row name value => "watch" ++ toString row ++ " " ++ name ++ " " ++ value
  | .localValue text => "loc\t" ++ text
  | .globalValue text => "glb\t" ++ text
  | .info text => "info" ++ text
  | .prompt => prompt
  | .lineNumber line => toString line

def wire (config : Config) : Frame → List UInt8
  | .prompt => config.escape.toList ++ encode config.prompt
  | f => config.escape.toList ++ encode (f.body config.prompt) ++ [lineFeed]

/-- Frames with contents that a body can tell: texts that are trimmed where blanks are taken
off, words, and numbers that have a reading. -/
def Tellable : Frame → Prop
  | .file path => trimmed path = path
  | .watch row name value => 0 < row ∧ row < wordLimit ∧ IsWord name.toList ∧
      ∃ tokens, (∀ t ∈ tokens, IsWord t) ∧ value.toList = [' '].intercalate tokens
  | .localValue text => text.toList.getLast? ≠ some '\r'
  | .globalValue text => text.toList.getLast? ≠ some '\r'
  | .info text => trimmed text = text
  | .prompt => True
  | .lineNumber line => line < wordLimit

/-- Frames as a reading leaves them: what a reading would take off or put together is gone. -/
def Normal : Frame → Prop
  | .file path => trimmed path = path
  | .watch row name value => 0 < row ∧ row < wordLimit ∧ IsWord name.toList ∧ Spaced value.toList
  | .info text => trimmed text = text
  | .lineNumber line => line < wordLimit
  | .localValue _ | .globalValue _ | .prompt => True

theorem Tellable.normal {f : Frame} (h : f.Tellable) : f.Normal := by
  cases f with
  | watch row name value =>
    obtain ⟨h0, hrow, hname, tokens, htokens, hvalue⟩ := h
    exact ⟨h0, hrow, hname, hvalue ▸ spaced_intercalate htokens⟩
  | localValue | globalValue | prompt => trivial
  | file | info | lineNumber => exact h

/-- Frames with a body that fits between an escape and a line feed. -/
structure Fits (config : Config) (f : Frame) : Prop where
  line : lineFeed ∉ encode (f.body config.prompt)
  length : (encode (f.body config.prompt)).length ≤ maxFrame
  prompt : ¬ encode config.prompt <+: encode (f.body config.prompt)

/-! ### Reading a body -/

theorem readBody_file (path : List Char) :
    readBody (['f', 'i', 'l', 'e'] ++ path) = .ok (.file (.ofList (trim path))) := by
  have hne : (trim (['f', 'i', 'l', 'e'] ++ path)).isEmpty = false :=
    trim_isEmpty_of_mem (c := 'f') (by simp) rfl
  rw [readBody, hne]
  simp [after?]

theorem readBody_watch (rest : List Char) :
    readBody (['w', 'a', 't', 'c', 'h'] ++ rest) = readWatch rest := by
  have hne : (trim (['w', 'a', 't', 'c', 'h'] ++ rest)).isEmpty = false :=
    trim_isEmpty_of_mem (c := 'w') (by simp) rfl
  rw [readBody, hne]
  simp [after?]

theorem readBody_local (text : List Char) :
    readBody (['l', 'o', 'c', '\t'] ++ text) = .ok (.localValue (.ofList text)) := by
  have hne : (trim (['l', 'o', 'c', '\t'] ++ text)).isEmpty = false :=
    trim_isEmpty_of_mem (c := 'l') (by simp) rfl
  rw [readBody, hne]
  simp [after?, afterTab]

theorem readBody_global (text : List Char) :
    readBody (['g', 'l', 'b', '\t'] ++ text) = .ok (.globalValue (.ofList text)) := by
  have hne : (trim (['g', 'l', 'b', '\t'] ++ text)).isEmpty = false :=
    trim_isEmpty_of_mem (c := 'g') (by simp) rfl
  rw [readBody, hne]
  simp [after?, afterTab]

theorem readBody_info (text : List Char) :
    readBody (['i', 'n', 'f', 'o'] ++ text) = .ok (.info (.ofList (trim text))) := by
  have hne : (trim (['i', 'n', 'f', 'o'] ++ text)).isEmpty = false :=
    trim_isEmpty_of_mem (c := 'i') (by simp) rfl
  rw [readBody, hne]
  simp [after?]

/-- A number between blanks begins with no verb. -/
theorem readBody_of_isDigits {s : List Char} (h : isDigits (trim s) = true) :
    readBody s = readLine (trim s) := by
  have hne : (trim s).isEmpty = false := by
    simpa using (isWord_of_isDigits h).ne_nil
  have hall : ∀ c ∈ trim s, c.isDigit = true := by
    simp only [isDigits, Bool.and_eq_true, List.all_eq_true] at h
    exact h.2
  have hverb : ∀ d lead, isBlank d = false → d.isDigit = false → after? (d :: lead) s = none := by
    intro d lead hd hdigit
    cases s with
    | nil => rfl
    | cons c s =>
      have hdc : d ≠ c := by
        rintro rfl
        rw [hall d (List.mem_of_mem_head? (head?_trim_cons hd s))] at hdigit
        cases hdigit
      simp [after?, hdc]
  rw [readBody, hne, hverb 'f' _ rfl rfl, hverb 'w' _ rfl rfl, hverb 'l' _ rfl rfl,
    hverb 'g' _ rfl rfl, hverb 'i' _ rfl rfl]
  rfl

/-- The first word of a name is read as the name, and the others go to the value. -/
theorem readWatch_words {row : Nat} {name first : List Char} {more tokens : List (List Char)}
    (h0 : 0 < row) (hrow : row < wordLimit) (hname : words name = first :: more)
    (htokens : ∀ t ∈ tokens, IsWord t) :
    readWatch (Nat.toDigits 10 row ++ ' ' :: (name ++ ' ' :: [' '].intercalate tokens)) =
      .ok (.watch row (.ofList first) (.ofList ([' '].intercalate (more ++ tokens)))) := by
  have hdigits := isDigits_toDigits row
  have hread : unsigned? (Nat.toDigits 10 row) = some row := by
    rw [unsigned?_of_isDigits hdigits, digits?_toDigits hrow]
  obtain ⟨row, rfl⟩ : ∃ n, row = n + 1 := ⟨row - 1, by omega⟩
  rw [readWatch, words_append_blank (isWord_of_isDigits hdigits) rfl,
    words_append rfl name, hname, words_intercalate htokens]
  simp only [hread, List.cons_append]

theorem parse_of_toList {raw prompt : String} (hne : raw ≠ prompt) {s : List Char}
    (hs : raw.toList = s) (hr : s.getLast? ≠ some '\r') : parse raw prompt = readBody s := by
  rw [parse, if_neg hne, hs, dropReturn_of_getLast? hr]

theorem toList_watch (prompt : String) (row : Nat) (name value : String) :
    (body prompt (.watch row name value)).toList = ['w', 'a', 't', 'c', 'h'] ++
      (Nat.toDigits 10 row ++ ' ' :: (name.toList ++ ' ' :: value.toList)) := by
  simp [body]

theorem getLast?_watch_ne (prompt : String) (row : Nat) (name : String) {value : String}
    {tokens : List (List Char)} (htokens : ∀ t ∈ tokens, IsWord t)
    (hvalue : value.toList = [' '].intercalate tokens) :
    (body prompt (.watch row name value)).toList.getLast? ≠ some '\r' := by
  have hr := getLast?_append_ne (c := '\r')
    (s := ['w', 'a', 't', 'c', 'h'] ++ Nat.toDigits 10 row ++ [' '] ++ name.toList ++ [' '])
    (by rw [List.getLast?_concat]; decide) (getLast?_intercalate_ne htokens)
  rw [toList_watch, hvalue]
  simpa using hr

theorem parse_watch {prompt : String} {row : Nat} {name value : String} {first : List Char}
    {more tokens : List (List Char)} (h0 : 0 < row) (hrow : row < wordLimit)
    (hname : words name.toList = first :: more) (htokens : ∀ t ∈ tokens, IsWord t)
    (hvalue : value.toList = [' '].intercalate tokens)
    (hp : body prompt (.watch row name value) ≠ prompt) :
    parse (body prompt (.watch row name value)) prompt =
      .ok (.watch row (.ofList first) (.ofList ([' '].intercalate (more ++ tokens)))) := by
  rw [parse_of_toList hp rfl (getLast?_watch_ne prompt row name htokens hvalue), toList_watch,
    hvalue, readBody_watch, readWatch_words h0 hrow hname htokens]

theorem trim_of_trimmed {s : String} (h : trimmed s = s) : trim s.toList = s.toList := by
  have hlist := congrArg String.toList h
  rwa [trimmed, String.toList_ofList] at hlist

/-- The body of a frame in normal form is read as that frame. -/
theorem readBody_body {f : Frame} (h : f.Normal) (hf : f ≠ .prompt) (prompt : String) :
    readBody (f.body prompt).toList = .ok f := by
  cases f with
  | file path =>
    have hs : (body prompt (.file path)).toList = ['f', 'i', 'l', 'e'] ++ path.toList := by
      simp [body]
    rw [hs, readBody_file, trim_of_trimmed h, String.ofList_toList]
  | watch row name value =>
    obtain ⟨h0, hrow, hname, hvalue⟩ := h
    have hwords : ∀ t ∈ words value.toList, IsWord t := fun t ht => isWord_of_mem_words ht
    have hread := readWatch_words h0 hrow (words_of_isWord hname) hwords
    rw [List.nil_append, hvalue.intercalate_words] at hread
    rw [toList_watch, readBody_watch, hread, String.ofList_toList, String.ofList_toList]
  | localValue text =>
    have hs : (body prompt (.localValue text)).toList = ['l', 'o', 'c', '\t'] ++ text.toList := by
      simp [body]
    rw [hs, readBody_local, String.ofList_toList]
  | globalValue text =>
    have hs : (body prompt (.globalValue text)).toList = ['g', 'l', 'b', '\t'] ++ text.toList := by
      simp [body]
    rw [hs, readBody_global, String.ofList_toList]
  | info text =>
    have hs : (body prompt (.info text)).toList = ['i', 'n', 'f', 'o'] ++ text.toList := by
      simp [body]
    rw [hs, readBody_info, trim_of_trimmed h, String.ofList_toList]
  | prompt => exact absurd rfl hf
  | lineNumber line =>
    have hs : (body prompt (.lineNumber line)).toList = Nat.toDigits 10 line := by
      simp [body]
    have hdigits := isDigits_toDigits line
    have htrim := trim_word (isWord_of_isDigits hdigits).letters
    rw [hs, readBody_of_isDigits (htrim.symm ▸ hdigits), htrim, readLine, hdigits,
      digits?_toDigits h]
    rfl

/-- The body of a frame that can be told does not end in a carriage return. -/
theorem getLast?_body_ne {prompt : String} {f : Frame} (h : f.Tellable) (hf : f ≠ .prompt) :
    (f.body prompt).toList.getLast? ≠ some '\r' := by
  have hlead : ∀ (lead : String) {text : String}, lead.toList.getLast? ≠ some '\r' →
      text.toList.getLast? ≠ some '\r' → (lead ++ text).toList.getLast? ≠ some '\r' := by
    intro lead text hl ht
    rw [String.toList_append]
    exact getLast?_append_ne hl ht
  cases f with
  | file path => exact hlead "file" (by decide) (getLast?_trim_ne (trim_of_trimmed h))
  | watch row name value =>
    obtain ⟨_, _, _, tokens, htokens, hvalue⟩ := h
    exact getLast?_watch_ne prompt row name htokens hvalue
  | localValue text => exact hlead "loc\t" (by decide) h
  | globalValue text => exact hlead "glb\t" (by decide) h
  | info text => exact hlead "info" (by decide) (getLast?_trim_ne (trim_of_trimmed h))
  | prompt => exact absurd rfl hf
  | lineNumber line =>
    have hs : (body prompt (.lineNumber line)).toList = Nat.toDigits 10 line := by
      simp [body]
    exact hs ▸ getLast?_word_ne (isWord_of_isDigits (isDigits_toDigits line))

/-- A body that tells of a frame is read as that frame, unless it is the prompt. -/
theorem parse_body {prompt : String} {f : Frame} (h : f.Tellable) (hp : f.body prompt ≠ prompt) :
    parse (f.body prompt) prompt = .ok f := by
  have hf : f ≠ .prompt := by
    rintro rfl
    exact hp rfl
  rw [parse_of_toList hp rfl (getLast?_body_ne h hf), readBody_body h.normal hf]

end Frame

/-! ### Streams -/

/-- What a debugger writes: text for the terminal, and frames. -/
inductive Item
  | text (bytes : List UInt8)
  | frame (f : Frame)

namespace Item

def wire (config : Config) : Item → List UInt8
  | .text bytes => bytes
  | .frame f => f.wire config

def text? : Item → Option (List UInt8)
  | .text bytes => some bytes
  | .frame _ => none

def frame? : Item → Option Frame
  | .text _ => none
  | .frame f => some f

/-- Text without backspaces in which no escape can begin, and frames that can be told. -/
def Proper (config : Config) : Item → Prop
  | .text bytes => backspace ∉ bytes ∧ config.escape.get 0 ∉ bytes
  | .frame f => f.Tellable ∧ (f ≠ .prompt → f.Fits config)

/-- The segments of an item. -/
def segments (config : Config) : Item → List Segment
  | .text bytes => bytes.map (.broken 0)
  | .frame .prompt => [.prompt]
  | .frame f => [.line (encode (f.body config.prompt))]

theorem wire_eq_segments (config : Config) (i : Item) :
    i.wire config = (i.segments config).flatMap (Segment.bytes config) := by
  cases i with
  | text bytes => simp [wire, segments, Segment.bytes, List.flatMap_map]
  | frame f => cases f <;> simp [wire, Frame.wire, segments, Segment.bytes]

end Item

/-- A prompt that ends a frame: it is not empty, and all of it is read as a body. -/
structure Config.Prompts (config : Config) : Prop where
  ne_empty : config.prompt ≠ ""
  line : lineFeed ∉ encode config.prompt
  length : (encode config.prompt).length ≤ maxFrame

namespace Item

variable {config : Config} {i : Item}

theorem fits_prompt (hp : config.Prompts) : Segment.Fits config .prompt := by
  refine ⟨fun he => hp.ne_empty ?_, hp.length, hp.line⟩
  exact encode_injective he

/-- A body that does not begin with the prompt is ended by its line feed. -/
theorem fits_line {f : Frame} (h : f.Fits config) :
    Segment.Fits config (.line (encode (f.body config.prompt))) := by
  refine ⟨h.length, h.line, fun start hs _ _ he => h.prompt ?_⟩
  rwa [← he]

theorem fits_segments (hp : config.Prompts) (h : i.Proper config) :
    ∀ σ ∈ i.segments config, σ.Fits config := by
  cases i with
  | text bytes =>
    intro σ hσ
    obtain ⟨b, hb, rfl⟩ := List.mem_map.mp hσ
    intro he
    exact h.2 (he ▸ hb)
  | frame f =>
    have hline : f ≠ .prompt → Segment.Fits config (.line (encode (f.body config.prompt))) :=
      fun hne => fits_line (h.2 hne)
    cases f with
    | prompt => simpa [segments] using fits_prompt hp
    | _ => simpa [segments] using hline nofun

theorem plain_segments (h : i.Proper config) : ∀ σ ∈ i.segments config, σ.Plain := by
  cases i with
  | text bytes =>
    intro σ hσ
    obtain ⟨b, hb, rfl⟩ := List.mem_map.mp hσ
    intro he
    exact h.1 (he ▸ hb)
  | frame f => cases f <;> simp [segments, Segment.Plain]

theorem text_segments (i : Item) :
    ((i.segments config).filter Segment.isText).flatMap (Segment.bytes config) =
      i.text?.getD [] := by
  cases i with
  | text bytes =>
    have hall : (bytes.map (Segment.broken 0)).filter Segment.isText = bytes.map (.broken 0) := by
      simp [List.filter_map, Function.comp_def, Segment.isText]
    simp [segments, hall, text?, Segment.bytes, List.flatMap_map]
  | frame f => cases f <;> rfl

/-- The frames in the segments of an item are read as the frame of the item. -/
theorem read_segments (h : i.Proper config) :
    ((i.segments config).filterMap (Segment.body? config)).map
      (fun body => Frame.parse (decodeLossy body) config.prompt) = i.frame?.toList.map .ok := by
  cases i with
  | text bytes => simp [segments, frame?, List.filterMap_map, Function.comp_def, Segment.body?]
  | frame f =>
    by_cases hf : f = .prompt
    · subst hf
      simp [segments, Segment.body?, frame?, decodeLossy_encode, Frame.parse]
    · have hne : f.body config.prompt ≠ config.prompt := by
        intro he
        have hpre := (h.2 hf).prompt
        rw [he] at hpre
        exact hpre List.prefix_rfl
      have hsegments : segments config (.frame f) = [.line (encode (f.body config.prompt))] := by
        cases f <;> first | rfl | exact absurd rfl hf
      rw [hsegments]
      simp [Segment.body?, frame?, decodeLossy_encode, Frame.parse_body h.1 hne]

variable {items : List Item}

theorem stream_eq_segments (items : List Item) : items.flatMap (wire config) =
    (items.flatMap (segments config)).flatMap (Segment.bytes config) := by
  rw [List.flatMap_assoc]
  exact congrArg items.flatMap (funext (wire_eq_segments config))

variable (config) in
theorem text_items (items : List Item) :
    ((items.flatMap (segments config)).filter Segment.isText).flatMap (Segment.bytes config) =
      (items.filterMap text?).flatten := by
  induction items with
  | nil => rfl
  | cons i items ih =>
    rw [List.flatMap_cons, List.filter_append, List.flatMap_append, text_segments, ih]
    cases ht : i.text? <;> simp [ht]

theorem read_items (h : ∀ i ∈ items, i.Proper config) :
    ((items.flatMap (segments config)).filterMap (Segment.body? config)).map
      (fun body => Frame.parse (decodeLossy body) config.prompt) =
        (items.filterMap frame?).map .ok := by
  induction items with
  | nil => rfl
  | cons i items ih =>
    rw [List.flatMap_cons, List.filterMap_append, List.map_append,
      read_segments (h i List.mem_cons_self), ih fun i' hm => h i' (List.mem_cons_of_mem _ hm)]
    cases hf : i.frame? <;> simp [hf]

end Item

namespace Scanner

variable {config : Config} {items : List Item} {chunks : List (List UInt8)}

/-- A stream of text and frames is read as what was written: the frames in their order, the
text without them, and nothing is left in the scanner. -/
theorem feedAll_written (prompts : config.Prompts) (proper : ∀ i ∈ items, i.Proper config)
    (written : chunks.flatten = items.flatMap (Item.wire config)) :
    let fed := (new config true).feedAll chunks
    fed.2.frames.map (Frame.parse · config.prompt) = (items.filterMap Item.frame?).map .ok ∧
      fed.2.text = (items.filterMap Item.text?).flatten ∧ fed.1 = new config true := by
  intro fed
  have hfits : ∀ σ ∈ items.flatMap (Item.segments config), σ.Fits config := by
    intro σ hσ
    obtain ⟨i, hi, hσ⟩ := List.mem_flatMap.mp hσ
    exact Item.fits_segments prompts (proper i hi) σ hσ
  have hplain : ∀ σ ∈ items.flatMap (Item.segments config), σ.Plain := by
    intro σ hσ
    obtain ⟨i, hi, hσ⟩ := List.mem_flatMap.mp hσ
    exact Item.plain_segments (proper i hi) σ hσ
  obtain ⟨hsegments, hafter⟩ := Phase.segments_flatMap hfits
  rw [← Item.stream_eq_segments, ← written] at hsegments hafter
  have hfed : fed = (inPhase config (.text 0)).feedAll chunks := rfl
  rw [feedAll_inPhase, hsegments, hafter] at hfed
  refine ⟨?_, ?_, ?_⟩
  · rw [hfed, List.map_map]
    exact Item.read_items proper
  · have hgroups := Phase.flatten_segmentsByChunk config (.text 0) chunks
    rw [hsegments] at hgroups
    rw [hfed, ← Item.text_items config, ← hgroups]
    exact Segment.flatMap_shown_plain (hgroups ▸ hplain)
  · rw [hfed]
    rfl

/-- A text, a watch with a value of two words, and a prompt, cut inside the escape and
inside the prompt. -/
theorem feedAll_written_watch :
    let items : List Item :=
      [.text [0x68, 0x69], .frame (.watch 1 "x" "4 2"), .frame .prompt]
    let chunks := [[0x68, 0x69, 0x1b], encode "]>watch1 x 4 2\n\x1b]>db", encode "g> "]
    Config.standard.Prompts ∧ (∀ i ∈ items, i.Proper .standard) ∧
      chunks.flatten = items.flatMap (Item.wire .standard) ∧
      ((new .standard true).feedAll chunks).2.frames.map (Frame.parse · "dbg> ") =
        [.ok (.watch 1 "x" "4 2"), .ok .prompt] ∧
      ((new .standard true).feedAll chunks).2.text = [0x68, 0x69] ∧
      ((new .standard true).feedAll chunks).1 = new .standard true := by
  intro items chunks
  have hprompts : Config.standard.Prompts := ⟨by decide, by decide, by decide⟩
  have hword : ∀ c, isBlank c = false → IsWord [c] := fun c hc => ⟨by simp, by simp [hc]⟩
  have hwatch : (Frame.watch 1 "x" "4 2").Tellable :=
    ⟨by decide, by decide, hword 'x' rfl, [['4'], ['2']], by simp [hword '4' rfl, hword '2' rfl],
      by decide⟩
  have hproper : ∀ i ∈ items, i.Proper .standard := by
    intro i hi
    simp only [items, List.mem_cons, List.not_mem_nil, or_false] at hi
    rcases hi with rfl | rfl | rfl
    · exact ⟨by decide, by decide⟩
    · exact ⟨hwatch, fun _ => ⟨by decide, by decide, by decide⟩⟩
    · exact ⟨trivial, fun hne => absurd rfl hne⟩
  have hwritten : chunks.flatten = items.flatMap (Item.wire .standard) := by decide
  exact ⟨hprompts, hproper, hwritten, feedAll_written hprompts hproper hwritten⟩

end Scanner

end Debugline.Wire
