import Debugline.Proofs.Wire.RoundTrip

/-! What the reading of a body can give, case by case. A verb in front decides alone, and a body
without one is a number or nothing. What is read is in normal form: told again by its body, with
a carriage return behind it, it is read as the same frame. -/

namespace Debugline.Wire.Frame

open Text

/-! ### Bodies -/

/-- What a watch is read as: it is refused for its row or its name, or it is told by words. -/
inductive WatchReading : Except FrameError Frame → Prop
  | row (token : String) : WatchReading (.error (.invalidWatchRow token))
  | name : WatchReading (.error .missingWatchName)
  | told {row : Nat} {name : List Char} {tokens : List (List Char)} (positive : 0 < row)
      (bounded : row < wordLimit) (named : IsWord name) (valued : ∀ t ∈ tokens, IsWord t) :
      WatchReading (.ok (.watch row (.ofList name) (.ofList ([' '].intercalate tokens))))

theorem watchReading (s : List Char) : WatchReading (readWatch s) := by
  have hwords : ∀ w ∈ words s, IsWord w := fun w hw => isWord_of_mem_words hw
  unfold readWatch
  split
  · exact .row _
  · next token rest hs =>
    rw [hs] at hwords
    split
    · exact .row _
    · exact .row _
    · next row hzero hrow =>
      have hpos : 0 < row := Nat.pos_of_ne_zero fun he => hzero he
      split
      · exact .name
      · next name tokens =>
        exact .told hpos (lt_of_unsigned? hrow) (hwords name (by simp))
          fun t ht => hwords t (by simp [ht])

/-- What a line is read as: a number, a number that is too large, or an unknown verb. -/
inductive LineReading (token : List Char) : Except FrameError Frame → Prop
  | number {n : Nat} (digits : digits? token = some n) : LineReading token (.ok (.lineNumber n))
  | large (digits : isDigits token = true) (unread : digits? token = none) :
      LineReading token (.error (.invalidLineNumber (.ofList token)))
  | verb (verb : String) : LineReading token (.error (.unknownVerb verb))

theorem lineReading (token : List Char) : LineReading token (readLine token) := by
  unfold readLine
  split_ifs with h
  · split
    · next n hn => exact .number hn
    · next hn => exact .large h hn
  · exact .verb _

/-- What a body is read as: nothing when it is blank, by its verb, or as a line. -/
inductive Reading (body : List Char) : Except FrameError Frame → Prop
  | blank (blank : trim body = []) : Reading body (.error .empty)
  | file (rest : List Char) : Reading body (.ok (.file (.ofList (trim rest))))
  | watch {result} (reading : WatchReading result) : Reading body result
  | localValue (text : String) : Reading body (.ok (.localValue text))
  | globalValue (text : String) : Reading body (.ok (.globalValue text))
  | info (rest : List Char) : Reading body (.ok (.info (.ofList (trim rest))))
  | line {result} (reading : LineReading (trim body) result) : Reading body result

theorem reading (body : List Char) : Reading body (readBody body) := by
  unfold readBody
  split_ifs with h
  · exact .blank (by simpa using h)
  · split
    · exact .file _
    · split
      · exact .watch (watchReading _)
      · split
        · exact .localValue _
        · split
          · exact .globalValue _
          · split
            · exact .info _
            · exact .line (lineReading _)

/-- Only a blank body is read as nothing. -/
theorem readBody_eq_empty_iff {body : List Char} :
    readBody body = .error .empty ↔ ∀ c ∈ body, isBlank c = true := by
  rw [← trim_eq_nil_iff]
  refine ⟨fun h => ?_, fun h => by simp [readBody, h]⟩
  cases h ▸ reading body with
  | blank h => exact h
  | watch h => cases h
  | line h => cases h

theorem readBody_eq_lineNumber_iff {body : List Char} {n : Nat} :
    readBody body = .ok (.lineNumber n) ↔
      isDigits (trim body) = true ∧ valueOf (trim body) = n ∧ n < wordLimit := by
  rw [← digits?_eq_some_iff]
  constructor
  · intro h
    cases h ▸ reading body with
    | watch h => cases h
    | line h =>
      cases h with
      | number digits => exact digits
  · intro h
    have hdigits := (digits?_eq_some_iff.mp h).1
    rw [readBody_of_isDigits hdigits, readLine, if_pos hdigits, h]

theorem readBody_eq_invalidLineNumber_iff {body : List Char} {token : String} :
    readBody body = .error (.invalidLineNumber token) ↔
      isDigits (trim body) = true ∧ wordLimit ≤ valueOf (trim body) ∧
        token = .ofList (trim body) := by
  constructor
  · intro h
    cases h ▸ reading body with
    | watch h => cases h
    | line h =>
      cases h with
      | large digits unread =>
        exact ⟨digits, (digits?_eq_none_iff_of_isDigits digits).mp unread, rfl⟩
  · rintro ⟨hdigits, hlarge, rfl⟩
    have hunread := (digits?_eq_none_iff_of_isDigits hdigits).mpr hlarge
    rw [readBody_of_isDigits hdigits, readLine, if_pos hdigits, hunread]

/-- The prompt is no body: it counts only as a whole. -/
theorem readBody_ne_prompt (body : List Char) : readBody body ≠ .ok .prompt := by
  intro h
  cases h ▸ reading body with
  | watch h => cases h
  | line h => cases h

/-! ### Normal form -/

theorem trimmed_ofList_trim (s : List Char) : trimmed (.ofList (trim s)) = .ofList (trim s) := by
  rw [trimmed, String.toList_ofList, trim_trim]

theorem normal_of_readBody {body : List Char} {f : Frame} (h : readBody body = .ok f) :
    f.Normal := by
  cases h ▸ reading body with
  | file rest => exact trimmed_ofList_trim rest
  | info rest => exact trimmed_ofList_trim rest
  | localValue | globalValue => trivial
  | watch h =>
    cases h with
    | told positive bounded named valued =>
      refine ⟨positive, bounded, ?_, ?_⟩
      · rwa [String.toList_ofList]
      · rw [String.toList_ofList]
        exact spaced_intercalate valued
  | line h =>
    cases h with
    | number digits => exact lt_of_digits? digits

theorem normal_of_parse {raw prompt : String} {f : Frame} (h : parse raw prompt = .ok f) :
    f.Normal := by
  unfold parse at h
  split_ifs at h
  · cases h
    trivial
  · exact normal_of_readBody h

/-- A body with a carriage return behind it is read as its frame. -/
theorem parse_body_return {prompt : String} {f : Frame} (h : f.Normal) (hf : f ≠ .prompt)
    (hp : f.body prompt ++ "\r" ≠ prompt) : parse (f.body prompt ++ "\r") prompt = .ok f := by
  have hdrop : dropReturn (f.body prompt ++ "\r").toList = (f.body prompt).toList := by
    simp [dropReturn]
  rw [parse, if_neg hp, hdrop, readBody_body h hf]

/-- How a frame is read. The prompt is read for itself alone. Without one carriage return at the
end, a blank body is empty, and a body is a line number just when it is a run of digits between
blanks, refused when it is too large. All that is read is in normal form, and its own body with a
carriage return is read as the same frame again. -/
theorem parse_classifies (raw prompt : String) :
    (parse raw prompt = .ok .prompt ↔ raw = prompt) ∧
      (raw ≠ prompt →
        let body := dropReturn raw.toList
        (parse raw prompt = .error .empty ↔ ∀ c ∈ body, isBlank c = true) ∧
        (∀ n, parse raw prompt = .ok (.lineNumber n) ↔
          isDigits (trim body) = true ∧ valueOf (trim body) = n ∧ n < wordLimit) ∧
        ∀ token, parse raw prompt = .error (.invalidLineNumber token) ↔
          isDigits (trim body) = true ∧ wordLimit ≤ valueOf (trim body) ∧
            token = .ofList (trim body)) ∧
      ∀ f, parse raw prompt = .ok f → f.Normal ∧
        (f ≠ .prompt → f.body prompt ++ "\r" ≠ prompt →
          parse (f.body prompt ++ "\r") prompt = .ok f) := by
  refine ⟨?_, fun hne => ?_, fun f h => ?_⟩
  · unfold parse
    split_ifs with h
    · simp [h]
    · simp [h, readBody_ne_prompt]
  · rw [parse, if_neg hne]
    exact ⟨readBody_eq_empty_iff, fun _ => readBody_eq_lineNumber_iff,
      fun _ => readBody_eq_invalidLineNumber_iff⟩
  · have hnormal := normal_of_parse h
    exact ⟨hnormal, fun hf hp => parse_body_return hnormal hf hp⟩

/-- A row with a sign, blanks of all kinds between the words and behind them. -/
theorem parse_classifies_watch :
    parse "watch +1 x\t4  2 \r" "dbg> " = .ok (.watch 1 "x" "4 2") ∧
      (Frame.watch 1 "x" "4 2").Normal ∧
      parse "watch1 x 4 2\r" "dbg> " = .ok (.watch 1 "x" "4 2") := by
  have hread : parse "watch +1 x\t4  2 \r" "dbg> " = .ok (.watch 1 "x" "4 2") := by
    decide +kernel
  obtain ⟨hnormal, hagain⟩ := (parse_classifies _ _).2.2 _ hread
  exact ⟨hread, hnormal, hagain nofun (by decide +kernel)⟩

end Debugline.Wire.Frame
