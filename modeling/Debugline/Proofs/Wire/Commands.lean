import Debugline.Proofs.Text.Utf8
import Debugline.Proofs.Text.Words
import Debugline.Wire.Command

/-! Commands as a debugger hears them: it reads up to each carriage return and takes what it has
read for a command. From the stream of any commands whose texts hold no carriage return it hears
just those commands. -/

namespace Debugline

namespace Text

/-- Reads ASCII digits, of a number of any size. -/
def number? (s : List Char) : Option Nat := if isDigits s then some (valueOf s) else none

theorem number?_toDigits (n : Nat) : number? (Nat.toDigits 10 n) = some n := by
  simp [number?, isDigits_toDigits, valueOf_toDigits]

/-- A text cut at its first `c`: the part before it and the part after it. -/
def cutAt? (c : Char) (s : List Char) : Option (List Char × List Char) :=
  match s.dropWhile (· != c) with
  | [] => none
  | _ :: rest => some (s.takeWhile (· != c), rest)

theorem cutAt?_append {c : Char} {s : List Char} (h : c ∉ s) (rest : List Char) :
    cutAt? c (s ++ c :: rest) = some (s, rest) := by
  have hs : ∀ d ∈ s, (d != c) = true := by
    intro d hd
    have hne : d ≠ c := fun he => h (he ▸ hd)
    simpa using hne
  simp [cutAt?, List.dropWhile_append_of_pos hs, List.takeWhile_append_of_pos hs]

/-- A text without a carriage return. -/
def Unbroken (s : String) : Prop := '\r' ∉ s.toList

instance : DecidablePred Unbroken := fun s => inferInstanceAs (Decidable ('\r' ∉ s.toList))

theorem not_mem_toDigits {c : Char} (h : c.isDigit = false) (n : Nat) :
    c ∉ Nat.toDigits 10 n := by
  intro hc
  have hd : c.isDigit = true := Nat.isDigit_of_mem_toDigits (by omega) (by omega) hc
  rw [h] at hd
  cases hd

end Text

namespace Wire

open Text

/-! ### Texts of commands -/

namespace Command

/-- The text that a command carries. -/
def argument : Command → String
  | .evaluate expr => expr
  | .setWatch _ name => name
  | .breakAt file _ => file
  | _ => ""

/-- The command of a text. The name of a watch begins behind the first blank after its row, and
the line of a breakpoint behind the last colon. -/
def ofText? : List Char → Option Command
  | ['g'] => some .go
  | ['s'] => some .stepInto
  | ['n'] => some .stepOver
  | 'g' :: ' ' :: place =>
    if place = ['f', 'u', 'n', 'c'] then some .stepOut else (number? place).map .runToLine
  | 'd' :: ' ' :: expr => some (.evaluate (.ofList expr))
  | 'w' :: ' ' :: watch =>
    (cutAt? ' ' watch).bind fun (row, name) => (number? row).map (.setWatch · (.ofList name))
  | 'c' :: 'w' :: ' ' :: row => (number? row).map .clearWatch
  | 'b' :: 'r' :: 'e' :: 'a' :: 'k' :: ' ' :: place =>
    (cutAt? ':' place.reverse).bind fun (line, file) =>
      (number? line.reverse).map (.breakAt (.ofList file.reverse))
  | ['c', 'b', 'r', 'e', 'a', 'k', ' ', '*'] => some .clearBreakpoints
  | _ => none

theorem ofText?_text (c : Command) : ofText? c.text.toList = some c := by
  cases c with
  | runToLine line =>
    have ht : (text (.runToLine line)).toList = 'g' :: ' ' :: Nat.toDigits 10 line := by
      simp [text]
    have hne : Nat.toDigits 10 line ≠ ['f', 'u', 'n', 'c'] := by
      intro he
      exact not_mem_toDigits (c := 'f') rfl line (he ▸ List.mem_cons_self)
    simp [ht, ofText?, hne, number?_toDigits]
  | evaluate expr =>
    have ht : (text (.evaluate expr)).toList = 'd' :: ' ' :: expr.toList := by simp [text]
    simp [ht, ofText?]
  | setWatch row name =>
    have ht : (text (.setWatch row name)).toList =
        'w' :: ' ' :: (Nat.toDigits 10 row ++ ' ' :: name.toList) := by simp [text]
    have hcut := cutAt?_append (not_mem_toDigits (c := ' ') rfl row) name.toList
    simp [ht, ofText?, hcut, number?_toDigits]
  | clearWatch row =>
    have ht : (text (.clearWatch row)).toList = 'c' :: 'w' :: ' ' :: Nat.toDigits 10 row := by
      simp [text]
    simp [ht, ofText?, number?_toDigits]
  | breakAt file line =>
    have ht : (text (.breakAt file line)).toList = 'b' :: 'r' :: 'e' :: 'a' :: 'k' :: ' ' ::
        (file.toList ++ ':' :: Nat.toDigits 10 line) := by simp [text]
    have hcolon : ':' ∉ (Nat.toDigits 10 line).reverse := by
      simpa using not_mem_toDigits (c := ':') rfl line
    have hcut := cutAt?_append hcolon file.toList.reverse
    simp [ht, ofText?, hcut, number?_toDigits]
  | go | stepOut | stepInto | stepOver | clearBreakpoints => rfl

/-- A command breaks its line only where the text that it carries does. -/
theorem count_text (c : Command) : c.text.toList.count '\r' = c.argument.toList.count '\r' := by
  have hdigits (n : Nat) : (Nat.toDigits 10 n).count '\r' = 0 :=
    List.count_eq_zero.mpr (not_mem_toDigits rfl n)
  cases c <;> simp [text, argument, hdigits]

end Command

/-! ### Bytes of commands -/

theorem le_of_mem_utf8EncodeChar {c : Char} (hc : 127 < c.val.toNat) {b : UInt8}
    (hb : b ∈ String.utf8EncodeChar c) : 128 ≤ b.toNat := by
  rw [String.utf8EncodeChar] at hb
  generalize c.val.toNat = v at hc hb
  have hlead (n base : Nat) (h : 128 ≤ base) (hn : n + base < 256) :
      128 ≤ (UInt8.ofNat (n + base)).toNat := by
    rw [UInt8.toNat_ofNat']
    omega
  split_ifs at hb with h1
  · omega
  all_goals
    simp only [List.mem_cons, List.not_mem_nil, or_false] at hb
    rcases hb with rfl | rfl | rfl | rfl <;> exact hlead _ _ (by omega) (by omega)

/-- A byte below 128 is that of one character. -/
theorem mem_utf8EncodeChar_iff {c : Char} {b : UInt8} (hb : b.toNat < 128) :
    b ∈ String.utf8EncodeChar c ↔ c.val.toNat = b.toNat := by
  by_cases hc : c.val.toNat ≤ 127
  · rw [String.utf8EncodeChar, if_pos hc, List.mem_singleton, ← UInt8.toNat_inj,
      UInt8.toNat_ofNat', Nat.mod_eq_of_lt (by omega), eq_comm]
  · constructor
    · intro hmem
      have hle := le_of_mem_utf8EncodeChar (Nat.lt_of_not_le hc) hmem
      omega
    · omega

theorem count_utf8EncodeChar (c : Char) :
    (String.utf8EncodeChar c).count terminator = if c = '\r' then 1 else 0 := by
  by_cases hc : c = '\r'
  · subst hc
    rfl
  · rw [if_neg hc, List.count_eq_zero, mem_utf8EncodeChar_iff (by decide)]
    exact fun hvalue => hc (Char.toNat_inj.mp hvalue)

theorem count_encode (s : String) : (encode s).count terminator = s.toList.count '\r' := by
  rw [encode]
  induction s.toList with
  | nil => rfl
  | cons c cs ih =>
    rw [List.flatMap_cons, List.count_append, ih, count_utf8EncodeChar, List.count_cons]
    simp [Nat.add_comm]

theorem terminator_not_mem_encode {s : String} : terminator ∉ encode s ↔ '\r' ∉ s.toList := by
  rw [← List.count_eq_zero, count_encode, List.count_eq_zero]

/-! ### Streams of commands -/

/-- A stream cut behind each terminator. -/
def parts : List UInt8 → List (List UInt8)
  | [] => []
  | b :: bytes =>
    if b = terminator then [b] :: parts bytes
    else
      match parts bytes with
      | [] => [[b]]
      | part :: later => (b :: part) :: later

/-- The command of a part; one that has not ended is none. -/
def Command.ofPart? (part : List UInt8) : Option Command :=
  if part.getLast? = some terminator then
    (decode? part.dropLast).bind fun text => ofText? text.toList
  else none

/-- What a debugger hears of a stream: part by part a command, or what is none. -/
def hears (bytes : List UInt8) : List (Option Command) := (parts bytes).map Command.ofPart?

theorem parts_append {body : List UInt8} (h : terminator ∉ body) (rest : List UInt8) :
    parts (body ++ terminator :: rest) = (body ++ [terminator]) :: parts rest := by
  induction body with
  | nil => simp [parts]
  | cons b body ih =>
    simp only [List.mem_cons, not_or] at h
    rw [List.cons_append, parts, if_neg (Ne.symm h.1), ih h.2]
    rfl

/-- Each terminator ends a part. -/
theorem count_le_length_parts (bytes : List UInt8) :
    bytes.count terminator ≤ (parts bytes).length := by
  induction bytes with
  | nil => rfl
  | cons b bytes ih =>
    rw [parts]
    split
    · next hb => simpa [hb] using ih
    · next hb =>
      rw [List.count_cons_of_ne hb]
      split
      · next hp =>
        rw [hp] at ih
        exact Nat.le_succ_of_le ih
      · next part later hp =>
        rw [hp] at ih
        exact ih

namespace Command

theorem ofPart?_wire (c : Command) : ofPart? c.wire = some c := by
  rw [ofPart?, wire, terminated, if_pos (by simp), List.dropLast_concat, decode?_encode,
    Option.bind_some, ofText?_text]

/-- A command is heard as itself if its text holds no carriage return. -/
theorem hears_wire_append {c : Command} (h : Unbroken c.argument) (rest : List UInt8) :
    hears (c.wire ++ rest) = some c :: hears rest := by
  have hbody : terminator ∉ encode c.text := by
    rw [terminator_not_mem_encode, ← List.count_eq_zero, count_text, List.count_eq_zero]
    exact h
  rw [hears, wire, terminated, List.append_assoc, List.singleton_append, parts_append hbody,
    List.map_cons]
  exact congrArg (· :: hears rest) c.ofPart?_wire

theorem hears_flatMap_wire {commands : List Command} (h : ∀ c ∈ commands, Unbroken c.argument) :
    hears (commands.flatMap wire) = commands.map some := by
  induction commands with
  | nil => rfl
  | cons c commands ih =>
    rw [List.flatMap_cons, hears_wire_append (h c List.mem_cons_self),
      ih fun d hd => h d (List.mem_cons_of_mem _ hd)]
    rfl

/-- Different commands are sent as different bytes, and what is sent of commands whose texts hold
no carriage return is heard as those commands. -/
theorem wire_decodable :
    Function.Injective wire ∧ ∀ commands : List Command,
      (∀ c ∈ commands, Unbroken c.argument) →
        hears (commands.flatMap wire) = commands.map some := by
  refine ⟨fun c d h => ?_, fun commands h => hears_flatMap_wire h⟩
  have hc := c.ofPart?_wire
  rw [h, d.ofPart?_wire] at hc
  exact (Option.some.inj hc).symm

/-- A name with blanks, a path with colons and digits, and a line and a function to run to. -/
theorem wire_decodable_of_likes :
    let commands := [.runToLine 42, .stepOut, .go, .setWatch 3 "4 a.b + 1", .clearWatch 3,
      .breakAt "C:/x 1:2" 7, .clearBreakpoints, .evaluate "func"]
    (∀ c ∈ commands, Unbroken c.argument) ∧ hears (commands.flatMap wire) = commands.map some :=
  have h := by decide +kernel
  ⟨h, wire_decodable.2 _ h⟩

/-! ### Broken texts -/

theorem count_wire (c : Command) :
    c.wire.count terminator = c.argument.toList.count '\r' + 1 := by
  rw [wire, terminated, List.count_append, count_encode, count_text]
  rfl

theorem count_wire_eq_one_iff {c : Command} :
    c.wire.count terminator = 1 ↔ Unbroken c.argument := by
  rw [count_wire, Nat.add_eq_right, List.count_eq_zero]
  rfl

theorem length_le_count (commands : List Command) :
    commands.length ≤ (commands.flatMap wire).count terminator := by
  induction commands with
  | nil => simp
  | cons c commands ih =>
    rw [List.flatMap_cons, List.count_append, count_wire, List.length_cons]
    omega

theorem unbroken_of_count_le {commands : List Command}
    (h : (commands.flatMap wire).count terminator ≤ commands.length) :
    ∀ c ∈ commands, Unbroken c.argument := by
  induction commands with
  | nil => simp
  | cons c commands ih =>
    rw [List.flatMap_cons, List.count_append, count_wire, List.length_cons] at h
    -- The others alone make up for their number, so this one has no more than its own end.
    have hrest := length_le_count commands
    have hc : Unbroken c.argument := List.count_eq_zero.mp (by omega)
    exact List.forall_mem_cons.mpr ⟨hc, ih (by omega)⟩

/-- Just the commands that were sent are heard only if none of their texts holds a carriage
return: one that does makes one part more. -/
theorem hears_iff_unbroken {commands : List Command} :
    hears (commands.flatMap wire) = commands.map some ↔ ∀ c ∈ commands, Unbroken c.argument := by
  refine ⟨fun h => unbroken_of_count_le ?_, hears_flatMap_wire⟩
  have hlength := congrArg List.length h
  rw [hears, List.length_map, List.length_map] at hlength
  exact hlength ▸ count_le_length_parts _

end Command

end Wire

end Debugline
