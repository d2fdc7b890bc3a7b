import Debugline.Console.Request
import Debugline.Proofs.Text.Words
import Mathlib.Data.String.Basic

/-! What the user may type. A line is a name and an argument, and each name takes arguments of one
kind: none, a number, a place in a file, or a text. The lines of this grammar are read, each as its
own request, and no others. -/

namespace Debugline.Console.Request

open Text

/-! ### The grammar -/

/-- The name of a request in full. -/
def name : Request → String
  | .go => "continue"
  | .step => "step"
  | .next => "next"
  | .finish => "finish"
  | .until _ => "until"
  | .breakAt _ _ => "break"
  | .delete => "delete"
  | .breakpoints => "breakpoints"
  | .watch _ => "watch"
  | .unwatch _ => "unwatch"
  | .watches => "watches"
  | .print _ => "print"
  | .input _ => "input"
  | .list => "list"
  | .kill => "kill"
  | .help => "help"
  | .quit => "quit"

/-- Other names of a request. -/
def aliases : Request → List String
  | .go => ["c"]
  | .step => ["s"]
  | .next => ["n"]
  | .finish => ["f"]
  | .until _ => ["u"]
  | .breakAt _ _ => ["b"]
  | .breakpoints => ["bl"]
  | .watch _ => ["w"]
  | .print _ => ["p"]
  | .list => ["l"]
  | .help => ["h", "?"]
  | .quit => ["q", "exit"]
  | .delete | .unwatch _ | .watches | .input _ | .kill => []

def names (r : Request) : List String := r.name :: r.aliases

/-- A number in decimal digits, behind a plus sign or not. -/
inductive Numeral (n : Nat) : List Char → Prop
  | bare {digits : List Char} (h : isDigits digits = true) (value : valueOf digits = n)
      (small : n < wordLimit) : Numeral n digits
  | signed {digits : List Char} (h : isDigits digits = true) (value : valueOf digits = n)
      (small : n < wordLimit) : Numeral n ('+' :: digits)

/-- A line of a file, from 1 on: the file, a colon and digits. -/
structure Place (rest : List Char) (file : String) (line : Nat) : Prop where
  text : ∃ digits, rest = file.toList ++ ':' :: digits ∧ isDigits digits = true ∧
    valueOf digits = line
  named : file ≠ ""
  oneLine : '\n' ∉ file.toList
  positive : 1 ≤ line
  small : line < wordLimit

/-- The arguments with which a request is made. -/
def Takes (rest : List Char) : Request → Prop
  | .until n | .unwatch n => Numeral n rest
  | .breakAt file line => Place rest file line
  | .watch text | .print text => rest ≠ [] ∧ rest = text.toList
  | .input text => rest = text.toList
  | .go | .step | .next | .finish | .delete | .breakpoints | .watches | .list | .kill | .help
  | .quit => True

/-- A line without the blanks at its ends is one name, or a name up to a blank and an argument. -/
inductive Parted (line : List Char) : List Char → List Char → Prop
  | whole (h : ∀ c ∈ trim line, isBlank c = false) : Parted line (trim line) []
  | cut {head more : List Char} {b : Char} (text : trim line = head ++ b :: more)
      (h : ∀ c ∈ head, isBlank c = false) (hb : isBlank b = true) : Parted line head (trim more)

/-! ### Lines -/

theorem cut_of_parted {line head rest : List Char} (h : Parted line head rest) :
    cut line = (head, rest) := by
  cases h with
  | whole h =>
    have hnone : (trim line).dropWhile (fun c => !isBlank c) = [] :=
      List.dropWhile_eq_nil_iff.mpr fun c hc => by simp [h c hc]
    simp [cut, cutAtBlank, hnone]
  | cut text h hb =>
    have hletters : ∀ c ∈ head, (!isBlank c) = true := fun c hc => by simp [h c hc]
    simp [cut, cutAtBlank, text, List.dropWhile_append_of_pos hletters,
      List.takeWhile_append_of_pos hletters, hb]

theorem parted_cut (line : List Char) : Parted line (cut line).1 (cut line).2 := by
  have hsplit := List.takeWhile_append_dropWhile (p := fun c => !isBlank c) (l := trim line)
  have hletters : ∀ c ∈ (trim line).takeWhile (fun c => !isBlank c), isBlank c = false :=
    fun c hc => by simpa using List.mem_takeWhile_imp hc
  generalize (trim line).takeWhile (fun c => !isBlank c) = head at hsplit hletters
  cases hd : (trim line).dropWhile (fun c => !isBlank c) with
  | nil =>
    rw [hd, List.append_nil] at hsplit
    have hwhole : Parted line (trim line) [] := .whole (hsplit ▸ hletters)
    rwa [cut_of_parted hwhole]
  | cons b more =>
    have hb := List.head?_dropWhile_not (fun c => !isBlank c) (trim line)
    rw [hd] at hsplit hb
    have hcut : Parted line head (trim more) := .cut hsplit.symm hletters (by simpa using hb)
    rwa [cut_of_parted hcut]

/-! ### Arguments -/

theorem unsigned?_eq_some_iff {s : List Char} {n : Nat} : unsigned? s = some n ↔ Numeral n s := by
  constructor
  · intro h
    unfold unsigned? at h
    split at h
    · obtain ⟨h, value, small⟩ := digits?_eq_some_iff.mp h
      exact .signed h value small
    · obtain ⟨h, value, small⟩ := digits?_eq_some_iff.mp h
      exact .bare h value small
  · intro h
    cases h with
    | bare h value small =>
      rw [unsigned?_of_isDigits h]
      exact digits?_eq_some_iff.mpr ⟨h, value, small⟩
    | signed h value small => exact digits?_eq_some_iff.mpr ⟨h, value, small⟩

/-- A place is cut at a colon behind which there is no other. -/
theorem location?_append {file digits : List Char} (h : ':' ∉ digits) {f : String} {line : Nat} :
    location? (file ++ ':' :: digits) = some (f, line) ↔
      f = .ofList file ∧ file ≠ [] ∧ '\n' ∉ file ∧ digits? digits = some line ∧ line ≠ 0 := by
  have hdigits : ∀ c ∈ digits.reverse, (c != ':') = true := by
    intro c hc
    have hne : c ≠ ':' := fun he => h (he ▸ List.mem_reverse.mp hc)
    simpa using hne
  have hcut : (file ++ ':' :: digits).reverse.dropWhile (· != ':') = ':' :: file.reverse ∧
      (file ++ ':' :: digits).reverse.takeWhile (· != ':') = digits.reverse := by
    simp [List.dropWhile_append_of_pos hdigits, List.takeWhile_append_of_pos hdigits]
  unfold location?
  rw [hcut.1, hcut.2, List.reverse_reverse]
  simp only [List.isEmpty_reverse, List.contains_reverse, List.reverse_reverse]
  split_ifs with hbad
  · have hfile : file = [] ∨ '\n' ∈ file := by simpa using hbad
    exact ⟨nofun, fun ⟨_, hne, hfeed, _⟩ => absurd hfile (not_or.mpr ⟨hne, hfeed⟩)⟩
  · have hfile : file ≠ [] ∧ '\n' ∉ file := by simpa using hbad
    split
    · next hnone => simp [hnone]
    · next hzero =>
      rw [hzero]
      exact ⟨nofun, fun ⟨_, _, _, he, hne⟩ => absurd (Option.some.inj he).symm hne⟩
    · next n hzero hn =>
      have hpos : n ≠ 0 := hzero
      rw [hn, Option.some.injEq, Prod.mk.injEq, Option.some.injEq]
      exact ⟨fun ⟨hf, he⟩ => ⟨hf.symm, hfile.1, hfile.2, he, he ▸ hpos⟩,
        fun ⟨hf, _, _, he, _⟩ => ⟨hf.symm, he⟩⟩

theorem colon_not_mem {digits : List Char} (h : isDigits digits = true) : ':' ∉ digits := by
  intro hm
  simp only [isDigits, Bool.and_eq_true, List.all_eq_true] at h
  exact absurd (h.2 ':' hm) (by decide)

/-- A place is cut at the last colon. -/
theorem location?_eq_some_iff {rest : List Char} {file : String} {line : Nat} :
    location? rest = some (file, line) ↔ Place rest file line := by
  constructor
  · intro h
    by_cases hcolon : ':' ∈ rest.reverse
    · -- the last colon is the first from the end
      obtain ⟨digits, name, hrest, hdigits⟩ := List.eq_append_cons_of_mem hcolon
      obtain rfl : rest = name.reverse ++ ':' :: digits.reverse := by
        rw [← List.reverse_reverse rest, hrest]
        simp
      obtain ⟨rfl, hne, hfeed, hread, hpos⟩ :=
        (location?_append fun hm => hdigits (List.mem_reverse.mp hm)).mp h
      obtain ⟨hd, hvalue, hsmall⟩ := digits?_eq_some_iff.mp hread
      exact
        { text := ⟨digits.reverse, by rw [String.toList_ofList], hd, hvalue⟩
          named := fun he => hne (String.ofList_eq.mp he)
          oneLine := by rwa [String.toList_ofList]
          positive := Nat.pos_of_ne_zero hpos
          small := hsmall }
    · have hnone : rest.reverse.dropWhile (· != ':') = [] :=
        List.dropWhile_eq_nil_iff.mpr fun c hc => by
          have hne : c ≠ ':' := fun he => hcolon (he ▸ hc)
          simpa using hne
      rw [location?, hnone] at h
      cases h
  · intro h
    obtain ⟨digits, rfl, hd, hvalue⟩ := h.text
    refine (location?_append (colon_not_mem hd)).mpr ⟨(String.ofList_toList).symm, ?_, h.oneLine,
      digits?_eq_some_iff.mpr ⟨hd, hvalue, h.small⟩, Nat.ne_of_gt h.positive⟩
    exact fun he => h.named (String.toList_eq_nil_iff.mp he)

/-! ### Requests -/

/-- All names of a request mean the same. -/
theorem read_of_mem_names {head : String} {r : Request} (h : head ∈ r.names) (rest : List Char) :
    read head rest = read r.name rest := by
  cases r <;> simp only [names, name, aliases, List.mem_cons, List.not_mem_nil, or_false] at h
  case delete | unwatch | watches | input | kill => exact congrArg (read · rest) h
  case help | quit => obtain rfl | rfl | rfl := h <;> rfl
  all_goals obtain rfl | rfl := h <;> rfl

theorem mem_names_of_read {head : String} {rest : List Char} {r : Request}
    (h : read head rest = some r) : head ∈ r.names := by
  unfold read at h
  -- a name takes no argument, a text, a number or a place
  split at h <;> first
    | (cases h <;> simp [names, name, aliases])
    | (split_ifs at h
       cases h
       simp [names, name, aliases])
    | (obtain ⟨_, -, rfl⟩ := Option.map_eq_some_iff.mp h
       simp [names, name, aliases])

/-- A request is read from the arguments that it takes. -/
theorem read_name_iff {rest : List Char} {r : Request} :
    read r.name rest = some r ↔ Takes rest r := by
  cases r with
  | «until» n | unwatch n => simp [read, name, Takes, unsigned?_eq_some_iff]
  | breakAt file line => simp [read, name, Takes, ← location?_eq_some_iff]
  | watch text | print text => simp [read, name, Takes, String.ofList_eq]
  | input text => simp [read, name, Takes, String.ofList_eq]
  | _ => exact ⟨fun _ => trivial, fun _ => rfl⟩

theorem read_eq_some_iff {head : String} {rest : List Char} {r : Request} :
    read head rest = some r ↔ head ∈ r.names ∧ Takes rest r := by
  constructor
  · intro h
    have hhead := mem_names_of_read h
    exact ⟨hhead, read_name_iff.mp (read_of_mem_names hhead rest ▸ h)⟩
  · rintro ⟨hhead, htakes⟩
    rw [read_of_mem_names hhead]
    exact read_name_iff.mpr htakes

theorem parse_eq_some_iff {line : String} {r : Request} :
    parse line = some r ↔ ∃ head rest,
      Parted line.toList head rest ∧ String.ofList head ∈ r.names ∧ Takes rest r := by
  constructor
  · intro h
    exact ⟨_, _, parted_cut line.toList, read_eq_some_iff.mp h⟩
  · rintro ⟨head, rest, hparted, hread⟩
    rw [parse, cut_of_parted hparted]
    exact read_eq_some_iff.mpr hread

/-! ### Spelling -/

/-- The argument of a request as a user types it. -/
def argument? : Request → Option String
  | .until n | .unwatch n => some (toString n)
  | .breakAt file line => some (file ++ ":" ++ toString line)
  | .watch text | .print text | .input text => some text
  | .go | .step | .next | .finish | .delete | .breakpoints | .watches | .list | .kill | .help
  | .quit => none

/-- A request spelled with one of its names. -/
def spelling (head : String) (r : Request) : String :=
  match r.argument? with
  | none => head
  | some a => head ++ " " ++ a

/-- The requests that can be spelled: numbers in range, and texts with no blank where it would be
trimmed. -/
def Canonical : Request → Prop
  | .until n | .unwatch n => n < wordLimit
  | .breakAt file line => file ≠ "" ∧ '\n' ∉ file.toList ∧
      (∀ c ∈ file.toList.head?, isBlank c = false) ∧ 1 ≤ line ∧ line < wordLimit
  | .watch text | .print text => text ≠ "" ∧ trimmed text = text
  | .input text => trimmed text = text
  | .go | .step | .next | .finish | .delete | .breakpoints | .watches | .list | .kill | .help
  | .quit => True

theorem isWord_of_mem_names {head : String} {r : Request} (h : head ∈ r.names) :
    IsWord head.toList := by
  cases r <;> simp only [names, name, aliases, List.mem_cons, List.not_mem_nil, or_false] at h
  case delete | unwatch | watches | input | kill => exact h ▸ isWord_of_all (by decide)
  case help | quit => obtain rfl | rfl | rfl := h <;> exact isWord_of_all (by decide)
  all_goals obtain rfl | rfl := h <;> exact isWord_of_all (by decide)

theorem cut_name {head : List Char} (h : IsWord head) : cut head = (head, []) := by
  have htrim := trim_word h.letters
  have hparted : Parted head (trim head) [] := .whole (htrim.symm ▸ h.letters)
  rw [cut_of_parted hparted, htrim]

theorem cut_name_append {head : List Char} (h : IsWord head) (a : List Char) :
    cut (head ++ ' ' :: a) = (head, trim a) := by
  have first : ∀ c ∈ head.head?, isBlank c = false :=
    fun c hc => h.letters c (List.mem_of_mem_head? hc)
  by_cases ha : trim a = []
  · -- a blank argument is trimmed with the blank before it, and the name is all that is left
    have hblank : ∀ c ∈ ' ' :: a, isBlank c = true :=
      List.forall_mem_cons.mpr ⟨by decide, trim_eq_nil_iff.mp ha⟩
    have htrim : trim (head ++ ' ' :: a) = head :=
      trim_blanks [] _ (by simp) hblank first fun c hc => h.letters c (List.mem_of_getLast? hc)
    have hparted : Parted (head ++ ' ' :: a) (trim (head ++ ' ' :: a)) [] :=
      .whole (htrim.symm ▸ h.letters)
    rw [cut_of_parted hparted, htrim, ha]
  · obtain ⟨before, after, hsplit, hbefore, hafter⟩ := exists_blanks a
    have last : ∀ c ∈ (trim a).getLast?, isBlank c = false := fun c => isBlank_of_getLast?_trim
    have htrim : trim (head ++ ' ' :: a) = head ++ ' ' :: (before ++ trim a) := by
      have hparts : trim ([] ++ (head ++ ' ' :: (before ++ trim a)) ++ after) =
          head ++ ' ' :: (before ++ trim a) := by
        refine trim_blanks [] after (by simp) hafter ?_ ?_
        · obtain ⟨d, more, rfl⟩ := List.exists_cons_of_ne_nil h.ne_nil
          exact first
        · rw [← List.cons_append, ← List.append_assoc, List.getLast?_append_of_ne_nil _ ha]
          exact last
      rwa [List.nil_append, List.append_assoc, List.cons_append, ← hsplit] at hparts
    have hmore : trim (before ++ trim a) = trim a := by
      have hparts := trim_blanks before [] hbefore (by simp) (fun c => isBlank_of_head?_trim) last
      rwa [List.append_nil] at hparts
    have hparted : Parted (head ++ ' ' :: a) head (trim (before ++ trim a)) :=
      .cut htrim h.letters (by decide)
    rw [cut_of_parted hparted, hmore]

theorem numeral_iff {n : Nat} : Numeral n (trim (toString n).toList) ↔ n < wordLimit := by
  have hdigits := isDigits_toDigits n
  have hlist : (toString n).toList = Nat.toDigits 10 n := String.toList_ofList
  rw [hlist, trim_word (isWord_of_isDigits hdigits).letters, ← unsigned?_eq_some_iff]
  refine ⟨lt_of_unsigned?, fun h => ?_⟩
  rw [unsigned?_of_isDigits hdigits, digits?_toDigits h]

theorem place_iff {file : String} {line : Nat} :
    Place (trim (file ++ ":" ++ toString line).toList) file line ↔
      (breakAt file line).Canonical := by
  have hword := isWord_of_isDigits (isDigits_toDigits line)
  have hlist : (file ++ ":" ++ toString line).toList =
      file.toList ++ ':' :: Nat.toDigits 10 line := by
    simp [String.toList_append]
  rw [hlist]
  constructor
  · intro h
    refine ⟨h.named, h.oneLine, fun c hc => ?_, h.positive, h.small⟩
    obtain ⟨digits, htext, -⟩ := h.text
    apply isBlank_of_head?_trim (s := file.toList ++ ':' :: Nat.toDigits 10 line)
    rw [htext, List.head?_append, hc]
    rfl
  · rintro ⟨named, oneLine, first, positive, small⟩
    refine ⟨⟨Nat.toDigits 10 line, trim_of_ends ?_ ?_, isDigits_toDigits line,
      valueOf_toDigits line⟩, named, oneLine, positive, small⟩
    · obtain ⟨c, more, hfile⟩ :=
        List.exists_cons_of_ne_nil fun he => named (String.toList_eq_nil_iff.mp he)
      rw [hfile] at first ⊢
      exact first
    · intro c hc
      rw [List.getLast?_append_of_ne_nil _ (List.cons_ne_nil _ _),
        List.getLast?_cons_of_ne_nil hword.ne_nil] at hc
      exact hword.letters c (List.mem_of_getLast? hc)

theorem trim_toList_iff {text : String} : trim text.toList = text.toList ↔ trimmed text = text :=
  String.ofList_eq.symm

/-- What trimming leaves of an argument is what the request takes. -/
theorem takes_argument_iff {r : Request} {a : String} (h : r.argument? = some a) :
    Takes (trim a.toList) r ↔ r.Canonical := by
  cases r with
  | «until» n | unwatch n =>
    obtain rfl := Option.some.inj h
    exact numeral_iff
  | breakAt file line =>
    obtain rfl := Option.some.inj h
    exact place_iff
  | watch text | print text =>
    obtain rfl := Option.some.inj h
    rw [Takes, Canonical, trim_toList_iff]
    refine and_congr_left fun htrim => not_congr ?_
    rw [trim_toList_iff.mpr htrim, String.toList_eq_nil_iff]
  | input text =>
    obtain rfl := Option.some.inj h
    exact trim_toList_iff
  | _ => cases h

theorem canonical_of_argument? {r : Request} (h : r.argument? = none) (rest : List Char) :
    Takes rest r ↔ r.Canonical := by
  cases r with
  | «until» | breakAt | watch | unwatch | print | input => cases h
  | _ => exact Iff.rfl

/-- A request can be spelled with any of its names, if its numbers are in range and nothing of its
texts is trimmed. -/
theorem parse_spelling_iff {head : String} {r : Request} (h : head ∈ r.names) :
    parse (r.spelling head) = some r ↔ r.Canonical := by
  have hword := isWord_of_mem_names h
  unfold parse spelling
  cases ha : r.argument? with
  | none =>
    dsimp only
    rw [cut_name hword, read_eq_some_iff, String.ofList_toList, and_iff_right h]
    exact canonical_of_argument? ha []
  | some a =>
    have hlist : (head ++ " " ++ a).toList = head.toList ++ ' ' :: a.toList := by simp
    dsimp only
    rw [hlist, cut_name_append hword, read_eq_some_iff, String.ofList_toList, and_iff_right h]
    exact takes_argument_iff ha

/-- The lines of the grammar are read, each as its own request, and no others. Among them are the
spellings of a request whose numbers are in range and whose texts are not trimmed. -/
theorem parse_iff_grammar :
    (∀ (line : String) (r : Request), parse line = some r ↔ ∃ head rest,
      Parted line.toList head rest ∧ String.ofList head ∈ r.names ∧ Takes rest r) ∧
    ∀ (r : Request), ∀ head ∈ r.names, parse (r.spelling head) = some r ↔ r.Canonical :=
  ⟨fun _ _ => parse_eq_some_iff, fun _ _ h => parse_spelling_iff h⟩

/-- A file may have colons, blanks and digits of its own. -/
theorem parse_iff_grammar_at_last_colon :
    parse "b C:\\work dir\\a:1.p:12" = some (.breakAt "C:\\work dir\\a:1.p" 12) :=
  (parse_iff_grammar.2 (.breakAt "C:\\work dir\\a:1.p" 12) "b" (by decide)).mpr
    ⟨by decide, by decide, by simp; decide, by decide, by decide⟩

end Debugline.Console.Request
