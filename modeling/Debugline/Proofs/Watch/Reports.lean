import Debugline.Proofs.Watch.Naming
import Debugline.Proofs.Wire.RoundTrip

/-! Reports of watches. The debugger reports a watch by the name it was given, and the report is
read by its words: a name comes back as it was sent just when it has no blank inside. -/

namespace Debugline

open Session Wire Text

namespace Watch.Table

variable {t : Table}

theorem lt_length_of_nameOf {row : Nat} (h : t.nameOf row ≠ "") : row < t.rows.length := by
  by_contra hn
  exact h (by simp [nameOf, List.getElem?_eq_none (Nat.le_of_not_lt hn)])

theorem update_of_lt {row : Nat} (h : row < t.rows.length) (name value : String) :
    t.update (row + 1) name value = ({ t with rows := t.rows.set row ⟨name, value⟩ }, some row) :=
  if_pos h

end Watch.Table

namespace Controller

variable {τ : Type} [Transport τ] {row : Nat} {expr name value : String} {tokens : List (List Char)}

/-- What the debugger says of the watch in a row: its name and its value. -/
def report (c : Controller τ) (row : Nat) (name value : String) : String :=
  (Frame.watch (row + 1) name value).body c.config.prompt

/-- A report gives its row the first word of the name; the others go in front of the value. -/
theorem watches_dispatch_report {c : Controller τ} {first : List Char} {more : List (List Char)}
    (there : row < c.watches.rows.length) (hrow : row + 1 < wordLimit)
    (hname : words name.toList = first :: more) (htokens : ∀ t ∈ tokens, IsWord t)
    (hvalue : value.toList = [' '].intercalate tokens)
    (hp : c.report row name value ≠ c.config.prompt) :
    (c.dispatch (c.report row name value)).watches = { c.watches with
      rows := c.watches.rows.set row
        ⟨.ofList first, .ofList ([' '].intercalate (more ++ tokens))⟩ } := by
  have hparse := Frame.parse_watch (Nat.succ_pos row) hrow hname htokens hvalue hp
  unfold dispatch
  rw [report, hparse]
  simp only [apply, Watch.Table.update_of_lt there]
  rfl

omit [Transport τ] in
/-- The name that a row is given has no blanks at its ends. -/
theorem nameOf_of_stored {asked : Controller τ}
    (stored : (∃ c : Controller τ, asked = c.editWatch row expr) ∨
      ∃ c : Controller τ, c.addWatch expr = (asked, row)) :
    asked.watches.nameOf row = trimmed expr := by
  rcases stored with ⟨c, rfl⟩ | ⟨c, h⟩
  · exact (Watch.Table.nameOf_edit _ _ _ _).trans (if_pos rfl)
  · cases h
    exact (Watch.Table.nameOf_edit _ _ _ _).trans (if_pos rfl)

/-- A row that was given a name is sent by that name. The report of it leaves the row its name,
gives it the value and touches no other row, just when the name has no blank inside. -/
theorem report_keeps_row_iff {asked later : Controller τ}
    (stored : (∃ c : Controller τ, asked = c.editWatch row expr) ∨
      ∃ c : Controller τ, c.addWatch expr = (asked, row))
    (named : asked.watches.nameOf row = name) (nonempty : name ≠ "")
    (kept : later.watches.nameOf row = name) (hrow : row + 1 < wordLimit)
    (htokens : ∀ t ∈ tokens, IsWord t) (hvalue : value.toList = [' '].intercalate tokens)
    (hp : later.report row name value ≠ later.config.prompt) :
    later.watches.commandFor row = .setWatch (row + 1) name ∧
      ((later.dispatch (later.report row name value)).watches =
          { later.watches with rows := later.watches.rows.set row ⟨name, value⟩ } ↔
        ∀ c ∈ name.toList, isBlank c = false) := by
  have hempty : name.isEmpty = false := by simpa using nonempty
  have there : row < later.watches.rows.length :=
    Watch.Table.lt_length_of_nameOf (kept.symm ▸ nonempty)
  refine ⟨by simp [Watch.Table.commandFor, kept, hempty], ?_⟩
  -- What was stored is trimmed: its first word begins where it does.
  obtain ⟨c, hhead⟩ : ∃ c, name.toList.head? = some c := by
    have hne : name.toList ≠ [] := by simpa using nonempty
    exact ⟨_, List.head?_eq_some_head hne⟩
  have hblank : isBlank c = false := by
    refine isBlank_of_head?_trim (s := expr.toList) ?_
    rw [← hhead, ← named, nameOf_of_stored stored, trimmed, String.toList_ofList]
  obtain ⟨more, hwords⟩ := words_of_head? hhead hblank
  rw [watches_dispatch_report there hrow hwords htokens hvalue hp]
  constructor
  · intro h
    have hentry := congrArg (fun t : Watch.Table => t.rows[row]?.map (·.name)) h
    simp only [List.getElem?_set_self there, Option.map_some, Option.some.injEq] at hentry
    have hall : name.toList.takeWhile (fun d => !isBlank d) = name.toList := by
      simpa using congrArg String.toList hentry
    intro d hd
    rw [← hall] at hd
    simpa using List.mem_takeWhile_imp hd
  · intro h
    have hword : IsWord name.toList := ⟨by simpa using nonempty, h⟩
    rw [words_of_isWord hword] at hwords
    obtain ⟨hfirst, rfl⟩ := List.cons.inj hwords
    rw [← hfirst, List.nil_append, ← hvalue, String.ofList_toList, String.ofList_toList]

/-- A session in which a watch is added, and sent at a prompt. -/
def watching (expr : String) : Controller Script :=
  (Controller.new .standard (.new .empty)).run [.call (.launch .debug fun _ => .ok (.new true [])),
    .call (.addWatch expr), .meanwhile (·.cue (.writes "\x1b]>dbg> ")), .call .poll]

theorem report_keeps_row_of_word :
    let asked : Controller Script := ((Controller.new .standard (.new .empty)).addWatch " a.b ").1
    let later := watching " a.b "
    (Controller.new .standard (.new .empty)).addWatch " a.b " = (asked, 0) ∧
      asked.watches.nameOf 0 = "a.b" ∧ later.watches.nameOf 0 = "a.b" ∧ 0 + 1 < wordLimit ∧
      (∀ t ∈ [['4'], ['2']], IsWord t) ∧ later.report 0 "a.b" "4 2" ≠ later.config.prompt ∧
      later.watches.commandFor 0 = .setWatch (0 + 1) "a.b" ∧
      (later.dispatch (later.report 0 "a.b" "4 2")).watches =
        { later.watches with rows := later.watches.rows.set 0 ⟨"a.b", "4 2"⟩ } := by
  intro asked later
  have hadd : (Controller.new .standard (.new .empty)).addWatch " a.b " = (asked, 0) := by rfl
  have hasked : asked.watches.nameOf 0 = "a.b" := by decide +kernel
  have hlater : later.watches.nameOf 0 = "a.b" := by decide +kernel
  have hlimit : 0 + 1 < wordLimit := by decide
  have hword : ∀ c, isBlank c = false → IsWord [c] := fun c hc => ⟨by simp, by simp [hc]⟩
  have htokens : ∀ t ∈ [['4'], ['2']], IsWord t := by simp [hword '4' rfl, hword '2' rfl]
  have hp : later.report 0 "a.b" "4 2" ≠ later.config.prompt := by decide +kernel
  obtain ⟨hsent, hkept⟩ := report_keeps_row_iff (.inr ⟨_, hadd⟩) hasked (by decide) hlater hlimit
    htokens (by decide) hp
  have hletters : ∀ c ∈ "a.b".toList, isBlank c = false := by simp [isBlank]
  exact ⟨hadd, hasked, hlater, hlimit, htokens, hp, hsent, hkept.mpr hletters⟩

/-- A sum that was added as a watch comes back as its first word, with the rest in its value. -/
theorem report_not_kept_of_sum :
    let later := watching "a.b + 1"
    .sent .pausedAtPrompt .debug (.command (.setWatch 1 "a.b + 1")) true ∈ later.journal ∧
      later.report 0 "a.b + 1" "5" = "watch1 a.b + 1 5" ∧
      (later.dispatch "watch1 a.b + 1 5").watches.rows = [⟨"a.b", "+ 1 5"⟩, .blank] := by
  decide +kernel

end Controller

end Debugline
