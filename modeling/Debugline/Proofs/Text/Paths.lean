import Debugline.Path
import Mathlib.Data.List.Basic

/-! The base name of a path. The last component that names something stands at the beginning or
behind a slash, and behind it only slashes and single dots. It is the base name, unless there is
none or it goes up a directory: then the base name is the whole path. -/

namespace Debugline.Path

/-- A component that names something. -/
structure IsComponent (name : List Char) : Prop where
  ne_nil : name ≠ []
  slash : '/' ∉ name
  dot : name ≠ ['.']

/-- What counts for nothing behind a component. -/
inductive Trailing : List Char → Prop
  | nil : Trailing []
  | slash {rest : List Char} (h : Trailing rest) : Trailing ('/' :: rest)
  | dot {rest : List Char} (h : Trailing rest) : Trailing ('/' :: '.' :: rest)

/-- A component is the last one of a path. -/
inductive Ends : (path name : List Char) → Prop
  | only {name trail : List Char} (h : IsComponent name) (ht : Trailing trail) :
      Ends (name ++ trail) name
  | behind {lead name trail : List Char} (h : IsComponent name) (ht : Trailing trail) :
      Ends (lead ++ '/' :: (name ++ trail)) name

/-- A path has a base name. -/
inductive IsBaseName (path : String) : String → Prop
  | component {name : List Char} (ends : Ends path.toList name) (up : name ≠ ['.', '.']) :
      IsBaseName path (.ofList name)
  | whole (up : ∀ name, Ends path.toList name → name = ['.', '.']) : IsBaseName path path

/-- Two paths have one base name. -/
def SameName (path other : String) : Prop := ∃ name, IsBaseName path name ∧ IsBaseName other name

/-! ### Components -/

theorem components_slash (path rest : List Char) :
    components (path ++ '/' :: rest) = components path ++ components rest := by
  rw [components, List.splitOn_append_cons_self, List.filter_append]
  rfl

theorem components_of_isComponent {name : List Char} (h : IsComponent name) :
    components name = [name] := by
  rw [components, List.splitOn_eq_singleton h.slash]
  simp [h.ne_nil, h.dot]

theorem components_trailing {trail : List Char} (h : Trailing trail) (path : List Char) :
    components (path ++ trail) = components path := by
  induction h generalizing path with
  | nil => rw [List.append_nil]
  | @slash rest _ ih =>
    have hrest : components rest = [] := ih []
    rw [components_slash, hrest, List.append_nil]
  | @dot rest _ ih =>
    have hrest : components ('.' :: rest) = [] := ih ['.']
    rw [components_slash, hrest, List.append_nil]

theorem Trailing.append {trail more : List Char} (h : Trailing trail) (hm : Trailing more) :
    Trailing (trail ++ more) := by
  induction h with
  | nil => exact hm
  | slash _ ih => exact .slash ih
  | dot _ ih => exact .dot ih

theorem Ends.append {path name more : List Char} (h : Ends path name) (hm : Trailing more) :
    Ends (path ++ more) name := by
  cases h with
  | only h ht =>
    rw [List.append_assoc]
    exact .only h (ht.append hm)
  | behind h ht =>
    rw [List.append_assoc, List.cons_append, List.append_assoc]
    exact .behind h (ht.append hm)

theorem Ends.getLast? {path name : List Char} (h : Ends path name) :
    (components path).getLast? = some name := by
  cases h with
  | only h ht => rw [components_trailing ht, components_of_isComponent h, List.getLast?_singleton]
  | behind h ht =>
    rw [components_slash, components_trailing ht, components_of_isComponent h,
      List.getLast?_append, List.getLast?_singleton, Option.some_or]

/-- What is no component counts for nothing behind a slash. -/
theorem trailing_of_not_isComponent {last : List Char} (h : ¬IsComponent last)
    (slash : '/' ∉ last) : Trailing ('/' :: last) := by
  by_cases hn : last = []
  · subst hn
    exact .slash .nil
  · by_cases hd : last = ['.']
    · subst hd
      exact .dot .nil
    · exact absurd ⟨hn, slash, hd⟩ h

/-- A path that names something has a last component. -/
theorem components_eq_nil_or_ends (path : List Char) :
    components path = [] ∨ ∃ name, Ends path name := by
  -- what stands behind the last slash is the last component, or counts for nothing
  induction hn : path.length using Nat.strongRecOn generalizing path with
  | ind n ih =>
    by_cases hs : '/' ∈ path
    · obtain ⟨last, lead, hrev, hlast⟩ := List.eq_append_cons_of_mem (List.mem_reverse.mpr hs)
      obtain rfl : path = lead.reverse ++ '/' :: last.reverse := by
        simpa using congrArg List.reverse hrev
      have hslash : '/' ∉ last.reverse := by simpa using hlast
      by_cases hc : IsComponent last.reverse
      · right
        rw [← List.append_nil last.reverse]
        exact ⟨_, .behind hc .nil⟩
      · have ht := trailing_of_not_isComponent hc hslash
        rw [components_trailing ht]
        have hlt : lead.reverse.length < n := by
          rw [← hn, List.length_append, List.length_cons]
          omega
        rcases ih _ hlt lead.reverse rfl with hnil | ⟨name, he⟩
        · exact .inl hnil
        · exact .inr ⟨name, he.append ht⟩
    · by_cases hc : IsComponent path
      · right
        rw [← List.append_nil path]
        exact ⟨_, .only hc .nil⟩
      · left
        calc components path = components ([] ++ '/' :: path) := (components_slash [] path).symm
          _ = [] := components_trailing (trailing_of_not_isComponent hc hs) []

/-- The last component of a path is the last one that it is split into. -/
theorem getLast?_components_iff {path name : List Char} :
    (components path).getLast? = some name ↔ Ends path name := by
  refine ⟨fun h => ?_, Ends.getLast?⟩
  rcases components_eq_nil_or_ends path with hnil | ⟨other, he⟩
  · simp [hnil] at h
  · obtain rfl : other = name := Option.some.inj (he.getLast?.symm.trans h)
    exact he

/-! ### Base names -/

theorem isBaseName_iff {path name : String} : IsBaseName path name ↔ baseName path = name := by
  constructor
  · rintro (⟨ends, up⟩ | up)
    · unfold baseName
      rw [ends.getLast?]
      split
      · next h => cases h
      · next h => exact absurd (Option.some.inj h) up
      · next h => rw [Option.some.inj h]
    · unfold baseName
      split
      · rfl
      · rfl
      · next last hne hlast =>
        exact absurd (up last (getLast?_components_iff.mp hlast)) hne
  · rintro rfl
    unfold baseName
    split
    · next hnone =>
      refine .whole fun name he => ?_
      simp [he.getLast?] at hnone
    · next hup =>
      refine .whole fun name he => ?_
      exact Option.some.inj (he.getLast?.symm.trans hup)
    · next last hne hlast =>
      exact .component (getLast?_components_iff.mp hlast) hne

theorem sameName_iff {path other : String} :
    SameName path other ↔ baseName path = baseName other := by
  simp only [SameName, isBaseName_iff]
  exact ⟨fun ⟨_, h, h'⟩ => h.trans h'.symm, fun h => ⟨_, h, rfl⟩⟩

end Debugline.Path
