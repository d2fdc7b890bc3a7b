import Debugline.Proofs.Editor.Places

/-! What is left as it was in documents. A document that was open is where it was, with its path,
its lines and its markers of some kinds; one that was opened since stands behind all others and has
no markers of these kinds. -/

namespace Debugline

/-! ### Sets of lines -/

namespace LineSet

theorem ext_mem {s t : LineSet} (h : ∀ line, line ∈ s.toList ↔ line ∈ t.toList) : s = t := by
  have hperm : s.toList.Perm t.toList :=
    (List.perm_ext_iff_of_nodup (s.ascending.imp Nat.ne_of_lt) (t.ascending.imp Nat.ne_of_lt)).mpr h
  have heq : s.toList = t.toList :=
    hperm.eq_of_pairwise (fun _ _ _ _ hab hba => absurd hab (Nat.lt_asymm hba)) s.ascending
      t.ascending
  cases s
  cases t
  cases heq
  rfl

@[simp]
theorem mem_insert {s : LineSet} {line x : Nat} :
    x ∈ (s.insert line).toList ↔ x = line ∨ x ∈ s.toList := mem_insertInto

@[simp]
theorem mem_erase {s : LineSet} {line x : Nat} :
    x ∈ (s.erase line).toList ↔ x ∈ s.toList ∧ x ≠ line := by
  simp [erase]

theorem erase_insert {s : LineSet} {line : Nat} (h : line ∉ s.toList) :
    (s.insert line).erase line = s := by
  refine ext_mem fun x => ?_
  rw [mem_erase, mem_insert]
  constructor
  · rintro ⟨rfl | hx, hne⟩
    · exact absurd rfl hne
    · exact hx
  · intro hx
    exact ⟨.inr hx, fun he => h (he ▸ hx)⟩

theorem insert_erase {s : LineSet} {line : Nat} (h : line ∈ s.toList) :
    (s.erase line).insert line = s := by
  refine ext_mem fun x => ?_
  rw [mem_insert, mem_erase]
  constructor
  · rintro (rfl | ⟨hx, -⟩)
    · exact h
    · exact hx
  · intro hx
    by_cases he : x = line
    · exact .inl he
    · exact .inr ⟨hx, he⟩

end LineSet

/-! ### Documents -/

/-- The same path, the same lines and the same markers of some kinds. -/
structure Document.Alike (kinds : List MarkerKind) (d d' : Document) : Prop where
  path : d'.path = d.path
  lines : d'.lines = d.lines
  markers : ∀ kind ∈ kinds, d'.markers kind = d.markers kind

namespace Document.Alike

variable {kinds : List MarkerKind}

theorem refl (d : Document) : Alike kinds d d := ⟨rfl, rfl, fun _ _ => rfl⟩

theorem trans {d d' d'' : Document} (h : Alike kinds d d') (h' : Alike kinds d' d'') :
    Alike kinds d d'' :=
  ⟨h'.path.trans h.path, h'.lines.trans h.lines,
    fun kind hk => (h'.markers kind hk).trans (h.markers kind hk)⟩

theorem setMarkers (d : Document) {kind : MarkerKind} (h : kind ∉ kinds) (s : LineSet) :
    Alike kinds d (d.setMarkers kind s) := by
  refine ⟨Editor.path_setMarkers d kind s, by cases kind <;> rfl, fun other ho => ?_⟩
  rw [markers_setMarkers, if_neg]
  rintro rfl
  exact h ho

end Document.Alike

namespace Editor

variable {kinds : List MarkerKind}

/-- Documents are where they were and as they were, but for markers of other kinds. -/
structure Intact (kinds : List MarkerKind) (e e' : Editor) : Prop where
  length : e.slots.length ≤ e'.slots.length
  stays : ∀ doc d, e.doc? doc = some d → ∃ d', e'.doc? doc = some d' ∧ d.Alike kinds d'
  opened : ∀ doc d', e'.doc? doc = some d' → e.doc? doc = none →
    e.slots.length ≤ doc ∧ ∀ kind ∈ kinds, d'.markers kind = .empty

namespace Intact

theorem refl (e : Editor) : Intact kinds e e where
  length := Nat.le_refl _
  stays _ d hd := ⟨d, hd, .refl d⟩
  opened _ _ hd hn := by
    rw [hd] at hn
    cases hn

theorem trans {e e' e'' : Editor} (h : Intact kinds e e') (h' : Intact kinds e' e'') :
    Intact kinds e e'' where
  length := h.length.trans h'.length
  stays doc d hd := by
    obtain ⟨d', hd', ha⟩ := h.stays doc d hd
    obtain ⟨d'', hd'', ha'⟩ := h'.stays doc d' hd'
    exact ⟨d'', hd'', ha.trans ha'⟩
  opened doc d'' hd'' hn := by
    cases hd' : e'.doc? doc with
    | some d' =>
      obtain ⟨hlt, hnone⟩ := h.opened doc d' hd' hn
      obtain ⟨d, hd, ha⟩ := h'.stays doc d' hd'
      obtain rfl := Option.some.inj (hd.symm.trans hd'')
      exact ⟨hlt, fun kind hk => (ha.markers kind hk).trans (hnone kind hk)⟩
    | none =>
      obtain ⟨hlt, hnone⟩ := h'.opened doc d'' hd'' hd'
      exact ⟨h.length.trans hlt, hnone⟩

theorem modifyDoc (e : Editor) (changed : DocId) {f : Document → Document}
    (h : ∀ d, Document.Alike kinds d (f d)) : Intact kinds e (e.modifyDoc changed f) where
  length := by simp [Editor.modifyDoc]
  stays doc d hd := by
    rw [doc?_modifyDoc, hd]
    split_ifs
    · exact ⟨f d, rfl, h d⟩
    · exact ⟨d, rfl, .refl d⟩
  opened doc d' hd' hn := by
    have hnone : (e.modifyDoc changed f).doc? doc = none := by simp [doc?_modifyDoc, hn]
    rw [hnone] at hd'
    cases hd'

theorem addMarker (e : Editor) {kind : MarkerKind} (h : kind ∉ kinds) (doc : DocId) (line : Nat) :
    Intact kinds e (e.addMarker doc line kind) :=
  modifyDoc e doc fun d => .setMarkers d h _

theorem removeMarker (e : Editor) {kind : MarkerKind} (h : kind ∉ kinds) (doc : DocId)
    (line : Nat) : Intact kinds e (e.removeMarker doc line kind) :=
  modifyDoc e doc fun d => .setMarkers d h _

theorem scrollTo (e : Editor) (doc : DocId) (line : Nat) :
    Intact kinds e (e.scrollTo doc line) :=
  modifyDoc e doc fun d => ⟨rfl, rfl, fun kind _ => by cases kind <;> rfl⟩

theorem openText (e : Editor) (path text : String) : Intact kinds e (e.openText path text).1 where
  length := by simp [Editor.openText]
  stays doc d hd := by
    rw [doc?_eq_some_iff] at hd
    refine ⟨d, ?_, .refl d⟩
    rw [doc?_eq_some_iff, Editor.openText,
      List.getElem?_append_left (List.getElem?_eq_some_iff.mp hd).1, hd]
  opened doc d' hd' hn := by
    have hge : e.slots.length ≤ doc := by
      by_contra hlt
      have he : (e.openText path text).1.doc? doc = e.doc? doc := by
        simp only [doc?, Editor.openText, List.getElem?_append_left (Nat.lt_of_not_le hlt)]
      rw [he, hn] at hd'
      cases hd'
    refine ⟨hge, fun kind _ => ?_⟩
    rw [doc?_eq_some_iff, Editor.openText, List.getElem?_append_right hge] at hd'
    have hd : d' = .new path text := by
      cases hi : doc - e.slots.length with
      | zero => simpa [hi] using hd'.symm
      | succ => simp [hi] at hd'
    rw [hd]
    cases kind <;> rfl

theorem locateOrOpen (e : Editor) (path : String) : Intact kinds e (e.locateOrOpen path).1 := by
  rcases e.locateOrOpen_cases path with ⟨-, ho⟩ | ⟨_, -, ho⟩ | ⟨-, -, ho⟩
  · rw [ho]
    exact .refl e
  · rw [ho]
    exact .refl e
  · rw [ho]
    exact .openText e path _

/-- The markers of the kinds that are left alone, over all documents. -/
theorem markers {e e' : Editor} (h : Intact kinds e e') {kind : MarkerKind} (hk : kind ∈ kinds)
    (doc : DocId) : e'.markers doc kind = e.markers doc kind := by
  unfold Editor.markers
  cases hd : e.doc? doc with
  | some d =>
    obtain ⟨d', hd', ha⟩ := h.stays doc d hd
    rw [hd', Option.map_some, Option.map_some, ha.markers kind hk]
  | none =>
    cases hd' : e'.doc? doc with
    | none => rfl
    | some d' =>
      rw [Option.map_some, (h.opened doc d' hd' hd).2 kind hk]
      rfl

end Intact

/-! ### Breakpoints set and removed -/

theorem modifyDoc_modifyDoc (e : Editor) (doc : DocId) {f g : Document → Document}
    (h : ∀ d, e.doc? doc = some d → g (f d) = d) :
    (e.modifyDoc doc f).modifyDoc doc g = e := by
  have hslots : ((e.slots.modify doc (·.map f)).modify doc (·.map g)) = e.slots := by
    refine List.ext_getElem? fun i => ?_
    simp only [List.getElem?_modify]
    by_cases hi : doc = i
    · subst hi
      rcases hs : e.slots[doc]? with _ | _ | d
      · rfl
      · simp
      · simp [h d (doc?_eq_some_iff.mpr hs)]
    · simp [hi]
  simp only [modifyDoc, hslots]

/-- A marker that is set and removed, or removed and set, leaves nothing behind. -/
theorem removeMarker_addMarker {e : Editor} {doc : DocId} {line : Nat} {kind : MarkerKind}
    (h : e.hasMarker doc line kind = false) :
    (e.addMarker doc line kind).removeMarker doc line kind = e := by
  refine e.modifyDoc_modifyDoc doc fun d hd => ?_
  have hline : line ∉ (d.markers kind).toList := fun hmem => by
    rw [hasMarker_iff_doc?.mpr ⟨d, hd, hmem⟩] at h
    cases h
  rw [Document.markers_setMarkers, if_pos rfl, LineSet.erase_insert hline]
  cases kind <;> rfl

theorem addMarker_removeMarker {e : Editor} {doc : DocId} {line : Nat} {kind : MarkerKind}
    (h : e.hasMarker doc line kind) :
    (e.removeMarker doc line kind).addMarker doc line kind = e := by
  refine e.modifyDoc_modifyDoc doc fun d hd => ?_
  obtain ⟨d', hd', hline⟩ := hasMarker_iff_doc?.mp h
  obtain rfl := Option.some.inj (hd.symm.trans hd')
  rw [Document.markers_setMarkers, if_pos rfl, LineSet.insert_erase hline]
  cases kind <;> rfl

theorem hasMarker_removeAll_iff {e : Editor} {lines : List Nat} {doc doc' : DocId} {line : Nat}
    {kind : MarkerKind} :
    (lines.foldl (fun e line => e.removeMarker doc line kind) e).hasMarker doc' line kind ↔
      e.hasMarker doc' line kind ∧ ¬ (doc' = doc ∧ line ∈ lines) := by
  induction lines generalizing e with
  | nil => simp
  | cons first lines ih =>
    rw [List.foldl_cons, ih, hasMarker_removeMarker_iff, List.mem_cons]
    tauto

theorem mem_documents_of_hasMarker {e : Editor} {doc : DocId} {line : Nat} {kind : MarkerKind}
    (h : e.hasMarker doc line kind) : doc ∈ e.documents := by
  obtain ⟨d, hd, -⟩ := hasMarker_iff_doc?.mp h
  exact List.mem_map.mpr ⟨(doc, d), mem_opened.mpr hd, rfl⟩

end Editor

namespace Breakpoint.Schedule

variable {e : Editor} {doc doc' : DocId} {line line' : Nat}

theorem toggle_set (s : Schedule) (e : Editor) (doc : DocId) (line : Nat) :
    (s.toggle e doc line).2.2 = !e.hasMarker doc line .breakpoint := by
  unfold toggle
  split
  · next h => rw [h]; rfl
  · next h => rw [Bool.not_eq_true] at h; rw [h]; rfl

/-- Of the breakpoints of all documents, one is flipped. -/
theorem hasMarker_toggle (s : Schedule) (there : (e.doc? doc).isSome) :
    (s.toggle e doc line).2.1.hasMarker doc' line' .breakpoint =
      (e.hasMarker doc' line' .breakpoint ^^ decide (doc' = doc ∧ line' = line)) := by
  have hpath : (e.path? doc).isSome := by simpa [Editor.path?] using there
  unfold toggle
  rw [Bool.eq_iff_iff, Bool.xor_iff_ne]
  split
  · next h =>
    rw [Editor.hasMarker_removeMarker_iff]
    by_cases hx : doc' = doc ∧ line' = line
    · obtain ⟨rfl, rfl⟩ := hx
      simp [h]
    · simp [hx]
  · next h =>
    rw [Editor.hasMarker_addMarker_iff]
    by_cases hx : doc' = doc ∧ line' = line
    · obtain ⟨rfl, rfl⟩ := hx
      simp_all
    · simp [hx]

/-- A breakpoint that is flipped twice is as it was, and so is all else. -/
theorem toggle_toggle (s s' : Schedule) (there : (e.doc? doc).isSome) :
    (s'.toggle (s.toggle e doc line).2.1 doc line).2.1 = e := by
  have hflip : (s.toggle e doc line).2.1.hasMarker doc line .breakpoint =
      (e.hasMarker doc line .breakpoint ^^ decide (doc = doc ∧ line = line)) :=
    hasMarker_toggle s there
  cases h : e.hasMarker doc line .breakpoint with
  | true =>
    have hs : (s.toggle e doc line).2.1 = e.removeMarker doc line .breakpoint := by
      rw [toggle, if_pos h]
    rw [hs] at hflip ⊢
    rw [toggle, if_neg (by simp [hflip, h])]
    exact Editor.addMarker_removeMarker h
  | false =>
    have hs : (s.toggle e doc line).2.1 = e.addMarker doc line .breakpoint := by
      rw [toggle, if_neg (by simp [h])]
    rw [hs] at hflip ⊢
    rw [toggle, if_pos (by simp [hflip, h])]
    exact Editor.removeMarker_addMarker h

theorem hasMarker_clearAll (s : Schedule) (e : Editor) (doc : DocId) (line : Nat) :
    (s.clearAll e).2.hasMarker doc line .breakpoint = false := by
  have hunmark (docs : List DocId) (e : Editor) (h : ((docs.foldl (fun e doc =>
      (e.markers doc .breakpoint).foldl (fun e line => e.removeMarker doc line .breakpoint) e)
      e).hasMarker doc line .breakpoint) = true) :
      e.hasMarker doc line .breakpoint ∧ doc ∉ docs := by
    induction docs generalizing e with
    | nil => exact ⟨h, List.not_mem_nil⟩
    | cons first docs ih =>
      obtain ⟨hafter, hn⟩ := ih _ h
      obtain ⟨hm, hfirst⟩ := Editor.hasMarker_removeAll_iff.mp hafter
      refine ⟨hm, fun hmem => ?_⟩
      rcases List.mem_cons.mp hmem with he | hmem
      · exact hfirst ⟨he, List.contains_iff_mem.mp (he ▸ hm)⟩
      · exact hn hmem
  rw [Bool.eq_false_iff]
  intro h
  obtain ⟨hm, hn⟩ := hunmark e.documents e h
  exact hn (Editor.mem_documents_of_hasMarker hm)

theorem toggle_intact (s : Schedule) (e : Editor) (doc : DocId) (line : Nat) :
    Editor.Intact [.bookmark] e (s.toggle e doc line).2.1 := by
  unfold toggle
  split
  · exact .removeMarker e (by decide) doc line
  · exact .addMarker e (by decide) doc line

theorem clearAll_intact (s : Schedule) (e : Editor) :
    Editor.Intact [.bookmark] e (s.clearAll e).2 := by
  have hlines (lines : List Nat) (doc : DocId) (e : Editor) : Editor.Intact [.bookmark] e
      (lines.foldl (fun e line => e.removeMarker doc line .breakpoint) e) := by
    induction lines generalizing e with
    | nil => exact .refl e
    | cons line lines ih => exact .trans (.removeMarker e (by decide) doc line) (ih _)
  unfold clearAll
  dsimp only
  generalize e.documents = docs
  induction docs generalizing e with
  | nil => exact .refl e
  | cons doc docs ih => exact .trans (hlines _ doc e) (ih _)

end Breakpoint.Schedule

end Debugline
