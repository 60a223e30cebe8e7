import DesignToWeb.Service.Store

/-!
# Records of the store

A record takes the place of the one with its key, or is added to the others.
Nothing else happens to the records.
-/

namespace DesignToWeb.Service

/-! ## Records by key -/

theorem mem_upsert {α : Type} {isMatch : α → Bool} {record a : α} {as : List α}
    (h : a ∈ upsert isMatch record as) : a = record ∨ a ∈ as := by
  induction as with
  | nil => exact Or.inl (List.mem_singleton.mp h)
  | cons b rest ih =>
      unfold upsert at h
      split at h
      · rcases List.mem_cons.mp h with rfl | h
        · exact Or.inl rfl
        · exact Or.inr (List.mem_cons_of_mem b h)
      · rcases List.mem_cons.mp h with rfl | h
        · exact Or.inr List.mem_cons_self
        · exact (ih h).imp_right (List.mem_cons_of_mem b)

theorem mem_upsert_self {α : Type} (isMatch : α → Bool) (record : α) (as : List α) :
    record ∈ upsert isMatch record as := by
  induction as with
  | nil => exact List.mem_singleton_self record
  | cons b rest ih =>
      unfold upsert
      split
      · exact List.mem_cons_self
      · exact List.mem_cons_of_mem b ih

/-- What does not match stays. -/
theorem mem_upsert_of_mem {α : Type} {isMatch : α → Bool} {record a : α} {as : List α}
    (ha : a ∈ as) (hmatch : isMatch a = false) : a ∈ upsert isMatch record as := by
  induction as with
  | nil => exact absurd ha List.not_mem_nil
  | cons b rest ih =>
      unfold upsert
      split
      · next hb =>
        rcases List.mem_cons.mp ha with rfl | ha
        · rw [hmatch] at hb
          exact Bool.noConfusion hb
        · exact List.mem_cons_of_mem record ha
      · rcases List.mem_cons.mp ha with rfl | ha
        · exact List.mem_cons_self
        · exact List.mem_cons_of_mem b (ih ha)

/-- A record takes no place among those that it does not belong to. -/
theorem filter_upsert {α : Type} {isMatch p : α → Bool} {record : α} (hrecord : p record = false)
    (hmatch : ∀ a, isMatch a = true → p a = false) (as : List α) :
    (upsert isMatch record as).filter p = as.filter p := by
  induction as with
  | nil => rw [upsert, List.filter_cons, hrecord]; rfl
  | cons a rest ih =>
      rw [upsert]
      split
      · next ha =>
        rw [List.filter_cons, List.filter_cons, hrecord, hmatch a ha]
        rfl
      · rw [List.filter_cons, List.filter_cons, ih]

/-- Where nothing belongs to it, a record is the only one that does. -/
theorem filter_upsert_of_eq_nil {α : Type} {isMatch p : α → Bool} {record : α}
    (hrecord : p record = true) {as : List α} (has : as.filter p = []) :
    (upsert isMatch record as).filter p = [record] := by
  induction as with
  | nil => rw [upsert, List.filter_cons_of_pos hrecord, has]
  | cons a rest ih =>
      obtain ⟨ha, hrest⟩ := List.forall_mem_cons.mp (List.filter_eq_nil_iff.mp has)
      have hrest := List.filter_eq_nil_iff.mpr hrest
      rw [upsert]
      split
      · rw [List.filter_cons_of_pos hrecord, hrest]
      · rw [List.filter_cons_of_neg ha, ih hrest]

section Keys

variable {α κ : Type} [BEq κ] [LawfulBEq κ] (key : α → κ)

theorem find?_upsert (record : α) (k : κ) (as : List α) :
    (upsert (key · == key record) record as).find? (key · == k) =
      if key record == k then some record else as.find? (key · == k) := by
  induction as with
  | nil => rw [upsert, List.find?_singleton, List.find?_nil]
  | cons a rest ih =>
      rw [upsert]
      by_cases ha : (key a == key record) = true
      · rw [if_pos ha, List.find?_cons, List.find?_cons, eq_of_beq ha]
        cases key record == k <;> rfl
      · rw [if_neg ha, List.find?_cons, List.find?_cons, ih]
        cases hk : key a == k with
        | false => rfl
        | true =>
            -- another record has this key, so the saved one does not
            have hne : (key record == k) = false := by
              rw [Bool.eq_false_iff]
              intro hrecord
              rw [eq_of_beq hk, eq_of_beq hrecord, BEq.rfl] at ha
              exact ha rfl
            rw [hne]
            rfl

theorem nodup_upsert (record : α) {as : List α} (h : (as.map key).Nodup) :
    ((upsert (key · == key record) record as).map key).Nodup := by
  induction as with
  | nil => exact List.pairwise_singleton _ _
  | cons a rest ih =>
      rw [List.map_cons, List.nodup_cons] at h
      rw [upsert]
      by_cases ha : (key a == key record) = true
      · rw [if_pos ha, List.map_cons, List.nodup_cons, ← eq_of_beq ha]
        exact h
      · rw [if_neg ha, List.map_cons, List.nodup_cons]
        refine ⟨fun hmem ↦ ?_, ih h.2⟩
        obtain ⟨b, hb, hkey⟩ := List.mem_map.mp hmem
        rcases mem_upsert hb with rfl | hb
        · exact ha (beq_iff_eq.mpr hkey.symm)
        · exact h.1 (List.mem_map.mpr ⟨b, hb, hkey⟩)

end Keys

namespace Store

/-! ## Documents -/

theorem document?_saveDocument (store : Store) (record : StoredDocument) (fileKey : String) :
    (store.saveDocument record).document? fileKey =
      if record.fileKey == fileKey then some record else store.document? fileKey :=
  find?_upsert StoredDocument.fileKey record fileKey store.documents

/-! ## Renders -/

theorem documents_saveRenders (store : Store) (fileKey : String) (images : List (String × String))
    (format : String) (lastModified : Json) :
    (store.saveRenders fileKey images format lastModified).documents = store.documents := by
  induction images generalizing store with
  | nil => rfl
  | cons image rest ih => exact ih (store.saveRender _)

theorem mem_renders_saveRenders {store : Store} {fileKey format : String} {lastModified : Json}
    {images : List (String × String)} {render : StoredRender}
    (h : render ∈ (store.saveRenders fileKey images format lastModified).renders) :
    (∃ image ∈ images, render = ⟨⟨fileKey, image.1, format⟩, lastModified, image.2⟩) ∨
      render ∈ store.renders := by
  induction images generalizing store with
  | nil => exact Or.inr h
  | cons image rest ih =>
      rcases @ih (store.saveRender ⟨⟨fileKey, image.1, format⟩, lastModified, image.2⟩) h with
        ⟨other, hother, hrender⟩ | hsaved
      · exact Or.inl ⟨other, List.mem_cons_of_mem image hother, hrender⟩
      · rcases mem_upsert hsaved with hrender | hbefore
        · exact Or.inl ⟨image, List.mem_cons_self, hrender⟩
        · exact Or.inr hbefore

theorem mem_saveRenders_of_mem {store : Store} {fileKey format : String} {lastModified : Json}
    {images : List (String × String)} {render : StoredRender} (hmem : render ∈ store.renders)
    (hkey : ∀ image ∈ images, render.key ≠ ⟨fileKey, image.1, format⟩) :
    render ∈ (store.saveRenders fileKey images format lastModified).renders := by
  induction images generalizing store with
  | nil => exact hmem
  | cons image rest ih =>
      obtain ⟨hfirst, hrest⟩ := List.forall_mem_cons.mp hkey
      exact ih (mem_upsert_of_mem hmem (decide_eq_false hfirst)) hrest

/-- Renders of different nodes are all there after they have been saved. -/
theorem mem_saveRenders {store : Store} {fileKey format : String} {lastModified : Json}
    {images : List (String × String)} (hnodup : (images.map Prod.fst).Nodup)
    {image : String × String} (himage : image ∈ images) :
    (⟨⟨fileKey, image.1, format⟩, lastModified, image.2⟩ : StoredRender) ∈
      (store.saveRenders fileKey images format lastModified).renders := by
  induction images generalizing store with
  | nil => exact absurd himage List.not_mem_nil
  | cons first rest ih =>
      obtain ⟨hfirst, hrest⟩ := List.nodup_cons.mp hnodup
      rcases List.mem_cons.mp himage with rfl | himage
      · change _ ∈ (saveRenders (store.saveRender _) fileKey rest format lastModified).renders
        refine mem_saveRenders_of_mem (mem_upsert_self _ _ _) fun other hother hkey ↦ ?_
        have hsame : image.1 = other.1 := congrArg RenderKey.nodeId hkey
        rw [hsame] at hfirst
        exact hfirst (List.mem_map_of_mem hother)
      · exact ih hrest himage

/-- The stored renders that are served have the file, the node and the format that were asked for,
and the version as well, if one was given. -/
theorem mem_renders? {store : Store} {fileKey format : String} {nodeIds : List String}
    {lastModified : Json} {image : String × String} :
    image ∈ store.renders? fileKey nodeIds format lastModified ↔
      image.1 ∈ nodeIds ∧ ∃ render ∈ store.renders,
        render.key = ⟨fileKey, image.1, format⟩ ∧ render.data = image.2 ∧
        (lastModified.isGiven = true → render.lastModified.same lastModified = true) := by
  unfold renders?
  rw [List.mem_map]
  simp only [List.mem_filter, isAsked, Bool.and_eq_true, Bool.or_eq_true, beq_iff_eq,
    List.contains_iff_mem, Bool.not_eq_true']
  constructor
  · rintro ⟨render, ⟨hmem, ⟨⟨⟨hfile, hnode⟩, hformat⟩, hversion⟩⟩, rfl⟩
    refine ⟨hnode, render, hmem, ?_, rfl, fun hgiven ↦ ?_⟩
    · rw [← hfile, ← hformat]
    · exact hversion.resolve_left (by rw [hgiven]; exact Bool.noConfusion)
  · rintro ⟨hnode, render, hmem, hkey, hdata, hversion⟩
    refine ⟨render, ⟨hmem, ⟨⟨⟨?_, ?_⟩, ?_⟩, ?_⟩⟩, ?_⟩
    · rw [hkey]
    · rw [hkey]
      exact hnode
    · rw [hkey]
    · cases hgiven : lastModified.isGiven with
      | false => exact Or.inl rfl
      | true => exact Or.inr (hversion hgiven)
    · rw [hkey, hdata]

end Store

end DesignToWeb.Service
