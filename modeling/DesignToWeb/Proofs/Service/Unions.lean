import DesignToWeb.Proofs.Design.Addresses
import DesignToWeb.Proofs.Service.Asking

/-!
# Unions of addresses

Answers that hold an object each are put together into one table.  It has every key of
any of them once, with the value of the last one that has it.
-/

namespace DesignToWeb

namespace Attributes

theorem mem_keys_set {key other : String} {value : Json} {a : Attributes} :
    other ∈ (a.set key value).fields.map Prod.fst ↔
      other = key ∨ other ∈ a.fields.map Prod.fst := by
  obtain ⟨fields⟩ := a
  unfold set
  induction fields with
  | nil => rw [insertField, List.map_cons, List.mem_cons]
  | cons field rest ih =>
      obtain ⟨k, v⟩ := field
      unfold insertField
      split
      · next heq =>
        rw [List.map_cons, List.map_cons, List.mem_cons, heq, or_self_left]
      · rw [List.map_cons, List.mem_cons, ih, List.map_cons, List.mem_cons, or_left_comm]

theorem nodup_keys_set (key : String) (value : Json) {a : Attributes}
    (h : (a.fields.map Prod.fst).Nodup) : ((a.set key value).fields.map Prod.fst).Nodup := by
  obtain ⟨fields⟩ := a
  induction fields with
  | nil => exact List.pairwise_singleton _ key
  | cons field rest ih =>
      obtain ⟨k, v⟩ := field
      obtain ⟨hk, hrest⟩ := List.nodup_cons.mp h
      have hset := ih hrest
      unfold set insertField
      split
      · exact h
      · next hne =>
        refine List.nodup_cons.mpr ⟨fun hmem ↦ ?_, hset⟩
        exact (mem_keys_set.mp hmem).elim hne hk

end Attributes

/-- Whether a table has every key of some fields once, with the last value that is given for it. -/
structure HoldsLast (fields : List (String × Json)) (table : Attributes) : Prop where
  nodup : (table.fields.map Prod.fst).Nodup
  get?_eq (key : String) : table.get? key = fields.reverse.lookup key

theorem holdsLast_nil : HoldsLast [] .empty where
  nodup := List.nodup_nil
  get?_eq _ := rfl

theorem HoldsLast.set {fields : List (String × Json)} {table : Attributes}
    (h : HoldsLast fields table) (key : String) (value : Json) :
    HoldsLast (fields ++ [(key, value)]) (table.set key value) where
  nodup := Attributes.nodup_keys_set key value h.nodup
  get?_eq other := by
    rw [List.reverse_append, List.reverse_singleton, List.singleton_append, Attributes.get?_set,
      h.get?_eq]
    by_cases hother : other = key
    · rw [if_pos hother, List.lookup_cons, beq_iff_eq.mpr hother]
    · rw [if_neg hother, List.lookup_cons, beq_eq_false_iff_ne.mpr hother]

namespace Service

namespace RenderUrls

def ofTable (table : Attributes) : RenderUrls := table.fields.map fun (k, url) ↦ (.str k, url)

theorem insert_ofTable (table : Attributes) (key : String) (url : Json) :
    (ofTable table).insert (.str key) url = ofTable (table.set key url) := by
  obtain ⟨fields⟩ := table
  induction fields with
  | nil => rfl
  | cons field rest ih =>
      obtain ⟨k, u⟩ := field
      change insert ((.str k, u) :: ofTable ⟨rest⟩) (.str key) url =
        ofTable ⟨Attributes.insertField key url ((k, u) :: rest)⟩
      rw [insert, ih, Attributes.insertField, Json.alike]
      by_cases hk : k = key
      · rw [if_pos hk, if_pos (beq_iff_eq.mpr hk)]
        rfl
      · rw [if_neg hk, if_neg (mt eq_of_beq hk)]
        rfl

/-- What is merged into the last values of some fields are the last values with more fields. -/
theorem exists_merge_ofTable {fields : List (String × Json)} {table : Attributes}
    (h : HoldsLast fields table) (more : Attributes) :
    ∃ all, (ofTable table).merge (ofTable more) = ofTable all ∧
      HoldsLast (fields ++ more.fields) all := by
  obtain ⟨entries⟩ := more
  induction entries generalizing fields table with
  | nil => exact ⟨table, rfl, by rwa [List.append_nil]⟩
  | cons entry rest ih =>
      obtain ⟨all, hmerge, hall⟩ := ih (h.set entry.1 entry.2)
      refine ⟨all, ?_, by rwa [List.append_assoc] at hall⟩
      rw [← hmerge, ← insert_ofTable]
      rfl

end RenderUrls

/-! ## Answers -/

namespace Response

/-- What stands in an answer for the images. -/
def imagesField (r : Response) : Json :=
  ((r.json.toOption.bind Json.attributes?).map (·.get "images")).getD .null

/-- Whether an answer holds an object for the images, or nothing. -/
def HoldsImages (r : Response) : Prop :=
  r.imagesField.isGiven = true → r.imagesField.attributes?.isSome = true

def images (r : Response) : Attributes := r.imagesField.attributes

theorem ofAnswer_imagesField {r : Response} {urls : RenderUrls} (h : answeredUrls r = .ok urls) :
    RenderUrls.ofAnswer r.imagesField = .ok urls := by
  rw [answeredUrls_eq] at h
  unfold imagesField
  cases hbody : r.json with
  | error fault =>
      rw [hbody] at h
      exact nomatch h
  | ok body =>
      change RenderUrls.ofAnswer ((body.attributes?.map (·.get "images")).getD .null) = _
      cases hfields : body.attributes? with
      | none =>
          simp only [hbody, hfields] at h
          exact nomatch h
      | some fields =>
          simp only [hbody, hfields] at h
          split at h
          · exact nomatch h
          · exact h

theorem eq_ofTable_of_answeredUrls {r : Response} {urls : RenderUrls}
    (h : answeredUrls r = .ok urls) (hholds : r.HoldsImages) :
    urls = RenderUrls.ofTable r.images := by
  have hanswer := ofAnswer_imagesField h
  unfold HoldsImages images at *
  generalize r.imagesField = field at hanswer hholds ⊢
  unfold RenderUrls.ofAnswer at hanswer
  cases field with
  | obj fields =>
      split at hanswer
      · next hnone =>
        have hempty : fields = [] := by simpa [Json.isGiven] using hnone
        rw [← Except.ok.inj hanswer, hempty]
        rfl
      · exact (Except.ok.inj hanswer).symm
  | null | bool _ | int _ | float _ | nan | str _ | arr _ =>
      have hnone : ¬ Json.isGiven _ = true := fun hgiven ↦ Bool.noConfusion (hholds hgiven)
      rw [Bool.not_eq_true] at hnone
      rw [hnone] at hanswer
      exact (Except.ok.inj hanswer).symm

theorem addresses?_eq_ofTable {r : Response} (h : (Reply.response r).addresses?.isSome = true)
    (hholds : r.HoldsImages) :
    (Reply.response r).addresses? = some (RenderUrls.ofTable r.images) := by
  unfold Reply.addresses? at *
  dsimp only at *
  split at h
  · exact Bool.noConfusion h
  · next hrefusal =>
    rw [if_neg hrefusal]
    cases hurls : answeredUrls r with
    | error fault =>
        rw [hurls] at h
        exact Bool.noConfusion h
    | ok urls => exact congrArg some (eq_ofTable_of_answeredUrls hurls hholds)

end Response
end Service
end DesignToWeb
