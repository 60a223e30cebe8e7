import DesignToWeb.Proofs.Service.Conversion
import DesignToWeb.Proofs.Text.Trimming

/-!
# The key that a text names

A text names itself, if it is some letters and digits of ASCII and nothing else.
Any other text names the run of letters and digits behind the leftmost marker
that is directly followed by one; blanks around the text do not matter.  A text
that names no key is the one reason for which a conversion is answered with
status 400.
-/

namespace DesignToWeb.Service

open Text (isBlank trimWhile IsTrimOf)

/-! ## Keys and markers -/

/-- Whether characters are some letters and digits and nothing else. -/
structure IsKey (cs : List Char) : Prop where
  ne_nil : cs ≠ []
  isAlphanum : ∀ c ∈ cs, c.isAlphanum = true

/-- Whether characters begin with a marker that is directly followed by a letter or digit. -/
def StartsMarked (cs : List Char) : Prop :=
  ∃ marker ∈ keyMarkers, ∃ c rest, c.isAlphanum = true ∧ cs = marker ++ c :: rest

/-- Whether a key is the longest run of letters and digits behind a marker with which the
characters begin. -/
def IsKeyBehind (marker cs key : List Char) : Prop :=
  IsKey key ∧ ∃ after, cs = marker ++ key ++ after ∧ ∀ c ∈ after.head?, c.isAlphanum = false

/-- Whether a key stands behind the leftmost marker that is directly followed by a letter or
digit. -/
def IsMarkedKey (cs key : List Char) : Prop :=
  ∃ before behind, cs = before ++ behind ∧ (∃ marker ∈ keyMarkers, IsKeyBehind marker behind key) ∧
    ∀ earlier rest, cs = earlier ++ rest → earlier.length < before.length → ¬ StartsMarked rest

theorem isKey_iff {cs : List Char} :
    (!cs.isEmpty && cs.all Char.isAlphanum) = true ↔ IsKey cs := by
  rw [Bool.and_eq_true, Bool.not_eq_true', List.isEmpty_eq_false_iff, List.all_eq_true]
  exact ⟨fun h ↦ ⟨h.1, h.2⟩, fun h ↦ ⟨h.1, h.2⟩⟩

instance (cs : List Char) : Decidable (IsKey cs) := decidable_of_iff _ isKey_iff

/-! ## The key behind one marker -/

/-- A run of letters and digits that does not go on is all of them at the beginning. -/
theorem takeWhile_eq_key {key after : List Char} (hkey : ∀ c ∈ key, c.isAlphanum = true)
    (hafter : ∀ c ∈ after.head?, c.isAlphanum = false) :
    (key ++ after).takeWhile Char.isAlphanum = key := by
  rw [List.takeWhile_append_of_pos hkey]
  cases after with
  | nil => exact List.append_nil key
  | cons c rest =>
      rw [List.takeWhile_cons_of_neg (Bool.eq_false_iff.mp (hafter c rfl)), List.append_nil]

theorem keyBehind?_eq_some_iff {cs marker key : List Char} :
    keyBehind? cs marker = some key ↔ IsKeyBehind marker cs key := by
  unfold keyBehind?
  constructor
  · intro h
    dsimp only at h
    rw [Option.ite_none_right_eq_some, Option.ite_none_left_eq_some,
      List.isPrefixOf_iff_prefix] at h
    obtain ⟨⟨behind, rfl⟩, hne, hkey⟩ := h
    rw [List.drop_left] at hne hkey
    obtain rfl := Option.some.inj hkey
    refine ⟨⟨fun hnil ↦ hne (List.isEmpty_iff.mpr hnil), ?_⟩,
      behind.dropWhile Char.isAlphanum, ?_, Text.head_dropWhile _ _⟩
    · exact List.all_eq_true.mp List.all_takeWhile
    · rw [List.append_assoc, List.takeWhile_append_dropWhile]
  · rintro ⟨hkey, after, rfl, hafter⟩
    have hprefix : marker.isPrefixOf (marker ++ key ++ after) = true := by
      rw [List.isPrefixOf_iff_prefix, List.append_assoc]
      exact List.prefix_append marker _
    have hnonempty : ¬ key.isEmpty = true := fun hnil ↦ hkey.ne_nil (List.isEmpty_iff.mp hnil)
    dsimp only
    rw [if_pos hprefix, List.append_assoc, List.drop_left,
      takeWhile_eq_key hkey.isAlphanum hafter, if_neg hnonempty]

/-- There is a key behind a marker exactly where the marker is directly followed by a letter or
digit. -/
theorem exists_isKeyBehind_iff {cs : List Char} :
    (∃ key, ∃ marker ∈ keyMarkers, IsKeyBehind marker cs key) ↔ StartsMarked cs := by
  constructor
  · rintro ⟨key, marker, hmarker, hkey, after, rfl, _⟩
    obtain ⟨c, more, rfl⟩ := List.exists_cons_of_ne_nil hkey.ne_nil
    exact ⟨marker, hmarker, c, more ++ after, hkey.isAlphanum c List.mem_cons_self,
      List.append_assoc _ _ _⟩
  · rintro ⟨marker, hmarker, c, rest, hc, rfl⟩
    refine ⟨(c :: rest).takeWhile Char.isAlphanum, marker, hmarker, ⟨?_, ?_⟩,
      (c :: rest).dropWhile Char.isAlphanum, ?_, Text.head_dropWhile _ _⟩
    · rw [List.takeWhile_cons_of_pos hc]
      exact List.cons_ne_nil _ _
    · exact List.all_eq_true.mp List.all_takeWhile
    · rw [List.append_assoc, List.takeWhile_append_dropWhile]

/-! ## The leftmost marker -/

theorem not_startsMarked_nil : ¬ StartsMarked [] := by
  rintro ⟨marker, _, c, rest, _, h⟩
  exact List.append_ne_nil_of_right_ne_nil marker (List.cons_ne_nil c rest) h.symm

theorem findSome?_keyBehind?_eq_none_iff {cs : List Char} :
    keyMarkers.findSome? (keyBehind? cs) = none ↔ ¬ StartsMarked cs := by
  rw [List.findSome?_eq_none_iff, ← exists_isKeyBehind_iff]
  simp only [Option.eq_none_iff_forall_ne_some, ne_eq, keyBehind?_eq_some_iff]
  exact ⟨fun h ⟨key, marker, hmarker, hkey⟩ ↦ h marker hmarker key hkey,
    fun h marker hmarker key hkey ↦ h ⟨key, marker, hmarker, hkey⟩⟩

theorem findKey?_eq_none_iff {cs : List Char} :
    findKey? cs = none ↔ ∀ before rest, cs = before ++ rest → ¬ StartsMarked rest := by
  induction cs with
  | nil =>
      refine iff_of_true rfl fun before rest h ↦ ?_
      rw [(List.append_eq_nil_iff.mp h.symm).2]
      exact not_startsMarked_nil
  | cons c cs ih =>
      rw [findKey?, Option.orElse_eq_or, Option.or_eq_none_iff, findSome?_keyBehind?_eq_none_iff, ih]
      constructor
      · rintro ⟨hhere, hlater⟩ before rest h
        cases before with
        | nil =>
            rw [List.nil_append] at h
            exact h ▸ hhere
        | cons b before => exact hlater before rest (List.cons.inj h).2
      · intro h
        exact ⟨h [] _ rfl, fun before rest hrest ↦ h (c :: before) rest (congrArg (c :: ·) hrest)⟩

theorem isMarkedKey_of_findKey? {cs key : List Char} (h : findKey? cs = some key) :
    IsMarkedKey cs key := by
  induction cs with
  | nil => exact nomatch h
  | cons c cs ih =>
      rw [findKey?, Option.orElse_eq_or, Option.or_eq_some_iff] at h
      rcases h with hfound | ⟨hnone, hrest⟩
      · obtain ⟨marker, hmarker, hkey⟩ := List.exists_of_findSome?_eq_some hfound
        exact ⟨[], c :: cs, rfl, ⟨marker, hmarker, keyBehind?_eq_some_iff.mp hkey⟩,
          fun _ _ _ hlt ↦ absurd hlt (Nat.not_lt_zero _)⟩
      · obtain ⟨before, behind, rfl, hkey, hleftmost⟩ := ih hrest
        refine ⟨c :: before, behind, rfl, hkey, fun earlier rest heq hlt ↦ ?_⟩
        cases earlier with
        | nil =>
            rw [List.nil_append] at heq
            exact heq ▸ findSome?_keyBehind?_eq_none_iff.mp hnone
        | cons e earlier =>
            exact hleftmost earlier rest (List.cons.inj heq).2 (Nat.lt_of_succ_lt_succ hlt)

/-- No marker begins with another. -/
theorem eq_of_isPrefix_markers : ∀ marker ∈ keyMarkers, ∀ other ∈ keyMarkers,
    marker.isPrefixOf other = true → marker = other := by
  decide

theorem IsKeyBehind.eq {marker other cs key key' : List Char} (h : IsKeyBehind marker cs key)
    (h' : IsKeyBehind other cs key') (hmarker : marker ∈ keyMarkers) (hother : other ∈ keyMarkers) :
    key = key' := by
  obtain ⟨hkey, after, rfl, hafter⟩ := h
  obtain ⟨hkey', after', heq, hafter'⟩ := h'
  rw [List.append_assoc, List.append_assoc] at heq
  have hsame : marker = other := by
    rcases List.prefix_or_prefix_of_prefix (List.prefix_append marker _)
        (heq ▸ List.prefix_append other _) with hle | hle
    · exact eq_of_isPrefix_markers _ hmarker _ hother (List.isPrefixOf_iff_prefix.mpr hle)
    · exact (eq_of_isPrefix_markers _ hother _ hmarker (List.isPrefixOf_iff_prefix.mpr hle)).symm
  subst hsame
  rw [← takeWhile_eq_key hkey.isAlphanum hafter, List.append_cancel_left heq,
    takeWhile_eq_key hkey'.isAlphanum hafter']

/-- There is one leftmost marker, and one run behind it. -/
theorem IsMarkedKey.eq {cs key key' : List Char} (h : IsMarkedKey cs key)
    (h' : IsMarkedKey cs key') : key = key' := by
  obtain ⟨before, behind, rfl, ⟨marker, hmarker, hkey⟩, hleftmost⟩ := h
  obtain ⟨before', behind', heq, ⟨marker', hmarker', hkey'⟩, hleftmost'⟩ := h'
  have hstarts : StartsMarked behind := exists_isKeyBehind_iff.mp ⟨key, marker, hmarker, hkey⟩
  have hstarts' : StartsMarked behind' := exists_isKeyBehind_iff.mp ⟨key', marker', hmarker', hkey'⟩
  have hlength : before.length = before'.length := by
    refine Nat.le_antisymm (Nat.not_lt.mp fun hlt ↦ ?_) (Nat.not_lt.mp fun hlt ↦ ?_)
    · exact hleftmost before' behind' heq hlt hstarts'
    · exact hleftmost' before behind rfl hlt hstarts
  obtain ⟨rfl, rfl⟩ := List.append_inj heq hlength
  exact hkey.eq hkey' hmarker hmarker'

theorem findKey?_eq_some_iff {cs key : List Char} : findKey? cs = some key ↔ IsMarkedKey cs key := by
  refine ⟨isMarkedKey_of_findKey?, fun h ↦ ?_⟩
  cases hfound : findKey? cs with
  | none =>
      obtain ⟨before, behind, hcs, ⟨marker, hmarker, hkey⟩, _⟩ := h
      have hstarts := exists_isKeyBehind_iff.mp ⟨key, marker, hmarker, hkey⟩
      exact absurd hstarts (findKey?_eq_none_iff.mp hfound before behind hcs)
  | some other => exact congrArg some ((isMarkedKey_of_findKey? hfound).eq h)

/-! ## Keys of texts -/

theorem fileKey?_of_isKey {text : String} (h : IsKey (trimWhile isBlank text.toList)) :
    fileKey? text = some (String.ofList (trimWhile isBlank text.toList)) :=
  if_pos (isKey_iff.mpr h)

theorem fileKey?_of_not_isKey {text : String} (h : ¬ IsKey (trimWhile isBlank text.toList)) :
    fileKey? text = (findKey? (trimWhile isBlank text.toList)).map String.ofList :=
  if_neg fun hall ↦ h (isKey_iff.mp hall)

theorem IsMarkedKey.isKey {cs key : List Char} (h : IsMarkedKey cs key) : IsKey key := by
  obtain ⟨_, _, _, ⟨_, _, hkey, _⟩, _⟩ := h
  exact hkey

theorem isKey_of_fileKey? {text key : String} (h : fileKey? text = some key) : IsKey key.toList := by
  by_cases hbare : IsKey (trimWhile isBlank text.toList)
  · rw [fileKey?_of_isKey hbare] at h
    rwa [← Option.some.inj h, String.toList_ofList]
  · rw [fileKey?_of_not_isKey hbare] at h
    obtain ⟨found, hfound, rfl⟩ := Option.map_eq_some_iff.mp h
    rw [String.toList_ofList]
    exact (findKey?_eq_some_iff.mp hfound).isKey

theorem isBlank_of_isAlphanum {c : Char} (h : c.isAlphanum = true) : isBlank c = false := by
  unfold Char.isAlphanum Char.isAlpha Char.isUpper Char.isLower Char.isDigit at h
  simp only [Bool.or_eq_true, Bool.and_eq_true, decide_eq_true_eq, UInt32.le_iff_toNat_le] at h
  simp only [isBlank, Bool.or_eq_false_iff, Bool.and_eq_false_iff, decide_eq_false_iff_not,
    beq_eq_false_iff_ne, Char.toNat]
  change ((65 ≤ c.val.toNat ∧ c.val.toNat ≤ 90) ∨ (97 ≤ c.val.toNat ∧ c.val.toNat ≤ 122)) ∨
    (48 ≤ c.val.toNat ∧ c.val.toNat ≤ 57) at h
  omega

theorem trimWhile_of_isKey {cs : List Char} (h : IsKey cs) : trimWhile isBlank cs = cs := by
  have hmem : ∀ c ∈ cs, isBlank c = false := fun c hc ↦ isBlank_of_isAlphanum (h.isAlphanum c hc)
  refine IsTrimOf.trimWhile_eq ⟨⟨[], [], ?_, ?_, ?_⟩, fun c hc ↦ ?_, fun c hc ↦ ?_⟩
  · exact fun c hc ↦ absurd hc List.not_mem_nil
  · exact fun c hc ↦ absurd hc List.not_mem_nil
  · rw [List.nil_append, List.append_nil]
  · exact hmem c (List.mem_of_mem_head? hc)
  · exact hmem c (List.mem_of_getLast? hc)

theorem fileKey?_congr {text other : String}
    (h : trimWhile isBlank text.toList = trimWhile isBlank other.toList) :
    fileKey? text = fileKey? other := by
  unfold fileKey?
  rw [h]

theorem fileKey?_around (text : String) {before after : List Char}
    (hbefore : ∀ c ∈ before, isBlank c = true) (hafter : ∀ c ∈ after, isBlank c = true) :
    fileKey? (String.ofList before ++ text ++ String.ofList after) = fileKey? text := by
  apply fileKey?_congr
  have htrim := Text.isTrimOf_trimWhile isBlank text.toList
  obtain ⟨front, back, hfront, hback, heq⟩ := htrim.around
  refine IsTrimOf.trimWhile_eq ⟨⟨before ++ front, back ++ after, ?_, ?_, ?_⟩, htrim.head, htrim.last⟩
  · exact fun c hc ↦ (List.mem_append.mp hc).elim (hbefore c) (hfront c)
  · exact fun c hc ↦ (List.mem_append.mp hc).elim (hback c) (hafter c)
  · rw [String.toList_append, String.toList_append, String.toList_ofList, String.toList_ofList]
    nth_rewrite 1 [heq]
    simp only [List.append_assoc]

/-! ## Rejections -/

theorem status_ofFault_ne (fault : Fault) : (Rejection.ofFault fault).status ≠ 400 := by
  cases fault with
  | serviceFailure status reason =>
      change passedStatus status ≠ 400
      unfold passedStatus
      split_ifs <;> decide
  | documentNoObject | documentWithoutChildren => exact (by decide : 422 ≠ 400)
  | _ => exact (by decide : 500 ≠ 400)

theorem run_convert_invalid_iff {settings : Settings} {request : ConversionRequest}
    {before : Session} :
    (∃ rejection after, (convert settings request).run before = (.error rejection, after) ∧
      rejection.status = 400) ↔ fileKey? request.figmaUrl = none := by
  cases hkey : fileKey? request.figmaUrl with
  | none => exact iff_of_true ⟨_, _, run_convert_of_none hkey before, rfl⟩ rfl
  | some key =>
      refine iff_of_false ?_ nofun
      rintro ⟨rejection, after, hrun, hstatus⟩
      rw [run_convert_of_some hkey] at hrun
      cases hend : ((convertFile settings key request.useCache).outcome before).1 with
      | ok answer => exact nomatch hend ▸ (Prod.mk.inj hrun).1
      | error fault =>
          rw [hend] at hrun
          obtain rfl := Except.error.inj (Prod.mk.inj hrun).1
          exact status_ofFault_ne fault hstatus

/-- A text names itself or the key behind its leftmost marker, without the blanks around it, and if
there is neither of these, it is refused.  A key is always some letters and digits that name
themselves. -/
theorem fileKey?_bare_or_marked (text : String) :
    let cs := (Text.trim text).toList
    IsTrimOf isBlank text.toList cs ∧
      (IsKey cs → fileKey? text = some (String.ofList cs)) ∧
      (¬ IsKey cs → ∀ key, fileKey? text = some key ↔ IsMarkedKey cs key.toList) ∧
      (fileKey? text = none ↔
        ¬ IsKey cs ∧ ∀ before rest, cs = before ++ rest → ¬ StartsMarked rest) ∧
      (∀ settings useCache before,
        (∃ rejection after, (convert settings ⟨text, useCache⟩).run before =
          (.error rejection, after) ∧ rejection.status = 400) ↔ fileKey? text = none) ∧
      (∀ key, fileKey? text = some key → IsKey key.toList ∧ fileKey? key = some key) ∧
      ∀ before after, (∀ c ∈ before, isBlank c = true) → (∀ c ∈ after, isBlank c = true) →
        fileKey? (String.ofList before ++ text ++ String.ofList after) = fileKey? text := by
  intro cs
  have hcs : cs = trimWhile isBlank text.toList := String.toList_ofList
  rw [hcs]
  refine ⟨Text.isTrimOf_trimWhile _ _, fileKey?_of_isKey, fun hbare key ↦ ?_, ?_,
    fun settings useCache before ↦ run_convert_invalid_iff, fun key hkey ↦ ?_,
    fun before after ↦ fileKey?_around text⟩
  · rw [fileKey?_of_not_isKey hbare, Option.map_eq_some_iff]
    constructor
    · rintro ⟨found, hfound, rfl⟩
      rw [String.toList_ofList]
      exact findKey?_eq_some_iff.mp hfound
    · intro h
      exact ⟨key.toList, findKey?_eq_some_iff.mpr h, String.ofList_toList⟩
  · by_cases hbare : IsKey (trimWhile isBlank text.toList)
    · rw [fileKey?_of_isKey hbare]
      exact iff_of_false nofun fun h ↦ h.1 hbare
    · rw [fileKey?_of_not_isKey hbare, Option.map_eq_none_iff, findKey?_eq_none_iff]
      exact (and_iff_right hbare).symm
  · have hown := isKey_of_fileKey? hkey
    have htrim := trimWhile_of_isKey hown
    refine ⟨hown, ?_⟩
    rw [fileKey?_of_isKey (htrim.symm ▸ hown), htrim, String.ofList_toList]

/-- A marker that is followed by another one does not count, and neither does what comes after the
first that counts. -/
example : fileKey? " https://design.example/file//design/Ab1-x/make/Zz9\n" = some "Ab1" := by
  decide +kernel

end DesignToWeb.Service
