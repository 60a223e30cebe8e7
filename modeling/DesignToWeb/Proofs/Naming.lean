import DesignToWeb.Naming
import DesignToWeb.Proofs.Text.MadeOf

/-!
# The characters of names

Names of elements are made of letters, digits, hyphens and underscores, whatever
the ids hold.  So a class or an address can stand between quotes in a tag or in
a stylesheet without ending it.
-/

namespace DesignToWeb.Naming

open Text (MadeOf)

theorem isSafe_of_isDigit {c : Char} (h : c.isDigit = true) : isSafe c = true := by
  simp [isSafe, Char.isAlphanum, h]

theorem madeOf_safeId (id : String) : MadeOf isSafe (safeId id) := by
  apply MadeOf.ofList
  intro c hc
  obtain ⟨d, _, rfl⟩ := List.mem_map.mp hc
  by_cases hd : isSafe d = true
  · rw [if_pos hd]
    exact hd
  · rw [if_neg hd]
    rfl

def isHexDigit (c : Char) : Bool := c.isDigit || ('a' ≤ c && c ≤ 'f')

theorem isSafe_of_isHexDigit {c : Char} (h : isHexDigit c = true) : isSafe c = true := by
  rw [isHexDigit, Bool.or_eq_true, Bool.and_eq_true, decide_eq_true_eq, decide_eq_true_eq] at h
  rcases h with hdigit | ⟨hlow, hhigh⟩
  · exact isSafe_of_isDigit hdigit
  · have hlower : c.isLower = true :=
      Bool.and_eq_true_iff.mpr
        ⟨decide_eq_true hlow, decide_eq_true (UInt32.le_trans hhigh (by decide))⟩
    have halpha : c.isAlpha = true := Bool.or_eq_true_iff.mpr (Or.inr hlower)
    simp [isSafe, Char.isAlphanum, halpha]

theorem isHexDigit_of_mem_hex {width n : Nat} {c : Char} (hc : c ∈ Text.hex width n) :
    isHexDigit c = true := by
  induction width generalizing n with
  | zero => simp [Text.hex] at hc
  | succ width ih =>
      rw [Text.hex, List.mem_append, List.mem_singleton] at hc
      rcases hc with hc | rfl
      · exact ih hc
      · have hall : ∀ k < 16, isHexDigit (Nat.digitChar k) = true := by decide
        exact hall (n % 16) (Nat.mod_lt n (by decide))

/-- Nothing has to be assumed of the digest: its digits are hexadecimal by construction. -/
theorem isHexDigit_shortDigest (id : String) : MadeOf isHexDigit (shortDigest id) := by
  apply MadeOf.ofList
  intro c hc
  obtain ⟨w, _, hw⟩ := List.mem_flatMap.mp (List.mem_of_mem_take hc)
  exact isHexDigit_of_mem_hex hw

theorem madeOf_shortDigest (id : String) : MadeOf isSafe (shortDigest id) :=
  (isHexDigit_shortDigest id).mono fun _ ↦ isSafe_of_isHexDigit

theorem madeOf_slug (id : String) : MadeOf isSafe (slug id) :=
  ((madeOf_safeId id).append (by decide)).append (madeOf_shortDigest id)

theorem madeOf_cssClass (id : String) : MadeOf isSafe (cssClass id) :=
  MadeOf.append (by decide) (madeOf_slug id)

theorem madeOf_spanClass (id : String) (index : Int) : MadeOf isSafe (spanClass id index) :=
  ((madeOf_cssClass id).append (by decide)).append
    (MadeOf.toString_int (fun _ ↦ isSafe_of_isDigit) rfl index)

/-! ## Assets -/

/-- The characters of the names of assets: those of names, points and the at sign. -/
def isAssetChar (c : Char) : Bool := isSafe c || c == '.' || c == '@'

theorem isAssetChar_of_isSafe {c : Char} (h : isSafe c = true) : isAssetChar c = true := by
  simp [isAssetChar, h]

theorem isAssetChar_of_isAlphanum {c : Char} (h : c.isAlphanum = true) : isAssetChar c = true :=
  isAssetChar_of_isSafe (by simp [isSafe, h])

theorem madeOf_fallbackAsset (id : String) : MadeOf isAssetChar (fallbackAsset id) :=
  ((madeOf_slug id).mono fun _ ↦ isAssetChar_of_isSafe).append (by decide)

theorem madeOf_bitmapAsset (id : String) (scale : Int) {format : String}
    (hformat : MadeOf Char.isAlphanum format) : MadeOf isAssetChar (bitmapAsset id scale format) := by
  have hscale : MadeOf isAssetChar (toString scale) :=
    MadeOf.toString_int (fun _ h ↦ isAssetChar_of_isSafe (isSafe_of_isDigit h)) rfl scale
  have hslug : MadeOf isAssetChar (slug id) :=
    (madeOf_slug id).mono fun _ ↦ isAssetChar_of_isSafe
  exact (((hslug.append (by decide)).append hscale).append (by decide)).append
    (hformat.mono fun _ ↦ isAssetChar_of_isAlphanum)

/-- Whether a text names a file or a directory and nothing else: it is not empty, not one of the
names that lead back, and not a path of several names. -/
def IsPlainName (name : String) : Prop :=
  name ≠ "" ∧ name ≠ "." ∧ name ≠ ".." ∧ '/' ∉ name.toList

theorem isPlainName_of_mem {name : String} {c : Char} (hc : c ∈ name.toList) (hpoint : c ≠ '.')
    (hslash : '/' ∉ name.toList) : IsPlainName name := by
  refine ⟨?_, ?_, ?_, hslash⟩
  · rintro rfl
    simp at hc
  · rintro rfl
    exact hpoint (by simpa using hc)
  · rintro rfl
    exact hpoint (by simpa using hc)

theorem isPlainName_fallbackAsset (id : String) : IsPlainName (fallbackAsset id) := by
  refine isPlainName_of_mem (c := '-') ?_ (by decide) ((madeOf_fallbackAsset id).notMem rfl)
  simp [fallbackAsset, slug, String.toList_append]

theorem isPlainName_bitmapAsset (id : String) (scale : Int) {format : String}
    (hformat : MadeOf Char.isAlphanum format) : IsPlainName (bitmapAsset id scale format) := by
  refine isPlainName_of_mem (c := '-') ?_ (by decide)
    ((madeOf_bitmapAsset id scale hformat).notMem rfl)
  simp [bitmapAsset, slug, String.toList_append]

theorem slug_eq_of_fallbackAsset_eq {i j : String} (h : fallbackAsset i = fallbackAsset j) :
    slug i = slug j :=
  (String.append_left_inj ".svg").mp h

/-- Only the names of bitmaps hold an at sign. -/
theorem ne_bitmapAsset_of_notMem {name : String} (h : '@' ∉ name.toList) (scale : Int)
    (id format : String) : name ≠ bitmapAsset id scale format := by
  rintro rfl
  exact h (by simp [bitmapAsset])

theorem fallbackAsset_ne_bitmapAsset (i j : String) (scale : Int) (format : String) :
    fallbackAsset i ≠ bitmapAsset j scale format := by
  have hmade : MadeOf (· != '@') (fallbackAsset i) := by
    refine MadeOf.append ((madeOf_slug i).mono fun c hc ↦ ?_) (by decide)
    rw [bne_iff_ne]
    rintro rfl
    exact Bool.noConfusion hc
  exact ne_bitmapAsset_of_notMem (hmade.notMem rfl) scale j format

/-! ## Addresses -/

/-- The characters of addresses: those of names, points, slashes and the at sign. -/
def isAddressChar (c : Char) : Bool := isSafe c || c == '.' || c == '/' || c == '@'

theorem isAddressChar_of_isSafe {c : Char} (h : isSafe c = true) : isAddressChar c = true := by
  simp [isAddressChar, h]

theorem isAddressChar_of_isAssetChar {c : Char} (h : isAssetChar c = true) :
    isAddressChar c = true := by
  unfold isAssetChar at h
  unfold isAddressChar
  rw [Bool.or_right_comm, h, Bool.true_or]

theorem madeOf_fallbackAddress (id : String) : MadeOf isAddressChar (fallbackAddress id) :=
  MadeOf.append (by decide) ((madeOf_fallbackAsset id).mono fun _ ↦ isAddressChar_of_isAssetChar)

theorem madeOf_bitmapAddress (id : String) (scale : Int) :
    MadeOf isAddressChar (bitmapAddress id scale) :=
  MadeOf.append (by decide)
    ((madeOf_bitmapAsset id scale (by decide)).mono fun _ ↦ isAddressChar_of_isAssetChar)

end DesignToWeb.Naming
