import DesignToWeb.Proofs.Naming
import DesignToWeb.Proofs.Text.Numeral

/-!
# Reading names back

An id can hold whatever separates the parts of a name, so that it looks like the name of
another element's span.  Read from the right end, a name falls into its parts in one way
all the same: a digest has no hyphen, and the number of a span no underscore.  In the
name of a bitmap the at sign is the first, and the number before the next letter is the
scale.
-/

namespace DesignToWeb

namespace Text

variable {c : Char} {xs ys us vs : List Char}

/-- Texts are cut in one way at the first of their separators. -/
theorem append_cons_inj_of_first (hxs : c ∉ xs) (hus : c ∉ us) :
    xs ++ c :: ys = us ++ c :: vs ↔ xs = us ∧ ys = vs := by
  constructor
  · intro h
    rcases List.append_eq_append_iff.mp h with ⟨more, hus', hrest⟩ | ⟨more, hxs', hrest⟩
    · cases more with
      | nil => exact ⟨(hus'.trans (List.append_nil xs)).symm, (List.cons_eq_cons.mp hrest).2⟩
      | cons d more =>
          obtain ⟨rfl, _⟩ := List.cons_eq_cons.mp hrest
          exact absurd (by rw [hus']; simp) hus
    · cases more with
      | nil => exact ⟨hxs'.trans (List.append_nil us), (List.cons_eq_cons.mp hrest).2.symm⟩
      | cons d more =>
          obtain ⟨rfl, _⟩ := List.cons_eq_cons.mp hrest
          exact absurd (by rw [hxs']; simp) hxs
  · rintro ⟨rfl, rfl⟩
    rfl

/-- Texts are cut in one way at the last of their separators. -/
theorem append_cons_inj_of_last (hys : c ∉ ys) (hvs : c ∉ vs) :
    xs ++ c :: ys = us ++ c :: vs ↔ xs = us ∧ ys = vs := by
  have hfirst : ys.reverse ++ c :: xs.reverse = vs.reverse ++ c :: us.reverse ↔
      ys.reverse = vs.reverse ∧ xs.reverse = us.reverse :=
    append_cons_inj_of_first (fun h ↦ hys (List.mem_reverse.mp h))
      fun h ↦ hvs (List.mem_reverse.mp h)
  have hreverse (ps qs : List Char) : ps.reverse ++ c :: qs.reverse = (qs ++ c :: ps).reverse := by
    simp
  rw [hreverse, hreverse, List.reverse_inj, List.reverse_inj, List.reverse_inj] at hfirst
  exact hfirst.trans and_comm

end Text

namespace Naming

open Text (MadeOf)

/-! ## Numbers and digests -/

theorem notMem_toString {c : Char} (hdigit : c.isDigit = false) (hminus : c ≠ '-')
    (n : Int) : c ∉ (toString n).toList := by
  have hdash : ('-' != c) = true := bne_iff_ne.mpr hminus.symm
  have hmade : MadeOf (· != c) (toString n) := by
    refine MadeOf.toString_int (fun d hd ↦ ?_) hdash n
    rw [bne_iff_ne]
    rintro rfl
    rw [hdigit] at hd
    exact Bool.noConfusion hd
  exact hmade.notMem (bne_self_eq_false c)

theorem minus_notMem_toString {n : Int} (h : 0 ≤ n) : '-' ∉ (toString n).toList := by
  obtain ⟨k, rfl⟩ := Int.eq_ofNat_of_zero_le h
  have hdigits : MadeOf Char.isDigit (toString k) := MadeOf.toString_nat (fun _ hc ↦ hc) k
  exact hdigits.notMem rfl

theorem length_toString_le {n : Int} (hpos : 0 ≤ n) (h : n < 10000000) :
    (toString n).length ≤ 7 := by
  obtain ⟨k, rfl⟩ := Int.eq_ofNat_of_zero_le hpos
  have hk : k < 10 ^ 7 := by omega
  exact (Nat.length_repr_le_iff (by decide)).mpr hk

theorem length_hex (width n : Nat) : (Text.hex width n).length = width := by
  induction width generalizing n with
  | zero => rfl
  | succ width ih => rw [Text.hex, List.length_append, ih, List.length_singleton]

theorem length_shortDigest (id : String) : (shortDigest id).length = 8 := by
  rw [shortDigest, String.length_ofList, Text.Sha1.hexDigest]
  simp [length_hex]

/-! ## Classes -/

theorem cssClass_inj {a b : String} : cssClass a = cssClass b ↔ slug a = slug b :=
  String.append_right_inj "n-"

/-- Slugs are read from their last hyphen. -/
theorem slug_inj {a b : String} :
    slug a = slug b ↔ safeId a = safeId b ∧ shortDigest a = shortDigest b := by
  have hlist (id : String) :
      (slug id).toList = (safeId id).toList ++ '-' :: (shortDigest id).toList := by
    simp [slug]
  have hdigest (id : String) : '-' ∉ (shortDigest id).toList :=
    (isHexDigit_shortDigest id).notMem rfl
  rw [← String.toList_inj, hlist, hlist, Text.append_cons_inj_of_last (hdigest a) (hdigest b),
    String.toList_inj, String.toList_inj]

/-- The class of a span is read from its last underscore. -/
theorem spanClass_inj {a b : String} {i j : Int} :
    spanClass a i = spanClass b j ↔ cssClass a = cssClass b ∧ i = j := by
  have hlist (id : String) (n : Int) : (spanClass id n).toList =
      (cssClass id ++ "_").toList ++ '_' :: ("span-" ++ toString n).toList := by
    simp [spanClass]
  have hnumber (n : Int) : '_' ∉ ("span-" ++ toString n).toList := by
    rw [String.toList_append, List.mem_append, not_or]
    exact ⟨by decide, notMem_toString rfl (by decide) n⟩
  rw [← String.toList_inj, hlist, hlist, Text.append_cons_inj_of_last (hnumber i) (hnumber j),
    String.toList_inj, String.toList_inj, String.append_left_inj, String.append_right_inj,
    Text.toString_inj]

/-- Behind the last hyphen a class has eight characters, and that of a span has a number.  So only a
number of eight digits could be taken for a digest. -/
theorem spanClass_ne_cssClass {a b : String} {i : Int} (hpos : 0 ≤ i) (h : i < 10000000) :
    spanClass a i ≠ cssClass b := by
  intro hsame
  have hspan : (spanClass a i).toList =
      (cssClass a ++ "__span").toList ++ '-' :: (toString i).toList := by
    simp [spanClass]
  have hclass : (cssClass b).toList =
      ("n-" ++ safeId b).toList ++ '-' :: (shortDigest b).toList := by
    simp [cssClass, slug]
  have hdigest : '-' ∉ (shortDigest b).toList := (isHexDigit_shortDigest b).notMem rfl
  rw [← String.toList_inj, hspan, hclass,
    Text.append_cons_inj_of_last (minus_notMem_toString hpos) hdigest, String.toList_inj,
    String.toList_inj] at hsame
  have hlength := length_toString_le hpos h
  rw [hsame.2, length_shortDigest] at hlength
  omega

/-! ## Assets -/

theorem notMem_slug (id : String) : '@' ∉ (slug id).toList := (madeOf_slug id).notMem rfl

theorem toList_bitmapAsset (id : String) (scale : Int) (format : String) :
    (bitmapAsset id scale format).toList =
      (slug id).toList ++ '@' :: ((toString scale).toList ++ 'x' :: ("." ++ format).toList) := by
  simp [bitmapAsset]

theorem bitmapAsset_inj {a b : String} {s t : Int} {f g : String} :
    bitmapAsset a s f = bitmapAsset b t g ↔ slug a = slug b ∧ s = t ∧ f = g := by
  have hnumber (n : Int) : 'x' ∉ (toString n).toList := notMem_toString rfl (by decide) n
  rw [← String.toList_inj, toList_bitmapAsset, toList_bitmapAsset,
    Text.append_cons_inj_of_first (notMem_slug a) (notMem_slug b),
    Text.append_cons_inj_of_first (hnumber s) (hnumber t), String.toList_inj, String.toList_inj,
    String.toList_inj, String.append_right_inj, Text.toString_inj]

/-! ## The whole -/

/-- Names tell the elements apart, whatever their ids hold.  Of the digest only its form is used:
eight hexadecimal digits in small letters. -/
theorem names_are_unambiguous (a b : String) :
    (MadeOf isHexDigit (shortDigest a) ∧ (shortDigest a).length = 8) ∧
    (MadeOf isSafe (cssClass a) ∧ "n-".toList <+: (cssClass a).toList) ∧
    (cssClass a = cssClass b ↔ slug a = slug b) ∧
    (slug a = slug b ↔ safeId a = safeId b ∧ shortDigest a = shortDigest b) ∧
    (∀ i j, spanClass a i = spanClass b j ↔ cssClass a = cssClass b ∧ i = j) ∧
    (∀ i, 0 ≤ i → i < 10000000 → spanClass a i ≠ cssClass b) ∧
    (∀ scale format, fallbackAsset a ≠ bitmapAsset b scale format) ∧
    (∀ s t f g, bitmapAsset a s f = bitmapAsset b t g ↔ slug a = slug b ∧ s = t ∧ f = g) ∧
    (IsPlainName (fallbackAsset a) ∧ '\\' ∉ (fallbackAsset a).toList) ∧
    ∀ scale format, MadeOf Char.isAlphanum format →
      IsPlainName (bitmapAsset a scale format) ∧ '\\' ∉ (bitmapAsset a scale format).toList := by
  refine ⟨⟨isHexDigit_shortDigest a, length_shortDigest a⟩,
    ⟨madeOf_cssClass a, ⟨(slug a).toList, String.toList_append.symm⟩⟩, cssClass_inj, slug_inj,
    fun _ _ ↦ spanClass_inj, fun _ ↦ spanClass_ne_cssClass, fallbackAsset_ne_bitmapAsset a b,
    fun _ _ _ _ ↦ bitmapAsset_inj, ?_, fun scale format hformat ↦ ?_⟩
  · exact ⟨isPlainName_fallbackAsset a, (madeOf_fallbackAsset a).notMem rfl⟩
  · exact ⟨isPlainName_bitmapAsset a scale hformat, (madeOf_bitmapAsset a scale hformat).notMem rfl⟩

/-- Two ids that are alike once they are made safe, and a span whose number is not long enough to be
taken for a digest. -/
theorem names_are_unambiguous_alike :
    safeId "1:2" = safeId "1_2" ∧ (0 : Int) ≤ 9999999 ∧ (9999999 : Int) < 10000000 ∧
      spanClass "1:2" 9999999 ≠ cssClass "1_2" ∧ MadeOf Char.isAlphanum "png" ∧
      IsPlainName (bitmapAsset "1:2" 2 "png") ∧ '\\' ∉ (bitmapAsset "1:2" 2 "png").toList :=
  have h := names_are_unambiguous "1:2" "1_2"
  ⟨by decide, by decide, by decide, h.2.2.2.2.2.1 9999999 (by decide) (by decide), by decide,
    h.2.2.2.2.2.2.2.2.2 2 "png" (by decide)⟩

end Naming
end DesignToWeb
