import Mathlib.Data.Bool.Basic
import Mathlib.Data.List.Forall2
import Mathlib.Order.Basic
import DesignToWeb.Proofs.Counting
import DesignToWeb.Proofs.Drawing

/-!
# Policies compared

A policy is stricter than another if it switches on all that the other switches
on.  Under a stricter policy an element is rendered as before, or else as an
exported image; so there are more exported images and fewer bitmaps behind
markup.  What a document is read into has no policy in it.
-/

namespace DesignToWeb

namespace Policy

instance : PartialOrder Policy where
  le p q := p.downgradeText ≤ q.downgradeText ∧ p.strictFills ≤ q.strictFills
  le_refl p := ⟨Bool.le_refl p.downgradeText, Bool.le_refl p.strictFills⟩
  le_trans _ _ _ hpq hqr := ⟨Bool.le_trans hpq.1 hqr.1, Bool.le_trans hpq.2 hqr.2⟩
  le_antisymm p q hpq hqp := by
    cases p
    cases q
    exact congrArg₂ Policy.mk (Bool.le_antisymm hpq.1 hqp.1) (Bool.le_antisymm hpq.2 hqp.2)

theorem le_def {p q : Policy} :
    p ≤ q ↔ p.downgradeText ≤ q.downgradeText ∧ p.strictFills ≤ q.strictFills := Iff.rfl

end Policy

/-! ## One element -/

section Elements

variable {p q : Policy} {kind : NodeKind} {style : Style}

theorem fillsCross_mono (h : p ≤ q) (hcross : style.fillsCross p = true) :
    style.fillsCross q = true := by
  obtain ⟨hstrict, hfills⟩ := Bool.and_eq_true_iff.mp hcross
  exact Bool.and_eq_true_iff.mpr ⟨(Policy.le_def.mp h).2 hstrict, hfills⟩

/-- What crosses no boundary under a policy crosses none under one that is less strict. -/
theorem boundary?_mono (h : p ≤ q) (hnone : style.boundary? q = none) :
    style.boundary? p = none := by
  obtain ⟨hmask, hstrokes, hfills, hrest⟩ := boundary?_eq_none_iff.mp hnone
  refine boundary?_eq_none_iff.mpr ⟨hmask, hstrokes, ?_, hrest⟩
  rw [Bool.eq_false_iff] at hfills ⊢
  exact fun hcross ↦ hfills (fillsCross_mono h hcross)

/-- Fills matter only as far as they have to be solid, so the boundary is the same for policies that
agree on that. -/
theorem boundary?_congr (h : p.strictFills = q.strictFills) :
    style.boundary? p = style.boundary? q := by
  have hfills : style.fillsCross p = style.fillsCross q := by
    rw [Style.fillsCross, Style.fillsCross, h]
  rw [Style.boundary?, Style.boundary?, hfills]

theorem strategyOf_eq_imageFallback : strategyOf p kind style = .imageFallback ↔
    style.boundary? p ≠ none ∧ (kind = .text → p.downgradeText = true) := by
  unfold strategyOf
  cases style.boundary? p with
  | none => by_cases hkind : kind = .text <;> simp [hkind]
  | some boundary => by_cases hkind : kind = .text <;> simp [hkind]

theorem strategyOf_of_ne_imageFallback (h : strategyOf p kind style ≠ .imageFallback) :
    strategyOf p kind style = if kind = .text then .text else .markup := by
  unfold strategyOf at h ⊢
  dsimp only at h ⊢
  split
  · next hkind =>
      rw [if_pos hkind] at h
      split
      · next hcross => exact absurd (if_pos hcross) h
      · rfl
  · next hkind =>
      rw [if_neg hkind] at h
      split
      · next hcross => exact absurd (if_pos hcross) h
      · rfl

theorem imageFallback_mono (h : p ≤ q) (hp : strategyOf p kind style = .imageFallback) :
    strategyOf q kind style = .imageFallback := by
  rw [strategyOf_eq_imageFallback] at hp ⊢
  exact ⟨fun hnone ↦ hp.1 (boundary?_mono h hnone), fun hkind ↦ (Policy.le_def.mp h).1 (hp.2 hkind)⟩

/-- A stricter policy changes a strategy only to that of exported images. -/
theorem strategyOf_mono (h : p ≤ q) (hne : strategyOf p kind style ≠ strategyOf q kind style) :
    strategyOf q kind style = .imageFallback := by
  by_contra hq
  have hp : strategyOf p kind style ≠ .imageFallback := fun hp ↦ hq (imageFallback_mono h hp)
  rw [strategyOf_of_ne_imageFallback hp, strategyOf_of_ne_imageFallback hq] at hne
  exact hne rfl

/-- Whether text is exported is no matter for anything else. -/
theorem strategyOf_congr (h : p.strictFills = q.strictFills) (hkind : kind ≠ .text) :
    strategyOf p kind style = strategyOf q kind style := by
  rw [strategyOf, strategyOf, if_neg hkind, if_neg hkind, boundary?_congr h]

end Elements

/-! ## Bitmaps -/

theorem firstImage?_of_solid {style : Style} (h : style.fills.any (!·.isSolid) = false) :
    style.firstImage? = none := by
  refine List.findSome?_eq_none_iff.mpr fun fill hfill ↦ ?_
  have hsolid := List.any_eq_false.mp h fill hfill
  cases fill with
  | image image => simp [Fill.isSolid] at hsolid
  | _ => rfl

/-- Where only solid fills are markup, nothing has a bitmap behind its markup. -/
theorem bitmapOf?_of_strict {policy : Policy} (h : policy.strictFills = true) (e : Element) :
    ClassifiedScene.bitmapOf? (e.classify policy) = none := by
  unfold ClassifiedScene.bitmapOf?
  split
  · next hmarkup =>
      have hnone := boundary?_eq_none (Or.inl hmarkup)
      have hfills := (boundary?_eq_none_iff.mp hnone).2.2.1
      rw [Style.fillsCross, h, Bool.true_and] at hfills
      have himage : (e.classify policy).element.style.firstImage? = none :=
        firstImage?_of_solid hfills
      rw [himage]
      rfl
  · rfl

/-! ## Scenes -/

/-- What a stricter policy makes of an element, beside what a less strict one does. -/
structure Classified.Tightens (loose tight : Classified) : Prop where
  element : loose.element = tight.element
  strategy : loose.strategy ≠ tight.strategy → tight.strategy = .imageFallback

/-- Whether an element is rendered alike twice, unless it is text. -/
structure Classified.AgreesBesideText (c d : Classified) : Prop where
  element : c.element = d.element
  strategy : c.element.kind ≠ .text → c.strategy = d.strategy

/-- A document under a stricter policy, beside the same document under a less strict one. -/
structure ClassifiedDocument.Tightens (loose tight : ClassifiedDocument) : Prop where
  elements : List.Forall₂ Classified.Tightens loose.scene.elements tight.scene.elements
  fallbackIds : loose.fallbackIds ⊆ tight.fallbackIds
  imageFillNodes : tight.imageFillNodes.Sublist loose.imageFillNodes

theorem Classified.Tightens.bitmapOf? {loose tight : Classified} (h : loose.Tightens tight) :
    ClassifiedScene.bitmapOf? tight = none ∨
      ClassifiedScene.bitmapOf? tight = ClassifiedScene.bitmapOf? loose := by
  by_cases hsame : loose.strategy = tight.strategy
  · right
    rw [ClassifiedScene.bitmapOf?, ClassifiedScene.bitmapOf?, Classified.id, Classified.id,
      h.element, hsame]
  · left
    rw [ClassifiedScene.bitmapOf?, h.strategy hsame]
    rfl

theorem sublist_filterMap_bitmapOf? {loose tight : List Classified}
    (h : List.Forall₂ Classified.Tightens loose tight) :
    (tight.filterMap ClassifiedScene.bitmapOf?).Sublist
      (loose.filterMap ClassifiedScene.bitmapOf?) := by
  induction h with
  | nil => exact .slnil
  | @cons c d loose tight hcd _ ih =>
      rcases hcd.bitmapOf? with hnone | hsame
      · rw [List.filterMap_cons_none hnone]
        exact ih.trans ((List.sublist_cons_self c loose).filterMap _)
      · rw [List.filterMap_cons, List.filterMap_cons, hsame]
        cases ClassifiedScene.bitmapOf? c with
        | none => exact ih
        | some bitmap => exact ih.cons_cons bitmap

section Scenes

variable {p q : Policy} {scene : Scene}

theorem elements_classify (policy : Policy) (scene : Scene) :
    (Scene.classify policy scene).elements =
      (Tree.preorderForest scene).map (Element.classify policy) :=
  Tree.preorderForest_mapForest (Element.classify policy) scene

/-- The elements of a scene under two policies, compared place by place. -/
theorem forall₂_elements {R : Classified → Classified → Prop}
    (h : ∀ e : Element, R (e.classify p) (e.classify q)) :
    List.Forall₂ R (Scene.classify p scene).elements (Scene.classify q scene).elements := by
  rw [elements_classify, elements_classify, List.forall₂_map_left_iff, List.forall₂_map_right_iff,
    List.forall₂_same]
  exact fun e _ ↦ h e

theorem tightens_elements (h : p ≤ q) : List.Forall₂ Classified.Tightens
    (Scene.classify p scene).elements (Scene.classify q scene).elements :=
  forall₂_elements fun _ ↦ ⟨rfl, strategyOf_mono h⟩

theorem mem_fallbackIds {policy : Policy} {nodeId : String} :
    nodeId ∈ (Scene.classify policy scene).fallbackIds ↔
      ∃ e ∈ Tree.preorderForest scene, e.id = nodeId ∧
        strategyOf policy e.kind e.style = .imageFallback := by
  rw [ClassifiedScene.fallbackIds, Text.mem_sortedDistinct, elements_classify, List.filter_map,
    List.map_map]
  simp only [List.mem_map, List.mem_filter, Function.comp_apply, beq_iff_eq]
  constructor
  · rintro ⟨e, ⟨he, hstrategy⟩, hid⟩
    exact ⟨e, he, hid, hstrategy⟩
  · rintro ⟨e, he, hid, hstrategy⟩
    exact ⟨e, ⟨he, hstrategy⟩, hid⟩

theorem fallbackIds_mono (h : p ≤ q) :
    (Scene.classify p scene).fallbackIds ⊆ (Scene.classify q scene).fallbackIds := by
  intro nodeId hmem
  obtain ⟨e, he, hid, hstrategy⟩ := mem_fallbackIds.mp hmem
  exact mem_fallbackIds.mpr ⟨e, he, hid, imageFallback_mono h hstrategy⟩

theorem imageFillNodes_of_strict {policy : Policy} (h : policy.strictFills = true) :
    (Scene.classify policy scene).imageFillNodes = [] := by
  rw [ClassifiedScene.imageFillNodes, elements_classify, List.filterMap_map,
    List.filterMap_eq_nil_iff]
  exact fun e _ ↦ bitmapOf?_of_strict h e

theorem mapForest_element_classify (policy : Policy) (scene : Scene) :
    Tree.mapForest Classified.element (Scene.classify policy scene) = scene :=
  Tree.mapForest_mapForest_eq_self (fun _ ↦ rfl) scene

end Scenes

/-! ## Documents -/

/-- A document is read into the same frames, with the same warnings and counts, under all policies.
Of two policies the stricter one only exports more; without fills other than solid ones there are no
bitmaps behind markup; and whether text is exported is no matter for anything but text. -/
theorem classifyDocument_tightens {file : Json} {read : Design.Document}
    (h : Design.readDocument file = .ok read) :
    ∃ classified : Policy → ClassifiedDocument,
      (∀ p, classifyDocument p file = .ok (classified p) ∧
        Tree.mapForest Classified.element (classified p).scene = read.scene ∧
        (classified p).tally = read.tally) ∧
      (∀ p q, p ≤ q → (classified p).Tightens (classified q)) ∧
      (∀ p, p.strictFills = true → (classified p).imageFillNodes = []) ∧
      ∀ p q, p.strictFills = q.strictFills → List.Forall₂ Classified.AgreesBesideText
        (classified p).scene.elements (classified q).scene.elements := by
  refine ⟨fun p ↦ ⟨Scene.classify p read.scene, read.tally⟩, fun p ↦ ?_, fun p q hpq ↦ ?_,
    fun p hstrict ↦ imageFillNodes_of_strict hstrict, fun p q hfills ↦ ?_⟩
  · exact ⟨classifyDocument_eq_ok p h, mapForest_element_classify p read.scene, rfl⟩
  · have helements : List.Forall₂ Classified.Tightens (Scene.classify p read.scene).elements
        (Scene.classify q read.scene).elements := tightens_elements hpq
    exact ⟨helements, fallbackIds_mono hpq, sublist_filterMap_bitmapOf? helements⟩
  · exact forall₂_elements fun _ ↦ ⟨rfl, strategyOf_congr hfills⟩

/-- A text in the colours of a gradient beside a picture. -/
def shopWindow : Json :=
  .obj [("children", .arr [.obj [("id", .str "0:1"), ("children", .arr [
    .obj [("id", .str "1:1"), ("type", .str "TEXT"), ("characters", .str "Sale"),
      ("fills", .arr [.obj [("type", .str "GRADIENT_LINEAR")]])],
    .obj [("id", .str "1:2"), ("type", .str "RECTANGLE"),
      ("fills", .arr [.obj [("type", .str "IMAGE"), ("imageRef", .str "a")]])]])]])]

/-- Both are exported under the strictest policy; under the least strict one the text stays live and
the picture has a bitmap behind its markup. -/
theorem classifyDocument_tightens_window : ∃ loose tight,
    classifyDocument ⟨false, false⟩ shopWindow = .ok loose ∧
      classifyDocument ⟨true, true⟩ shopWindow = .ok tight ∧
      loose.fallbackIds = [] ∧ loose.imageFillNodes.map Prod.fst = ["1:2"] ∧
      tight.fallbackIds = ["1:1", "1:2"] ∧ tight.imageFillNodes = [] ∧ loose.Tightens tight := by
  obtain ⟨read, hread, hcheck⟩ : ∃ read, Design.readDocument shopWindow = .ok read ∧
      ((Scene.classify ⟨false, false⟩ read.scene).fallbackIds == [] &&
        (Scene.classify ⟨false, false⟩ read.scene).imageFillNodes.map Prod.fst == ["1:2"] &&
        (Scene.classify ⟨true, true⟩ read.scene).fallbackIds == ["1:1", "1:2"]) = true :=
    Outcome.exists_ok_of_any (by decide +kernel)
  simp only [Bool.and_eq_true, beq_iff_eq] at hcheck
  obtain ⟨⟨hloose, hbitmaps⟩, htight⟩ := hcheck
  obtain ⟨classified, hclassified, htightens, hstrict, _⟩ := classifyDocument_tightens hread
  have hscene (p : Policy) : classified p = ⟨Scene.classify p read.scene, read.tally⟩ :=
    Except.ok.inj ((hclassified p).1.symm.trans (classifyDocument_eq_ok p hread))
  have hnone := hstrict ⟨true, true⟩ rfl
  have hmore := htightens ⟨false, false⟩ ⟨true, true⟩ (Policy.le_def.mpr (by decide))
  exact ⟨classified ⟨false, false⟩, classified ⟨true, true⟩, (hclassified _).1,
    (hclassified _).1, by rw [hscene]; exact hloose, by rw [hscene]; exact hbitmaps,
    by rw [hscene]; exact htight, hnone, hmore⟩

end DesignToWeb
