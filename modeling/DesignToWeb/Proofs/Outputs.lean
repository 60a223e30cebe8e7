import DesignToWeb.Manifest
import DesignToWeb.Proofs.ContainingBlock
import DesignToWeb.Proofs.Html.Elements

/-!
# One scene in three outputs

The manifest, the stylesheet and the page of a document are written in walks of
their own: the first two visit every element, the page leaves out what stands
below anything but a box, and the stylesheet leaves out empty blocks.  They
describe the same scene all the same, element by element and in one order.
-/

namespace DesignToWeb

open Outcome

/-! ## The manifest -/

/-- The ids in a manifest and the strategies beside them. -/
def Manifest.entries (manifest : Json) : List (Json × Json) :=
  (manifest.attributes.get "nodes").items.map fun node ↦
    (node.attributes.get "id", node.attributes.get "strategy")

theorem Manifest.entries_build (fileKey : String) (about : Attributes) (scene : ClassifiedScene)
    (tally : Tally) :
    entries (build fileKey about scene tally) =
      scene.elements.map fun c ↦ (.str c.id, .str c.strategy.name) :=
  List.map_map

/-! ## The stylesheet -/

namespace Css

/-- Whether there are any rules for a run inside a text with the given type. -/
def hasRules (base : Option Typography) (run : TextRun) : Bool :=
  (runRules run base).toOption.any (!·.isEmpty)

/-- The runs of an element that the stylesheet has blocks for, by their places: those that stand in
spans and have rules. -/
def ruledSpans (c : Classified) : List Nat :=
  if c.strategy = .text ∧ c.element.hasStyledRuns then
    (c.element.runs.zipIdx.filter (hasRules c.element.style.typography ·.1)).map Prod.snd
  else []

def spanSelectors (c : Classified) : List String :=
  (ruledSpans c).map fun i : Nat ↦ Naming.spanClass c.id i

/-- The blocks of an element, the one that is its own and those of its spans. -/
structure BlockGroup where
  own : Block
  spans : List Block

def BlockGroup.blocks (group : BlockGroup) : List Block := group.own :: group.spans

theorem hasRules_eq {base : Option Typography} {run : TextRun} {ds : List Declaration}
    (h : runRules run base = .ok ds) : hasRules base run = !ds.isEmpty := by
  rw [hasRules, h]
  rfl

theorem selectors_filterMap {nodeId : String} {base : Option Typography}
    {places : List (TextRun × Nat)} {options : List (Option Block)}
    (h : List.Forall₂ (fun place option ↦
      (do return block? (Naming.spanClass nodeId place.2) (← runRules place.1 base)) =
        Except.ok option) places options) :
    (options.filterMap id).map Block.selector =
      ((places.filter (hasRules base ·.1)).map Prod.snd).map
        fun i : Nat ↦ Naming.spanClass nodeId i := by
  induction h with
  | nil => rfl
  | @cons place option places options hvisit _ ih =>
      obtain ⟨ds, hds, hblock⟩ := bind_eq_ok.mp hvisit
      rw [← pure_eq_ok.mp hblock, List.filter_cons, hasRules_eq hds]
      cases hempty : ds.isEmpty with
      | true =>
          rw [block?_eq_none hempty]
          exact ih
      | false =>
          rw [block?_eq_some hempty]
          exact congrArg (Naming.spanClass nodeId place.2 :: ·) ih

theorem selectors_runBlocks {c : Classified} {blocks : List Block} (h : runBlocks c = .ok blocks) :
    blocks.map Block.selector = spanSelectors c := by
  unfold runBlocks at h
  unfold spanSelectors ruledSpans
  split at h
  · next hstyled =>
      obtain ⟨options, hoptions, h⟩ := bind_eq_ok.mp h
      rw [if_pos hstyled, ← pure_eq_ok.mp h]
      exact selectors_filterMap (mapM_eq_ok.mp hoptions)
  · next hstyled =>
      rw [if_neg hstyled, ← Except.ok.inj h]
      rfl

/-- A layout of a design never comes without declarations. -/
theorem layoutRules_ne_nil {node : Attributes} {inFlow : Bool} {layout : Layout}
    {groups : List (List Declaration)} (hread : Design.IsLayoutOf node inFlow layout)
    (h : layoutRules layout = .ok groups) : groups.flatten ≠ [] := by
  cases hitem : layout.isFlowItem with
  | false =>
      have hposition := declaresPosition_layout hread h
      intro hnil
      rw [hnil, hitem] at hposition
      exact Bool.noConfusion hposition
  | true =>
      cases layout with
      | flowItem width height =>
          obtain ⟨w, _, h⟩ := bind_eq_ok.mp h
          obtain ⟨l, _, h⟩ := bind_eq_ok.mp h
          rw [← pure_eq_ok.mp h]
          exact List.cons_ne_nil _ _
      | _ => exact Bool.noConfusion hitem

theorem exists_group_of_elementBlocks {assets : ImageAssets} {c : Classified} {blocks : List Block}
    {node : Attributes} {inFlow : Bool} (hread : Design.IsLayoutOf node inFlow c.element.layout)
    (h : elementBlocks assets c = .ok blocks) :
    ∃ group : BlockGroup, group.blocks = blocks ∧ group.own.selector = Naming.cssClass c.id ∧
      group.spans.map Block.selector = spanSelectors c := by
  obtain ⟨ds, hds, h⟩ := bind_eq_ok.mp h
  obtain ⟨spans, hspans, h⟩ := bind_eq_ok.mp h
  obtain ⟨layout, style, hlayout, rfl, _⟩ := elementRules_eq_ok hds
  have hne : (layout.flatten ++ style).isEmpty = false :=
    List.isEmpty_eq_false_iff.mpr (List.append_ne_nil_of_left_ne_nil
      (layoutRules_ne_nil hread hlayout) style)
  rw [← pure_eq_ok.mp h, block?_eq_some hne]
  exact ⟨⟨_, spans⟩, rfl, rfl, selectors_runBlocks hspans⟩

/-- The blocks of a stylesheet fall into groups, one for each element. -/
theorem exists_groups_of_blocks {assets : ImageAssets} {elements : List Classified}
    {lists : List (List Block)}
    (hread : ∀ c ∈ elements, ∃ node inFlow, Design.IsLayoutOf node inFlow c.element.layout)
    (h : List.Forall₂ (fun c blocks ↦ elementBlocks assets c = .ok blocks) elements lists) :
    ∃ groups : List BlockGroup, groups.map BlockGroup.blocks = lists ∧
      groups.map (·.own.selector) = elements.map (Naming.cssClass ·.id) ∧
      groups.map (·.spans.map Block.selector) =
        elements.map spanSelectors := by
  induction h with
  | nil => exact ⟨[], rfl, rfl, rfl⟩
  | @cons c blocks elements lists hblocks _ ih =>
      obtain ⟨node, inFlow, hlayout⟩ := hread c List.mem_cons_self
      obtain ⟨group, rfl, hown, hspans⟩ := exists_group_of_elementBlocks hlayout hblocks
      obtain ⟨groups, rfl, howns, hspanss⟩ := ih fun d hd ↦ hread d (List.mem_cons_of_mem c hd)
      refine ⟨group :: groups, rfl, ?_, ?_⟩
      · rw [List.map_cons, List.map_cons, hown, howns]
      · rw [List.map_cons, List.map_cons, hspans, hspanss]

end Css

/-! ## The three outputs -/

theorem exists_groups_of_emit {policy : Policy} {file : Json} {title : String}
    {assets : Css.ImageAssets} {document : ClassifiedDocument} {emission : Emission}
    (hdocument : classifyDocument policy file = .ok document)
    (hemit : emit title assets document = .ok emission) :
    ∃ groups : List Css.BlockGroup,
      emission.css = "\n".intercalate
        (Css.rootRule :: (groups.flatMap Css.BlockGroup.blocks).map Css.Block.text) ∧
      groups.map (·.own.selector) = document.scene.elements.map (Naming.cssClass ·.id) ∧
      groups.map (·.spans.map Css.Block.selector) =
        document.scene.elements.map Css.spanSelectors := by
  obtain ⟨blocks, hblocks, hcss⟩ := bind_eq_ok.mp (emit_eq_ok hemit).2
  obtain ⟨lists, hlists, hflatten⟩ := bind_eq_ok.mp hblocks
  have hread : ∀ c ∈ document.scene.elements, ∃ node inFlow,
      Design.IsLayoutOf node inFlow c.element.layout := by
    intro c hc
    obtain ⟨node, parentBox, inFlow, warnings, hread⟩ := exists_readElement_of_mem hdocument hc
    exact ⟨node, inFlow,
      Design.isLayoutOf_of_readLayout (Design.readElement?_eq_some hread).layout⟩
  obtain ⟨groups, rfl, howns, hspans⟩ := Css.exists_groups_of_blocks hread (mapM_eq_ok.mp hlists)
  refine ⟨groups, ?_, howns, hspans⟩
  rw [← pure_eq_ok.mp hcss, ← pure_eq_ok.mp hflatten, ← List.flatMap_def]

/-- The manifest, the stylesheet and the page describe the same elements in the same order: the
manifest lists all of them, the stylesheet has a block for each, followed by those of its spans that
have rules, and the page shows those with nothing but boxes above them, each by its strategy
and with the spans of its runs. -/
theorem outputs_agree {policy : Policy} {file : Json} {title : String}
    {assets : Css.ImageAssets} {document : ClassifiedDocument} {emission : Emission}
    (hdocument : classifyDocument policy file = .ok document)
    (hemit : emit title assets document = .ok emission) (fileKey : String) (about : Attributes) :
    let elements := document.scene.elements
    let shown := ClassifiedScene.shown document.scene
    Manifest.entries (Manifest.build fileKey about document.scene document.tally) =
        elements.map (fun c ↦ (.str c.id, .str c.strategy.name)) ∧
      (∃ groups : List Css.BlockGroup,
        emission.css = "\n".intercalate
          (Css.rootRule :: (groups.flatMap Css.BlockGroup.blocks).map Css.Block.text) ∧
        groups.map (·.own.selector) = elements.map (Naming.cssClass ·.id) ∧
        groups.map (·.spans.map Css.Block.selector) = elements.map Css.spanSelectors) ∧
      Html.marks emission.html = shown.flatMap Html.marksOf ∧
      shown.Sublist elements := by
  refine ⟨Manifest.entries_build fileKey about document.scene document.tally,
    exists_groups_of_emit hdocument hemit, ?_, ClassifiedScene.shown_sublist document.scene⟩
  rw [(emit_eq_ok hemit).1]
  exact Html.marks_page title document.scene

/-- A frame with a text in two runs, of which the first is large, and with a blurred frame around a
rectangle. -/
def handbill : Json :=
  .obj [("children", .arr [.obj [("id", .str "0:1"), ("children", .arr [
    .obj [("id", .str "1:1"), ("type", .str "FRAME"), ("children", .arr [
      .obj [("id", .str "1:2"), ("type", .str "TEXT"), ("characters", .str "Hi!"),
        ("characterStyleOverrides", .arr [.int 7, .int 7]),
        ("styleOverrideTable", .obj [("7", .obj [("fontSize", .int 20)])])],
      .obj [("id", .str "1:3"), ("type", .str "FRAME"),
        ("effects", .arr [.obj [("type", .str "LAYER_BLUR"), ("radius", .int 4)]]),
        ("children", .arr [.obj [("id", .str "1:4"), ("type", .str "RECTANGLE")]])]])]])]])]

/-- The rectangle is listed and has a block, but only the image of the frame around it is shown.  The
second run has a span and no block. -/
theorem outputs_agree_handbill : ∃ document emission,
    classifyDocument {} handbill = .ok document ∧ emit "Handbill" [] document = .ok emission ∧
      (Manifest.entries (Manifest.build "KEY" .empty document.scene document.tally)).map Prod.snd =
        [.str "markup", .str "text", .str "image-fallback", .str "markup"] ∧
      (∃ groups : List Css.BlockGroup,
        emission.css = "\n".intercalate
          (Css.rootRule :: (groups.flatMap Css.BlockGroup.blocks).map Css.Block.text) ∧
        groups.map (·.own.selector) = ["1:1", "1:2", "1:3", "1:4"].map Naming.cssClass ∧
        groups.map (·.spans.map Css.Block.selector) = [[], [Naming.spanClass "1:2" 0], [], []]) ∧
      Html.marks emission.html = [.openBox (Naming.cssClass "1:1"),
        .openParagraph (Naming.cssClass "1:2"), .openSpan (Naming.spanClass "1:2" 0), .closeSpan,
        .openSpan (Naming.spanClass "1:2" 1), .closeSpan, .closeParagraph,
        .image (Naming.cssClass "1:3") (Naming.fallbackAddress "1:3")] := by
  obtain ⟨document, emission, hdocument, hemission, hcheck⟩ :
      ∃ document emission, classifyDocument {} handbill = .ok document ∧
        emit "Handbill" [] document = .ok emission ∧
        (decide (document.scene.elements.map (fun c ↦ (c.id, c.strategy, Css.ruledSpans c)) =
            [("1:1", .markup, []), ("1:2", .text, [0]), ("1:3", .imageFallback, []),
              ("1:4", .markup, [])]) &&
          decide ((ClassifiedScene.shown document.scene).map
              (fun c ↦ (c.id, c.strategy, c.element.spans)) =
            [("1:1", .markup, []), ("1:2", .text, [0, 1]), ("1:3", .imageFallback, [])])) = true :=
    exists_emission (by decide +kernel)
  obtain ⟨hall, hshown⟩ := Bool.and_eq_true_iff.mp hcheck
  have hall := of_decide_eq_true hall
  have hshown := of_decide_eq_true hshown
  obtain ⟨hentries, ⟨groups, hcss, howns, hspans⟩, hmarks, _⟩ :=
    outputs_agree hdocument hemission "KEY" .empty
  simp only [List.map_eq_cons_iff, List.map_eq_nil_iff, Prod.mk.injEq] at hall hshown
  obtain ⟨frame, _, helements, ⟨hframe, hbox, hno⟩, text, _, rfl, ⟨htext, hlive, hfirst⟩, blurred,
    _, rfl, ⟨hblurred, himage, hnone⟩, rectangle, _, rfl, ⟨hrectangle, hlast, hempty⟩, rfl⟩ := hall
  obtain ⟨frame', _, hpage, ⟨hframe', hbox', _⟩, text', _, rfl, ⟨htext', hlive', hboth⟩, blurred',
    _, rfl, ⟨hblurred', himage', _⟩, rfl⟩ := hshown
  refine ⟨document, emission, hdocument, hemission, ?_, ⟨groups, hcss, ?_, ?_⟩, ?_⟩
  · simp [hentries, helements, hbox, hlive, himage, hlast, Strategy.name]
  · simp [howns, helements, hframe, htext, hblurred, hrectangle]
  · simp [hspans, helements, Css.spanSelectors, hno, hfirst, hnone, hempty, htext]
  · simp [hmarks, hpage, Html.marksOf, hframe', htext', hblurred', hbox', hlive', himage', hboth]

end DesignToWeb
