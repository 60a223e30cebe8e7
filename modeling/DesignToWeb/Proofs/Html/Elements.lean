import DesignToWeb.Html.Markup
import DesignToWeb.Proofs.Html.Pieces
import DesignToWeb.Proofs.Tree
import Mathlib.Data.List.Forall2

/-!
# The elements of a page

A page shows an element when nothing but boxes stands above it, and shows it as
what its strategy says.  The elements of a page are read off its text, by its
tags: other than the end of a box, every tag belongs to the element that begins
with it or to the paragraph that it stands in.
-/

namespace DesignToWeb

/-! ## The elements that are shown -/

namespace ClassifiedScene

/-- Whether nothing but boxes stands above the end of a path. -/
def standsInBoxes (path : List Classified) : Bool := path.dropLast.all (·.strategy = .markup)

/-- The ends of the paths that have nothing but boxes above them. -/
def ends (paths : List (List Classified)) : List Classified :=
  (paths.filter standsInBoxes).filterMap List.getLast?

/-- The elements that a page shows, in the order of the scene. -/
def shown (scene : ClassifiedScene) : List Classified := ends (Tree.pathsForest scene)

theorem shown_sublist (scene : ClassifiedScene) : (shown scene).Sublist scene.elements := by
  have hsub := (List.filter_sublist (p := standsInBoxes) (l := Tree.pathsForest scene)).filterMap
    List.getLast?
  rw [Tree.filterMap_getLast?_pathsForest] at hsub
  exact hsub

theorem ends_append (ps qs : List (List Classified)) : ends (ps ++ qs) = ends ps ++ ends qs := by
  rw [ends, List.filter_append, List.filterMap_append]
  rfl

theorem shown_cons (t : Tree Classified) (ts : List (Tree Classified)) :
    shown (t :: ts) = ends t.paths ++ shown ts :=
  ends_append t.paths (Tree.pathsForest ts)

theorem filter_standsInBoxes_below (c : Classified) {ps : List (List Classified)}
    (h : ∀ path ∈ ps, path ≠ []) :
    (ps.map (c :: ·)).filter standsInBoxes =
      if c.strategy = .markup then (ps.filter standsInBoxes).map (c :: ·) else [] := by
  have hstands : ∀ path ∈ ps, standsInBoxes (c :: path) =
      (decide (c.strategy = .markup) && standsInBoxes path) := by
    intro path hpath
    rw [standsInBoxes, List.dropLast_cons_of_ne_nil (h path hpath), List.all_cons]
    rfl
  rw [List.filter_map]
  split
  · next hmarkup =>
      refine congrArg (List.map (c :: ·)) (List.filter_congr fun path hpath ↦ ?_)
      simp [hstands path hpath, hmarkup]
  · next hmarkup =>
      rw [List.map_eq_nil_iff, List.filter_eq_nil_iff]
      intro path hpath
      simp [hstands path hpath, hmarkup]

/-- Below a box everything is shown that would be shown without it, and below anything else
nothing. -/
theorem ends_paths (c : Classified) (children : List (Tree Classified)) :
    ends (Tree.paths (.node c children)) =
      c :: if c.strategy = .markup then shown children else [] := by
  have hne := Tree.ne_nil_of_mem_pathsForest children
  have hbelow : ends ((Tree.pathsForest children).map (c :: ·)) =
      if c.strategy = .markup then shown children else [] := by
    rw [ends, filter_standsInBoxes_below c hne]
    split
    · refine Tree.filterMap_getLast?_below c fun path hpath ↦ ?_
      exact hne path (List.mem_filter.mp hpath).1
    · rfl
  rw [Tree.paths, ← hbelow]
  exact ends_append [[c]] _

end ClassifiedScene

/-- The runs that have a span of their own in a page, by their places: all of them if any is
styled. -/
def Element.spans (e : Element) : List Nat :=
  if e.hasStyledRuns then List.range e.runs.length else []

namespace Html

open ClassifiedScene (ends shown)

/-! ## Marks -/

/-- Tags that begin an element, or that belong to a paragraph. -/
def Piece.isMark : Piece → Bool
  | .closeBox => false
  | .otherTag => false
  | .char _ => false
  | _ => true

/-- The marks of a text, from left to right. -/
def marks (html : String) : List Piece := (pieces html.toList).filter Piece.isMark

/-- What an element that is shown should be seen as. -/
def marksOf (c : Classified) : List Piece :=
  match c.strategy with
  | .text =>
    .openParagraph (Naming.cssClass c.id) ::
      (c.element.spans.flatMap fun i ↦ [.openSpan (Naming.spanClass c.id i), .closeSpan]) ++
      [.closeParagraph]
  | .imageFallback => [.image (Naming.cssClass c.id) (Naming.fallbackAddress c.id)]
  | .markup => [.openBox (Naming.cssClass c.id)]

/-- Whether a text has some marks, whatever follows it. -/
def HasMarks (text : String) (ms : List Piece) : Prop :=
  ∀ rest, (pieces (text.toList ++ rest)).filter Piece.isMark =
    ms ++ (pieces rest).filter Piece.isMark

namespace HasMarks

variable {text text' : String} {ms ms' : List Piece}

theorem append (h : HasMarks text ms) (h' : HasMarks text' ms') :
    HasMarks (text ++ text') (ms ++ ms') := by
  intro rest
  rw [String.toList_append, List.append_assoc, h, h', List.append_assoc]

theorem ofPieces {ps : List Piece}
    (h : ∀ rest, pieces (text.toList ++ rest) = ps ++ pieces rest) :
    HasMarks text (ps.filter Piece.isMark) := by
  intro rest
  rw [h, List.filter_append]

theorem intercalate {separator : String} (hseparator : HasMarks separator [])
    {lines : List String} {marks : List (List Piece)} (h : List.Forall₂ HasMarks lines marks) :
    HasMarks (separator.intercalate lines) marks.flatten := by
  induction h with
  | nil => exact fun _ ↦ rfl
  | @cons line ms lines marks hline hlines ih =>
      cases hlines with
      | nil =>
          rw [String.intercalate_singleton, List.flatten_singleton]
          exact hline
      | cons hnext hrest =>
          rw [String.intercalate_cons_cons, List.flatten_cons]
          exact List.append_nil ms ▸ (hline.append hseparator).append ih

theorem marks_eq (h : HasMarks text ms) : marks text = ms := by
  have htext := h []
  rw [List.append_nil] at htext
  exact htext.trans (List.append_nil ms)

end HasMarks

theorem filter_isMark_chars (cs : List Char) : (cs.map Piece.char).filter Piece.isMark = [] := by
  rw [List.filter_map]
  exact List.map_eq_nil_iff.mpr (List.filter_eq_nil_iff.mpr fun _ _ ↦ Bool.false_ne_true)

theorem filter_isMark_content (e : Element) :
    (content e).pieces.filter Piece.isMark =
      e.spans.flatMap fun i ↦ [.openSpan (Naming.spanClass e.id i), .closeSpan] := by
  have hspan (s : Span) : s.pieces.filter Piece.isMark = [.openSpan s.cssClass, .closeSpan] := by
    rw [Span.pieces, List.filter_cons_of_pos rfl, List.filter_append, filter_isMark_chars]
    rfl
  unfold content Element.spans
  split
  · have hplaces : List.range e.runs.length = e.runs.zipIdx.map Prod.snd := by
      rw [List.zipIdx_map_snd, List.range_eq_range']
    rw [Inline.pieces, List.filter_flatMap, List.flatMap_map, hplaces, List.flatMap_map]
    simp only [hspan]
  · exact filter_isMark_chars _

mutual

theorem filter_isMark_markupOf : (t : Tree Classified) →
    (markupOf t).pieces.filter Piece.isMark = (ends t.paths).flatMap marksOf
  | .node c children => by
    rw [ClassifiedScene.ends_paths, List.flatMap_cons, markupOf, marksOf]
    cases c.strategy with
    | text =>
        rw [Markup.pieces, List.filter_cons_of_pos rfl, List.filter_append,
          filter_isMark_content]
        exact (List.append_nil _).symm
    | imageFallback => rfl
    | markup =>
        rw [Markup.pieces, List.filter_cons_of_pos rfl, List.filter_append,
          filter_isMark_markupsOf children]
        exact congrArg _ (List.append_nil _)

theorem filter_isMark_markupsOf : (ts : List (Tree Classified)) →
    (childPieces (markupsOf ts)).filter Piece.isMark = (shown ts).flatMap marksOf
  | [] => rfl
  | t :: ts => by
    rw [markupsOf, childPieces, List.filter_append, filter_isMark_markupOf t,
      filter_isMark_markupsOf ts, ClassifiedScene.shown_cons, List.flatMap_append]

end

/-! ## Pages -/

theorem hasMarks_break : HasMarks "\n" [] := fun _ ↦ rfl

theorem hasMarks_lines (scene : ClassifiedScene) :
    List.Forall₂ HasMarks ((markupsOf scene).map Markup.render)
      (scene.map fun t ↦ (ends t.paths).flatMap marksOf) := by
  induction scene with
  | nil => exact .nil
  | cons t ts ih =>
      have ht : HasMarks (markupOf t).render ((ends t.paths).flatMap marksOf) := by
        rw [← filter_isMark_markupOf t]
        exact .ofPieces (pieces_render (markupOf t) (markupOf_wellFormed t))
      exact .cons ht ih

theorem hasMarks_body (scene : ClassifiedScene) :
    HasMarks (body scene) ((shown scene).flatMap marksOf) := by
  have hmarks : (scene.map fun t ↦ (ends t.paths).flatMap marksOf).flatten =
      (shown scene).flatMap marksOf := by
    induction scene with
    | nil => rfl
    | cons t ts ih =>
        rw [List.map_cons, List.flatten_cons, ih, ClassifiedScene.shown_cons, List.flatMap_append]
  rw [← hmarks]
  exact .intercalate hasMarks_break (hasMarks_lines scene)

theorem hasMarks_title (title : String) :
    HasMarks ("  <title>" ++ escape title ++ "</title>") [] := by
  have htitle : HasMarks (escape title) [] := by
    rw [← filter_isMark_chars title.toList]
    exact .ofPieces (pieces_escape title)
  have hopening : HasMarks "  <title>" [] := fun _ ↦ rfl
  have hclosing : HasMarks "</title>" [] := fun _ ↦ rfl
  exact (hopening.append htitle).append hclosing

/-- What a page shows are the elements of the scene with nothing but boxes above them, each as what
its strategy says. -/
theorem marks_page (title : String) (scene : ClassifiedScene) :
    marks (page title scene) = (shown scene).flatMap marksOf := by
  have hbody := hasMarks_body scene
  generalize (shown scene).flatMap marksOf = ms at hbody ⊢
  apply HasMarks.marks_eq
  have hpage : HasMarks (page title scene)
      ([[], [], [], [], [], [], [], [], [], [], ms, [], []].flatten ++ []) := by
    refine .append (.intercalate hasMarks_break ?_) hasMarks_break
    -- The lines before the title, the title, those before the body, the body, and the end.
    refine .cons (fun _ ↦ rfl) (.cons (fun _ ↦ rfl) (.cons (fun _ ↦ rfl) (.cons (fun _ ↦ rfl)
      (.cons (fun _ ↦ rfl) (.cons (hasMarks_title title) ?_)))))
    refine .cons (fun _ ↦ rfl) (.cons (fun _ ↦ rfl) (.cons (fun _ ↦ rfl) (.cons (fun _ ↦ rfl)
      (.cons hbody ?_))))
    exact .cons (fun _ ↦ rfl) (.cons (fun _ ↦ rfl) .nil)
  simpa using hpage

end Html
end DesignToWeb
