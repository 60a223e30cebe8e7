import DesignToWeb.Conversion
import DesignToWeb.Proofs.Design.Kept
import DesignToWeb.Proofs.Design.Runs
import DesignToWeb.Proofs.Html.Pieces

/-!
# Live text

What can be read on a page is what the design says.  The paragraphs of a page
are read with nothing known of the design: tags are dropped, line breaks and
references undone.  What they say is compared with the characters of the nodes
of the document.
-/

namespace DesignToWeb

open Outcome

namespace Html

/-! ## The paragraphs of a page -/

/-- The texts of the paragraphs from some place on.  The text of a paragraph that has been begun is
given with the last character first. -/
def textsFrom : Option (List Char) → List Piece → List String
  | _, [] => []
  | _, .openParagraph _ :: ps => textsFrom (some []) ps
  | begun, .closeParagraph :: ps =>
    (begun.map fun cs ↦ String.ofList cs.reverse).toList ++ textsFrom none ps
  | begun, .char c :: ps => textsFrom (begun.map (c :: ·)) ps
  | begun, _ :: ps => textsFrom begun ps

/-- The texts of the paragraphs of a page.  All other tags are dropped, and characters outside of
paragraphs too. -/
def paragraphTexts (html : String) : List String := textsFrom none (pieces html.toList)

def Inline.characters : Inline → List Char
  | .text t => t.toList
  | .spans ss => ss.flatMap (·.text.toList)

mutual

def Markup.texts : Markup → List String
  | .box _ children => textsOf children
  | .paragraph _ content => [String.ofList content.characters]
  | .image _ _ => []

def textsOf : List Markup → List String
  | [] => []
  | m :: ms => m.texts ++ textsOf ms

end

theorem textsFrom_openSpan (begun : Option (List Char)) (spanClass : String) (ps : List Piece) :
    textsFrom begun (.openSpan spanClass :: ps) = textsFrom begun ps := rfl

theorem textsFrom_closeSpan (begun : Option (List Char)) (ps : List Piece) :
    textsFrom begun (.closeSpan :: ps) = textsFrom begun ps := rfl

theorem textsFrom_chars (cs begun : List Char) (rest : List Piece) :
    textsFrom (some begun) (cs.map Piece.char ++ rest) =
      textsFrom (some (cs.reverse ++ begun)) rest := by
  induction cs generalizing begun with
  | nil => rfl
  | cons c cs ih =>
      rw [List.map_cons, List.cons_append, textsFrom, List.reverse_cons, List.append_assoc]
      exact ih (c :: begun)

theorem textsFrom_spans (ss : List Span) (begun : List Char) (rest : List Piece) :
    textsFrom (some begun) (ss.flatMap Span.pieces ++ rest) =
      textsFrom (some ((ss.flatMap (·.text.toList)).reverse ++ begun)) rest := by
  induction ss generalizing begun with
  | nil => rfl
  | cons s ss ih =>
      rw [List.flatMap_cons, List.flatMap_cons, Span.pieces, List.cons_append, List.cons_append,
        textsFrom_openSpan, List.append_assoc, List.append_assoc, textsFrom_chars,
        List.singleton_append, textsFrom_closeSpan, ih, List.reverse_append, List.append_assoc]

/-- Spans cut a paragraph without a trace in its text. -/
theorem textsFrom_inline (content : Inline) (begun : List Char) (rest : List Piece) :
    textsFrom (some begun) (content.pieces ++ rest) =
      textsFrom (some (content.characters.reverse ++ begun)) rest := by
  cases content with
  | text t => exact textsFrom_chars t.toList begun rest
  | spans ss => exact textsFrom_spans ss begun rest

mutual

theorem textsFrom_pieces : (m : Markup) → (rest : List Piece) →
    textsFrom none (m.pieces ++ rest) = m.texts ++ textsFrom none rest
  | .box _ children, rest => by
    have hinner := textsFrom_childPieces children (.closeBox :: rest)
    have hclose : textsFrom none (.closeBox :: rest) = textsFrom none rest := rfl
    rw [hclose] at hinner
    rw [Markup.pieces, Markup.texts, List.cons_append, List.append_assoc, ← hinner]
    rfl
  | .paragraph _ content, rest => by
    have hinner := textsFrom_inline content [] (.closeParagraph :: rest)
    have htext : String.ofList (content.characters.reverse ++ []).reverse =
        String.ofList content.characters := by simp
    rw [Markup.pieces, Markup.texts, List.cons_append, List.append_assoc, ← htext]
    exact hinner
  | .image _ _, _ => rfl

theorem textsFrom_childPieces : (ms : List Markup) → (rest : List Piece) →
    textsFrom none (childPieces ms ++ rest) = textsOf ms ++ textsFrom none rest
  | [], _ => rfl
  | m :: ms, rest => by
    rw [childPieces, textsOf, List.append_assoc, List.append_assoc, textsFrom_pieces m,
      textsFrom_childPieces ms]

end

theorem textsFrom_lines (ms : List Markup) :
    textsFrom none ([Piece.char '\n'].intercalate (ms.map Markup.pieces)) = textsOf ms := by
  induction ms with
  | nil => rfl
  | cons m ms ih =>
      cases ms with
      | nil =>
          have hm := textsFrom_pieces m []
          rw [List.append_nil] at hm
          rw [List.map_singleton, List.intercalate_singleton, hm]
          rfl
      | cons n ms =>
          rw [List.map_cons, List.map_cons, List.intercalate_cons_cons, ← List.map_cons,
            List.append_assoc, textsFrom_pieces, textsOf]
          exact congrArg (m.texts ++ ·) ih

theorem paragraphTexts_body (scene : ClassifiedScene) :
    paragraphTexts (body scene) = textsOf (markupsOf scene) := by
  rw [paragraphTexts, pieces_body, textsFrom_lines]

end Html

/-! ## The live text of a document -/

namespace Design

/-- How a node is rendered, by its own kind and style. -/
def strategy? (policy : Policy) (node : Attributes) : Option Strategy := do
  let kind ← kind? node
  let (style, _) ← (readStyle node kind).toOption
  return strategyOf policy kind style

mutual

/-- The characters of the text nodes that stay text and stand in nothing but boxes, from the root
down. -/
def liveTexts (policy : Policy) : Tree Attributes → List String
  | .node node children =>
    match strategy? policy node with
    | some .text => [characters node]
    | some .markup => liveTextsOf policy children
    | _ => []

def liveTextsOf (policy : Policy) : List (Tree Attributes) → List String
  | [] => []
  | tree :: trees => liveTexts policy tree ++ liveTextsOf policy trees

end

theorem strategy?_eq_some {policy : Policy} {node : Attributes} {parentBox : Option Attributes}
    {inFlow : Bool} {element : Element} {warnings : List String}
    (h : readElement? node parentBox inFlow = .ok (some (element, warnings))) :
    strategy? policy node = some (strategyOf policy element.kind element.style) := by
  obtain ⟨hkind, _, _, hstyle, _, _⟩ := readElement?_eq_some h
  unfold strategy?
  rw [hkind, Option.bind_eq_bind, Option.bind_some, hstyle]
  rfl

theorem kind_eq_text {policy : Policy} {kind : NodeKind} {style : Style}
    (h : strategyOf policy kind style = .text) : kind = .text := by
  by_cases hkind : kind = .text
  · exact hkind
  · unfold strategyOf at h
    rw [if_neg hkind] at h
    split at h
    · exact Strategy.noConfusion h
    · exact Strategy.noConfusion h

/-- The text of an element that is read from a text node is what the node says, with spans or
without. -/
theorem content_characters {node : Attributes} {typography : Option Typography} {e : Element}
    (h : readText node .text typography = .ok (e.text, e.runs)) :
    (Html.content e).characters = (characters node).toList := by
  unfold readText at h
  rw [if_pos rfl] at h
  obtain ⟨runs, hruns, h⟩ := bind_eq_ok.mp h
  obtain ⟨htext, hsame⟩ := Prod.mk.inj (pure_eq_ok.mp h)
  subst hsame
  unfold Html.content
  by_cases hstyled : e.hasStyledRuns = true
  · rw [if_pos hstyled]
    -- a text that is styled has runs, and these put together are its characters
    have hwhole : e.runs.flatMap (·.text.toList) = (characters node).toList := by
      rcases readRuns_text hruns with hnil | hwhole
      · rw [Element.hasStyledRuns, hnil] at hstyled
        exact Bool.noConfusion hstyled
      · exact hwhole
    have hspans : (e.runs.zipIdx.map Prod.fst).flatMap (·.text.toList) =
        (characters node).toList := by
      rw [List.zipIdx_map_fst, hwhole]
    rw [List.flatMap_map] at hspans
    rw [Html.Inline.characters, List.flatMap_map]
    exact hspans
  · rw [if_neg hstyled, ← htext]
    rfl

mutual

theorem texts_markupOf (policy : Policy) : (tree : Tree Attributes) → (element : Tree Element) →
    {parentBox : Option Attributes} → {inFlow : Bool} →
    IsReading parentBox inFlow tree element →
    (Html.markupOf (element.map (Element.classify policy))).texts = liveTexts policy tree
  | .node node children, .node e below, _, _, h => by
    obtain ⟨⟨warnings, hread⟩, hbelow⟩ := h
    have hstrategy : strategy? policy node = some (strategyOf policy e.kind e.style) :=
      strategy?_eq_some hread
    unfold Tree.map Html.markupOf liveTexts
    rw [hstrategy]
    cases hcase : strategyOf policy e.kind e.style with
    | text =>
        have htext := (readElement?_eq_some hread).text
        rw [kind_eq_text hcase] at htext
        simp only [Element.classify, hcase, Html.Markup.texts]
        rw [content_characters htext, String.ofList_toList]
    | imageFallback => simp only [Element.classify, hcase, Html.Markup.texts]
    | markup =>
        simp only [Element.classify, hcase, Html.Markup.texts]
        exact textsOf_markupsOf policy children below hbelow

theorem textsOf_markupsOf (policy : Policy) : (trees : List (Tree Attributes)) →
    (elements : List (Tree Element)) → {parentBox : Option Attributes} → {inFlow : Bool} →
    AreReadings parentBox inFlow trees elements →
    Html.textsOf (Html.markupsOf (Tree.mapForest (Element.classify policy) elements)) =
      liveTextsOf policy trees
  | [], [], _, _, _ => rfl
  | [], _ :: _, _, _, h => h.elim
  | _ :: _, [], _, _, h => h.elim
  | tree :: trees, element :: elements, _, _, h => by
    rw [Tree.mapForest, Html.markupsOf, Html.textsOf, liveTextsOf,
      texts_markupOf policy tree element h.1, textsOf_markupsOf policy trees elements h.2]

end

/-- Every paragraph of a page says what its node says, no matter how runs and their overrides cut
it, and there is one for each live text of the kept nodes, in their order. -/
theorem paragraphTexts_eq_liveTexts {policy : Policy} {file : Json}
    {document : ClassifiedDocument} (h : classifyDocument policy file = .ok document) :
    Html.paragraphTexts (Html.body document.scene) = liveTextsOf policy (keptNodes file) := by
  unfold classifyDocument at h
  obtain ⟨read, hread, h⟩ := bind_eq_ok.mp h
  have hdocument := pure_eq_ok.mp h
  subst hdocument
  rw [Html.paragraphTexts_body]
  exact textsOf_markupsOf policy (keptNodes file) read.scene (readDocument_areReadings hread)

/-- A page with a text in two runs. -/
def greeting : Json :=
  .obj [("children", .arr [.obj [("id", .str "0:1"), ("children", .arr [
    .obj [("id", .str "1:2"), ("type", .str "TEXT"), ("characters", .str "<Hi>\n"),
      ("characterStyleOverrides", .arr [.int 0, .int 7]),
      ("styleOverrideTable", .obj [("7", .obj [("fontSize", .int 20)])])]])]])]

theorem paragraphTexts_greeting : ∃ document,
    classifyDocument {} greeting = .ok document ∧
      Html.paragraphTexts (Html.body document.scene) = ["<Hi>\n"] := by
  have hok : (classifyDocument {} greeting).toOption.isSome = true := by decide +kernel
  have htexts : liveTextsOf {} (keptNodes greeting) = ["<Hi>\n"] := by decide +kernel
  cases hdocument : classifyDocument {} greeting with
  | error fault =>
      rw [hdocument] at hok
      exact Bool.noConfusion hok
  | ok document =>
      have hpage := paragraphTexts_eq_liveTexts hdocument
      exact ⟨document, rfl, hpage.trans htexts⟩

end Design
end DesignToWeb
