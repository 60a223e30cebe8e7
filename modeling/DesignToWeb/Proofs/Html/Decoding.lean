import DesignToWeb.Proofs.Html.Pieces

/-!
# Reading a body back

The visible elements of a scene can be read back from the body of its page: the
boxes with what is in them, the paragraphs with their text or their spans, and
the images.  So no text and no id of a design can stand for markup or hide any.
-/

namespace DesignToWeb.Html

/-- Where a reader is among the elements: what it has read at this level and, from the inside out,
the boxes around with what it had read before each of them, the last element first. -/
structure Place where
  before : List Markup
  around : List (String × List Markup)

namespace Place

def top : Place := ⟨[], []⟩

def add (m : Markup) (p : Place) : Place := { p with before := m :: p.before }

def enter (cssClass : String) (p : Place) : Place := ⟨[], (cssClass, p.before) :: p.around⟩

def leave? (p : Place) : Option Place :=
  match p.around with
  | [] => none
  | (cssClass, before) :: around => some ⟨.box cssClass p.before.reverse :: before, around⟩

end Place

/-- What a reader is in the middle of; texts and spans are read with the last one first. -/
inductive Reader where
  | between (place : Place)
  | inText (place : Place) (cssClass : String) (text : List Char)
  | inSpan (place : Place) (cssClass : String) (spans : List Span) (spanClass : String)
      (text : List Char)
  | afterSpan (place : Place) (cssClass : String) (spans : List Span)

namespace Reader

/-- Takes the next piece, unless it has no place where the reader is. -/
def step : Reader → Piece → Option Reader
  | .between p, .openBox cssClass => some (.between (p.enter cssClass))
  | .between p, .closeBox => p.leave?.map .between
  | .between p, .openParagraph cssClass => some (.inText p cssClass [])
  | .between p, .image cssClass address => some (.between (p.add (.image cssClass address)))
  | .between p, .char '\n' => if p.around.isEmpty then some (.between p) else none
  | .inText p cssClass text, .char c => some (.inText p cssClass (c :: text))
  | .inText p cssClass [], .openSpan spanClass => some (.inSpan p cssClass [] spanClass [])
  | .inText p cssClass text, .closeParagraph =>
    some (.between (p.add (.paragraph cssClass (.text (String.ofList text.reverse)))))
  | .inSpan p cssClass spans spanClass text, .char c =>
    some (.inSpan p cssClass spans spanClass (c :: text))
  | .inSpan p cssClass spans spanClass text, .closeSpan =>
    some (.afterSpan p cssClass (⟨spanClass, String.ofList text.reverse⟩ :: spans))
  | .afterSpan p cssClass spans, .openSpan spanClass =>
    some (.inSpan p cssClass spans spanClass [])
  | .afterSpan p cssClass spans, .closeParagraph =>
    some (.between (p.add (.paragraph cssClass (.spans spans.reverse))))
  | _, _ => none

def read (r : Reader) (ps : List Piece) : Option Reader := ps.foldlM step r

/-- The elements that have been read once every box and paragraph is closed. -/
def finish? : Reader → Option (List Markup)
  | .between ⟨before, []⟩ => some before.reverse
  | _ => none

/-! ## Reading rendered elements -/

theorem read_cons (r : Reader) (piece : Piece) (ps : List Piece) :
    r.read (piece :: ps) = (r.step piece).bind (·.read ps) := rfl

theorem read_append (r : Reader) (ps qs : List Piece) :
    r.read (ps ++ qs) = (r.read ps).bind (·.read qs) :=
  List.foldlM_append

theorem read_text (p : Place) (cssClass : String) (cs text : List Char) :
    read (.inText p cssClass text) (cs.map Piece.char) =
      some (.inText p cssClass (cs.reverse ++ text)) := by
  induction cs generalizing text with
  | nil => rfl
  | cons c cs ih =>
      rw [List.map_cons, read_cons, List.reverse_cons, List.append_assoc]
      exact ih (c :: text)

theorem read_spanText (p : Place) (cssClass : String) (spans : List Span) (spanClass : String)
    (cs text : List Char) :
    read (.inSpan p cssClass spans spanClass text) (cs.map Piece.char) =
      some (.inSpan p cssClass spans spanClass (cs.reverse ++ text)) := by
  induction cs generalizing text with
  | nil => rfl
  | cons c cs ih =>
      rw [List.map_cons, read_cons, List.reverse_cons, List.append_assoc]
      exact ih (c :: text)

theorem read_span (p : Place) (cssClass : String) (spans : List Span) (s : Span) :
    read (.inSpan p cssClass spans s.cssClass []) (s.text.toList.map Piece.char ++ [.closeSpan]) =
      some (.afterSpan p cssClass (s :: spans)) := by
  rw [read_append, read_spanText]
  have htext : String.ofList (s.text.toList.reverse ++ []).reverse = s.text := by simp
  change some (afterSpan p cssClass (⟨s.cssClass, String.ofList _⟩ :: spans)) = _
  rw [htext]

theorem read_spans (p : Place) (cssClass : String) (spans ss : List Span) :
    read (.afterSpan p cssClass spans) (ss.flatMap Span.pieces) =
      some (.afterSpan p cssClass (ss.reverse ++ spans)) := by
  induction ss generalizing spans with
  | nil => rfl
  | cons s ss ih =>
      have hspan : read (.afterSpan p cssClass spans) s.pieces =
          some (.afterSpan p cssClass (s :: spans)) := read_span p cssClass spans s
      rw [List.flatMap_cons, read_append, hspan, List.reverse_cons, List.append_assoc]
      exact ih (s :: spans)

/-- A paragraph is read whole: its text when it has no spans, else its spans. -/
theorem read_paragraph (p : Place) (cssClass : String) {content : Inline}
    (h : content.WellFormed) :
    read (.between p) (Markup.paragraph cssClass content).pieces =
      some (.between (p.add (.paragraph cssClass content))) := by
  change read (.inText p cssClass []) (content.pieces ++ [.closeParagraph]) = _
  cases content with
  | text t =>
      rw [Inline.pieces, read_append, read_text]
      have htext : String.ofList (t.toList.reverse ++ []).reverse = t := by simp
      change some (between (p.add (.paragraph cssClass (.text (String.ofList _))))) = _
      rw [htext]
  | spans ss =>
      cases ss with
      | nil => exact absurd rfl h.1
      | cons s ss =>
          rw [Inline.pieces, List.flatMap_cons, Span.pieces, List.cons_append, List.cons_append]
          change read (.inSpan p cssClass [] s.cssClass []) _ = _
          rw [read_append, read_append, read_span, Option.bind_some, read_spans]
          have hspans : (ss.reverse ++ [s]).reverse = s :: ss := by simp
          change some (between (p.add (.paragraph cssClass (.spans _)))) = _
          rw [hspans]

mutual

/-- An element is read whole, wherever the reader is among elements. -/
theorem read_pieces : (m : Markup) → m.WellFormed → (p : Place) →
    read (.between p) m.pieces = some (.between (p.add m))
  | .box cssClass children, h, p => by
    rw [Markup.pieces, read_cons]
    change read (.between (p.enter cssClass)) _ = _
    rw [read_append, read_childPieces children h.2]
    have hchildren : (children.reverse ++ []).reverse = children := by simp
    change some (between ⟨.box cssClass (children.reverse ++ []).reverse :: p.before, p.around⟩) = _
    rw [hchildren]
    rfl
  | .paragraph cssClass _, h, p => read_paragraph p cssClass h.2
  | .image _ _, _, _ => rfl

theorem read_childPieces : (ms : List Markup) → AllWellFormed ms → (p : Place) →
    read (.between p) (childPieces ms) = some (.between ⟨ms.reverse ++ p.before, p.around⟩)
  | [], _, _ => rfl
  | m :: ms, h, p => by
    rw [childPieces, read_append, read_pieces m h.1, List.reverse_cons, List.append_assoc]
    exact read_childPieces ms h.2 (p.add m)

end

theorem read_lines (ms before : List Markup) (h : AllWellFormed ms) :
    read (.between ⟨before, []⟩) ([Piece.char '\n'].intercalate (ms.map Markup.pieces)) =
      some (.between ⟨ms.reverse ++ before, []⟩) := by
  induction ms generalizing before with
  | nil => rfl
  | cons m ms ih =>
      cases ms with
      | nil =>
          rw [List.map_singleton, List.intercalate_singleton]
          exact read_pieces m h.1 ⟨before, []⟩
      | cons n ms =>
          rw [List.map_cons, List.map_cons, List.intercalate_cons_cons, ← List.map_cons,
            List.append_assoc, read_append, read_pieces m h.1, List.reverse_cons,
            List.append_assoc]
          exact ih (m :: before) h.2

end Reader

/-- The elements that a body shows, if it shows nothing else. -/
def readBody? (body : String) : Option (List Markup) :=
  (Reader.read (.between .top) (pieces body.toList)).bind Reader.finish?

/-- The visible elements are read back from a body, frame by frame: every box with its class and
what is in it, every paragraph with its class and its text or spans, every image with its class
and address.  So bodies are the same only for the same visible elements. -/
theorem readBody?_body (scene : ClassifiedScene) :
    readBody? (body scene) = some (markupsOf scene) ∧
      ∀ other : ClassifiedScene, body other = body scene ↔ markupsOf other = markupsOf scene := by
  have hread (s : ClassifiedScene) : readBody? (body s) = some (markupsOf s) := by
    have hlines := Reader.read_lines (markupsOf s) [] (markupsOf_wellFormed s)
    rw [readBody?, pieces_body, Place.top, hlines]
    simp [Reader.finish?]
  refine ⟨hread scene, fun other ↦ ⟨fun h ↦ ?_, fun h ↦ ?_⟩⟩
  · have hsame : readBody? (body other) = readBody? (body scene) := by rw [h]
    rw [hread other, hread scene] at hsame
    exact Option.some.inj hsame
  · rw [body, body, h]

end DesignToWeb.Html
