import DesignToWeb.Html.Markup
import DesignToWeb.Proofs.Naming

/-!
# The pieces of a page

A text of markup is cut into tags and characters, from left to right and with
nothing known of how it came about: references and line breaks are undone, and
tags are told apart by what stands outside their quotes.  Rendered markup falls
into the pieces that it was put together from.
-/

namespace DesignToWeb.Html

open Text (MadeOf)

/-! ## Cutting a text -/

/-- A tag with what stands in its quotes, or a character. -/
inductive Piece where
  | openBox (cssClass : String)
  | closeBox
  | openParagraph (cssClass : String)
  | closeParagraph
  | openSpan (cssClass : String)
  | closeSpan
  | image (cssClass address : String)
  | otherTag
  | char (c : Char)
deriving DecidableEq

/-- The piece for a tag that is cut at its double quotes.  A line break counts as a character. -/
def pieceOfParts : List String → Piece
  | ["br/"] => .char '\n'
  | ["div class=", cssClass, ""] => .openBox cssClass
  | ["/div"] => .closeBox
  | ["p class=", cssClass, ""] => .openParagraph cssClass
  | ["/p"] => .closeParagraph
  | ["span class=", cssClass, ""] => .openSpan cssClass
  | ["/span"] => .closeSpan
  | ["img class=", cssClass, " src=", address, " alt=", "", " /"] => .image cssClass address
  | _ => .otherTag

/-- The piece for what stands between angle brackets. -/
def pieceOfTag (inner : List Char) : Piece :=
  pieceOfParts ((inner.splitOn '"').map String.ofList)

/-- The character that a reference stands for, by its name. -/
def referenced? (name : List Char) : Option Char :=
  match String.ofList name with
  | "amp" => some '&'
  | "lt" => some '<'
  | "gt" => some '>'
  | "quot" => some '"'
  | "#x27" => some '\''
  | _ => none

mutual

def pieces : List Char → List Piece
  | [] => []
  | c :: rest =>
    if c = '<' then piecesInTag [] rest
    else if c = '&' then piecesInReference [] rest
    else .char c :: pieces rest

/-- The pieces of a text from inside a tag on, of which the beginning has been read. -/
def piecesInTag (begun : List Char) : List Char → List Piece
  | [] => []
  | c :: rest =>
    if c = '>' then pieceOfTag begun.reverse :: pieces rest else piecesInTag (c :: begun) rest

/-- The pieces of a text from inside a reference on.  A reference without a known name is dropped. -/
def piecesInReference (begun : List Char) : List Char → List Piece
  | [] => []
  | c :: rest =>
    if c = ';' then ((referenced? begun.reverse).map Piece.char).toList ++ pieces rest
    else piecesInReference (c :: begun) rest

end

theorem piecesInTag_append {inner : List Char} (h : '>' ∉ inner) (begun rest : List Char) :
    piecesInTag begun (inner ++ '>' :: rest) =
      pieceOfTag (begun.reverse ++ inner) :: pieces rest := by
  induction inner generalizing begun with
  | nil => simp [piecesInTag]
  | cons c inner ih =>
      have hc : c ≠ '>' := fun hc ↦ h (hc ▸ List.mem_cons_self)
      have hinner : '>' ∉ inner := fun hmem ↦ h (List.mem_cons_of_mem c hmem)
      rw [List.cons_append, piecesInTag, if_neg hc, ih hinner]
      simp

theorem pieces_tag {inner : List Char} (h : '>' ∉ inner) (rest : List Char) :
    pieces ('<' :: (inner ++ '>' :: rest)) = pieceOfTag inner :: pieces rest := by
  rw [pieces, if_pos rfl, piecesInTag_append h]
  rfl

/-- What was put together at double quotes is cut there again. -/
theorem pieceOfTag_intercalate {parts : List (List Char)} (hne : parts ≠ [])
    (h : ∀ part ∈ parts, '"' ∉ part) :
    pieceOfTag (['"'].intercalate parts) = pieceOfParts (parts.map String.ofList) := by
  rw [pieceOfTag, List.splitOn_intercalate '"' h hne]

/-! ## Escaped text -/

theorem notMem_of_all {mark : Char} {marks cs : List Char} (hmark : mark ∈ marks)
    (h : marks.all (fun mark ↦ !cs.contains mark) = true) : mark ∉ cs := by
  have hmark := List.all_eq_true.mp h mark hmark
  rwa [Bool.not_eq_true', List.contains_eq_mem, decide_eq_false_iff_not] at hmark

theorem notMem_escapeChar {mark : Char} (hmark : mark ∈ ['<', '>', '"']) (c : Char) :
    mark ∉ (escapeChar c).toList := by
  unfold escapeChar
  split
  · exact notMem_of_all hmark (by decide)
  · exact notMem_of_all hmark (by decide)
  · exact notMem_of_all hmark (by decide)
  · exact notMem_of_all hmark (by decide)
  · exact notMem_of_all hmark (by decide)
  · next hamp hlt hgt hquote hprime =>
      intro hmem
      rw [String.toList_singleton, List.mem_singleton] at hmem
      rw [hmem] at hmark
      simp only [List.mem_cons, List.not_mem_nil, or_false] at hmark
      rcases hmark with hmark | hmark | hmark
      · exact hlt hmark
      · exact hgt hmark
      · exact hquote hmark

theorem pieces_escapeChar (c : Char) (rest : List Char) :
    pieces ((escapeChar c).toList ++ rest) = .char c :: pieces rest := by
  unfold escapeChar
  split
  · rfl
  · rfl
  · rfl
  · rfl
  · rfl
  · next hamp hlt _ _ _ =>
      have hlt : c ≠ '<' := fun h ↦ hlt h
      have hamp : c ≠ '&' := fun h ↦ hamp h
      rw [String.toList_singleton, List.singleton_append, pieces, if_neg hlt, if_neg hamp]

theorem pieces_escapeTextChar (c : Char) (rest : List Char) :
    pieces ((escapeTextChar c).toList ++ rest) = .char c :: pieces rest := by
  unfold escapeTextChar
  split
  · next hc =>
      subst hc
      exact pieces_tag (by decide : '>' ∉ ['b', 'r', '/']) rest
  · exact pieces_escapeChar c rest

/-- A text that is escaped character by character falls into its characters. -/
theorem pieces_escaped {escapeOne : Char → String}
    (h : ∀ c rest, pieces ((escapeOne c).toList ++ rest) = .char c :: pieces rest) (s : String)
    (rest : List Char) :
    pieces ((String.join (s.toList.map escapeOne)).toList ++ rest) =
      s.toList.map Piece.char ++ pieces rest := by
  rw [String.toList_join]
  induction s.toList with
  | nil => rfl
  | cons c cs ih =>
      rw [List.map_cons, List.flatMap_cons, List.append_assoc, h, ih]
      rfl

theorem pieces_escape (s : String) (rest : List Char) :
    pieces ((escape s).toList ++ rest) = s.toList.map Piece.char ++ pieces rest :=
  pieces_escaped pieces_escapeChar s rest

theorem pieces_escapeText (s : String) (rest : List Char) :
    pieces ((escapeText s).toList ++ rest) = s.toList.map Piece.char ++ pieces rest :=
  pieces_escaped pieces_escapeTextChar s rest

/-! ## Tags -/

/-- The characters that neither close a tag nor cut it. -/
def isTagChar (c : Char) : Bool := c != '>' && c != '"'

theorem isTagChar_of_isAddressChar {c : Char} (h : Naming.isAddressChar c = true) :
    isTagChar c = true := by
  by_cases hgt : c = '>'
  · subst hgt
    exact absurd h (by decide)
  · by_cases hquote : c = '"'
    · subst hquote
      exact absurd h (by decide)
    · simp [isTagChar, hgt, hquote]

/-- A tag falls into what stands outside and inside its quotes. -/
theorem pieces_quoted {parts : List String} (hne : parts ≠ [])
    (h : ∀ part ∈ parts, MadeOf isTagChar part) (rest : List Char) :
    pieces (("<" ++ "\"".intercalate parts ++ ">").toList ++ rest) =
      pieceOfParts parts :: pieces rest := by
  have hopen : MadeOf (· != '>') ("\"".intercalate parts) := by
    refine MadeOf.intercalate (by decide) fun part hpart ↦ (h part hpart).mono fun c hc ↦ ?_
    exact (Bool.and_eq_true_iff.mp hc).1
  have hcut : ∀ part ∈ parts.map String.toList, '"' ∉ part := by
    intro cs hcs
    obtain ⟨part, hpart, rfl⟩ := List.mem_map.mp hcs
    exact (h part hpart).notMem (by decide)
  have htag : ("<" ++ "\"".intercalate parts ++ ">").toList ++ rest =
      '<' :: (("\"".intercalate parts).toList ++ '>' :: rest) := by
    simp
  have hlist : ("\"".intercalate parts).toList = ['"'].intercalate (parts.map String.toList) :=
    String.toList_intercalate
  have hid : String.ofList ∘ String.toList = id := funext fun s ↦ String.ofList_toList
  rw [htag, pieces_tag (hopen.notMem (by decide)), hlist,
    pieceOfTag_intercalate (fun hnil ↦ hne (List.map_eq_nil_iff.mp hnil)) hcut, List.map_map, hid,
    List.map_id]

theorem isTagChar_of_isSafe {c : Char} (h : Naming.isSafe c = true) : isTagChar c = true :=
  isTagChar_of_isAddressChar (Naming.isAddressChar_of_isSafe h)

theorem pieces_openTag {tag cssClass : String} (htag : MadeOf isTagChar (tag ++ " class="))
    (hclass : MadeOf Naming.isSafe cssClass) (rest : List Char) :
    pieces ((openTag tag cssClass).toList ++ rest) =
      pieceOfParts [tag ++ " class=", cssClass, ""] :: pieces rest := by
  have hparts : ∀ part ∈ [tag ++ " class=", cssClass, ""], MadeOf isTagChar part := by
    have hclass : MadeOf isTagChar cssClass := hclass.mono fun _ ↦ isTagChar_of_isSafe
    simp only [List.mem_cons, List.not_mem_nil, or_false]
    rintro part (rfl | rfl | rfl)
    · exact htag
    · exact hclass
    · decide
  have hrender : openTag tag cssClass =
      "<" ++ "\"".intercalate [tag ++ " class=", cssClass, ""] ++ ">" := by
    have hquote (a b q c d : String) : a ++ q.intercalate [tag ++ b, cssClass, c] ++ d =
        a ++ tag ++ (b ++ q) ++ cssClass ++ (q ++ c ++ d) := by
      simp only [String.intercalate_cons_cons, String.intercalate_singleton, String.append_assoc]
    exact (hquote "<" " class=" "\"" "" ">").symm
  rw [hrender]
  exact pieces_quoted (List.cons_ne_nil _ _) hparts rest

theorem pieces_image {cssClass address : String} (hclass : MadeOf Naming.isSafe cssClass)
    (haddress : MadeOf Naming.isAddressChar address) (rest : List Char) :
    pieces ((Markup.image cssClass address).render.toList ++ rest) =
      .image cssClass address :: pieces rest := by
  have hparts : ∀ part ∈ ["img class=", cssClass, " src=", address, " alt=", "", " /"],
      MadeOf isTagChar part := by
    have hclass : MadeOf isTagChar cssClass := hclass.mono fun _ ↦ isTagChar_of_isSafe
    have haddress : MadeOf isTagChar address := haddress.mono fun _ ↦ isTagChar_of_isAddressChar
    simp only [List.mem_cons, List.not_mem_nil, or_false]
    rintro part (rfl | rfl | rfl | rfl | rfl | rfl | rfl)
    · decide
    · exact hclass
    · decide
    · exact haddress
    · decide
    · decide
    · decide
  have hrender : (Markup.image cssClass address).render = "<" ++ "\"".intercalate
      ["img class=", cssClass, " src=", address, " alt=", "", " /"] ++ ">" := by
    -- The literals are kept out of the simplifier, which would compare their characters.
    have hassoc (a b c d e : String) : a ++ b ++ cssClass ++ c ++ address ++ (d ++ e) =
        a ++ (b ++ cssClass ++ c ++ address ++ d) ++ e := by
      simp only [String.append_assoc]
    have hquote (q a b c d e f g : String) : q.intercalate [a, b, c, d, e, f, g] =
        a ++ q ++ b ++ (q ++ c ++ q) ++ d ++ (q ++ e ++ q ++ f ++ q ++ g) := by
      simp only [String.intercalate_cons_cons, String.intercalate_singleton, String.append_assoc]
    rw [hquote]
    exact hassoc "<" ("img class=" ++ "\"") ("\"" ++ " src=" ++ "\"")
      ("\"" ++ " alt=" ++ "\"" ++ "" ++ "\"" ++ " /") ">"
  rw [hrender]
  exact pieces_quoted (List.cons_ne_nil _ _) hparts rest

/-! ## Rendered markup -/

def Span.pieces (s : Span) : List Piece :=
  .openSpan s.cssClass :: (s.text.toList.map Piece.char ++ [.closeSpan])

def Inline.pieces : Inline → List Piece
  | .text t => t.toList.map Piece.char
  | .spans ss => ss.flatMap Span.pieces

mutual

def Markup.pieces : Markup → List Piece
  | .box cssClass children => .openBox cssClass :: (childPieces children ++ [.closeBox])
  | .paragraph cssClass content =>
    .openParagraph cssClass :: (content.pieces ++ [.closeParagraph])
  | .image cssClass address => [.image cssClass address]

def childPieces : List Markup → List Piece
  | [] => []
  | m :: ms => m.pieces ++ childPieces ms

end

/-- Spans are there to be told from plain text, so a list of spans is never empty. -/
def Inline.WellFormed : Inline → Prop
  | .text _ => True
  | .spans ss => ss ≠ [] ∧ ∀ s ∈ ss, MadeOf Naming.isSafe s.cssClass

mutual

/-- All classes and addresses are made of the characters of names. -/
def Markup.WellFormed : Markup → Prop
  | .box cssClass children => MadeOf Naming.isSafe cssClass ∧ AllWellFormed children
  | .paragraph cssClass content => MadeOf Naming.isSafe cssClass ∧ content.WellFormed
  | .image cssClass address =>
    MadeOf Naming.isSafe cssClass ∧ MadeOf Naming.isAddressChar address

def AllWellFormed : List Markup → Prop
  | [] => True
  | m :: ms => m.WellFormed ∧ AllWellFormed ms

end

theorem pieces_enclosed {opening inner closing : String} {first last : Piece}
    {middle : List Piece}
    (hopening : ∀ rest, pieces (opening.toList ++ rest) = first :: pieces rest)
    (hinner : ∀ rest, pieces (inner.toList ++ rest) = middle ++ pieces rest)
    (hclosing : ∀ rest, pieces (closing.toList ++ rest) = last :: pieces rest)
    (rest : List Char) :
    pieces ((opening ++ inner ++ closing).toList ++ rest) =
      first :: (middle ++ [last]) ++ pieces rest := by
  rw [String.toList_append, String.toList_append, List.append_assoc, List.append_assoc, hopening,
    hinner, hclosing, List.cons_append, List.append_assoc, List.singleton_append]

theorem pieces_span {s : Span} (h : MadeOf Naming.isSafe s.cssClass) (rest : List Char) :
    pieces (s.render.toList ++ rest) = s.pieces ++ pieces rest :=
  pieces_enclosed (pieces_openTag (by decide) h) (pieces_escapeText s.text) (fun _ ↦ rfl) rest

theorem pieces_spans {ss : List Span} (h : ∀ s ∈ ss, MadeOf Naming.isSafe s.cssClass)
    (rest : List Char) :
    pieces ((String.join (ss.map Span.render)).toList ++ rest) =
      ss.flatMap Span.pieces ++ pieces rest := by
  rw [String.toList_join]
  induction ss with
  | nil => rfl
  | cons s ss ih =>
      have hs := h s List.mem_cons_self
      have hss := ih fun t ht ↦ h t (List.mem_cons_of_mem s ht)
      rw [List.map_cons, List.flatMap_cons, List.append_assoc, pieces_span hs, hss,
        List.flatMap_cons, List.append_assoc]

theorem pieces_inline {content : Inline} (h : content.WellFormed) (rest : List Char) :
    pieces (content.render.toList ++ rest) = content.pieces ++ pieces rest := by
  cases content with
  | text t => exact pieces_escapeText t rest
  | spans ss => exact pieces_spans h.2 rest

mutual

/-- Rendered markup falls into its pieces, whatever follows it. -/
theorem pieces_render : (m : Markup) → m.WellFormed → (rest : List Char) →
    pieces (m.render.toList ++ rest) = m.pieces ++ pieces rest
  | .box _ children, h, rest =>
    pieces_enclosed (pieces_openTag (by decide) h.1) (pieces_renderChildren children h.2)
      (fun _ ↦ rfl) rest
  | .paragraph _ _, h, rest =>
    pieces_enclosed (pieces_openTag (by decide) h.1) (pieces_inline h.2) (fun _ ↦ rfl) rest
  | .image _ _, h, rest => pieces_image h.1 h.2 rest

theorem pieces_renderChildren : (ms : List Markup) → AllWellFormed ms → (rest : List Char) →
    pieces ((renderChildren ms).toList ++ rest) = childPieces ms ++ pieces rest
  | [], _, _ => rfl
  | m :: ms, h, rest => by
    rw [renderChildren, String.toList_append, List.append_assoc, pieces_render m h.1,
      pieces_renderChildren ms h.2, childPieces, List.append_assoc]

end

/-! ## The body of a page -/

theorem content_wellFormed (e : Element) : (content e).WellFormed := by
  unfold content
  split
  · next hstyled =>
      refine ⟨?_, ?_⟩
      · intro hnil
        rw [List.map_eq_nil_iff, List.zipIdx_eq_nil_iff] at hnil
        rw [Element.hasStyledRuns, hnil] at hstyled
        exact Bool.noConfusion hstyled
      · intro s hs
        obtain ⟨⟨run, i⟩, _, rfl⟩ := List.mem_map.mp hs
        exact Naming.madeOf_spanClass e.id i
  · trivial

mutual

theorem markupOf_wellFormed : (t : Tree Classified) → (markupOf t).WellFormed
  | .node c children => by
    unfold markupOf
    split
    · exact ⟨Naming.madeOf_cssClass c.id, content_wellFormed c.element⟩
    · exact ⟨Naming.madeOf_cssClass c.id, Naming.madeOf_fallbackAddress c.id⟩
    · exact ⟨Naming.madeOf_cssClass c.id, markupsOf_wellFormed children⟩

theorem markupsOf_wellFormed : (ts : List (Tree Classified)) → AllWellFormed (markupsOf ts)
  | [] => trivial
  | t :: ts => ⟨markupOf_wellFormed t, markupsOf_wellFormed ts⟩

end

theorem pieces_lines {ms : List Markup} (h : AllWellFormed ms) :
    pieces ("\n".intercalate (ms.map Markup.render)).toList =
      [Piece.char '\n'].intercalate (ms.map Markup.pieces) := by
  induction ms with
  | nil => rfl
  | cons m ms ih =>
      cases ms with
      | nil =>
          have hm := pieces_render m h.1 []
          simpa [pieces] using hm
      | cons n ms =>
          have hbreak (rest : List Char) :
              pieces ("\n".toList ++ rest) = .char '\n' :: pieces rest := rfl
          rw [List.map_cons, List.map_cons, String.intercalate_cons_cons, ← List.map_cons,
            String.toList_append, String.toList_append, List.append_assoc, pieces_render m h.1,
            hbreak, ih h.2]
          simp [List.intercalate_cons_cons]

/-- The body of a page falls into the pieces of its top-level elements, with a line break between
each two of them. -/
theorem pieces_body (scene : ClassifiedScene) :
    pieces (body scene).toList =
      [Piece.char '\n'].intercalate ((markupsOf scene).map Markup.pieces) :=
  pieces_lines (markupsOf_wellFormed scene)

end DesignToWeb.Html
