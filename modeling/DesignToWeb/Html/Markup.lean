import DesignToWeb.Naming
import DesignToWeb.Strategy

/-!
# Markup

The visible elements of a page as a tree, and the one place where it becomes
text.  An exported image hides what is below its element.
-/

namespace DesignToWeb.Html

/-! ## Escaped text

Text stands in a page character by character: the five characters that could be
taken for markup become references, and in running text a line break becomes an
element of its own.
-/

def escapeChar : Char → String
  | '&' => "&amp;"
  | '<' => "&lt;"
  | '>' => "&gt;"
  | '"' => "&quot;"
  | '\'' => "&#x27;"
  | c => String.singleton c

def escape (s : String) : String := String.join (s.toList.map escapeChar)

def escapeTextChar (c : Char) : String := if c = '\n' then "<br/>" else escapeChar c

def escapeText (s : String) : String := String.join (s.toList.map escapeTextChar)

theorem escapeText_append (s t : String) : escapeText (s ++ t) = escapeText s ++ escapeText t := by
  simp only [escapeText, String.toList_append, List.map_append, String.join_append]

/-! ## Elements -/

structure Span where
  cssClass : String
  text : String
deriving DecidableEq

inductive Inline where
  | text (text : String)
  | spans (spans : List Span)
deriving DecidableEq

inductive Markup where
  | box (cssClass : String) (children : List Markup)
  | paragraph (cssClass : String) (content : Inline)
  | image (cssClass address : String)

def openTag (tag cssClass : String) : String := "<" ++ tag ++ " class=\"" ++ cssClass ++ "\">"

def Span.render (s : Span) : String :=
  openTag "span" s.cssClass ++ escapeText s.text ++ "</span>"

def Inline.render : Inline → String
  | text t => escapeText t
  | spans ss => String.join (ss.map Span.render)

mutual

def Markup.render : Markup → String
  | .box cssClass children => openTag "div" cssClass ++ renderChildren children ++ "</div>"
  | .paragraph cssClass content => openTag "p" cssClass ++ content.render ++ "</p>"
  | .image cssClass address =>
    "<img class=\"" ++ cssClass ++ "\" src=\"" ++ address ++ "\" alt=\"\" />"

def renderChildren : List Markup → String
  | [] => ""
  | m :: ms => m.render ++ renderChildren ms

end

/-- What a text shows: its runs, each in a span, or the text as a whole when no run is styled. -/
def content (e : Element) : Inline :=
  if e.hasStyledRuns then
    .spans (e.runs.zipIdx.map fun (run, i) ↦ ⟨Naming.spanClass e.id i, run.text⟩)
  else .text (e.text.getD "")

mutual

def markupOf : Tree Classified → Markup
  | .node c children =>
    match c.strategy with
    | .text => .paragraph (Naming.cssClass c.id) (content c.element)
    | .imageFallback => .image (Naming.cssClass c.id) (Naming.fallbackAddress c.id)
    | .markup => .box (Naming.cssClass c.id) (markupsOf children)

def markupsOf : List (Tree Classified) → List Markup
  | [] => []
  | t :: ts => markupOf t :: markupsOf ts

end

/-- The body of a page, one top-level element on a line. -/
def body (scene : ClassifiedScene) : String :=
  "\n".intercalate ((markupsOf scene).map Markup.render)

/-! ## Pages -/

def page (title : String) (scene : ClassifiedScene) : String :=
  "\n".intercalate [
    "<!doctype html>",
    "<html lang=\"en\">",
    "<head>",
    "  <meta charset=\"utf-8\"/>",
    "  <meta name=\"viewport\" content=\"width=device-width,initial-scale=1\"/>",
    "  <title>" ++ escape title ++ "</title>",
    "  <link rel=\"stylesheet\" href=\"./styles.css\"/>",
    "  <style>body\x7bmargin:0;position:relative;min-height:100vh;background:#fff\x7d</style>",
    "</head>",
    "<body>",
    body scene,
    "</body>",
    "</html>"] ++ "\n"

end DesignToWeb.Html
