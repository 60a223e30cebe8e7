import DesignToWeb.Html.Markup
import DesignToWeb.Proofs.Html.Pieces
import DesignToWeb.Proofs.Naming
import DesignToWeb.Proofs.Text.Quoting

/-!
# Addresses in a page

The only addresses that a page gives as sources are those of the exported
images of its scene, whatever its title and its texts hold.
-/

namespace DesignToWeb.Html

open Text (MadeOf QuotesOnly)

variable {allowed : List Char → Prop}

/-- What stands before an address in an image. -/
def sourceLead : List Char := "src".toList ++ ['=']

theorem notMem_escape (s : String) : '"' ∉ (escape s).toList := by
  rw [escape, String.toList_join]
  simp only [List.mem_flatMap, List.mem_map, not_exists, not_and]
  rintro t ⟨c, _, rfl⟩
  exact notMem_escapeChar (by decide) c

theorem notMem_escapeText (s : String) : '"' ∉ (escapeText s).toList := by
  rw [escapeText, String.toList_join]
  simp only [List.mem_flatMap, List.mem_map, not_exists, not_and]
  rintro t ⟨c, _, rfl⟩
  unfold escapeTextChar
  split
  · decide
  · exact notMem_escapeChar (by decide) c

theorem notMem_quote_of_madeOf {s : String} (h : MadeOf Naming.isAddressChar s) : '"' ∉ s.toList :=
  h.notMem (by decide)

theorem not_isPrefixOf_source {value : String} (h : MadeOf Naming.isAddressChar value) :
    sourceLead.reverse.isPrefixOf value.toList.reverse = false :=
  Text.not_isPrefixOf_reverse rfl (h.notMem (by decide))

theorem quotesOnly_openTag {tag cssClass : String} (htag : '"' ∉ ("<" ++ tag ++ " class=").toList)
    (hclass : MadeOf Naming.isSafe cssClass) :
    QuotesOnly sourceLead allowed (openTag tag cssClass) := by
  have hrender : openTag tag cssClass =
      "<" ++ tag ++ " class=" ++ "\"" ++ cssClass ++ "\"" ++ ">" := by
    have hassoc (a b q d : String) : a ++ tag ++ (b ++ q) ++ cssClass ++ (q ++ d) =
        a ++ tag ++ b ++ q ++ cssClass ++ q ++ d := by
      simp only [String.append_assoc]
    exact hassoc "<" " class=" "\"" ">"
  have hclass : MadeOf Naming.isAddressChar cssClass :=
    hclass.mono fun _ ↦ Naming.isAddressChar_of_isSafe
  rw [hrender]
  refine .append (.other htag (notMem_quote_of_madeOf hclass) (not_isPrefixOf_source hclass) ?_)
    (.ofPlain (by decide))
  intro seen
  rw [String.toList_append, List.reverse_append, List.append_assoc]
  rfl

theorem quotesOnly_image {cssClass address : String} (hclass : MadeOf Naming.isSafe cssClass)
    (haddress : MadeOf Naming.isAddressChar address) (hallowed : allowed address.toList) :
    QuotesOnly sourceLead allowed (Markup.image cssClass address).render := by
  have hrender : (Markup.image cssClass address).render =
      "<img class=" ++ "\"" ++ cssClass ++ "\"" ++ (" src=" ++ "\"" ++ address ++ "\"") ++
        (" alt=" ++ "\"" ++ "" ++ "\"") ++ " />" := by
    have hassoc (a b c q e d : String) : a ++ q ++ cssClass ++ (q ++ b ++ q) ++ address ++
        (q ++ c ++ q ++ e ++ q ++ d) =
        a ++ q ++ cssClass ++ q ++ (b ++ q ++ address ++ q) ++ (c ++ q ++ e ++ q) ++ d := by
      simp only [String.append_assoc]
    exact hassoc "<img class=" " src=" " alt=" "\"" "" " />"
  have hclass : MadeOf Naming.isAddressChar cssClass :=
    hclass.mono fun _ ↦ Naming.isAddressChar_of_isSafe
  rw [hrender]
  refine .append (.append (.append ?_ ?_) ?_) (.ofPlain (by decide))
  · exact .other (by decide) (notMem_quote_of_madeOf hclass) (not_isPrefixOf_source hclass)
      fun _ ↦ rfl
  · exact .quoted (by decide) (notMem_quote_of_madeOf haddress) (not_isPrefixOf_source haddress)
      fun seen _ ↦ hallowed
  · exact .other (by decide) (by decide) (by decide) fun _ ↦ rfl

theorem quotesOnly_inline {content : Inline} (h : ∀ ss, content = .spans ss →
    ∀ s ∈ ss, MadeOf Naming.isSafe s.cssClass) :
    QuotesOnly sourceLead allowed content.render := by
  cases content with
  | text t => exact .ofPlain (notMem_escapeText t)
  | spans ss =>
      apply QuotesOnly.join
      intro text htext
      obtain ⟨s, hs, rfl⟩ := List.mem_map.mp htext
      exact .append (.append (quotesOnly_openTag (by decide) (h ss rfl s hs))
        (.ofPlain (notMem_escapeText s.text))) (.ofPlain (by decide))

theorem quotesOnly_content (e : Element) : QuotesOnly sourceLead allowed (content e).render := by
  apply quotesOnly_inline
  intro ss hss s hs
  unfold content at hss
  split at hss
  · rw [← Inline.spans.inj hss] at hs
    obtain ⟨⟨run, i⟩, _, rfl⟩ := List.mem_map.mp hs
    exact Naming.madeOf_spanClass e.id i
  · exact nomatch hss

theorem quotesOnly_renderChildren {ms : List Markup}
    (h : ∀ m ∈ ms, QuotesOnly sourceLead allowed m.render) :
    QuotesOnly sourceLead allowed (renderChildren ms) := by
  induction ms with
  | nil => exact .ofPlain (by decide)
  | cons m ms ih =>
      exact .append (h m List.mem_cons_self) (ih fun n hn ↦ h n (List.mem_cons_of_mem m hn))

mutual

/-- The sources in an element are the addresses of the exported images in its tree. -/
theorem quotesOnly_markupOf : (t : Tree Classified) →
    (∀ c ∈ t.preorder, c.strategy = .imageFallback →
      allowed (Naming.fallbackAddress c.id).toList) →
    QuotesOnly sourceLead allowed (markupOf t).render
  | .node c children, h => by
    have hclass := Naming.madeOf_cssClass c.id
    unfold markupOf
    cases hstrategy : c.strategy with
    | text =>
        exact .append (.append (quotesOnly_openTag (by decide) hclass)
          (quotesOnly_content c.element)) (.ofPlain (by decide))
    | imageFallback =>
        exact quotesOnly_image hclass (Naming.madeOf_fallbackAddress c.id)
          (h c List.mem_cons_self hstrategy)
    | markup =>
        have hchildren := quotesOnly_markupsOf children
          fun d hd ↦ h d (List.mem_cons_of_mem c hd)
        exact .append (.append (quotesOnly_openTag (by decide) hclass)
          (quotesOnly_renderChildren hchildren)) (.ofPlain (by decide))

theorem quotesOnly_markupsOf : (ts : List (Tree Classified)) →
    (∀ c ∈ Tree.preorderForest ts, c.strategy = .imageFallback →
      allowed (Naming.fallbackAddress c.id).toList) →
    ∀ m ∈ markupsOf ts, QuotesOnly sourceLead allowed m.render
  | [], _, m, hm => absurd hm List.not_mem_nil
  | t :: ts, h, m, hm => by
    rcases List.mem_cons.mp hm with rfl | hm
    · exact quotesOnly_markupOf t fun c hc ↦ h c (List.mem_append_left _ hc)
    · exact quotesOnly_markupsOf ts (fun c hc ↦ h c (List.mem_append_right _ hc)) m hm

end

theorem quotesOnly_root : QuotesOnly sourceLead allowed "<html lang=\"en\">" := by
  have hline : "<html lang=\"en\">" = "<html lang=" ++ "\"" ++ "en" ++ "\"" ++ ">" := by decide
  rw [hline]
  exact .append (.other (by decide) (by decide) (by decide) fun _ ↦ rfl) (.ofPlain (by decide))

theorem quotesOnly_charset : QuotesOnly sourceLead allowed "  <meta charset=\"utf-8\"/>" := by
  have hline : "  <meta charset=\"utf-8\"/>" =
      "  <meta charset=" ++ "\"" ++ "utf-8" ++ "\"" ++ "/>" := by decide
  rw [hline]
  exact .append (.other (by decide) (by decide) (by decide) fun _ ↦ rfl) (.ofPlain (by decide))

theorem quotesOnly_viewport : QuotesOnly sourceLead allowed
    "  <meta name=\"viewport\" content=\"width=device-width,initial-scale=1\"/>" := by
  have hline : "  <meta name=\"viewport\" content=\"width=device-width,initial-scale=1\"/>" =
      "  <meta name=" ++ "\"" ++ "viewport" ++ "\"" ++
        (" content=" ++ "\"" ++ "width=device-width,initial-scale=1" ++ "\"") ++ "/>" := by decide
  rw [hline]
  exact .append (.append (.other (by decide) (by decide) (by decide) fun _ ↦ rfl)
    (.other (by decide) (by decide) (by decide) fun _ ↦ rfl)) (.ofPlain (by decide))

theorem quotesOnly_link : QuotesOnly sourceLead allowed
    "  <link rel=\"stylesheet\" href=\"./styles.css\"/>" := by
  have hline : "  <link rel=\"stylesheet\" href=\"./styles.css\"/>" =
      "  <link rel=" ++ "\"" ++ "stylesheet" ++ "\"" ++
        (" href=" ++ "\"" ++ "./styles.css" ++ "\"") ++ "/>" := by decide
  rw [hline]
  exact .append (.append (.other (by decide) (by decide) (by decide) fun _ ↦ rfl)
    (.other (by decide) (by decide) (by decide) fun _ ↦ rfl)) (.ofPlain (by decide))

/-- The sources in a page are the addresses of the exported images of its scene. -/
theorem quotesOnly_page (title : String) {scene : ClassifiedScene}
    (h : ∀ c ∈ scene.elements, c.strategy = .imageFallback →
      allowed (Naming.fallbackAddress c.id).toList) :
    QuotesOnly sourceLead allowed (page title scene) := by
  have hbody : QuotesOnly sourceLead allowed (body scene) := by
    refine .intercalate (.ofPlain (by decide)) fun text htext ↦ ?_
    obtain ⟨m, hm, rfl⟩ := List.mem_map.mp htext
    exact quotesOnly_markupsOf scene h m hm
  refine .append (.intercalate (.ofPlain (by decide)) ?_) (.ofPlain (by decide))
  simp only [List.mem_cons, List.not_mem_nil, or_false]
  -- line by line; all images stand in the body
  rintro line (rfl | rfl | rfl | rfl | rfl | rfl | rfl | rfl | rfl | rfl | rfl | rfl | rfl)
  · exact .ofPlain (by decide)
  · exact quotesOnly_root
  · exact .ofPlain (by decide)
  · exact quotesOnly_charset
  · exact quotesOnly_viewport
  · exact .append (.append (.ofPlain (by decide)) (.ofPlain (notMem_escape title)))
      (.ofPlain (by decide))
  · exact quotesOnly_link
  · exact .ofPlain (by decide)
  · exact .ofPlain (by decide)
  · exact .ofPlain (by decide)
  · exact hbody
  · exact .ofPlain (by decide)
  · exact .ofPlain (by decide)

end DesignToWeb.Html
