import DesignToWeb.Proofs.Css.Rules
import DesignToWeb.Proofs.Text.Quoting

/-!
# Addresses in a stylesheet

The only double quotes of a stylesheet are those around the addresses of its
bitmaps.
-/

namespace DesignToWeb.Css

open Outcome
open Text (MadeOf QuotesOnly)

variable {allowed : List Char → Prop}

/-- What stands before an address in a declaration. -/
def imageLead : List Char := "background-image:url".toList ++ ['(']

/-- Bitmaps whose addresses may stand in a stylesheet. -/
def AllAllowed (allowed : List Char → Prop) (assets : ImageAssets) : Prop :=
  ∀ asset ∈ assets, MadeOf Naming.isAddressChar asset.2.address ∧ allowed asset.2.address.toList

/-- Elements whose flows run along a row or a column. -/
def HasKnownDirection (c : Classified) : Prop :=
  ∀ box, c.element.layout = .flow box → box.direction = .row ∨ box.direction = .column

theorem mem_of_mem_trimWhile {blank : Char → Bool} {cs : List Char} {c : Char}
    (h : c ∈ Text.trimWhile blank cs) : c ∈ cs := by
  have hback := (List.dropWhile_sublist _).mem (List.mem_reverse.mp h)
  exact (List.dropWhile_sublist _).mem (List.mem_reverse.mp hback)

/-- A family without quotes of its own and without blanks around it. -/
def bareFamily (family : String) : String :=
  Text.trim (String.ofList (family.toList.filter fun c ↦ c ≠ '\'' ∧ c ≠ '"'))

theorem notMem_bareFamily {quote : Char} (hquote : quote = '\'' ∨ quote = '"') (family : String) :
    quote ∉ (bareFamily family).toList := by
  rw [bareFamily, Text.trim, String.toList_ofList, String.toList_ofList]
  intro hmem
  have hmem := mem_of_mem_trimWhile hmem
  have hfilter := (List.mem_filter.mp hmem).2
  rcases hquote with rfl | rfl
  · exact absurd hfilter (by decide)
  · exact absurd hfilter (by decide)

theorem fontFamily_eq (family : String) :
    fontFamily family = if bareFamily family = "" then fallbackFamily
      else "'" ++ bareFamily family ++ "'" ++ ", system-ui, sans-serif" := by
  have hfallback : "', " ++ fallbackFamily = "'" ++ ", system-ui, sans-serif" := by decide
  rw [String.append_assoc, ← hfallback, ← String.append_assoc]
  rfl

theorem notMem_fontFamily (family : String) : '"' ∉ (fontFamily family).toList := by
  rw [fontFamily_eq]
  split
  · decide
  · simp only [String.toList_append, List.mem_append, not_or]
    exact ⟨⟨⟨by decide, notMem_bareFamily (Or.inr rfl) family⟩, by decide⟩, by decide⟩

theorem quotesOnly_plain (property : Property) {value : String} (h : '"' ∉ value.toList) :
    QuotesOnly imageLead allowed (Declaration.text ⟨property, value⟩) :=
  .append (.append (.append (.ofPlain ((madeOf_name property).notMem (by decide))) (.ofPlain (by decide)))
    (.ofPlain h)) (.ofPlain (by decide))

theorem quotesOnly_image {address : String} (haddress : MadeOf Naming.isAddressChar address)
    (hallowed : allowed address.toList) :
    QuotesOnly imageLead allowed
      (Declaration.text ⟨.backgroundImage, "url(\"" ++ address ++ "\")"⟩) := by
  have htext : Declaration.text ⟨.backgroundImage, "url(\"" ++ address ++ "\")"⟩ =
      "background-image" ++ ":" ++ "url(" ++ "\"" ++ address ++ "\"" ++ (")" ++ ";") := by
    have hassoc (a b c q d e : String) : a ++ b ++ (c ++ q ++ address ++ (q ++ d)) ++ e =
        a ++ b ++ c ++ q ++ address ++ q ++ (d ++ e) := by
      simp only [String.append_assoc]
    exact hassoc "background-image" ":" "url(" "\"" ")" ";"
  have hlead : '"' ∉ ("background-image" ++ ":" ++ "url(").toList := by decide
  have hend : imageLead.reverse.isPrefixOf address.toList.reverse = false :=
    Text.not_isPrefixOf_reverse rfl (haddress.notMem (by decide))
  have hquote : '"' ∉ address.toList := haddress.notMem (by decide)
  rw [htext]
  refine QuotesOnly.append ?_ (.ofPlain (by decide))
  exact QuotesOnly.quoted hlead hquote hend fun _ _ ↦ hallowed

theorem notMem_of_madeOf {value : String} (h : MadeOf isValueChar value) : '"' ∉ value.toList :=
  h.notMem (by decide)

theorem quotesOnly_style {asset? : Option ImageAsset} {d : Declaration}
    (h : StyleDeclaration asset? d)
    (hasset : ∀ asset, asset? = some asset →
      MadeOf Naming.isAddressChar asset.address ∧ allowed asset.address.toList) :
    QuotesOnly imageLead allowed d.text := by
  cases h with
  | plain _ hvalue => exact quotesOnly_plain _ (notMem_of_madeOf hvalue)
  | family family => exact quotesOnly_plain .fontFamily (notMem_fontFamily family)
  | image hsome =>
      obtain ⟨hmade, hallowed⟩ := hasset _ hsome
      exact quotesOnly_image hmade hallowed

theorem quotesOnly_block {block : Block} (hselector : MadeOf Naming.isSafe block.selector)
    (hds : ∀ d ∈ block.declarations, QuotesOnly imageLead allowed d.text) :
    QuotesOnly imageLead allowed block.text := by
  refine .append (.append (.append (.append (.ofPlain (by decide))
    (.ofPlain (hselector.notMem (by decide)))) (.ofPlain (by decide))) (.join ?_))
    (.ofPlain (by decide))
  intro text htext
  obtain ⟨d, hd, rfl⟩ := List.mem_map.mp htext
  exact hds d hd

theorem quotesOnly_elementRules {c : Classified} {asset? : Option ImageAsset}
    {ds : List Declaration} (hdirection : HasKnownDirection c)
    (hasset : ∀ asset, asset? = some asset →
      MadeOf Naming.isAddressChar asset.address ∧ allowed asset.address.toList)
    (h : elementRules c asset? = .ok ds) : ∀ d ∈ ds, QuotesOnly imageLead allowed d.text := by
  obtain ⟨layout, style, hlayout, rfl, hstyle⟩ := elementRules_eq_ok h
  intro d hd
  rcases List.mem_append.mp hd with hd | hd
  · exact quotesOnly_plain d.property (notMem_of_madeOf (declares_layoutRules hdirection hlayout d hd).2)
  · exact quotesOnly_style (hstyle d hd) hasset

theorem quotesOnly_runBlocks {c : Classified} {blocks : List Block}
    (h : runBlocks c = .ok blocks) :
    ∀ block ∈ blocks, QuotesOnly imageLead allowed block.text := by
  intro block hblock
  obtain ⟨_, run, _, i, hselector, hrules⟩ := exists_run_of_mem_runBlocks h hblock
  have hstyle : ∀ d ∈ block.declarations, StyleDeclaration none d := .ofRun hrules
  refine quotesOnly_block ?_ fun d hd ↦ quotesOnly_style (hstyle d hd) nofun
  rw [hselector]
  exact Naming.madeOf_spanClass c.id i

/-- The images in a stylesheet have the addresses of its bitmaps. -/
theorem quotesOnly_stylesheet {assets : ImageAssets} {scene : ClassifiedScene} {css : String}
    (hassets : AllAllowed allowed assets) (hdirection : ∀ c ∈ scene.elements, HasKnownDirection c)
    (h : stylesheet assets scene = .ok css) : QuotesOnly imageLead allowed css := by
  obtain ⟨all, hall, h⟩ := bind_eq_ok.mp h
  rw [← pure_eq_ok.mp h]
  obtain ⟨lists, hlists, hflatten⟩ := bind_eq_ok.mp hall
  -- the rule for all boxes, and then the blocks of one element after the other
  refine .intercalate (.ofPlain (by decide)) fun text htext ↦ ?_
  rcases List.mem_cons.mp htext with rfl | htext
  · exact .ofPlain (by decide)
  · obtain ⟨block, hblock, rfl⟩ := List.mem_map.mp htext
    rw [← pure_eq_ok.mp hflatten] at hblock
    obtain ⟨blocks, hblocks, hblock⟩ := List.mem_flatten.mp hblock
    obtain ⟨c, hc, helement⟩ := exists_of_mem_right hlists hblocks
    obtain ⟨rules, hrules, helement⟩ := bind_eq_ok.mp helement
    obtain ⟨runs, hruns, helement⟩ := bind_eq_ok.mp helement
    rw [← pure_eq_ok.mp helement] at hblock
    rcases List.mem_append.mp hblock with hblock | hblock
    · rw [eq_of_block?_eq_some (Option.mem_toList.mp hblock)]
      refine quotesOnly_block (Naming.madeOf_cssClass c.id)
        (quotesOnly_elementRules (hdirection c hc) ?_ hrules)
      intro asset hasset
      obtain ⟨before, after, hmem, _⟩ := List.lookup_eq_some_iff.mp hasset
      exact hassets (c.id, asset) (by rw [hmem]; simp)
    · exact quotesOnly_runBlocks hruns block hblock

end DesignToWeb.Css
