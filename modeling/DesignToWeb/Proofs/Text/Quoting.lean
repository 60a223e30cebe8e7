import DesignToWeb.Proofs.Text.MadeOf

/-!
# Quoted values

Where a text is a sequence of pieces, the values that stand in double quotes
after some lead-in are found piece by piece.  Before a quote only what follows
the quote before it matters, so a piece that holds its quotes in pairs cannot
be misread for what stands around it.
-/

namespace DesignToWeb.Text

/-- Whether a value stands in double quotes right after the lead-in, anywhere in a text. -/
def QuotedAfter (lead text value : String) : Prop :=
  '"' ∉ value.toList ∧ ∃ before after, text = before ++ lead ++ "\"" ++ value ++ "\"" ++ after

/-- What stands in quotes after the lead-in from some place on, where the characters since the last
quote are given with the last one first. -/
def quotedAfter (lead seen : List Char) : List Char → List (List Char)
  | [] => []
  | c :: rest =>
    if c = '"' then
      (if lead.reverse.isPrefixOf seen then [rest.takeWhile (· != '"')] else []) ++
        quotedAfter lead [] rest
    else quotedAfter lead (c :: seen) rest

theorem quotedAfter_append {lead cs : List Char} (h : '"' ∉ cs) (seen rest : List Char) :
    quotedAfter lead seen (cs ++ rest) = quotedAfter lead (cs.reverse ++ seen) rest := by
  induction cs generalizing seen with
  | nil => rfl
  | cons c cs ih =>
      have hc : c ≠ '"' := fun hc ↦ h (hc ▸ List.mem_cons_self)
      have hcs : '"' ∉ cs := fun hmem ↦ h (List.mem_cons_of_mem c hmem)
      rw [List.cons_append, quotedAfter, if_neg hc, ih hcs, List.reverse_cons, List.append_assoc]
      rfl

theorem takeWhile_quoted {value : List Char} (h : '"' ∉ value) (rest : List Char) :
    (value ++ '"' :: rest).takeWhile (· != '"') = value := by
  induction value with
  | nil => rfl
  | cons c value ih =>
      have hc : (c != '"') = true := bne_iff_ne.mpr fun hc ↦ h (hc ▸ List.mem_cons_self)
      have hvalue : '"' ∉ value := fun hmem ↦ h (List.mem_cons_of_mem c hmem)
      rw [List.cons_append, List.takeWhile_cons, if_pos hc, ih hvalue]

theorem mem_quotedAfter {lead value : List Char} (hlead : '"' ∉ lead) (hvalue : '"' ∉ value)
    (before after seen : List Char) :
    value ∈ quotedAfter lead seen (before ++ (lead ++ '"' :: (value ++ '"' :: after))) := by
  induction before generalizing seen with
  | nil =>
      rw [List.nil_append, quotedAfter_append hlead, quotedAfter, if_pos rfl]
      have hprefix : lead.reverse.isPrefixOf (lead.reverse ++ seen) = true :=
        List.isPrefixOf_iff_prefix.mpr (List.prefix_append _ _)
      rw [if_pos hprefix, takeWhile_quoted hvalue]
      exact List.mem_append_left _ List.mem_cons_self
  | cons c before ih =>
      rw [List.cons_append, quotedAfter]
      split
      · exact List.mem_append_right _ (ih [])
      · exact ih (c :: seen)

/-- A value without the last character of the lead-in does not end like the lead-in. -/
theorem not_isPrefixOf_reverse {lead init value : List Char} {c : Char} (hlead : lead = init ++ [c])
    (h : c ∉ value) : lead.reverse.isPrefixOf value.reverse = false := by
  have hvalue : c ∉ value.reverse := fun hmem ↦ h (List.mem_reverse.mp hmem)
  rw [hlead, List.reverse_append, List.reverse_singleton, List.singleton_append]
  cases hreverse : value.reverse with
  | nil => rfl
  | cons d ds =>
      rw [hreverse] at hvalue
      have hd : (c == d) = false := by
        rw [beq_eq_false_iff_ne]
        rintro rfl
        exact hvalue List.mem_cons_self
      rw [List.isPrefixOf_cons_cons, hd, Bool.false_and]

/-- Whether only allowed values stand in quotes after the lead-in because of a piece of text, no
matter what stands before and after it. -/
def QuotesOnly (lead : List Char) (allowed : List Char → Prop) (s : String) : Prop :=
  ∀ seen, ∃ seen', ∀ rest, (∀ value ∈ quotedAfter lead seen' rest, allowed value) →
    ∀ value ∈ quotedAfter lead seen (s.toList ++ rest), allowed value

namespace QuotesOnly

variable {lead : List Char} {allowed : List Char → Prop} {s t : String}

theorem ofPlain (h : '"' ∉ s.toList) : QuotesOnly lead allowed s := by
  intro seen
  refine ⟨s.toList.reverse ++ seen, fun rest hrest ↦ ?_⟩
  rw [quotedAfter_append h]
  exact hrest

/-- A piece with one value in quotes, which does not end like the lead-in itself. -/
theorem quoted {value : String} (hs : '"' ∉ s.toList) (hvalue : '"' ∉ value.toList)
    (hend : lead.reverse.isPrefixOf value.toList.reverse = false)
    (hallowed : ∀ seen, lead.reverse.isPrefixOf (s.toList.reverse ++ seen) = true →
      allowed value.toList) :
    QuotesOnly lead allowed (s ++ "\"" ++ value ++ "\"") := by
  intro seen
  refine ⟨[], fun rest hrest v hv ↦ ?_⟩
  have htext : (s ++ "\"" ++ value ++ "\"").toList ++ rest =
      s.toList ++ '"' :: (value.toList ++ '"' :: rest) := by simp
  -- the value stands alone before its closing quote, whatever came before its opening one
  have hend : ¬ lead.reverse.isPrefixOf (value.toList.reverse ++ []) = true := by
    rw [List.append_nil, hend]
    exact Bool.false_ne_true
  rw [htext, quotedAfter_append hs, quotedAfter, if_pos rfl, takeWhile_quoted hvalue,
    quotedAfter_append hvalue, quotedAfter, if_pos rfl, if_neg hend, List.nil_append] at hv
  rcases List.mem_append.mp hv with hv | hv
  · split at hv
    · next hlead =>
        rw [List.mem_singleton.mp hv]
        exact hallowed seen hlead
    · exact absurd hv List.not_mem_nil
  · exact hrest v hv

theorem other {value : String} (hs : '"' ∉ s.toList) (hvalue : '"' ∉ value.toList)
    (hend : lead.reverse.isPrefixOf value.toList.reverse = false)
    (hother : ∀ seen, lead.reverse.isPrefixOf (s.toList.reverse ++ seen) = false) :
    QuotesOnly lead allowed (s ++ "\"" ++ value ++ "\"") := by
  refine quoted hs hvalue hend fun seen hlead ↦ ?_
  rw [hother seen] at hlead
  exact Bool.noConfusion hlead

theorem append (hs : QuotesOnly lead allowed s) (ht : QuotesOnly lead allowed t) :
    QuotesOnly lead allowed (s ++ t) := by
  intro seen
  obtain ⟨seen₁, hs⟩ := hs seen
  obtain ⟨seen₂, ht⟩ := ht seen₁
  refine ⟨seen₂, fun rest hrest ↦ ?_⟩
  rw [String.toList_append, List.append_assoc]
  exact hs (t.toList ++ rest) (ht rest hrest)

theorem join {l : List String} (h : ∀ s ∈ l, QuotesOnly lead allowed s) :
    QuotesOnly lead allowed (String.join l) := by
  induction l with
  | nil => exact ofPlain List.not_mem_nil
  | cons s l ih =>
      rw [String.join_cons]
      exact (h s List.mem_cons_self).append (ih fun t ht ↦ h t (List.mem_cons_of_mem s ht))

theorem intercalate {l : List String} (hs : QuotesOnly lead allowed s)
    (h : ∀ t ∈ l, QuotesOnly lead allowed t) : QuotesOnly lead allowed (s.intercalate l) := by
  induction l with
  | nil => exact ofPlain List.not_mem_nil
  | cons t l ih =>
      have hl := ih fun u hu ↦ h u (List.mem_cons_of_mem t hu)
      cases l with
      | nil =>
          rw [String.intercalate_singleton]
          exact h t List.mem_cons_self
      | cons u l =>
          rw [String.intercalate_cons_cons]
          exact ((h t List.mem_cons_self).append hs).append hl

theorem allowed_of_quotedAfter {lead value : String} (h : QuotesOnly lead.toList allowed s)
    (hlead : '"' ∉ lead.toList) (hvalue : QuotedAfter lead s value) : allowed value.toList := by
  obtain ⟨hplain, before, after, htext⟩ := hvalue
  obtain ⟨seen, hall⟩ := h []
  have hchars : s.toList ++ [] =
      before.toList ++ (lead.toList ++ '"' :: (value.toList ++ '"' :: after.toList)) := by
    rw [htext]
    simp
  refine hall [] (fun v hv ↦ absurd hv List.not_mem_nil) value.toList ?_
  rw [hchars]
  exact mem_quotedAfter hlead hplain _ _ _

end QuotesOnly
end DesignToWeb.Text
