import DesignToWeb.Proofs.Css.Addresses

/-!
# Strings in a stylesheet

A browser reads a stylesheet character by character.  A quote begins a string, which
goes on to the next such quote; a backslash takes away the meaning of the character
after it, and a string that is still open at the end of a line is an error.  Braces
mean something outside of strings only.
-/

namespace DesignToWeb.Css

open Text (MadeOf)

/-- Where a reader stands: outside of strings, in a string with its quote, or behind a backslash in
one. -/
inductive Mode where
  | code
  | quoted (quote : Char)
  | escaped (quote : Char)
deriving DecidableEq

def isQuote (c : Char) : Bool := c == '"' || c == '\''

def isBrace (c : Char) : Bool := c == '\x7b' || c == '\x7d'

def isNewline (c : Char) : Bool := c == '\n' || c == '\r' || c == '\x0c'

namespace Mode

def next? : Mode → Char → Option Mode
  | code, c => some (if isQuote c then quoted c else code)
  | quoted quote, c =>
    if c == '\\' then some (escaped quote)
    else if c == quote then some code
    else if isNewline c then none
    else some (quoted quote)
  | escaped quote, _ => some (quoted quote)

/-- A character as a brace, where it is one. -/
def braces : Mode → Char → List Char
  | code, c => if isBrace c then [c] else []
  | _, _ => []

end Mode

/-- Where a reader stands in the end, and the braces outside of strings. -/
def read? : Mode → List Char → Option (Mode × List Char)
  | mode, [] => some (mode, [])
  | mode, c :: cs => do
    let (last, braces) ← read? (← mode.next? c) cs
    return (last, mode.braces c ++ braces)

theorem read?_cons {mode next : Mode} {c : Char} (h : mode.next? c = some next) (cs : List Char) :
    read? mode (c :: cs) = (read? next cs).map (Prod.map id (mode.braces c ++ ·)) := by
  rw [read?, h, Option.map_eq_bind]
  rfl

theorem read?_cons_eq_some {mode last : Mode} {c : Char} {cs braces : List Char}
    (h : read? mode (c :: cs) = some (last, braces)) :
    ∃ next rest, mode.next? c = some next ∧ read? next cs = some (last, rest) ∧
      braces = mode.braces c ++ rest := by
  cases hnext : mode.next? c with
  | none =>
      rw [read?, hnext] at h
      exact nomatch h
  | some next =>
      rw [read?_cons hnext] at h
      obtain ⟨⟨last', rest⟩, hread, heq⟩ := Option.map_eq_some_iff.mp h
      obtain ⟨rfl, rfl⟩ := Prod.mk.inj heq
      exact ⟨next, rest, rfl, hread, rfl⟩

/-- A text is read in parts, each from where the one before it ended. -/
theorem read?_append (mode : Mode) (cs rest : List Char) :
    read? mode (cs ++ rest) =
      (read? mode cs).bind fun p ↦ (read? p.1 rest).map (Prod.map id (p.2 ++ ·)) := by
  induction cs generalizing mode with
  | nil => exact (congrFun Option.map_id (read? mode rest)).symm
  | cons c cs ih =>
      cases hnext : mode.next? c with
      | none =>
          rw [List.cons_append, read?, read?, hnext]
          rfl
      | some next =>
          rw [List.cons_append, read?_cons hnext, read?_cons hnext, ih, Option.map_bind,
            Option.bind_map]
          congr 1
          funext p
          rw [Function.comp_apply, Option.map_map]
          congr 1
          funext q
          exact Prod.ext rfl (List.append_assoc _ _ _).symm

theorem read?_append_of_eq {mode between : Mode} {cs before : List Char}
    (h : read? mode cs = some (between, before)) (rest : List Char) :
    read? mode (cs ++ rest) = (read? between rest).map (Prod.map id (before ++ ·)) := by
  rw [read?_append, h]
  rfl

theorem read?_append_eq_some {mode last : Mode} {cs rest braces : List Char}
    (h : read? mode (cs ++ rest) = some (last, braces)) :
    ∃ between before after, read? mode cs = some (between, before) ∧
      read? between rest = some (last, after) ∧ braces = before ++ after := by
  rw [read?_append] at h
  obtain ⟨⟨between, before⟩, hbefore, h⟩ := Option.bind_eq_some_iff.mp h
  obtain ⟨⟨last', after⟩, hafter, heq⟩ := Option.map_eq_some_iff.mp h
  obtain ⟨rfl, rfl⟩ := Prod.mk.inj heq
  exact ⟨between, before, after, hbefore, hafter, rfl⟩

/-! ## Texts without quotes -/

/-- A character that neither begins nor ends anything in a string. -/
def isInert (c : Char) : Bool := !(isQuote c || c == '\\' || isNewline c)

def isPlain (c : Char) : Bool := isInert c && !isBrace c

theorem isInert_of_isPlain {c : Char} (h : isPlain c = true) : isInert c = true :=
  (Bool.and_eq_true_iff.mp h).1

theorem read?_code_of_inert {cs : List Char} (h : ∀ c ∈ cs, isInert c = true) :
    read? .code cs = some (.code, cs.filter isBrace) := by
  induction cs with
  | nil => rfl
  | cons c cs ih =>
      have hc := h c List.mem_cons_self
      rw [isInert, Bool.not_eq_true', Bool.or_eq_false_iff, Bool.or_eq_false_iff] at hc
      have hnext : Mode.code.next? c = some .code := by
        rw [Mode.next?, hc.1.1]
        rfl
      rw [read?_cons hnext, ih fun d hd ↦ h d (List.mem_cons_of_mem c hd), List.filter_cons]
      cases hbrace : isBrace c <;> simp [Mode.braces, hbrace]

theorem read?_code_of_plain {cs : List Char} (h : ∀ c ∈ cs, isPlain c = true) :
    read? .code cs = some (.code, []) := by
  have hplain (c : Char) (hc : c ∈ cs) := Bool.and_eq_true_iff.mp (h c hc)
  rw [read?_code_of_inert fun c hc ↦ (hplain c hc).1, List.filter_eq_nil_iff.mpr]
  intro c hc
  rw [Bool.not_eq_true, ← Bool.not_eq_true']
  exact (hplain c hc).2

theorem read?_quoted_of_inert {quote : Char} {cs : List Char} (hquote : isInert quote = false)
    (h : ∀ c ∈ cs, isInert c = true) : read? (.quoted quote) cs = some (.quoted quote, []) := by
  induction cs with
  | nil => rfl
  | cons c cs ih =>
      have hc := h c List.mem_cons_self
      have hne : (c == quote) = false := by
        rw [beq_eq_false_iff_ne]
        rintro rfl
        exact Bool.noConfusion (hc.symm.trans hquote)
      rw [isInert, Bool.not_eq_true', Bool.or_eq_false_iff, Bool.or_eq_false_iff] at hc
      have hnext : (Mode.quoted quote).next? c = some (.quoted quote) := by
        rw [Mode.next?, hc.1.2, hne, hc.2]
        rfl
      rw [read?_cons hnext, ih fun d hd ↦ h d (List.mem_cons_of_mem c hd)]
      rfl

/-- Whether the string that a reader stands in, if any, was begun by a quote. -/
def Mode.isProper : Mode → Bool
  | code => true
  | quoted quote => isQuote quote
  | escaped quote => isQuote quote

theorem Mode.isProper_next {mode next : Mode} {c : Char} (hmode : mode.isProper = true)
    (h : mode.next? c = some next) : next.isProper = true := by
  cases mode with
  | code =>
      rw [← Option.some.inj h]
      split
      · next hc => exact hc
      · rfl
  | quoted quote =>
      rw [next?] at h
      split at h
      · rw [← Option.some.inj h]
        exact hmode
      · split at h
        · rw [← Option.some.inj h]
          rfl
        · split at h
          · exact nomatch h
          · rw [← Option.some.inj h]
            exact hmode
  | escaped quote =>
      rw [← Option.some.inj h]
      exact hmode

theorem isProper_of_read? {mode last : Mode} {cs braces : List Char}
    (hmode : mode.isProper = true) (h : read? mode cs = some (last, braces)) :
    last.isProper = true := by
  induction cs generalizing mode braces with
  | nil =>
      rw [← (Prod.mk.inj (Option.some.inj h)).1]
      exact hmode
  | cons c cs ih =>
      obtain ⟨next, rest, hnext, hread, _⟩ := read?_cons_eq_some h
      exact ih (Mode.isProper_next hmode hnext) hread

theorem isInert_of_isQuote {c : Char} (h : isQuote c = true) : isInert c = false := by
  rw [isInert, h]
  rfl

/-- A string that is open before a text without quotes is open after it. -/
theorem eq_code_of_read? {mode : Mode} {cs braces : List Char} (hmode : mode.isProper = true)
    (hcs : ∀ c ∈ cs, isInert c = true) (h : read? mode cs = some (.code, braces)) :
    mode = .code := by
  cases mode with
  | code => rfl
  | quoted quote =>
      rw [read?_quoted_of_inert (isInert_of_isQuote hmode) hcs] at h
      exact nomatch h
  | escaped quote =>
      cases cs with
      | nil => exact nomatch h
      | cons c cs =>
          obtain ⟨next, rest, hnext, hread, _⟩ := read?_cons_eq_some h
          rw [← Option.some.inj hnext, read?_quoted_of_inert (isInert_of_isQuote hmode)
            fun d hd ↦ hcs d (List.mem_cons_of_mem c hd)] at hread
          exact nomatch hread

/-! ## Shut texts -/

/-- Whether a text can stand on a line without effect on the text around it: it does not end the
line, its strings are closed and no brace is outside of them. -/
def IsShut (s : String) : Prop :=
  '\n' ∉ s.toList ∧ read? .code s.toList = some (.code, [])

namespace IsShut

variable {s t : String}

theorem append (hs : IsShut s) (ht : IsShut t) : IsShut (s ++ t) := by
  unfold IsShut
  rw [String.toList_append, List.mem_append, not_or, read?_append_of_eq hs.2, ht.2]
  exact ⟨⟨hs.1, ht.1⟩, rfl⟩

theorem join {l : List String} (h : ∀ s ∈ l, IsShut s) : IsShut (String.join l) := by
  induction l with
  | nil => exact ⟨by decide, by decide⟩
  | cons s l ih =>
      rw [String.join_cons]
      exact append (h s List.mem_cons_self) (ih fun t ht ↦ h t (List.mem_cons_of_mem s ht))

theorem ofPlain (h : MadeOf isPlain s) : IsShut s :=
  ⟨h.notMem (by decide), read?_code_of_plain h⟩

end IsShut

/-! ## Strings -/

/-- Whether a text can stand between quotes on a line.  It has no line feed, every other end of a
line in it is behind a backslash, and no backslash takes away the meaning of the closing quote. -/
def IsQuotable (quote : Char) (s : String) : Prop :=
  '\n' ∉ s.toList ∧ read? (.quoted quote) s.toList = some (.quoted quote, [])

instance (quote : Char) (s : String) : Decidable (IsQuotable quote s) :=
  inferInstanceAs (Decidable (_ ∧ _))

theorem isQuotable_of_madeOf {quote : Char} {s : String} (hquote : isInert quote = false)
    (h : MadeOf isInert s) : IsQuotable quote s :=
  ⟨h.notMem (by decide), read?_quoted_of_inert hquote h⟩

namespace Mode

/-- Whether a reader stands in a string with the given quote. -/
def IsIn (quote : Char) (mode : Mode) : Prop := mode = .quoted quote ∨ mode = .escaped quote

variable {quote c : Char} {mode next : Mode}

theorem IsIn.step (hmode : mode.IsIn quote) (hc : c ≠ quote) (h : mode.next? c = some next) :
    next.IsIn quote := by
  rcases hmode with rfl | rfl
  · rw [next?, beq_false_of_ne hc, if_neg Bool.false_ne_true] at h
    split at h
    · exact Or.inr (Option.some.inj h).symm
    · split at h
      · exact nomatch h
      · exact Or.inl (Option.some.inj h).symm
  · exact Or.inl (Option.some.inj h).symm

theorem IsIn.braces_eq_nil (hmode : mode.IsIn quote) : mode.braces c = [] := by
  rcases hmode with rfl | rfl
  · rfl
  · rfl

end Mode

/-- Nothing but its quote ends a string. -/
theorem read?_of_isIn {quote : Char} {cs braces : List Char} {mode last : Mode}
    (hmode : mode.IsIn quote) (hquote : quote ∉ cs) (h : read? mode cs = some (last, braces)) :
    last.IsIn quote ∧ braces = [] := by
  induction cs generalizing mode braces with
  | nil =>
      obtain ⟨rfl, rfl⟩ := Prod.mk.inj (Option.some.inj h)
      exact ⟨hmode, rfl⟩
  | cons c cs ih =>
      obtain ⟨hc, hcs⟩ := not_or.mp (List.mem_cons.not.mp hquote)
      obtain ⟨next, rest, hnext, hread, rfl⟩ := read?_cons_eq_some h
      obtain ⟨hlast, rfl⟩ := ih (hmode.step (Ne.symm hc) hnext) hcs hread
      rw [List.append_nil]
      exact ⟨hlast, hmode.braces_eq_nil⟩

theorem isQuote_cases {c : Char} (h : isQuote c = true) : c = '"' ∨ c = '\'' := by
  rcases Bool.or_eq_true_iff.mp h with h | h
  · exact Or.inl (eq_of_beq h)
  · exact Or.inr (eq_of_beq h)

theorem next?_code_of_isQuote {c : Char} (h : isQuote c = true) :
    Mode.code.next? c = some (.quoted c) := by
  rw [Mode.next?, h]
  rfl

theorem braces_of_isQuote {c : Char} (h : isQuote c = true) (mode : Mode) : mode.braces c = [] := by
  rcases isQuote_cases h with rfl | rfl
  all_goals cases mode <;> rfl

theorem next?_quoted_self {c : Char} (h : isQuote c = true) :
    (Mode.quoted c).next? c = some .code := by
  rcases isQuote_cases h with rfl | rfl
  all_goals rfl

theorem IsShut.ofQuoted {quote : Char} {mark s : String} (hmark : mark.toList = [quote])
    (hquote : isQuote quote = true) (h : IsQuotable quote s) : IsShut (mark ++ s ++ mark) := by
  unfold IsShut
  rw [String.toList_append, String.toList_append, hmark, List.append_assoc, List.singleton_append]
  constructor
  · have hne : '\n' ≠ quote := by
      rcases isQuote_cases hquote with rfl | rfl
      all_goals decide
    simp only [List.mem_cons, List.mem_append, List.not_mem_nil, or_false, not_or]
    exact ⟨hne, h.1, hne⟩
  · rw [read?_cons (next?_code_of_isQuote hquote), read?_append_of_eq h.2,
      read?_cons (next?_quoted_self hquote), braces_of_isQuote hquote, braces_of_isQuote hquote]
    rfl

/-- Quotes around a text are all that closes its string where they close it. -/
theorem isQuotable_of_isShut {quote : Char} {mark s after : String} (hmark : mark.toList = [quote])
    (hquote : isQuote quote = true) (hs : quote ∉ s.toList) (hafter : MadeOf isInert after)
    (h : IsShut (mark ++ s ++ mark ++ after)) : IsQuotable quote s := by
  obtain ⟨hline, hread⟩ := h
  simp only [String.toList_append, hmark, List.append_assoc, List.singleton_append] at hline hread
  obtain ⟨next, rest, hnext, hread, _⟩ := read?_cons_eq_some hread
  rw [← Option.some.inj ((next?_code_of_isQuote hquote).symm.trans hnext)] at hread
  obtain ⟨between, before, tail, hbefore, htail, _⟩ := read?_append_eq_some hread
  obtain ⟨hin, rfl⟩ := read?_of_isIn (Or.inl rfl) hs hbefore
  refine ⟨fun hmem ↦ hline (List.mem_cons_of_mem _ (List.mem_append_left _ hmem)), ?_⟩
  rcases hin with rfl | rfl
  · exact hbefore
  · -- The quote is escaped, so the string goes on through all that comes after.
    obtain ⟨next, rest, hnext, hrest, _⟩ := read?_cons_eq_some htail
    rw [← Option.some.inj hnext] at hrest
    have hopen : (Mode.quoted quote).isProper = true := hquote
    exact nomatch eq_code_of_read? hopen hafter hrest

/-! ## Families of fonts -/

/-- A font can stand on a line exactly when its family can stand between quotes. -/
theorem isShut_fontFamily_iff {family : String} :
    IsShut (fontFamily family) ↔ IsQuotable '\'' (bareFamily family) := by
  rw [fontFamily_eq]
  split
  · next hempty =>
      rw [hempty]
      exact ⟨fun _ ↦ by decide, fun _ ↦ .ofPlain (by decide)⟩
  · exact ⟨isQuotable_of_isShut rfl rfl (notMem_bareFamily (Or.inl rfl) family) (by decide),
      fun h ↦ (IsShut.ofQuoted rfl rfl h).append (.ofPlain (by decide))⟩

end DesignToWeb.Css
