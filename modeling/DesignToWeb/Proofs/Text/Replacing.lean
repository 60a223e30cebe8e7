import Mathlib.Data.List.Basic

/-!
# Replacing a character

To replace a character in a whole text is to replace each of its occurrences on its
own: what stands between two of them is left as it is, and what has been put in is
not looked at again.
-/

namespace DesignToWeb.Text

open String.Slice (Pos)
open String.Slice.Pattern (SearchStep)
open String.Slice.Pattern.Model
open String.Slice.Pattern.ToForwardSearcher (toSearcher)

/-- What stands for a character once one character has been replaced. -/
def replaceChar (c : Char) (replacement : String) (d : Char) : List Char :=
  if d = c then replacement.toList else [d]

theorem flatMap_replaceChar_of_notMem {c : Char} {cs : List Char} (h : c ∉ cs)
    (replacement : String) : cs.flatMap (replaceChar c replacement) = cs := by
  have hsame : ∀ d ∈ cs, replaceChar c replacement d = [d] := by
    intro d hd
    refine if_neg ?_
    rintro rfl
    exact h hd
  rw [List.flatMap_congr hsame, List.flatMap_singleton']

/-- What one step of a search adds to the text that a replacement has written so far. -/
def replaceStep (s : String.Slice) (replacement : String) : String → SearchStep s → String
  | sofar, .matched _ _ => sofar ++ replacement.toSlice
  | sofar, .rejected start stop => sofar ++ s.slice! start stop

variable {s : String.Slice} {c : Char}

/-- A stretch without a match does not hold the character. -/
theorem notMem_of_rejected {start stop : s.Pos} {before stretch after : String}
    (hstart : start.Splits before (stretch ++ after))
    (hstop : stop.Splits (before ++ stretch) after)
    (h : ∀ pos, start ≤ pos → pos < stop → ¬ MatchesAt c pos) : c ∉ stretch.toList := by
  intro hc
  obtain ⟨front, back, hstretch⟩ := List.append_of_mem hc
  obtain rfl : stretch = String.ofList front ++ (String.singleton c ++ String.ofList back) := by
    rw [← String.toList_inj, hstretch]
    simp
  -- the character would be matched at the place where it stands
  have hcopy : s.copy = (before ++ String.ofList front) ++
      (String.singleton c ++ (String.ofList back ++ after)) := by
    rw [hstop.eq_append]
    simp only [String.append_assoc]
  have hpos := Pos.splits_ofEqAppend hcopy
  refine h (Pos.ofEqAppend hcopy) ?_ ?_ (Char.matchesAt_iff_splits.mpr ⟨_, _, hpos⟩)
  · refine (hstart.le_iff_exists_eq_append hpos).mpr ⟨_, rfl, ?_⟩
    simp only [String.append_assoc]
  · refine (hpos.lt_iff_exists_eq_append hstop).mpr
      ⟨String.singleton c ++ String.ofList back, ?_, ?_, ?_⟩
    · simp
    · simp only [String.append_assoc]
    · simp only [String.append_assoc]

/-- From any place on, a search leads to the replacement of what comes after that place. -/
theorem toList_foldl_replaceStep {pos : s.Pos} {steps : List (SearchStep s)}
    (h : IsValidSearchFrom c pos steps) {before after : String} (hsplit : pos.Splits before after)
    (replacement sofar : String) :
    (steps.foldl (replaceStep s replacement) sofar).toList =
      sofar.toList ++ after.toList.flatMap (replaceChar c replacement) := by
  induction h generalizing before after sofar with
  | endPos =>
      obtain ⟨-, rfl⟩ := String.Slice.splits_endPos_iff.mp hsplit
      simp
  | @matched steps start stop hmatch _ ih =>
      obtain ⟨hne, rfl, rfl⟩ := Char.isLongestMatchAt_iff.mp hmatch
      obtain rfl := hsplit.eq_right (start.splits_next_right hne)
      rw [List.foldl_cons, ih (start.splits_next hne)]
      simp [replaceStep, replaceChar]
  | @mismatched steps start stop hlt hnone _ ih =>
      have hle := Std.le_of_lt hlt
      obtain ⟨_, _, hstart, hstop⟩ := String.Slice.copy_slice_eq_iff_splits.mp ⟨hle, rfl⟩
      have hstretch := notMem_of_rejected hstart hstop hnone
      obtain rfl := hsplit.eq_right hstart
      rw [List.foldl_cons, ih hstop, String.toList_append, List.flatMap_append,
        flatMap_replaceChar_of_notMem hstretch]
      simp [replaceStep, String.Slice.slice_eq_slice!]

theorem toList_replace (text : String) (c : Char) (replacement : String) :
    (text.replace c replacement).toList = text.toList.flatMap (replaceChar c replacement) := by
  have hvalid : IsValidSearchFrom c text.toSlice.startPos (toSearcher c text.toSlice).toList :=
    LawfulToForwardSearcherModel.isValidSearchFrom_toList text.toSlice
  have hfold := toList_foldl_replaceStep hvalid text.toSlice.splits_startPos replacement ""
  rw [String.copy_toSlice] at hfold
  refine Eq.trans ?_ hfold
  rw [Std.Iter.foldl_toList]
  rfl

end DesignToWeb.Text
