import DesignToWeb.Css.Paint
import DesignToWeb.Proofs.Binary64.Text
import DesignToWeb.Proofs.Naming
import DesignToWeb.Proofs.Outcome

/-!
# The characters of values

Numbers, lengths and colours of a stylesheet are written with the characters of
names and numbers and a few signs between them.
-/

namespace DesignToWeb.Css

open Outcome
open Text (MadeOf)

/-- The characters of names and numbers, and what stands between them in a list or a call. -/
def isValueChar (c : Char) : Bool :=
  Naming.isSafe c || c == ' ' || c == ',' || c == '.' || c == '+' || c == '%' || c == '(' || c == ')'

theorem isValueChar_of_isNumeralChar {c : Char} (h : isNumeralChar c = true) :
    isValueChar c = true := by
  simp only [isNumeralChar, Bool.or_eq_true, List.contains_iff_mem, List.mem_cons,
    List.not_mem_nil, or_false] at h
  rcases h with hdigit | rfl | rfl | rfl | rfl | rfl | rfl | rfl | rfl
  · simp [isValueChar, Naming.isSafe_of_isDigit hdigit]
  all_goals rfl

theorem madeOf_toString (n : Int) : MadeOf isValueChar (toString n) :=
  (madeOf_toString_int n).mono fun _ ↦ isValueChar_of_isNumeralChar

/-- A number is written without brackets and commas. -/
theorem numeral_number {x : Binary64} {s : String} (h : number x = .ok s) :
    MadeOf isNumeralChar s := by
  obtain ⟨whole, _, h⟩ := bind_eq_ok.mp h
  rw [← pure_eq_ok.mp h]
  split
  · exact madeOf_toString_int whole
  · exact Binary64.madeOf_text _

theorem madeOf_number {x : Binary64} {s : String} (h : number x = .ok s) : MadeOf isValueChar s :=
  (numeral_number h).mono fun _ ↦ isValueChar_of_isNumeralChar

theorem madeOf_pixels {x : Binary64} {s : String} (h : pixels x = .ok s) : MadeOf isValueChar s := by
  obtain ⟨n, hn, h⟩ := bind_eq_ok.mp h
  rw [← pure_eq_ok.mp h]
  exact (madeOf_number hn).append (by decide)

theorem rgba_eq_ok {color : RGBA} {s : String} (h : rgba color = .ok s) :
    ∃ red green blue alpha, channel color.red = .ok red ∧ channel color.green = .ok green ∧
      channel color.blue = .ok blue ∧ number color.alpha.clampUnit = .ok alpha ∧
      s = "rgba(" ++ ",".intercalate [toString red, toString green, toString blue, alpha] ++
        ")" := by
  obtain ⟨red, hred, h⟩ := bind_eq_ok.mp h
  obtain ⟨green, hgreen, h⟩ := bind_eq_ok.mp h
  obtain ⟨blue, hblue, h⟩ := bind_eq_ok.mp h
  obtain ⟨alpha, halpha, h⟩ := bind_eq_ok.mp h
  exact ⟨red, green, blue, alpha, hred, hgreen, hblue, halpha, (pure_eq_ok.mp h).symm⟩

theorem madeOf_rgba {color : RGBA} {s : String} (h : rgba color = .ok s) : MadeOf isValueChar s := by
  obtain ⟨red, green, blue, alpha, _, _, _, halpha, rfl⟩ := rgba_eq_ok h
  have hparts : ∀ part ∈ [toString red, toString green, toString blue, alpha],
      MadeOf isValueChar part := by
    simp only [List.mem_cons, List.not_mem_nil, or_false]
    rintro part (rfl | rfl | rfl | rfl)
    · exact madeOf_toString red
    · exact madeOf_toString green
    · exact madeOf_toString blue
    · exact madeOf_number halpha
  exact (MadeOf.append (by decide) (MadeOf.intercalate (by decide) hparts)).append (by decide)

/-- What a walk over a list writes is made of the characters of what every visit writes. -/
theorem madeOf_mapM {α : Type} {write : α → Except Fault String} {as : List α} {texts : List String}
    (hwrite : ∀ a s, write a = .ok s → MadeOf isValueChar s) (h : as.mapM write = .ok texts) :
    ∀ text ∈ texts, MadeOf isValueChar text := by
  intro text htext
  obtain ⟨a, _, ha⟩ := exists_of_mem_right h htext
  exact hwrite a text ha

end DesignToWeb.Css
