import DesignToWeb.Css.Paint
import DesignToWeb.Element
import DesignToWeb.Text.Character

/-!
# Type in a stylesheet
-/

namespace DesignToWeb.Css

def fallbackFamily : String := "system-ui, sans-serif"

/-- The family in quotes, without quotes of its own, before the fallback. -/
def fontFamily (family : String) : String :=
  let bare := Text.trim (String.ofList (family.toList.filter fun c ↦ c ≠ '\'' ∧ c ≠ '"'))
  if bare = "" then fallbackFamily else "'" ++ bare ++ "', " ++ fallbackFamily

def textAlign : String → String
  | "LEFT" => "left"
  | "CENTER" => "center"
  | "RIGHT" => "right"
  | "JUSTIFIED" => "justify"
  | _ => "left"

def textDecoration? : String → Option String
  | "UNDERLINE" => some "underline"
  | "STRIKETHROUGH" => some "line-through"
  | _ => none

def textTransform? : String → Option String
  | "UPPER" => some "uppercase"
  | "LOWER" => some "lowercase"
  | "TITLE" => some "capitalize"
  | _ => none

/-- A declaration for a number that is given and not zero. -/
def optional (property : Property) (write : Binary64 → Except Fault String) :
    Option Binary64 → Except Fault (List Declaration)
  | none => .ok []
  | some x => if x.isZero then .ok [] else do return [⟨property, ← write x⟩]

def typographyRules (t : Typography) : Except Fault (List Declaration) := do
  let size ← pixels t.fontSize
  let weight ← optional .fontWeight number t.fontWeight
  let lineHeight ← optional .lineHeight pixels t.lineHeight
  let letterSpacing ← optional .letterSpacing pixels t.letterSpacing
  return [⟨.fontFamily, fontFamily t.fontFamily⟩, ⟨.fontSize, size⟩] ++ weight ++ lineHeight ++
    letterSpacing ++
    (if t.textAlign = "" then [] else [⟨.textAlign, textAlign t.textAlign⟩]) ++
    ((textDecoration? t.textDecoration).map (⟨.textDecoration, ·⟩)).toList ++
    ((textTransform? t.textCase).map (⟨.textTransform, ·⟩)).toList

/-- The declarations of a run's type that are not among those of the text around it. -/
def changedTypography (run : Typography) (base : Option Typography) :
    Except Fault (List Declaration) := do
  let inherited ← match base with
    | some base => typographyRules base
    | none => pure []
  return (← typographyRules run).filter (!inherited.contains ·)

/-- The declarations of a run inside a text with the given type. -/
def runRules (run : TextRun) (base : Option Typography) : Except Fault (List Declaration) := do
  let color ← match run.color with
    | some color => do pure [⟨.color, ← rgba color⟩]
    | none => pure []
  let typography ← match run.typography with
    | some typography => changedTypography typography base
    | none => pure []
  return color ++ typography

end DesignToWeb.Css
