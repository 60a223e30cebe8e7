import DesignToWeb.Strategy

/-!
# The numbers of an element

An element holds numbers that were read from one field each, and numbers that were
computed from two: the place relative to the parent, and letter spacing in per cent
of the font size.  What a stylesheet is computed from comes from both.
-/

namespace DesignToWeb

def AllFinite (xs : List Binary64) : Prop := ∀ x ∈ xs, x.isFinite = true

section AllFinite

variable {α : Type} {x : Binary64} {xs ys : List Binary64}

@[simp]
theorem allFinite_nil : AllFinite [] := fun _ h ↦ absurd h List.not_mem_nil

@[simp]
theorem allFinite_cons : AllFinite (x :: xs) ↔ x.isFinite = true ∧ AllFinite xs :=
  List.forall_mem_cons

@[simp]
theorem allFinite_append : AllFinite (xs ++ ys) ↔ AllFinite xs ∧ AllFinite ys :=
  List.forall_mem_append

@[simp]
theorem allFinite_flatMap {as : List α} {f : α → List Binary64} :
    AllFinite (as.flatMap f) ↔ ∀ a ∈ as, AllFinite (f a) := by
  simp only [AllFinite, List.mem_flatMap]
  constructor
  · intro h a ha x hx
    exact h x ⟨a, ha, hx⟩
  · rintro h x ⟨a, ha, hx⟩
    exact h a ha x hx

@[simp]
theorem allFinite_toList {field : Option Binary64} :
    AllFinite field.toList ↔ ∀ x, field = some x → x.isFinite = true := by
  simp only [AllFinite, Option.mem_toList]

end AllFinite

/-! ## Numbers from one field -/

def RGBA.numbers (c : RGBA) : List Binary64 := [c.red, c.green, c.blue, c.alpha]

def ColorStop.numbers (stop : ColorStop) : List Binary64 := stop.position :: stop.color.numbers

def Fill.numbers : Fill → List Binary64
  | solid color => color.numbers
  | linear stops heading | conic stops heading => heading :: stops.flatMap ColorStop.numbers
  | radial stops => stops.flatMap ColorStop.numbers
  | image _ => []

def StrokePaint.numbers : StrokePaint → List Binary64
  | solid color => color.toList.flatMap RGBA.numbers
  | gradient stops heading => heading.toList ++ stops.flatMap ColorStop.numbers

def Stroke.numbers (stroke : Stroke) : List Binary64 :=
  stroke.width :: (stroke.dashes ++ stroke.paint.numbers)

def Effect.numbers : Effect → List Binary64
  | shadow s => [s.x, s.y, s.blur, s.spread] ++ s.color.toList.flatMap RGBA.numbers
  | blur _ radius => [radius]

def CornerRadius.numbers : CornerRadius → List Binary64
  | uniform radius => [radius]
  | corners topLeft topRight bottomRight bottomLeft =>
    [topLeft, topRight, bottomRight, bottomLeft]

def Typography.numbers (t : Typography) : List Binary64 :=
  t.fontSize :: (t.fontWeight.toList ++ t.lineHeight.toList)

def Style.numbers (s : Style) : List Binary64 :=
  s.opacity :: (s.fills.flatMap Fill.numbers ++ s.strokes.flatMap Stroke.numbers ++
    s.effects.flatMap Effect.numbers ++ s.cornerRadius.toList.flatMap CornerRadius.numbers ++
    s.typography.toList.flatMap Typography.numbers)

def Extent.numbers : Extent → List Binary64
  | auto => []
  | length value => [value]

def Padding.numbers (p : Padding) : List Binary64 := [p.top, p.right, p.bottom, p.left]

def Layout.numbers : Layout → List Binary64
  | flow box => box.gap :: (box.padding.numbers ++ box.width.numbers ++ box.height.numbers)
  | flowItem width height | absolute _ _ width height => [width, height]
  | unplaced => []

def TextRun.numbers (run : TextRun) : List Binary64 :=
  run.typography.toList.flatMap Typography.numbers ++ run.color.toList.flatMap RGBA.numbers

def Element.numbers (e : Element) : List Binary64 :=
  e.layout.numbers ++ e.style.numbers ++ e.runs.flatMap TextRun.numbers

/-! ## Numbers from two fields -/

/-- The place relative to the origin of the parent. -/
def Layout.offsets : Layout → List Binary64
  | absolute x y _ _ => [x, y]
  | _ => []

/-- The letter spacing of a type, if there are both. -/
def letterSpacingOf (field : Option Typography) : List Binary64 :=
  (field.bind Typography.letterSpacing).toList

/-- The letter spacings of a text and of its runs. -/
def Element.letterSpacings (e : Element) : List Binary64 :=
  letterSpacingOf e.style.typography ++ e.runs.flatMap fun run ↦ letterSpacingOf run.typography

/-- The places of the stops of a gradient in per cent of its length. -/
def Fill.percentages : Fill → List Binary64
  | linear stops _ | radial stops | conic stops _ => stops.map fun stop ↦ stop.position * 100
  | _ => []

/-- The numbers computed from two that the declarations of an element are written with. -/
def Classified.computed (c : Classified) : List Binary64 :=
  c.element.layout.offsets ++
    match c.strategy with
    | .markup => c.element.style.fills.flatMap Fill.percentages
    | .text => c.element.letterSpacings
    | .imageFallback => []

/-! ## Measured elements -/

/-- Whether the numbers of a type, if there is one, are finite and its letter spacing is not
NaN. -/
structure IsMeasuredType (field : Option Typography) : Prop where
  numbers : AllFinite (field.toList.flatMap Typography.numbers)
  letterSpacing : ∀ x ∈ letterSpacingOf field, x.isNaN = false

/-- Whether the numbers of an element that come from one field are finite, and those computed from
two are not NaN. -/
structure Element.IsMeasured (e : Element) : Prop where
  numbers : AllFinite e.numbers
  offsets : ∀ x ∈ e.layout.offsets, x.isNaN = false
  letterSpacings : ∀ x ∈ e.letterSpacings, x.isNaN = false

namespace Element.IsMeasured

variable {e : Element}

theorem style (h : e.IsMeasured) : AllFinite e.style.numbers :=
  (allFinite_append.mp (allFinite_append.mp h.numbers).1).2

theorem typography (h : e.IsMeasured) : IsMeasuredType e.style.typography where
  numbers := (allFinite_append.mp (allFinite_cons.mp h.style).2).2
  letterSpacing x hx := h.letterSpacings x (List.mem_append_left _ hx)

theorem run (h : e.IsMeasured) {run : TextRun} (hrun : run ∈ e.runs) :
    IsMeasuredType run.typography where
  numbers := by
    have hruns := allFinite_flatMap.mp (allFinite_append.mp h.numbers).2
    exact (allFinite_append.mp (hruns run hrun)).1
  letterSpacing x hx :=
    h.letterSpacings x (List.mem_append_right _ (List.mem_flatMap.mpr ⟨run, hrun, hx⟩))

end Element.IsMeasured
end DesignToWeb
