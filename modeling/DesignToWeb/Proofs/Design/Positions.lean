import Mathlib.Algebra.Ring.Int.Defs
import DesignToWeb.Proofs.Binary64.Whole
import DesignToWeb.Proofs.Design.Parents
import DesignToWeb.Proofs.Design.Placement

/-!
# Places add up

An element that stands at a place has the place of its own box relative to the
box of its parent.  So along a path of such elements the places add up to the
place of the last relative to what is above the first; the boxes between cancel
out.  Whole coordinates of at most `2 ^ 52` have exact differences, and for them
nothing is lost on the way.
-/

namespace DesignToWeb

inductive Axis where
  | x
  | y

def Axis.key : Axis → String
  | x => "x"
  | y => "y"

def Json.whole? : Json → Option Int
  | int n => some n
  | float x => x.whole?
  | _ => none

/-- One coordinate of the place that an element stands at, if it is a whole number. -/
def Layout.place? (axis : Axis) : Layout → Option Int
  | absolute x y _ _ =>
    match axis with
    | .x => x.whole?
    | .y => y.whole?
  | _ => none

namespace Design

open Outcome

/-! ## Boxes -/

/-- One coordinate of a box; a box that is missing has none. -/
def coordinate (axis : Axis) (box? : Option Attributes) : Json := (box?.getD .empty).get axis.key

/-- Whether a coordinate is missing, or a whole number of at most `2 ^ 52`. -/
def isWholeOrMissing : Json → Bool
  | .null => true
  | .int n => n.natAbs ≤ 1 <<< 52
  | .float x => x.whole?.any fun n ↦ n.natAbs ≤ 1 <<< 52
  | _ => false

def HasWholeOrigin (node : Attributes) : Prop :=
  ∀ axis, isWholeOrMissing (coordinate axis (boundingBox? node)) = true

instance : DecidablePred HasWholeOrigin := fun node ↦
  decidable_of_iff (isWholeOrMissing (coordinate .x (boundingBox? node)) = true ∧
    isWholeOrMissing (coordinate .y (boundingBox? node)) = true)
    ⟨fun h axis ↦ match axis with
      | .x => h.1
      | .y => h.2, fun h ↦ ⟨h .x, h .y⟩⟩

/-- Where the box of a node begins, zero for what is missing. -/
def origin (axis : Axis) (node : Attributes) : Int :=
  (coordinate axis (boundingBox? node)).whole?.getD 0

theorem isInt_of_toNumber {j : Json} (hj : isWholeOrMissing j = true) {x : Binary64}
    (h : j.toNumber = .ok x) :
    x.IsInt (j.whole?.getD 0) ∧ (j.whole?.getD 0).natAbs ≤ 1 <<< 52 := by
  cases j with
  | null =>
      rw [← Except.ok.inj h]
      exact ⟨Binary64.isInt_zero, Nat.zero_le _⟩
  | int n =>
      have hn : n.natAbs ≤ 1 <<< 52 := of_decide_eq_true hj
      refine ⟨?_, hn⟩
      change Binary64.ofIntChecked n = .ok x at h
      rw [Binary64.ofIntChecked] at h
      split at h
      · rw [← Except.ok.inj h]
        exact Binary64.isInt_ofInt (Nat.le_trans hn (one_shiftLeft_le (by decide)))
      · exact nomatch h
  | float y =>
      rw [← Except.ok.inj h]
      cases hn : y.whole? with
      | none =>
          rw [isWholeOrMissing, hn] at hj
          exact Bool.noConfusion hj
      | some n =>
          rw [isWholeOrMissing, hn] at hj
          have hy := Binary64.isInt_iff.mpr hn
          rw [Json.whole?, hn, Binary64.finiteOr, if_pos hy.isFinite]
          exact ⟨hy, of_decide_eq_true hj⟩
  | bool _ | nan | str _ | arr _ | obj _ => exact Bool.noConfusion hj

theorem whole?_of_relative {axis : Axis} {box? parentBox? : Option Attributes} {x : Binary64}
    (h : relative axis.key (box?.getD .empty) (parentBox?.getD .empty) = .ok x)
    (hbox : isWholeOrMissing (coordinate axis box?) = true)
    (hparent : isWholeOrMissing (coordinate axis parentBox?) = true) :
    x.whole? = some ((coordinate axis box?).whole?.getD 0 -
      (coordinate axis parentBox?).whole?.getD 0) := by
  obtain ⟨own, hown, h⟩ := bind_eq_ok.mp h
  obtain ⟨start, hstart, h⟩ := bind_eq_ok.mp h
  obtain ⟨hown, hownLe⟩ := isInt_of_toNumber hbox hown
  obtain ⟨hstart, hstartLe⟩ := isInt_of_toNumber hparent hstart
  rw [← pure_eq_ok.mp h, ← Binary64.isInt_iff]
  refine hown.sub hstart ?_
  have hdouble : 1 <<< 53 = 1 <<< 52 + 1 <<< 52 := by decide
  omega

/-- The origin of what stands above, zero at the top. -/
def originAbove (axis : Axis) (parent? : Option Attributes) : Int := parent?.elim 0 (origin axis)

/-- An element that stands at a place is where its box is, counted from the box above. -/
theorem ReadNode.IsBelow.place?_eq {parent? : Option Attributes} {r : ReadNode}
    (h : r.IsBelow parent?) (hplaced : r.element.layout.isAbsolute = true)
    (hwhole : HasWholeOrigin r.node) (habove : ∀ parent ∈ parent?, HasWholeOrigin parent)
    (axis : Axis) :
    r.element.layout.place? axis = some (origin axis r.node - originAbove axis parent?) := by
  obtain ⟨warnings, hread⟩ := h
  have hlayout := (readElement?_eq_some hread).layout
  have hparent : isWholeOrMissing (coordinate axis (parent?.bind boundingBox?)) = true := by
    cases parent? with
    | none => rfl
    | some parent => exact habove parent rfl axis
  have horigin : originAbove axis parent? =
      (coordinate axis (parent?.bind boundingBox?)).whole?.getD 0 := by
    cases parent? <;> rfl
  rw [horigin]
  obtain ⟨_, _, _, ⟨_, _, _, _, hform⟩ | ⟨_, _, _, hform⟩ | ⟨_, _, x, y, hx, hy, hform⟩⟩ :=
    readLayout_eq_ok hlayout
  · exact Bool.noConfusion (hform ▸ hplaced)
  · exact Bool.noConfusion (hform ▸ hplaced)
  · rw [hform]
    cases axis with
    | x => exact whole?_of_relative hx (hwhole .x) hparent
    | y => exact whole?_of_relative hy (hwhole .y) hparent

/-! ## Paths -/

/-- The sum of the places along a path, if all of them are whole numbers. -/
def placeSum? (axis : Axis) (path : List ReadNode) : Option Int :=
  (path.mapM fun (r : ReadNode) ↦ r.element.layout.place? axis).map List.sum

theorem placeSum?_nil (axis : Axis) : placeSum? axis [] = some 0 := rfl

theorem placeSum?_cons {axis : Axis} {r : ReadNode} {path : List ReadNode} {place sum : Int}
    (hplace : r.element.layout.place? axis = some place) (hsum : placeSum? axis path = some sum) :
    placeSum? axis (r :: path) = some (place + sum) := by
  obtain ⟨places, hplaces, rfl⟩ := Option.map_eq_some_iff.mp hsum
  rw [placeSum?, List.mapM_cons, hplace, hplaces]
  rfl

/-- Along a path of elements that stand at places, all boxes between the ends cancel out. -/
theorem ReadAlong.placeSum?_eq {parent? : Option Attributes} {path : List ReadNode}
    {last : ReadNode} (h : ReadAlong parent? (path ++ [last]))
    (hplaced : ∀ r ∈ path ++ [last], r.element.layout.isAbsolute = true)
    (hwhole : ∀ r ∈ path ++ [last], HasWholeOrigin r.node)
    (habove : ∀ parent ∈ parent?, HasWholeOrigin parent) (axis : Axis) :
    placeSum? axis (path ++ [last]) = some (origin axis last.node - originAbove axis parent?) := by
  induction path generalizing parent? with
  | nil =>
      have hlast := h.1.place?_eq (hplaced last List.mem_cons_self) (hwhole last List.mem_cons_self)
        habove axis
      rw [List.nil_append, placeSum?_cons hlast (placeSum?_nil axis), Int.add_zero]
  | cons r path ih =>
      have hhere := h.1.place?_eq (hplaced r List.mem_cons_self) (hwhole r List.mem_cons_self)
        habove axis
      have hrest := ih h.2 (fun s hs ↦ hplaced s (List.mem_cons_of_mem r hs))
        (fun s hs ↦ hwhole s (List.mem_cons_of_mem r hs))
        (fun parent hparent ↦ Option.some.inj hparent ▸ hwhole r List.mem_cons_self)
      have hown : originAbove axis (some r.node) = origin axis r.node := rfl
      rw [List.cons_append, placeSum?_cons hhere hrest, hown]
      exact congrArg some (by omega)

/-! ## Documents -/

/-- Below a kept node, and below the top, the places of elements that all stand at places add up to
where the box of the last begins, counted from the node or from zero. -/
theorem readDocument_places_add_up {file : Json} {document : Document}
    (h : readDocument file = .ok document)
    (hwhole : ∀ node ∈ Tree.preorderForest (keptNodes file), HasWholeOrigin node) :
    ∃ reads : List (Tree ReadNode), Tree.mapForest ReadNode.node reads = keptNodes file ∧
      Tree.mapForest ReadNode.element reads = document.scene ∧
      ∀ (axis : Axis) (below : List ReadNode) (last : ReadNode),
        (∀ r ∈ below ++ [last], r.element.layout.isAbsolute = true) →
        (∀ above a, above ++ a :: (below ++ [last]) ∈ Tree.pathsForest reads →
          placeSum? axis (below ++ [last]) = some (origin axis last.node - origin axis a.node)) ∧
        (below ++ [last] ∈ Tree.pathsForest reads →
          placeSum? axis (below ++ [last]) = some (origin axis last.node)) := by
  obtain ⟨reads, hnodes, helements, hreads⟩ := exists_readBelow_of_readDocument h
  have hwholeAlong : ∀ path ∈ Tree.pathsForest reads, ∀ r ∈ path, HasWholeOrigin r.node := by
    intro path hpath r hr
    apply hwhole
    rw [← hnodes, Tree.preorderForest_mapForest]
    exact List.mem_map_of_mem (Tree.mem_preorderForest_of_mem_path reads path hpath r hr)
  refine ⟨reads, hnodes, helements, fun axis below last hplaced ↦ ⟨?_, ?_⟩⟩
  · intro above a hpath
    have hrest := (hreads.readAlong reads _ hpath).below
    have hwhole := hwholeAlong _ hpath
    refine hrest.placeSum?_eq hplaced (fun r hr ↦ hwhole r ?_) (fun parent hparent ↦ ?_) axis
    · exact List.mem_append_right above (List.mem_cons_of_mem a hr)
    · exact Option.some.inj hparent ▸ hwhole a (List.mem_append_right above List.mem_cons_self)
  · intro hpath
    have hsum := (hreads.readAlong reads _ hpath).placeSum?_eq hplaced (hwholeAlong _ hpath)
      (fun parent hparent ↦ nomatch hparent) axis
    rwa [originAbove, Option.elim_none, Int.sub_zero] at hsum

/-- A board with a sheet whose box lacks a coordinate.  On the sheet are a note without a box and a
pin as far out as can be. -/
def board : Json :=
  .obj [("children", .arr [.obj [("id", .str "0:1"), ("children", .arr [
    .obj [("id", .str "1:1"), ("type", .str "FRAME"),
      ("absoluteBoundingBox", .obj [("x", .int (-40)), ("y", .int 10)]),
      ("children", .arr [
        .obj [("id", .str "1:2"), ("type", .str "FRAME"),
          ("absoluteBoundingBox", .obj [("x", .float 60)]),
          ("children", .arr [
            .obj [("id", .str "1:3"), ("type", .str "TEXT")],
            .obj [("id", .str "1:4"), ("type", .str "RECTANGLE"),
              ("absoluteBoundingBox", .obj [("x", .int 4503599627370496), ("y", .int 20)])]])]])]])]])]

/-- From the top, the places come to where the boxes of the note and the pin begin. -/
theorem readDocument_places_add_up_board : ∃ document, readDocument board = .ok document ∧
    (Tree.preorderForest document.scene).map (·.layout.place? .x) =
      [some (-40), some 100, some (-60), some 4503599627370436] ∧
    ∃ reads : List (Tree ReadNode), Tree.mapForest ReadNode.element reads = document.scene ∧
      ∀ (axis : Axis) (below : List ReadNode) (last : ReadNode),
        (∀ r ∈ below ++ [last], r.element.layout.isAbsolute = true) →
        below ++ [last] ∈ Tree.pathsForest reads →
          placeSum? axis (below ++ [last]) = some (origin axis last.node) := by
  have hplaces : (readDocument board).toOption.map
      (fun document ↦ (Tree.preorderForest document.scene).map (·.layout.place? .x)) =
        some [some (-40), some 100, some (-60), some 4503599627370436] := by decide +kernel
  have hwhole : ∀ node ∈ Tree.preorderForest (keptNodes board), HasWholeOrigin node := by
    decide +kernel
  cases hdocument : readDocument board with
  | error fault =>
      rw [hdocument] at hplaces
      exact nomatch hplaces
  | ok document =>
      rw [hdocument] at hplaces
      obtain ⟨reads, _, helements, hsums⟩ := readDocument_places_add_up hdocument hwhole
      exact ⟨document, rfl, Option.some.inj hplaces, reads, helements,
        fun axis below last hplaced ↦ (hsums axis below last hplaced).2⟩

end Design
end DesignToWeb
