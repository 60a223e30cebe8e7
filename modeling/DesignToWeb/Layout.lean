import DesignToWeb.Binary64.Basic

/-!
# Layouts

Where an element of a scene stands: it lays out its children in a row or a
column, takes part in the flow of its parent, or stands at a place relative to
its parent.
-/

namespace DesignToWeb

/-- Along which axis children follow each other.  Names beyond the known ones are kept as they
are. -/
inductive FlowDirection where
  | row
  | column
  | other (name : String)
deriving DecidableEq

namespace FlowDirection

def name : FlowDirection → String
  | row => "row"
  | column => "column"
  | other name => name

def ofName : String → FlowDirection
  | "row" => row
  | "column" => column
  | name => other name

end FlowDirection

/-- How children are placed along one axis of a flow. -/
inductive FlowPlacement where
  | start
  | center
  | finish
  | spaceBetween
  | stretch
  | baseline
deriving DecidableEq

namespace FlowPlacement

def name : FlowPlacement → String
  | start => "start"
  | center => "center"
  | finish => "end"
  | spaceBetween => "space-between"
  | stretch => "stretch"
  | baseline => "baseline"

def ofName? : String → Option FlowPlacement
  | "start" => some start
  | "center" => some center
  | "end" => some finish
  | "space-between" => some spaceBetween
  | "stretch" => some stretch
  | "baseline" => some baseline
  | _ => none

end FlowPlacement

/-- A length, or whatever the content needs. -/
inductive Extent where
  | auto
  | length (value : Binary64)
deriving DecidableEq

structure Padding where
  top : Binary64 := 0
  right : Binary64 := 0
  bottom : Binary64 := 0
  left : Binary64 := 0
deriving DecidableEq

/-- A box that lays out its children one after the other. -/
structure FlowBox where
  direction : FlowDirection
  width : Extent
  height : Extent
  gap : Binary64 := 0
  padding : Padding := {}
  /-- Across the direction of the flow. -/
  align : Option FlowPlacement := none
  /-- Along the direction of the flow. -/
  justify : Option FlowPlacement := none
deriving DecidableEq

inductive Layout where
  | flow (box : FlowBox)
  | flowItem (width height : Binary64)
  /-- The place is relative to the origin of the parent. -/
  | absolute (x y width height : Binary64)
  | unplaced
deriving DecidableEq

end DesignToWeb
