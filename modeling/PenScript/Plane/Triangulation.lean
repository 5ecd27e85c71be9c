import PenScript.Plane.Clipping
import PenScript.Plane.Point

/-!
# Splitting a polygon into triangles

A polygon is filled as a set of triangles, found by cutting off ears. A corner
is an ear if it turns the way the outline as a whole does and no other vertex of
the ring lies in its triangle; it is flat if it does not turn at all. The way
the outline turns is the sign of the area it encloses.

Vertices are points with their position in the outline. Positions tell vertices
apart, so two vertices at the same point remain two vertices.

## Main results

* `length_ringOf`: every point of the outline is a vertex once.
-/

namespace PenScript.Plane

/-- A point of an outline, with its position there. -/
structure Vertex (α : Type) where
  index : Nat
  point : Point α
deriving DecidableEq, Repr

section

variable {α : Type} [Coordinate α]

/-- The vertices of an outline, in order. -/
def ringOf (outline : List (Point α)) : List (Vertex α) :=
  outline.zipIdx.map fun (point, index) => ⟨index, point⟩

/-- How far a corner turns. -/
def Corner.turning (corner : Corner (Vertex α)) : α :=
  turn corner.prev.point corner.tip.point corner.next.point

/-- Whether a vertex is another one than the three of a corner and lies
in its triangle. -/
def Corner.isBlockedBy (corner : Corner (Vertex α)) (other : Vertex α) : Bool :=
  other.index != corner.prev.index && other.index != corner.tip.index &&
    other.index != corner.next.index &&
      inTriangle corner.prev.point corner.tip.point corner.next.point other.point

/-- The tests for an outline that turns the given way. -/
def cornerTests (winding : α) : CornerTests (Vertex α) where
  isEar ring corner :=
    Coordinate.isPositive (corner.turning * winding) && !ring.any corner.isBlockedBy
  isFlat corner := Coordinate.isZero corner.turning

/-- The tests for an outline. -/
def outlineTests (outline : List (Point α)) : CornerTests (Vertex α) :=
  cornerTests (Coordinate.unitSign (doubledArea outline))

/-- Splits a polygon into triangles, each given by three positions in the outline. An
outline that crosses itself yields the triangles found before clipping is stuck. -/
def triangulate (outline : List (Point α)) : List (Corner Nat) :=
  (Ring.triangles (outlineTests outline) (ringOf outline)).map (Corner.map Vertex.index)

/-! ## Small laws -/

omit [Coordinate α] in
theorem length_ringOf (outline : List (Point α)) :
    (ringOf outline).length = outline.length := by
  rw [ringOf, List.length_map, List.length_zipIdx]

end

end PenScript.Plane
