/-!
# The plane

Points, and the little arithmetic on their coordinates that splitting a polygon
needs: in which sense three points turn, and twice the area that an outline
encloses. What coordinates are is left open. A painted canvas has doubles for
them, where every operation rounds, a sum has to start somewhere and a
comparison may fail on both sides; in exact arithmetic the same definitions are
those of the textbook.

The vertical axis points down. All that matters of that is that both quantities
use the same orientation.
-/

namespace PenScript.Plane

/-- A point of the plane. -/
structure Point (α : Type) where
  x : α
  y : α
deriving DecidableEq, Repr, Inhabited

/-- The arithmetic of coordinates. -/
class Coordinate (α : Type) extends Add α, Sub α, Mul α where
  /-- What a sum starts from: the neutral element of addition. -/
  neutral : α
  /-- One with the sign of a number; a number without a sign if there
  is none to take. -/
  unitSign : α → α
  isPositive : α → Bool
  isNegative : α → Bool
  isZero : α → Bool

/-- Doubles. Negative zero is the neutral element, since adding positive zero turns
negative zero into positive zero. A zero has the sign it was written with, and what
is not a number has none. -/
instance : Coordinate Float where
  neutral := -0.0
  unitSign x :=
    if x.isNaN then x else if x.toBits < 0x8000000000000000 then 1.0 else -1.0
  isPositive x := 0.0 < x
  isNegative x := x < 0.0
  isZero x := x == 0.0

section

variable {α : Type}

/-- The edges of a closed outline, each from a point to the next one. -/
def edges (outline : List (Point α)) : List (Point α × Point α) :=
  outline.zip (outline.drop 1 ++ outline.take 1)

variable [Coordinate α]

/-- Twice the signed area of a triangle: positive if its corners turn
the positive way. -/
def turn (a b c : Point α) : α :=
  (b.x - a.x) * (c.y - a.y) - (b.y - a.y) * (c.x - a.x)

/-- Twice the signed area within a closed outline. -/
def doubledArea (outline : List (Point α)) : α :=
  (edges outline).foldl (fun sum edge =>
    sum + (edge.1.x * edge.2.y - edge.2.x * edge.1.y))
    Coordinate.neutral

/-- Whether a point lies in a triangle or on its rim, whichever way
the triangle turns. -/
def inTriangle (a b c p : Point α) : Bool :=
  let sides := [turn a b p, turn b c p, turn c a p]
  !(sides.any Coordinate.isNegative && sides.any Coordinate.isPositive)

end

end PenScript.Plane
