import PenScript.Plane.Point

/-!
# Triangles on a base

A triangle is drawn from the length of its base, which is horizontal, and the
length of the sides that rise from the base to the apex above its middle. Its
height follows from the two lengths, if they go together. A third number is
carried along and has no influence on the figure.
-/

namespace PenScript.Plane

/-- A triangle with its height. -/
structure Triangle where
  adjacent : Int32
  base : Int32
  hypotenuse : Int32
  height : Float

namespace Triangle

/-- Half the length of a base. -/
def halfOf (base : Int32) : Float := base.toFloat / 2.0

/-- The square of the height above the middle of a base. -/
def squaredHeight (base hypotenuse : Int32) : Float :=
  hypotenuse.toFloat * hypotenuse.toFloat - halfOf base * halfOf base

/-- The triangle with those sides, unless its height would not be a real number. -/
def ofSides? (adjacent base hypotenuse : Int32) : Option Triangle :=
  let squared := squaredHeight base hypotenuse
  if squared < 0.0 then none
    else some { adjacent, base, hypotenuse, height := squared.sqrt }

/-- The left and the right end of the base and the apex, for a base with
its middle at a point. -/
def outline (triangle : Triangle) (x y : Int32) : List (Point Float) :=
  let half := halfOf triangle.base
  [⟨x.toFloat - half, y.toFloat⟩, ⟨x.toFloat + half, y.toFloat⟩,
   ⟨x.toFloat, y.toFloat - triangle.height⟩]

/-- A triangle remembers what it was asked for. -/
theorem sides_of_ofSides? {adjacent base hypotenuse : Int32} {triangle : Triangle}
    (hSome : ofSides? adjacent base hypotenuse = some triangle) :
    triangle.adjacent = adjacent ∧ triangle.base = base ∧
      triangle.hypotenuse = hypotenuse := by
  simp only [ofSides?] at hSome
  split at hSome
  · cases hSome
  · cases hSome
    exact ⟨rfl, rfl, rfl⟩

end Triangle

end PenScript.Plane
