import PenScript.Plane.Point

/-!
# Shapes

What can be drawn, in the coordinates of the canvas, where the vertical axis
points down. A shape is kept as what it is; only for painting is its outline
turned into points, a circle into as many as are asked for.
-/

namespace PenScript.Plane

/-- A shape on the canvas. -/
inductive Shape where
  | circle (center : Point Float) (radius : Float)
  | rectangle (center size : Point Float)
  | line (start finish : Point Float)
  | polygon (points : List (Point Float))

namespace Shape

/-- The word for a shape. Three points make a triangle. -/
def name : Shape → String
  | circle _ _ => "circle"
  | rectangle _ _ => "rectangle"
  | line _ _ => "line"
  | polygon points => if points.length = 3 then "triangle" else "polygon"

/-- A full turn, in radians. -/
def fullTurn : Float := 6.283185307179586

/-- The point of a circle after a part of the full turn. -/
def pointOnCircle (center : Point Float) (radius : Float) (segments index : Nat) :
    Point Float :=
  let angle := Float.ofNat index / Float.ofNat segments * fullTurn
  ⟨center.x + radius * angle.cos, center.y + radius * angle.sin⟩

/-- The points of the outline, in order, a circle by the given number of them. -/
def outline (shape : Shape) (segments : Nat) : List (Point Float) :=
  match shape with
  | circle center radius =>
      (List.range segments).map (pointOnCircle center radius segments)
  | rectangle center size =>
      let halfWidth := size.x / 2.0
      let halfHeight := size.y / 2.0
      [⟨center.x - halfWidth, center.y - halfHeight⟩,
       ⟨center.x + halfWidth, center.y - halfHeight⟩,
       ⟨center.x + halfWidth, center.y + halfHeight⟩,
       ⟨center.x - halfWidth, center.y + halfHeight⟩]
  | line start finish => [start, finish]
  | polygon points => points

end Shape

end PenScript.Plane
