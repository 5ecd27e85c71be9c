import PenScript.Plane.Triangulation
import PenScript.Studio

/-!
# What the canvas paints

The canvas is painted from the drawing: a background, then each figure in the
order in which it was drawn, then a mark where the pen is. Circles are painted
as polygons. A filled polygon may be concave and is painted as a set of
triangles with its outline on top; other filled shapes are convex and are
painted as they are. All lines are of one width, which is left out.

Painting is done in single precision, so each coordinate is rounded once, after
all points have been computed. Splitting a polygon into triangles uses the
unrounded points.

Triangles refer to points by their positions. A canvas has words of 32 bits for
them, into which positions are cast on the way to it. The cast is left out here:
positions are natural numbers, and there is no telling what is painted for a
polygon of `2 ^ 32` points or more.
-/

namespace PenScript

open Plane

/-- Red, green and blue parts, each from 0 to 255. -/
abbrev Ink := Nat × Nat × Nat

/-- A point in single precision. -/
abbrev PaintPoint := Point Float32

/-- One step of painting. -/
inductive Stroke where
  | area (low high : PaintPoint) (fill : Ink)
  | segment (start finish : PaintPoint) (stroke : Ink)
  /-- A closed outline, filled or not. -/
  | outline (points : List PaintPoint) (fill : Option Ink) (stroke : Ink)
  /-- Triangles between points, given by their positions in the list, before these are
  cast to words of 32 bits. -/
  | mesh (points : List PaintPoint) (triangles : List (Corner Nat)) (fill : Ink)
  | dot (center : PaintPoint) (radius : Float32) (fill : Ink)

namespace Painting

/-- The number of points a circle is painted with. -/
def circleSegments : Nat := 64

/-- The size of the canvas. -/
def canvasSize : PaintPoint := ⟨640, 480⟩

/-- The color of an empty canvas. -/
def background : Ink := (245, 245, 240)

/-- The color and the size of the mark at the pen. -/
def markInk : Ink := (220, 40, 40)

/-- The radius of the mark at the pen. -/
def markRadius : Float32 := 3

/-- A point of the drawing, rounded to single precision. -/
def rounded (point : Point Float) : PaintPoint := ⟨point.x.toFloat32, point.y.toFloat32⟩

/-- Paints a figure. The triangles of a filled polygon are handed on
as they are found. -/
def strokes (figure : Figure) : List Stroke :=
  let ink := figure.color.rgb
  let raw := figure.shape.outline circleSegments
  let points := raw.map rounded
  match figure.shape with
  | .line start finish => [.segment (rounded start) (rounded finish) ink]
  | .polygon _ =>
      if figure.filled then [.mesh points (triangulate raw) ink,
        .outline points none ink]
      else [.outline points none ink]
  | _ => [.outline points (if figure.filled then some ink else none) ink]

/-- Paints a drawing. -/
def paint (drawing : Drawing) : List Stroke :=
  .area ⟨0, 0⟩ canvasSize background ::
    (drawing.figures.toList.flatMap strokes ++
      [.dot (rounded drawing.pen.place) markRadius markInk])

end Painting

end PenScript
