import PenScript.Plane.Shape
import PenScript.Gesture

/-!
# The drawing

A drawing is a pen and the figures drawn so far, in order. It follows gestures:
each draws at most one figure, with the color and the fill setting the pen has
at that moment, centered on the pen or starting from it. Lines are never
filled. Erasing removes the figures and leaves the pen alone.

## Main results

* `play_append`: gestures follow each other.
-/

namespace PenScript

open Plane

/-- A shape with the ink it was drawn in. -/
structure Figure where
  shape : Shape
  filled : Bool
  color : Color

/-- A pen and the figures drawn so far. -/
structure Drawing where
  pen : Pen := {}
  figures : Array Figure := #[]

instance : Inhabited Drawing := ⟨{}⟩

/-- Whether a shape can be filled. -/
def Plane.Shape.isClosed : Shape → Bool
  | .line _ _ => false
  | _ => true

/-- The place of a pen on the canvas. -/
def Pen.place (pen : Pen) : Point Float := ⟨pen.x.toFloat, pen.y.toFloat⟩

namespace Drawing

/-- Adds a shape in the ink of the pen. -/
def draw (drawing : Drawing) (shape : Shape) : Drawing :=
  let figure : Figure :=
    { shape, filled := shape.isClosed && drawing.pen.fill, color := drawing.pen.color }
  { drawing with figures := drawing.figures.push figure }

/-- Moves the pen. -/
def moveTo (drawing : Drawing) (x y : Int32) : Drawing :=
  { drawing with pen := { drawing.pen with x, y } }

/-- Follows a gesture. -/
def apply (drawing : Drawing) : Gesture → Drawing
  | .moveTo x y => drawing.moveTo x y
  | .lineTo x y =>
      (drawing.draw (.line drawing.pen.place ⟨x.toFloat, y.toFloat⟩)).moveTo x y
  | .circle radius => drawing.draw (.circle drawing.pen.place radius.toFloat)
  | .rectangle width height =>
      drawing.draw (.rectangle drawing.pen.place ⟨width.toFloat, height.toFloat⟩)
  | .triangle triangle =>
      drawing.draw (.polygon (triangle.outline drawing.pen.x drawing.pen.y))
  | .polygon points =>
      drawing.draw (.polygon (points.map fun point =>
        ⟨point.x.toFloat, point.y.toFloat⟩))
  | .setColor color => { drawing with pen := { drawing.pen with color } }
  | .setFill on => { drawing with pen := { drawing.pen with fill := on } }
  | .erase => { drawing with figures := #[] }
  | .resetPen => { drawing with pen := {} }

/-- Follows a list of gestures. -/
def play (drawing : Drawing) (gestures : List Gesture) : Drawing :=
  gestures.foldl apply drawing

/-- Hands out the figures and keeps the pen. -/
def take (drawing : Drawing) : Array Figure × Drawing :=
  (drawing.figures, { drawing with figures := #[] })

/-! ## Small laws -/

theorem play_append (drawing : Drawing) (front back : List Gesture) :
    drawing.play (front ++ back) = (drawing.play front).play back :=
  List.foldl_append

end Drawing

end PenScript
