import PenScript.Plane.Triangle
import PenScript.Store

/-!
# Gestures

A gesture is one thing a canvas is told to do: move the pen, draw with it,
change its ink, erase. Executing a script has an effect on the canvas only
through gestures, and what a drawing command means is the list of gestures it
stands for once its values are known.

A command is all or nothing. Its values are looked up in the order in which they
are written, then they are checked, and only if nothing is wrong are there any
gestures.

## Main results

* `pairUp_flatten`: a polygon's points are exactly the values it is given.
-/

namespace PenScript

open Plane

/-- One thing a canvas is told to do. -/
inductive Gesture where
  /-- Put the pen somewhere without drawing. -/
  | moveTo (x y : Int32)
  /-- Draw a line from the pen to a point and leave the pen there. -/
  | lineTo (x y : Int32)
  | circle (radius : Int32)
  | rectangle (width height : Int32)
  | triangle (triangle : Triangle)
  | polygon (points : List (Point Int32))
  | setColor (color : Color)
  | setFill (on : Bool)
  /-- Remove everything drawn. -/
  | erase
  /-- Give the pen its first state again. -/
  | resetPen

/-- The value of a term in a line with that verb. -/
def Term.valueIn (vars : Variables) (verb : Option Verb) : Term → Except Fault Int32
  | .number value => .ok value
  | .var name =>
      match vars.get? name with
      | some value => .ok value
      | none => .error (.unknownVariable name verb)

/-- Refuses a negative measure. -/
def Measure.check (measure : Measure) (verb : Verb) (value : Int32) :
    Except Fault Unit :=
  if value < 0 then .error (.negativeMeasure measure value verb) else .ok ()

namespace Gesture

/-- Drawing a circle. -/
def circles (verb : Verb) (radius : Int32) : Except Fault (List Gesture) := do
  Measure.radius.check verb radius
  return [circle radius]

/-- Drawing a rectangle. -/
def rectangles (verb : Verb) (width height : Int32) : Except Fault (List Gesture) := do
  Measure.width.check verb width
  Measure.height.check verb height
  return [rectangle width height]

/-- Drawing a triangle, whose sides have to meet. -/
def triangles (verb : Verb) (adjacent base hypotenuse : Int32) :
    Except Fault (List Gesture) := do
  Measure.base.check verb base
  Measure.hypotenuse.check verb hypotenuse
  match Triangle.ofSides? adjacent base hypotenuse with
  | some found => return [triangle found]
  | none => .error (.noRealHeight base hypotenuse)

/-- Values taken two by two as points. -/
def pairUp : List Int32 → List (Point Int32)
  | x :: y :: rest => ⟨x, y⟩ :: pairUp rest
  | _ => []

/-- Drawing the shape that fits the number of values. -/
def shapes (verb : Verb) : List Int32 → Except Fault (List Gesture)
  | [radius] => circles verb radius
  | [width, height] => rectangles verb width height
  | [adjacent, base, hypotenuse] => triangles verb adjacent base hypotenuse
  | values => .ok [polygon (pairUp values)]

end Gesture

/-- The gestures a command stands for. -/
def Command.gestures (vars : Variables) (command : Command) :
    Except Fault (List Gesture) :=
  let verb := command.verb
  let value := Term.valueIn vars (some verb)
  match command with
  | .moveTo x y => return [.moveTo (← value x) (← value y)]
  | .drawTo x y => return [.lineTo (← value x) (← value y)]
  | .pen color => .ok [.setColor color]
  | .fill on => .ok [.setFill on]
  | .clear => .ok [.erase, .resetPen]
  | .reset => .ok [.resetPen]
  | .circle radius => do Gesture.circles verb (← value radius)
  | .rectangle width height =>
      do Gesture.rectangles verb (← value width) (← value height)
  | .triangle adjacent base hypotenuse => do
      Gesture.triangles verb (← value adjacent) (← value base) (← value hypotenuse)
  | .drawShape values => do Gesture.shapes verb (← values.mapM value)

/-! ## Small laws -/

/-- The coordinates of the points, read in order, are the values, if
their number is even. -/
theorem Gesture.pairUp_flatten (values : List Int32) (hEven : values.length % 2 = 0) :
    (Gesture.pairUp values).flatMap (fun point => [point.x, point.y]) = values := by
  fun_induction Gesture.pairUp values with
  | case1 x y rest ih =>
      simp only [List.length_cons] at hEven
      rw [List.flatMap_cons, ih (by omega)]
      rfl
  | case2 values hShort =>
      match values, hShort, hEven with
      | [], _, _ => rfl
      | [_], _, hEven => exact absurd hEven (by simp)
      | x :: y :: rest, hShort, _ => exact absurd rfl (hShort x y rest)

end PenScript
