/-!
# The pen

A pen has a place, a color and a fill setting. Places are whole numbers of 32
bits, as scripts write them. Moving the pen, drawing with it and resetting it
are the business of the canvas; this module only says what a pen is.
-/

namespace PenScript

/-- The colors of ink. -/
inductive Color where
  | red | green | black
deriving DecidableEq, Repr

namespace Color

/-- The color of a pen nobody has touched. -/
instance : Inhabited Color := ⟨black⟩

/-- The word for a color. -/
def name : Color → String
  | red => "red"
  | green => "green"
  | black => "black"

/-- The color that a word in lower case names. -/
def ofName? : String → Option Color
  | "red" => some red
  | "green" => some green
  | "black" => some black
  | _ => none

/-- Red, green and blue parts, each from 0 to 255. -/
def rgb : Color → Nat × Nat × Nat
  | red => (220, 40, 40)
  | green => (40, 170, 60)
  | black => (0, 0, 0)

end Color

/-- The state of a pen. The defaults are those of a pen that has just been reset. -/
structure Pen where
  x : Int32 := 0
  y : Int32 := 0
  color : Color := .black
  /-- Whether closed figures are filled. -/
  fill : Bool := false
deriving DecidableEq, Repr, Inhabited

end PenScript
