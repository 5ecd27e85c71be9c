import PenScript.Studio
import PenScript.Text.Tenths

/-!
# What the studio shows

The texts of the window, in the order in which they stand there: first the
editor with its buttons, then the status, the names of the tabs, and the texts
of the tab that is selected. The canvas has no texts; what it paints is another
matter. A text that is empty is not shown. Fonts, colors and spacing are left out.

Coordinates are shown with one decimal place.
-/

namespace PenScript

open Plane

/-- The word for a setting. -/
def onOff (setting : Bool) : String := if setting then "on" else "off"

/-- A point with one decimal place. -/
def Plane.Point.text (point : Point Float) : String :=
  s!"({Text.tenths point.x}, {Text.tenths point.y})"

/-- The measures of a shape, each with its label. -/
def Plane.Shape.measures : Shape → List String
  | .circle center radius => ["  center:", center.text, "  radius:", Text.tenths radius]
  | .rectangle center size => ["  center:", center.text, "  size:  ", size.text]
  | .line start finish => ["  from:", start.text, "  to:  ", finish.text]
  | .polygon points => ["  pts:", String.intercalate ", " (points.map Point.text)]

/-- The texts for a figure with a number. -/
def Figure.texts (figure : Figure) (number : Nat) : List String :=
  [s!"[{number}]", figure.shape.name, if figure.filled then "fill" else "outline",
    figure.color.name] ++ figure.shape.measures

/-- The texts for a pen. -/
def Pen.texts (pen : Pen) : List String :=
  let place := s!"({Text.decimal pen.x}, {Text.decimal pen.y})"
  ["pen:", s!"{place}  color={pen.color.name}  fill={onOff pen.fill}"]

namespace Studio

/-- The texts of the errors. -/
def errorTexts (studio : Studio) : List String :=
  if studio.errors.isEmpty then ["No errors."] else studio.errors.toList

/-- The texts of the variables and methods. -/
def variableTexts (studio : Studio) : List String :=
  let vars := studio.session.store.vars
  let methods := studio.session.store.methods.names
  if vars.isEmpty && methods.isEmpty then ["No variables or methods."]
  else ["name", "kind", "value"] ++
    (vars.entries.flatMap fun entry => [entry.1, "var", Text.decimal entry.2]) ++
    (methods.flatMap fun name => [name, "method"])

/-- The texts of the pen and the figures. -/
def outputTexts (studio : Studio) : List String :=
  let figures := studio.drawing.figures.toList
  studio.drawing.pen.texts ++
    if figures.isEmpty then ["Nothing drawn yet."]
    else (figures.zipIdx 1).flatMap fun (figure, number) => figure.texts number

/-- The texts of a tab. -/
def tabTexts (studio : Studio) : Tab → List String
  | .errors => studio.errorTexts
  | .vars => studio.variableTexts
  | .output => studio.outputTexts
  | .canvas => []

/-- The texts of the editor. -/
def editorTexts (studio : Studio) : List String :=
  ["File", studio.path, "load", "save", "Script", studio.source, "run", "check",
    "reset", "Command", studio.command]

/-- The texts of the status bar. -/
def statusTexts (studio : Studio) : List String :=
  let count := studio.errors.size
  [if count = 0 then "✓  no errors" else s!"✗  {count} error(s)"] ++
    (if studio.session.isPending then ["… block open"] else []) ++ [studio.status]

/-- The names of the tabs. -/
def tabNames (studio : Studio) : List String :=
  let count := studio.errors.size
  [if count = 0 then "Errors" else s!"Errors ({count})", "Variables",
    "Output", "Canvas"]

/-- The texts that are not empty. -/
def visible (texts : List String) : List String :=
  texts.filter fun text => !text.isEmpty

/-- What a tab shows. -/
def view (studio : Studio) (tab : Tab) : List String := visible (studio.tabTexts tab)

/-- What the whole window shows. -/
def window (studio : Studio) : List String :=
  visible (studio.editorTexts ++ studio.statusTexts ++ studio.tabNames ++
    studio.tabTexts studio.tab)

end Studio

end PenScript
