import PenScript.Keyword
import PenScript.Line
import PenScript.Text.Numeral

/-!
# Faults

Everything that can be wrong with a script, by cause. A fault says what is
wrong and carries the words and numbers that its explanation mentions; the
explanation itself is a function of the fault, and so is its kind, a coarse
classification with a code that stays the same when wordings change.

A fault at a site is a diagnostic, which is what users get to see.

The first group of constructors is found while reading, from the text alone;
the second only when a statement is executed. Two causes have a form in each
group, because a negative loop count may be written out or be the value of a
variable.
-/

namespace PenScript

/-- A coarse classification of faults. -/
inductive FaultKind where
  | form | unknownCommand | unknownVariable | duplicateDefinition | geometry
  | cyclicCall | unknownMethod | unterminatedBlock | limit
deriving DecidableEq, Repr

namespace FaultKind

/-- The code shown beside an explanation. -/
def code : FaultKind → String
  | form => "E001"
  | unknownCommand => "E002"
  | unknownVariable => "E003"
  | duplicateDefinition => "E004"
  | geometry => "E005"
  | cyclicCall => "E006"
  | unknownMethod => "E007"
  | unterminatedBlock => "E008"
  | limit => "E009"

/-- A kind in words. -/
def name : FaultKind → String
  | form => "parse error"
  | unknownCommand => "unknown command"
  | unknownVariable => "unknown variable"
  | duplicateDefinition => "duplicate definition"
  | geometry => "geometry error"
  | cyclicCall => "cyclic call"
  | unknownMethod => "unknown method"
  | unterminatedBlock => "unterminated block"
  | limit => "step limit"

/-- An explanation with its code in front and its place around it. -/
def report (kind : FaultKind) (site : Site) (message : String) : String :=
  s!"[{kind.code}] line {site.number}: {message} (in `{site.raw}`)"

end FaultKind

/-- The forms of line in which a value can stand. -/
inductive Form where
  | assignment
  | command (keyword : Keyword)
deriving DecidableEq, Repr

/-- How a line of that form is written, as shown to users. -/
def Form.usage : Form → String
  | .assignment => "usage: <name> = <number|variable>"
  | .command keyword => keyword.usage

/-- The measures of a figure that cannot be negative. -/
inductive Measure where
  | radius | width | height | base | hypotenuse
deriving DecidableEq, Repr

/-- The word for a measure. -/
def Measure.name : Measure → String
  | .radius => "radius"
  | .width => "width"
  | .height => "height"
  | .base => "base"
  | .hypotenuse => "hypotenuse"

/-- What is wrong. -/
inductive Fault where
  /-- An assignment without exactly one value. -/
  | assignmentLength
  /-- An assignment to a word that is no name. -/
  | badTarget (word : String)
  /-- An assignment to a keyword. -/
  | reservedTarget (word : String)
  /-- A value that is neither a numeral nor a name. -/
  | badValue (word : String) (form : Form)
  /-- A value made of digits that cannot be read as a number. -/
  | outOfRange (word : String) (form : Form)
  /-- The wrong number of words after a keyword. -/
  | wrongCount (keyword : Keyword) (expected got : Nat)
  /-- A method named by a word that is no name. -/
  | badName (word : String) (keyword : Keyword)
  /-- A condition without a comparison in the middle. -/
  | badComparison (word : String)
  /-- A loop with a negative numeral for its count. -/
  | negativeCountWritten (count : Int32)
  /-- A color there is no ink of. -/
  | badColor (word : String)
  /-- A fill setting other than on and off. -/
  | badFillMode (word : String)
  /-- A shape without values. -/
  | emptyShape
  /-- A polygon with a coordinate missing. -/
  | oddPolygon (count : Nat)
  /-- A line that starts with no keyword. -/
  | unknownCommand (word : String)
  /-- A closing word with no block to close. -/
  | strayCloser (kind : BlockKind)
  /-- A loop inside a loop. -/
  | nestedLoop
  /-- A method inside a loop or a method. -/
  | nestedMethod
  /-- A block that is still open where the script ends. -/
  | neverClosed (kind : BlockKind)
  /-- A variable without a value; in a drawing line, the verb of that line. -/
  | unknownVariable (name : String) (verb : Option Verb)
  /-- A loop whose count turns out to be negative. -/
  | negativeCount (count : Int32)
  /-- A measure that turns out to be negative. -/
  | negativeMeasure (measure : Measure) (value : Int32) (verb : Verb)
  /-- A triangle whose sides do not meet. -/
  | noRealHeight (base hypotenuse : Int32)
  /-- A method defined a second time. -/
  | alreadyDefined (name : String)
  /-- A call of a method without a definition. -/
  | unknownMethod (name : String)
  /-- A call of a method from within itself; the methods on the way, outermost first. -/
  | cyclicCall (name : String) (chain : List String)
  /-- More statements than the budget allows. -/
  | tooManySteps (budget : Nat)
  /-- Calls nested deeper than allowed. -/
  | tooDeep (limit : Nat)
deriving DecidableEq, Repr

namespace Fault

/-- The kind a fault belongs to. -/
def kind : Fault → FaultKind
  | unknownCommand _ => .unknownCommand
  | neverClosed _ => .unterminatedBlock
  | unknownVariable _ _ => .unknownVariable
  | noRealHeight _ _ => .geometry
  | alreadyDefined _ => .duplicateDefinition
  | unknownMethod _ => .unknownMethod
  | cyclicCall _ _ => .cyclicCall
  | tooManySteps _ => .limit
  | tooDeep _ => .limit
  | _ => .form

/-- Whether a fault arises only when a statement is executed. -/
def isRuntime : Fault → Bool
  | unknownVariable _ _ | negativeCount _ | negativeMeasure _ _ _ | noRealHeight _ _
  | alreadyDefined _ | unknownMethod _ | cyclicCall _ _ | tooManySteps _
  | tooDeep _ => true
  | _ => false

/-- The ending of a noun that there are `count` of. -/
def plural (count : Nat) : String := if count = 1 then "" else "s"

/-- The explanation of a fault. -/
def message : Fault → String
  | assignmentLength => s!"assignment takes exactly one value; {Form.assignment.usage}"
  | badTarget word => s!"`{word}` is not a valid variable name; {Form.assignment.usage}"
  | reservedTarget word => s!"`{word}` is a command and cannot be used as a variable"
  | badValue word form => s!"`{word}` is not a number or variable name; {form.usage}"
  | outOfRange word form => s!"`{word}` is out of range; {form.usage}"
  | wrongCount keyword expected got =>
      let arguments := s!"{expected} argument{plural expected}"
      s!"`{keyword.text}` expects {arguments}, got {got}; {keyword.usage}"
  | badName word keyword => s!"`{word}` is not a valid name; {keyword.usage}"
  | badComparison word =>
      let usage := (Keyword.opens .conditional).usage
      s!"`{word}` is not a comparison operator; {usage}"
  | negativeCountWritten count =>
      let usage := (Keyword.opens .loop).usage
      s!"loop count must not be negative, got {Text.decimal count}; {usage}"
  | badColor word => s!"unknown pen color `{word}`; {Verb.pen.usage}"
  | badFillMode word => s!"unknown fill mode `{word}`; {Verb.fill.usage}"
  | emptyShape => s!"`drawshape` needs at least one value; {Verb.drawShape.usage}"
  | oddPolygon count =>
      s!"a polygon needs x/y pairs, got {count} values; {Verb.drawShape.usage}"
  | unknownCommand word =>
      s!"unknown command `{word}`; valid commands are: {Keyword.listing}"
  | strayCloser kind => s!"`{kind.closer}` without a matching `{kind.opener}`"
  | nestedLoop => "a loop cannot be nested inside another loop"
  | nestedMethod => "methods cannot be defined inside a loop or another method"
  | neverClosed kind => s!"`{kind.opener}` is never closed; expected `{kind.closer}`"
  | unknownVariable name none => s!"unknown variable `{name}`"
  | unknownVariable name (some verb) => s!"unknown variable `{name}`; {verb.usage}"
  | negativeCount count => s!"loop count must not be negative, got {Text.decimal count}"
  | negativeMeasure measure value verb =>
      s!"{measure.name} must not be negative, got {Text.decimal value}; {verb.usage}"
  | noRealHeight base hypotenuse =>
      let sides :=
        s!"{Text.decimal hypotenuse} is too short for a base of {Text.decimal base}"
      s!"a hypotenuse of {sides}; the triangle has no real height"
  | alreadyDefined name => s!"method `{name}` is already defined"
  | unknownMethod name => s!"method `{name}` is not defined"
  | cyclicCall name chain =>
      let way := String.intercalate " -> " chain
      s!"method `{name}` calls itself: {way}"
  | tooManySteps budget => s!"stopped after {budget} steps"
  | tooDeep limit => s!"call depth limit of {limit} reached"

end Fault

/-- A fault and where it was found. -/
structure Diagnostic where
  fault : Fault
  site : Site
deriving DecidableEq, Repr

namespace Diagnostic

/-- The kind of the fault. -/
def kind (diagnostic : Diagnostic) : FaultKind := diagnostic.fault.kind

/-- A diagnostic as users see it. -/
def text (diagnostic : Diagnostic) : String :=
  diagnostic.kind.report diagnostic.site diagnostic.fault.message

end Diagnostic

end PenScript
