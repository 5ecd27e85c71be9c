import PenScript.Gesture
import PenScript.Limits

/-!
# The machine

The state in which statements are executed: what the session knows, whether
drawing is on, which methods are being executed, how many statements have been
counted, and the gestures made so far. The gestures are only ever added to, and
nothing a statement does depends on them; a canvas follows them afterwards and
ends up where it would have been by following each at once.

Execution either succeeds or stops with a diagnostic, and the state survives
both ways: what was done before a fault stays done.

Two changes of the state are temporary by nature, closing the gate for the body
of a condition and entering a method. On both ways out `withGate` sets the gate
to what it was. `calling` only takes one name off the call stack, so that the
stack is as it was if the body of the method leaves it as it finds it.

A drawing command makes its gestures one by one, wherever its values have been
looked up and checked. That a command which fails has made none is no matter of
types here.

## Main results

* `finalState_andFinally`, `outcome_andFinally`: what is done in the end changes
  the machine and not how an action ended.
-/

namespace PenScript

/-- The state in which statements are executed. -/
structure Machine where
  store : Store := {}
  /-- Whether drawing is on. It is off in the body of a condition that does not hold. -/
  gate : Bool := true
  /-- The names of the methods being executed, in lower case, innermost first. -/
  stack : List String := []
  /-- Statements counted so far. -/
  steps : Nat := 0
  /-- The gestures made so far, in order. -/
  trace : Array Gesture := #[]

/-- An action on the machine, which may stop with a diagnostic. -/
abbrev Exec := EStateM Diagnostic Machine

/-- The machine after an action, however it ended. -/
def finalState {α : Type} : EStateM.Result Diagnostic Machine α → Machine
  | .ok _ machine => machine
  | .error _ machine => machine

/-- How an action ended. -/
def outcome {α : Type} : EStateM.Result Diagnostic Machine α → Except Diagnostic α
  | .ok value _ => .ok value
  | .error problem _ => .error problem

namespace Exec

/-- Stops with a fault. -/
def fail {α : Type} (fault : Fault) (site : Site) : Exec α := throw ⟨fault, site⟩

/-- Goes on with a value, or stops with the fault found instead. -/
def demand {α : Type} (site : Site) : Except Fault α → Exec α
  | .ok value => pure value
  | .error fault => fail fault site

/-- Changes the machine after an action, however the action ends. -/
def andFinally (restore : Machine → Machine) (action : Exec Unit) :
    Exec Unit := fun machine =>
  match action machine with
  | .ok value final => .ok value (restore final)
  | .error problem final => .error problem (restore final)

/-- Counts a statement. The statement that exceeds the budget is counted too. -/
def tick (limits : Limits) (site : Site) : Exec Unit := do
  modify fun machine => { machine with steps := machine.steps + 1 }
  if limits.maxSteps < (← get).steps then fail (.tooManySteps limits.maxSteps) site

/-- The value of a term in a control line. -/
def valueOf (term : Term) (site : Site) : Exec Int32 := do
  demand site (term.valueIn (← get).store.vars none)

/-- Gives a variable a value. -/
def assign (name : String) (value : Int32) : Exec Unit :=
  modify fun machine =>
    { machine with store.vars := machine.store.vars.insert name value }

/-- Makes a gesture. -/
def make (gesture : Gesture) : Exec Unit :=
  modify fun machine => { machine with trace := machine.trace.push gesture }

/-- Draws a circle, unless its radius is negative. -/
def drawCircle (verb : Verb) (site : Site) (radius : Int32) : Exec Unit := do
  demand site (Measure.radius.check verb radius)
  make (.circle radius)

/-- Draws a rectangle, unless one of its sides is negative. -/
def drawRectangle (verb : Verb) (site : Site) (width height : Int32) :
    Exec Unit := do
  demand site (Measure.width.check verb width)
  demand site (Measure.height.check verb height)
  make (.rectangle width height)

/-- Draws a triangle, unless a side is negative or the sides do not meet. -/
def drawTriangle (verb : Verb) (site : Site)
    (adjacent base hypotenuse : Int32) : Exec Unit := do
  demand site (Measure.base.check verb base)
  demand site (Measure.hypotenuse.check verb hypotenuse)
  match Plane.Triangle.ofSides? adjacent base hypotenuse with
  | some found => make (.triangle found)
  | none => fail (.noRealHeight base hypotenuse) site

/-- Draws the shape that fits the number of values. -/
def drawShape (verb : Verb) (site : Site) : List Int32 → Exec Unit
  | [radius] => drawCircle verb site radius
  | [width, height] => drawRectangle verb site width height
  | [adjacent, base, hypotenuse] =>
      drawTriangle verb site adjacent base hypotenuse
  | values => make (.polygon (Gesture.pairUp values))

/-- Carries out a drawing command, gesture by gesture. -/
def dispatch (command : Command) (site : Site) : Exec Unit := do
  let vars := (← get).store.vars
  let verb := command.verb
  let value (term : Term) : Exec Int32 :=
    demand site (term.valueIn vars (some verb))
  match command with
  | .moveTo x y => make (.moveTo (← value x) (← value y))
  | .drawTo x y => make (.lineTo (← value x) (← value y))
  | .pen color => make (.setColor color)
  | .fill on => make (.setFill on)
  | .clear => do
      make .erase
      make .resetPen
  | .reset => make .resetPen
  | .circle radius => drawCircle verb site (← value radius)
  | .rectangle width height =>
      drawRectangle verb site (← value width) (← value height)
  | .triangle adjacent base hypotenuse =>
      drawTriangle verb site (← value adjacent) (← value base) (← value hypotenuse)
  | .drawShape values => drawShape verb site (← values.mapM value)

/-- Whether drawing is on. -/
def isDrawing : Exec Bool := return (← get).gate

/-- Executes a drawing command, if drawing is on. -/
def draw (command : Command) (site : Site) : Exec Unit := do
  if ← isDrawing then dispatch command site

/-- Whether a condition holds. Its left value is looked up first. -/
def test (condition : Condition) (site : Site) : Exec Bool := do
  let left ← valueOf condition.left site
  let right ← valueOf condition.right site
  return condition.comparison.holds left right

/-- Defines a method, unless its name is taken. -/
def define (name : String) (body : List Stmt) (site : Site) : Exec Unit := do
  match (← get).store.methods.define name body with
  | some methods => modify fun machine => { machine with store.methods := methods }
  | none => fail (.alreadyDefined name) site

/-- Acts with drawing on only if it already is and the condition holds. -/
def withGate (holds : Bool) (action : Exec Unit) : Exec Unit := do
  let outer ← isDrawing
  modify fun machine => { machine with gate := outer && holds }
  andFinally (fun machine => { machine with gate := outer }) action

/-- Acts within a method, whose name is on the call stack meanwhile. Afterwards
one name is taken off, whichever it is. -/
def calling (key : String) (action : Exec Unit) : Exec Unit := do
  modify fun machine => { machine with stack := key :: machine.stack }
  andFinally (fun machine => { machine with stack := machine.stack.tail }) action

/-- Repeats an action. -/
def times : Nat → Exec Unit → Exec Unit
  | 0, _ => pure ()
  | n + 1, action => do
      action
      times n action

/-! ## Small laws -/

theorem finalState_andFinally (restore : Machine → Machine) (action : Exec Unit)
    (machine : Machine) :
    finalState (andFinally restore action machine) =
      restore (finalState (action machine)) := by
  unfold andFinally
  cases action machine <;> rfl

theorem outcome_andFinally (restore : Machine → Machine) (action : Exec Unit)
    (machine : Machine) :
    outcome (andFinally restore action machine) = outcome (action machine) := by
  unfold andFinally
  cases action machine <;> rfl

theorem withGate_apply (holds : Bool) (action : Exec Unit) (machine : Machine) :
    withGate holds action machine =
      andFinally (fun final => { final with gate := machine.gate }) action
        { machine with gate := machine.gate && holds } := rfl

theorem calling_apply (key : String) (action : Exec Unit) (machine : Machine) :
    calling key action machine =
      andFinally (fun final => { final with stack := final.stack.tail }) action
        { machine with stack := key :: machine.stack } := rfl

end Exec

end PenScript
