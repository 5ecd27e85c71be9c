import PenScript.Execution
import PenScript.Script

/-!
# Sessions

A session takes submissions and remembers variables and methods from one to the
next. A submission is a whole script, or a line entered by hand. A line that
leaves a block open is held back together with the lines before it, until the
block is closed; then all of them are executed as one script.

Held lines are read anew with each further line, with their end taken as
provisional. A fault in them other than an open block gives the held lines up
and is reported without executing anything.

A submission answers with the gestures it made and leaves it to the caller which
canvas is to follow them.

## Main results

* `held_runSource`: running a script does not touch the held lines;
* `enter_blank`: a line without words changes nothing.
-/

namespace PenScript

/-- What a session remembers. -/
structure Session where
  store : Store := {}
  limits : Limits := {}
  /-- The lines of a block that is not closed yet, without the blanks around them. -/
  held : List String := []

instance : Inhabited Session := ⟨{}⟩

/-- What became of a submission. -/
structure Submission (α : Type) where
  result : Except Diagnostic α
  session : Session
  /-- The gestures made, in order. -/
  gestures : List Gesture := []
  /-- The statements counted. -/
  steps : Nat := 0

/-- What became of a line that was entered without a fault. -/
inductive Progress where
  /-- It was executed, with the lines held before it. -/
  | executed
  /-- It is held back until a block is closed. -/
  | held
deriving DecidableEq, Repr

/-- The submission with another value for success. -/
def Submission.withValue {α β : Type} (submission : Submission α) (value : β) :
    Submission β :=
  { result := submission.result.map fun _ => value
    session := submission.session
    gestures := submission.gestures
    steps := submission.steps }

/-- The first diagnostic among the items that more lines could not remove. -/
def Reading.firstFault? (reading : Reading) : Option Diagnostic :=
  reading.items.findSome? fun item =>
    match item with
    | .error problem => if problem.kind = .unterminatedBlock then none else some problem
    | .ok _ => none

namespace Session

/-- Whether lines are held back. -/
def isPending (session : Session) : Bool := !session.held.isEmpty

/-- Forgets variables, methods and held lines. -/
def reset (session : Session) : Session := { limits := session.limits }

/-- Executes lines as a complete script, up to the first fault. -/
def runLines (session : Session) (lines : List Line) : Submission Unit :=
  let result :=
    runItems session.limits (read .complete lines).items { store := session.store }
  let final := finalState result
  { result := outcome result
    session := { session with store := final.store }
    gestures := final.trace.toList
    steps := final.steps }

/-- Executes a script, up to the first fault. -/
def runSource (session : Session) (source : String) : Submission Unit :=
  session.runLines (Line.ofSource source)

/-- Takes a line entered by hand. -/
def enter (session : Session) (line : String) : Submission Progress :=
  if (Line.words line.toList).isEmpty then
    { result := .ok (if session.isPending then .held else .executed), session }
  else
    let held := session.held ++ [Text.trimmed line]
    let lines := Line.ofSource (String.intercalate "\n" held)
    let reading := read .provisional lines
    let released : Session := { session with held := [] }
    match reading.firstFault? with
    | some problem => { result := .error problem, session := released }
    | none =>
        if reading.isOpen then { result := .ok .held, session := { session with held } }
        else (released.runLines lines).withValue .executed

/-! ## Small laws -/

theorem held_runSource (session : Session) (source : String) :
    (session.runSource source).session.held = session.held := rfl

theorem enter_blank (session : Session) {line : String}
    (hBlank : (Line.words line.toList).isEmpty = true) :
    (session.enter line).session = session := by
  rw [enter, if_pos hBlank]

end Session

end PenScript
