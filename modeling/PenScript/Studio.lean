import PenScript.Drawing
import PenScript.Session

/-!
# The studio

The studio is the window around a session: the text of a script, a command line,
a path, a canvas, a list of errors, a status and four tabs to look at. Its state
changes by actions, and an action that asks the file system for something
carries the answer, so that a history of actions determines the state.

Running, checking, entering a command and resetting each start with a clean list
of errors. Loading and saving add to it. An action that fails brings the errors
to the front and leaves the status as it was. What actions write to a log is left
out, since nothing reads it back.
-/

namespace PenScript

/-- What can be looked at. -/
inductive Tab where
  | errors | vars | output | canvas
deriving DecidableEq, Repr

/-- The state of the window. -/
structure Studio where
  source : String := "moveto 100,100\npen red\nfill on\ncircle 40\n"
  command : String := ""
  path : String := "script.txt"
  tab : Tab := .canvas
  session : Session := {}
  drawing : Drawing := {}
  /-- The errors to be shown, oldest first. -/
  errors : Array String := #[]
  status : String := ""

/-- What can be done. -/
inductive Action where
  | editSource (text : String)
  | editCommand (text : String)
  | editPath (text : String)
  | select (tab : Tab)
  | run
  | check
  | enter
  | reset
  /-- Reads the file at the path; the answer is its text or what went wrong. -/
  | load (answer : Except String String)
  /-- Writes the script to the path; the answer is what went wrong, if anything did. -/
  | save (answer : Except String Unit)

/-- A diagnostic in the list of errors. -/
def Diagnostic.entry (problem : Diagnostic) : String :=
  s!"[{problem.kind.name}] {problem.text}"

namespace Studio

/-- The studio as it opens. -/
def opened (limits : Limits) : Studio := { session := { limits } }

/-- Adds to the errors and shows them. -/
def report (studio : Studio) (entries : List String) : Studio :=
  { studio with errors := studio.errors.appendList entries, tab := .errors }

/-- Runs the script. -/
def runScript (studio : Studio) : Studio :=
  let submission := studio.session.runSource studio.source
  let after : Studio :=
    { studio with
      session := submission.session
      drawing := studio.drawing.play submission.gestures
      errors := #[] }
  match submission.result with
  | .ok () => { after with status := "ran script" }
  | .error problem => after.report [problem.entry]

/-- Checks the script. -/
def checkScript (studio : Studio) : Studio :=
  let after : Studio := { studio with errors := #[] }
  match PenScript.check studio.source with
  | .ok _ => { after with status := "syntax ok" }
  | .error problems => after.report (problems.map Diagnostic.entry)

/-- Takes the command line and enters it. -/
def enterCommand (studio : Studio) : Studio :=
  let line := studio.command
  let submission := studio.session.enter line
  let after : Studio :=
    { studio with
      command := ""
      session := submission.session
      drawing := studio.drawing.play submission.gestures
      errors := #[] }
  match submission.result with
  | .ok .executed => { after with status := s!"ran `{Text.trimmed line}`" }
  | .ok .held => { after with status := "block open, waiting for its closing line" }
  | .error problem => after.report [problem.entry]

/-- Starts afresh, with the texts as they are. -/
def resetSession (studio : Studio) : Studio :=
  { studio with
    session := studio.session.reset, drawing := {}, errors := #[], status :=
      "session reset" }

/-- Puts the text of a file in the place of the script. -/
def finishLoad (studio : Studio) : Except String String → Studio
  | .ok text => { studio with source := text, status := s!"loaded {studio.path}" }
  | .error reason => studio.report [s!"[io] cannot read {studio.path}: {reason}"]

/-- Takes note of how saving went. -/
def finishSave (studio : Studio) : Except String Unit → Studio
  | .ok () => { studio with status := s!"saved {studio.path}" }
  | .error reason => studio.report [s!"[io] cannot write {studio.path}: {reason}"]

/-- Does an action. -/
def act (studio : Studio) : Action → Studio
  | .editSource text => { studio with source := text }
  | .editCommand text => { studio with command := text }
  | .editPath text => { studio with path := text }
  | .select tab => { studio with tab }
  | .run => studio.runScript
  | .check => studio.checkScript
  | .enter => studio.enterCommand
  | .reset => studio.resetSession
  | .load answer => studio.finishLoad answer
  | .save answer => studio.finishSave answer

end Studio

end PenScript
