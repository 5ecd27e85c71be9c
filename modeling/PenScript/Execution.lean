import PenScript.Assembly
import PenScript.Machine

/-!
# Executing statements

Every statement is counted before anything else, whether or not it has an
effect. A condition that does not hold switches drawing off for its body; the
rest of the body is executed all the same. A loop takes its count once, at its
start.

Execution always ends, and the definitions show why. Within a list of
statements, recursion is on the statements. A call leaves that list for the body
of a method, but the number of calls that may still be entered goes down; it is
`callAt` that recurses on this number, and statements are executed relative to
whatever a call means to them. Loops are finite by themselves. So no step budget
is needed for termination, and the budget is only a limit.

## Main results

* `execAll_append`: a list of statements is executed part by part;
* `runItems_append`: so is a list of items.
-/

namespace PenScript

open Exec

/-- What a call of a method at a site does. -/
abbrev Caller := String → Site → Exec Unit

namespace Stmt

mutual

/-- Executes a statement, given what calls do. -/
def exec (limits : Limits) (call : Caller) : Stmt → Exec Unit
  | .assign name value site => do
      tick limits site
      Exec.assign name (← valueOf value site)
  | .draw command site => do
      tick limits site
      Exec.draw command site
  | .branch condition body site => do
      tick limits site
      let holds ← test condition site
      withGate holds (execAll limits call body)
  | .loop count body site => do
      tick limits site
      let turns ← valueOf count site
      if turns < 0 then fail (.negativeCount turns) site
      else if body.isEmpty then pure ()
      else times turns.toInt.toNat (execAll limits call body)
  | .method name body site => do
      tick limits site
      define name body site
  | .call name site => do
      tick limits site
      call name site
  | .invalid problem gated => do
      tick limits problem.site
      if (← isDrawing) || !gated then throw problem

/-- Executes statements in order, up to the first fault. -/
def execAll (limits : Limits) (call : Caller) : List Stmt → Exec Unit
  | [] => pure ()
  | stmt :: rest => do
      exec limits call stmt
      execAll limits call rest

end

end Stmt

/-- Calls a method while that many more calls may be entered. It has to be defined, must
not be among those being executed, and only then has to be within the limit. -/
def callAt (limits : Limits) : Nat → Caller
  | depth, name, site => do
      match (← get).store.methods.get? name with
      | none => fail (.unknownMethod name) site
      | some body =>
          let key := Text.lowercase name
          let stack := (← get).stack
          if key ∈ stack then fail (.cyclicCall name (stack.reverse ++ [key])) site
          else match depth with
            | 0 => fail (.tooDeep limits.maxCallDepth) site
            | depth + 1 => calling key (Stmt.execAll limits (callAt limits depth) body)

/-- The number of calls that may still be entered. -/
def Machine.callsLeft (limits : Limits) (machine : Machine) : Nat :=
  limits.maxCallDepth - machine.stack.length

/-- Executes statements in order, up to the first fault. -/
def runAll (limits : Limits) (stmts : List Stmt) : Exec Unit := fun machine =>
  Stmt.execAll limits (callAt limits (machine.callsLeft limits)) stmts machine

/-- Executes a statement. -/
def Stmt.run (limits : Limits) (stmt : Stmt) : Exec Unit := fun machine =>
  stmt.exec limits (callAt limits (machine.callsLeft limits)) machine

/-- Executes an item: a statement, or the failure it stands for. A failure
is not counted. -/
def Item.run (limits : Limits) : Item → Exec Unit
  | .ok stmt => stmt.run limits
  | .error problem => throw problem

/-- Executes items in order, up to the first fault. -/
def runItems (limits : Limits) : List Item → Exec Unit
  | [] => pure ()
  | item :: rest => do
      item.run limits
      runItems limits rest

/-- Executes all items, going on after faults: how each ended with the count of
statements by then, and the machine in the end. -/
def runEach (limits : Limits) :
    List Item → Machine → List (Except Diagnostic Unit × Nat) × Machine
  | [], machine => ([], machine)
  | item :: rest, machine =>
      let result := item.run limits machine
      let after := finalState result
      let (others, last) := runEach limits rest after
      ((outcome result, after.steps) :: others, last)

/-! ## Small laws -/

theorem Stmt.execAll_append (limits : Limits) (call : Caller) (front back : List Stmt) :
    execAll limits call (front ++ back) = (do
      execAll limits call front
      execAll limits call back) := by
  induction front with
  | nil => rfl
  | cons stmt rest ih =>
      funext machine
      simp only [List.cons_append, execAll, ih]
      simp only [bind, EStateM.bind]
      cases exec limits call stmt machine <;> rfl

theorem runItems_append (limits : Limits) (front back : List Item) :
    runItems limits (front ++ back) = (do
      runItems limits front
      runItems limits back) := by
  induction front with
  | nil => rfl
  | cons item rest ih =>
      funext machine
      simp only [List.cons_append, runItems, ih]
      simp only [bind, EStateM.bind]
      cases item.run limits machine <;> rfl

end PenScript
