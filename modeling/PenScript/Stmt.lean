import PenScript.Fault
import PenScript.Pen
import PenScript.Term

/-!
# Statements

What a script says, as a tree. Drawing commands keep their values as written;
they are looked up when the command is executed. Blocks hold a list of
statements, and every statement knows the line it comes from.

A line inside a block that cannot be read does not spoil the block: it becomes
a statement of its own, which fails when execution reaches it. Such a statement
is *gated* if the line would have drawn something or is of unknown purpose; it
is then skipped wherever drawing would be.

## Main results

* `faults_invalid`, `faults_of_body`: the diagnostics in a tree are those of its
  unreadable lines, in the order of the lines.
-/

namespace PenScript

/-- A drawing command with its values as written. -/
inductive Command where
  | moveTo (x y : Term)
  | drawTo (x y : Term)
  | pen (color : Color)
  | fill (on : Bool)
  | clear
  | reset
  | circle (radius : Term)
  | rectangle (width height : Term)
  | triangle (adjacent base hypotenuse : Term)
  | drawShape (values : List Term)
deriving DecidableEq, Repr

/-- The verb a command was written with. -/
def Command.verb : Command → Verb
  | .moveTo _ _ => .moveTo
  | .drawTo _ _ => .drawTo
  | .pen _ => .pen
  | .fill _ => .fill
  | .clear => .clear
  | .reset => .reset
  | .circle _ => .circle
  | .rectangle _ _ => .rectangle
  | .triangle _ _ _ => .triangle
  | .drawShape _ => .drawShape

/-- A statement. -/
inductive Stmt where
  /-- Gives a variable a value. -/
  | assign (name : String) (value : Term) (site : Site)
  /-- Draws. -/
  | draw (command : Command) (site : Site)
  /-- Draws in its body only if a condition holds. -/
  | branch (condition : Condition) (body : List Stmt) (site : Site)
  /-- Executes its body a number of times. -/
  | loop (count : Term) (body : List Stmt) (site : Site)
  /-- Defines a method. -/
  | method (name : String) (body : List Stmt) (site : Site)
  /-- Executes the body of a method. -/
  | call (name : String) (site : Site)
  /-- Stands for a line that cannot be read. -/
  | invalid (problem : Diagnostic) (gated : Bool)
deriving Repr

namespace Stmt

/-- The line a statement comes from. -/
def site : Stmt → Site
  | assign _ _ site | draw _ site | branch _ _ site | loop _ _ site | method _ _ site
  | call _ site => site
  | invalid problem _ => problem.site

/-- The statements directly inside a statement. -/
def body : Stmt → List Stmt
  | branch _ body _ | loop _ body _ | method _ body _ => body
  | _ => []

mutual

/-- The diagnostics of all unreadable lines in a statement, from first to last. -/
def faults : Stmt → List Diagnostic
  | invalid problem _ => [problem]
  | branch _ body _ | loop _ body _ | method _ body _ => faultsIn body
  | assign _ _ _ | draw _ _ | call _ _ => []

/-- The diagnostics of all unreadable lines in a list of statements,
from first to last. -/
def faultsIn : List Stmt → List Diagnostic
  | [] => []
  | stmt :: rest => faults stmt ++ faultsIn rest

end

/-! ## Small laws -/

theorem faultsIn_eq_flatMap (stmts : List Stmt) :
    faultsIn stmts = stmts.flatMap faults := by
  induction stmts with
  | nil => rfl
  | cons stmt rest ih => rw [faultsIn, ih, List.flatMap_cons]

theorem faultsIn_append (front back : List Stmt) :
    faultsIn (front ++ back) = faultsIn front ++ faultsIn back := by
  simp only [faultsIn_eq_flatMap, List.flatMap_append]

theorem faults_invalid (problem : Diagnostic) (gated : Bool) :
    faults (invalid problem gated) = [problem] := rfl

/-- A statement that is readable itself has the diagnostics of its body. -/
theorem faults_of_body (stmt : Stmt)
    (hReadable : ∀ problem gated, stmt ≠ invalid problem gated) :
    faults stmt = faultsIn stmt.body := by
  cases stmt with
  | invalid problem gated => exact absurd rfl (hReadable problem gated)
  | _ => simp [faults, body, faultsIn]

end Stmt

end PenScript
