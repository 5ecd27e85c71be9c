import PenScript.Assembly

/-!
# Reading a script

Reading takes a script apart into lines, nests them and ends with the items at
top level. It never stops at a fault: whatever can be read is read, and a script
with faults still has items, which may be executed up to the first of them.

Checking reports every fault of a script at once, in the order of the lines:
those of the items, and those inside blocks that failed as a whole.

## Main results

* `read_nil`: a script without lines has no items and no faults;
* `mem_diagnostics`: checking reports exactly the diagnostics of the items
  and the lost ones;
* `check_eq_ok_iff`: a script passes if and only if there is nothing to report.
-/

namespace PenScript

/-- What reading finds. -/
structure Reading where
  /-- The items at top level, in order. -/
  items : List Item
  /-- The diagnostics inside blocks that failed, which no item mentions. -/
  dropped : List Diagnostic

namespace Reading

/-- The statements among the items. -/
def stmts (reading : Reading) : List Stmt := reading.items.filterMap Except.toOption

/-- Every diagnostic, in the order of the lines. -/
def diagnostics (reading : Reading) : List Diagnostic :=
  (reading.items.flatMap Item.faults ++ reading.dropped).mergeSort fun a b =>
    decide (a.site.number ≤ b.site.number)

/-- Whether some block is never closed. -/
def isOpen (reading : Reading) : Bool :=
  reading.items.any fun item =>
    match item with
    | .error problem => problem.kind == .unterminatedBlock
    | .ok _ => false

end Reading

/-- The assembly of a list of lines. -/
def Assembly.ofLines (lines : List Line) : Assembly := lines.foldl Assembly.feed {}

/-- What an assembly amounts to where the lines end. -/
def Assembly.finish (ending : Ending) (assembly : Assembly) : Reading :=
  let done := assembly.finishFrames ending
  { items := done.items.toList, dropped := done.dropped.toList }

/-- Reads a list of lines. -/
def read (ending : Ending) (lines : List Line) : Reading :=
  (Assembly.ofLines lines).finish ending

/-- Reads a complete script. -/
def readSource (source : String) : Reading := read .complete (Line.ofSource source)

/-- The statements of a script without faults, or else all its faults in the
order of the lines. -/
def check (source : String) : Except (List Diagnostic) (List Stmt) :=
  let reading := readSource source
  match reading.diagnostics with
  | [] => .ok reading.stmts
  | problems => .error problems

/-! ## Small laws -/

theorem read_nil (ending : Ending) : read ending [] = ⟨[], []⟩ := rfl

theorem mem_diagnostics {reading : Reading} {problem : Diagnostic} :
    problem ∈ reading.diagnostics ↔
      (∃ item ∈ reading.items, problem ∈ item.faults) ∨ problem ∈ reading.dropped := by
  simp [Reading.diagnostics, List.mem_mergeSort]

theorem check_eq_ok_iff {source : String} :
    (∃ stmts, check source = .ok stmts) ↔ (readSource source).diagnostics = [] := by
  cases hFound : (readSource source).diagnostics with
  | nil =>
      exact ⟨fun _ => rfl, fun _ =>
        ⟨(readSource source).stmts, by simp only [check, hFound]⟩⟩
  | cons problem rest => simp [check, hFound]

end PenScript
