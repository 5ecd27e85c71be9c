import PenScript.Execution
import PenScript.Proofs.Phrases

/-!
# Where faults come from

A fault is found either by reading a line or by executing a statement, and its
cause tells which. That the two do not mix is what lets a check of a script say
something about executing it: a fault found by reading is in the script, and one
that arises in executing is not.

Only one fault found by reading is not told by a single line: a block that is never
closed. Among the faults that arise in executing, those of the two limits stand apart:
whether a statement meets one depends on what was executed before it, and not
only on the statement and the values of variables.

## Main results

* `Command.failsWith_gestures`: what can be wrong with a drawing command whose
  line was readable;
* `Phrase.isRead_ofLine`: what can be wrong with a line.
-/

namespace PenScript

namespace Fault

/-- Whether a fault is found by reading. -/
def IsRead (fault : Fault) : Prop := fault.isRuntime = false

/-- Whether a fault is found by reading a single line. The only other fault found by
reading is a block that is never closed. -/
def IsOfLine : Fault → Prop
  | neverClosed _ => False
  | fault => fault.IsRead

/-- Whether a fault is found by executing, and no limit has a part in it. What it
calls negative is negative. -/
def Arises : Fault → Prop
  | tooManySteps _ | tooDeep _ => False
  | negativeCount count => count < 0
  | negativeMeasure _ value _ => value < 0
  | fault => fault.isRuntime = true

theorem IsOfLine.isRead {fault : Fault} (hFault : fault.IsOfLine) : fault.IsRead := by
  cases fault with
  | neverClosed kind => cases hFault
  | _ => exact hFault

theorem IsOfLine.kind_ne {fault : Fault} (hFault : fault.IsOfLine) :
    fault.kind ≠ .unterminatedBlock := by
  cases fault with
  | neverClosed kind => cases hFault
  | _ => simp [kind]

end Fault

open Fault

/-! ## Computations that fail in certain ways only -/

/-- The fault a computation fails with. -/
def fault? {α : Type} : Except Fault α → Option Fault
  | .ok _ => none
  | .error fault => some fault

/-- Whether a computation fails only with faults of some sort. -/
def FailsWith {α : Type} (sort : Fault → Prop) (found : Except Fault α) : Prop :=
  ∀ fault, found = .error fault → sort fault

namespace FailsWith

variable {α β : Type} {sort : Fault → Prop}

theorem of_fault? {found : Except Fault α} (hFound : FailsWith sort found)
    {fault : Fault} (hFault : fault? found = some fault) : sort fault := by
  cases found with
  | ok value => cases hFault
  | error other =>
      cases hFault
      exact hFound fault rfl

theorem ok (value : α) : FailsWith sort (.ok value : Except Fault α) := by
  intro fault hFault
  cases hFault

theorem error {fault : Fault} (hSort : sort fault) :
    FailsWith sort (.error fault : Except Fault α) := by
  intro other hOther
  cases hOther
  exact hSort

theorem bind {found : Except Fault α} {next : α → Except Fault β}
    (hFound : FailsWith sort found)
    (hNext : ∀ value, FailsWith sort (next value)) :
    FailsWith sort (found >>= next) := by
  intro fault hFault
  cases found with
  | error _ =>
      cases hFault
      exact hFound fault rfl
  | ok value => exact hNext value fault hFault

theorem map {found : Except Fault α} (hFound : FailsWith sort found) (next : α → β) :
    FailsWith sort (found.map next) := by
  intro fault hFault
  cases found with
  | error _ =>
      cases hFault
      exact hFound fault rfl
  | ok value => cases hFault

theorem mapM {next : α → Except Fault β} (hNext : ∀ value, FailsWith sort (next value))
    (values : List α) : FailsWith sort (values.mapM next) := by
  induction values with
  | nil => exact ok []
  | cons value rest ih =>
      rw [List.mapM_cons]
      exact (hNext value).bind fun _ => ih.bind fun _ => ok _

end FailsWith

theorem fault?_map {α β : Type} (found : Except Fault α) (build : α → β) :
    fault? (found.map build) = fault? found := by
  cases found <;> rfl

/-! ## Executing -/

theorem Term.failsWith_valueIn (vars : Variables) (verb : Option Verb) (term : Term) :
    FailsWith Arises (term.valueIn vars verb) := by
  cases term with
  | number value => exact .ok value
  | var name =>
      rw [valueIn]
      split
      · exact .ok _
      · exact .error rfl

theorem Measure.failsWith_check (measure : Measure) (verb : Verb) (value : Int32) :
    FailsWith Arises (measure.check verb value) := by
  rw [check]
  split
  · rename_i hNegative
    exact .error hNegative
  · exact .ok ()

theorem Gesture.failsWith_circles (verb : Verb) (radius : Int32) :
    FailsWith Arises (circles verb radius) :=
  (Measure.failsWith_check _ _ _).bind fun _ => .ok _

theorem Gesture.failsWith_rectangles (verb : Verb) (width height : Int32) :
    FailsWith Arises (rectangles verb width height) :=
  (Measure.failsWith_check _ _ _).bind fun _ =>
    (Measure.failsWith_check _ _ _).bind fun _ => .ok _

theorem Gesture.failsWith_triangles (verb : Verb) (adjacent base hypotenuse : Int32) :
    FailsWith Arises (triangles verb adjacent base hypotenuse) := by
  refine (Measure.failsWith_check _ _ _).bind fun _ =>
    (Measure.failsWith_check _ _ _).bind fun _ => ?_
  split
  · exact .ok _
  · exact .error rfl

theorem Gesture.failsWith_shapes (verb : Verb) (values : List Int32) :
    FailsWith Arises (shapes verb values) := by
  unfold shapes
  split
  · exact failsWith_circles _ _
  · exact failsWith_rectangles _ _ _
  · exact failsWith_triangles _ _ _ _
  · exact .ok _

/-- A command that cannot be drawn has a fault of its own to show for it. -/
theorem Command.failsWith_gestures (vars : Variables) (command : Command) :
    FailsWith Arises (command.gestures vars) := by
  have hValue (term : Term) := Term.failsWith_valueIn vars (some command.verb) term
  cases command with
  | moveTo x y => exact (hValue x).bind fun _ => (hValue y).bind fun _ => .ok _
  | drawTo x y => exact (hValue x).bind fun _ => (hValue y).bind fun _ => .ok _
  | pen color => exact .ok _
  | fill on => exact .ok _
  | clear => exact .ok _
  | reset => exact .ok _
  | circle radius => exact (hValue radius).bind fun _ => Gesture.failsWith_circles _ _
  | rectangle width height =>
      exact (hValue width).bind fun _ => (hValue height).bind fun _ =>
        Gesture.failsWith_rectangles _ _ _
  | triangle adjacent base hypotenuse =>
      exact (hValue adjacent).bind fun _ => (hValue base).bind fun _ =>
        (hValue hypotenuse).bind fun _ => Gesture.failsWith_triangles _ _ _ _
  | drawShape values =>
      exact (FailsWith.mapM hValue values).bind fun _ => Gesture.failsWith_shapes _ _

/-! ## Reading -/

theorem failsWith_readTerm (form : Form) (word : String) :
    FailsWith IsOfLine (readTerm form word) := by
  unfold readTerm
  split
  · exact .ok _
  · split
    · exact .ok _
    · split
      · exact .error rfl
      · exact .error rfl

theorem failsWith_readOnlyName (keyword : Keyword) (args : List String) :
    FailsWith IsOfLine (readOnlyName keyword args) := by
  unfold readOnlyName
  split
  · unfold readName
    split
    · exact .ok _
    · exact .error rfl
  · exact .error rfl

theorem failsWith_readCondition (args : List String) :
    FailsWith IsOfLine (readCondition args) := by
  unfold readCondition
  split
  · split
    · exact .error rfl
    · exact (failsWith_readTerm _ _).bind fun _ =>
        (failsWith_readTerm _ _).bind fun _ => .ok _
  · exact .error rfl

theorem failsWith_readCount (args : List String) :
    FailsWith IsOfLine (readCount args) := by
  unfold readCount
  split
  · refine (failsWith_readTerm _ _).bind fun count => ?_
    split
    · split
      · exact .error rfl
      · exact .ok _
    · exact .ok _
  · exact .error rfl

theorem failsWith_readAssignment (line : Line) :
    FailsWith IsOfLine (readAssignment line) := by
  unfold readAssignment
  split
  · split
    · exact .error rfl
    · split
      · exact .error rfl
      · exact (failsWith_readTerm _ _).bind fun _ => .ok _
  · exact .error rfl

theorem failsWith_readCommand (verb : Verb) (args : List String) :
    FailsWith IsOfLine (readCommand verb args) := by
  have hTerm := failsWith_readTerm (.command (.draw verb))
  cases verb with
  | moveTo | drawTo | rectangle =>
      simp only [readCommand]
      split
      · exact (hTerm _).bind fun _ => (hTerm _).bind fun _ => .ok _
      · exact .error rfl
  | pen =>
      simp only [readCommand]
      split
      · split
        · exact .ok _
        · exact .error rfl
      · exact .error rfl
  | fill =>
      simp only [readCommand]
      split
      · split
        · exact .ok _
        · exact .ok _
        · exact .error rfl
      · exact .error rfl
  | clear | reset =>
      simp only [readCommand]
      split
      · exact .ok _
      · exact .error rfl
  | circle =>
      simp only [readCommand]
      split
      · exact (hTerm _).bind fun _ => .ok _
      · exact .error rfl
  | triangle =>
      simp only [readCommand]
      split
      · exact (hTerm _).bind fun _ => (hTerm _).bind fun _ =>
          (hTerm _).bind fun _ => .ok _
      · exact .error rfl
  | drawShape =>
      simp only [readCommand]
      split
      · exact .error rfl
      · split
        · exact .error rfl
        · exact (FailsWith.mapM hTerm args).bind fun _ => .ok _

/-- What is wrong with a header, if something is. -/
def Header.fault? : Header → Option Fault
  | .conditional condition => PenScript.fault? condition
  | .loop count => PenScript.fault? count
  | .method name => PenScript.fault? name

theorem Header.isRead_read (kind : BlockKind) (args : List String) {fault : Fault}
    (hFault : (Header.read kind args).fault? = some fault) : fault.IsRead := by
  cases kind with
  | conditional => exact ((failsWith_readCondition args).of_fault? hFault).isRead
  | loop => exact ((failsWith_readCount args).of_fault? hFault).isRead
  | method => exact ((failsWith_readOnlyName _ args).of_fault? hFault).isRead

theorem Header.isRead_within (surroundings : List BlockKind) {header : Header}
    (hHeader : ∀ fault, header.fault? = some fault → fault.IsRead) {fault : Fault}
    (hFault : (header.within surroundings).fault? = some fault) : fault.IsRead := by
  cases header with
  | conditional condition => exact hHeader fault hFault
  | loop count =>
      simp only [Header.within, Header.fault?] at hFault
      split at hFault
      · cases hFault
        rfl
      · exact hHeader fault hFault
  | method name =>
      simp only [Header.within, Header.fault?] at hFault
      split at hFault
      · cases hFault
        rfl
      · exact hHeader fault hFault

/-- Everything that is wrong with what a line says. -/
def Phrase.faults : Phrase → List Fault
  | .simple stmt => stmt.faults.map Diagnostic.fault
  | .opening header => header.fault?.toList
  | .closing _ surplus => surplus.toList
  | .faulty fault _ => [fault]

theorem Phrase.isRead_ofStmt (gated : Bool) {found : Except Fault Stmt}
    (hFault : FailsWith IsOfLine found)
    (hPlain : ∀ stmt, found = .ok stmt → stmt.faults = []) :
    ∀ fault ∈ (Phrase.ofStmt gated found).faults, fault.IsRead := by
  cases found with
  | ok stmt => simp [ofStmt, faults, hPlain stmt rfl]
  | error fault => simpa [ofStmt, faults] using (hFault fault rfl).isRead

/-- Everything that is wrong with a line is found by reading it. -/
theorem Phrase.isRead_ofLine (line : Line) :
    ∀ fault ∈ (Phrase.ofLine line).faults, fault.IsRead := by
  unfold Phrase.ofLine
  split
  · refine isRead_ofStmt false (failsWith_readAssignment line) fun stmt hRead => ?_
    obtain ⟨value, rfl, -⟩ := exists_of_readAssignment hRead
    rfl
  · split
    · simp [faults, IsRead, Fault.isRuntime]
    · rename_i verb _
      exact isRead_ofStmt true ((failsWith_readCommand verb line.args).map _)
        (forall_of_map_ok fun _ _ => rfl)
    · intro fault hMem
      exact Header.isRead_read _ _ (Option.mem_toList.mp hMem)
    · intro fault hMem
      simp only [faults] at hMem
      split at hMem
      · cases hMem
      · simp only [Option.toList_some, List.mem_singleton] at hMem
        exact hMem ▸ rfl
    · exact isRead_ofStmt false ((failsWith_readOnlyName .call line.args).map _)
        (forall_of_map_ok fun _ _ => rfl)

end PenScript
