import PenScript.Phrase
import PenScript.Proofs.Actions

/-!
# Reading lines with checked access

A line is read elsewhere by the shape of its list of words, so that no word can be
missing. Here a line is a list of words and nothing else, and words are taken from it
by their position: the first is the keyword, the second may be an equals sign, and how
many there are is counted in one place and relied on in another. Likewise the values of
a command are collected in a list, and only a list of the right length is taken apart;
and a polygon takes its points from runs of two values.

Every access is checked, and what may go wrong with one is told apart from a fault of
the script. A *mishap* is a defect of the reading: an element is not there, a case that
was thought impossible is reached, or the steps that were granted do not suffice. For a
line that has a word there is no mishap, and what is found is what the line says; for a
command there is none whatever the values of the variables.

## Main results

* `Row.assignment_toRow`, `condition_toRow`, `loopCount_toRow`, `onlyName_toRow`,
  `command_toRow`: a line with a word is read without a mishap, as it is by its shape;
* `Gesture.checkedPoints_eq`: every run of a polygon has both of its values;
* `Exec.checkedDraw_eq`: in no state does drawing lead to a mishap.
-/

namespace PenScript

open Plane Text

/-- A defect of a reading, as opposed to a fault of what is read. -/
inductive Mishap where
  /-- An element was asked for at or behind the end of a list. -/
  | outOfRange (index length : Nat)
  /-- A case was reached that had been taken for impossible. -/
  | impossible
  /-- The steps that were granted did not suffice. -/
  | endless
deriving DecidableEq, Repr

/-- A value, unless there is a mishap. -/
abbrev Checked := Except Mishap

namespace Checked

variable {α : Type}

/-- The element at a position. -/
def nth (xs : List α) (index : Nat) : Checked α :=
  match xs[index]? with
  | some x => .ok x
  | none => .error (.outOfRange index xs.length)

/-- The elements from a position on, which may be the end. -/
def dropping (xs : List α) (start : Nat) : Checked (List α) :=
  if start ≤ xs.length then .ok (xs.drop start)
    else .error (.outOfRange start xs.length)

/-- The elements before a position, which may be the end. -/
def taking (xs : List α) (stop : Nat) : Checked (List α) :=
  if stop ≤ xs.length then .ok (xs.take stop) else .error (.outOfRange stop xs.length)

/-- The elements of a list whose length is known by now. -/
def exactly (n : Nat) (xs : List α) : Checked (Vector α n) :=
  if hLength : xs.length = n then .ok ⟨xs.toArray, hLength⟩ else .error .impossible

@[simp] theorem pure_eq (value : α) : (pure value : Checked α) = .ok value := rfl

@[simp] theorem ok_bind {β : Type} (value : α) (next : α → Checked β) :
    Except.ok value >>= next = next value := rfl

theorem nth_of_getElem? {xs : List α} {index : Nat} {x : α}
    (hFound : xs[index]? = some x) : nth xs index = .ok x := by
  rw [nth, hFound]

theorem dropping_of_le {xs : List α} {start : Nat} (hStart : start ≤ xs.length) :
    dropping xs start = .ok (xs.drop start) := if_pos hStart

theorem taking_of_le {xs : List α} {stop : Nat} (hStop : stop ≤ xs.length) :
    taking xs stop = .ok (xs.take stop) := if_pos hStop

end Checked

/-- The outcome of reading something: a value, a fault of what is read, or a mishap. -/
inductive Attempt (α : Type) where
  | done (value : α)
  | fault (fault : Fault)
  | mishap (mishap : Mishap)

namespace Attempt

variable {α β : Type}

/-- Goes on with the value, if there is one. -/
def andThen (first : Attempt α) (next : α → Attempt β) : Attempt β :=
  match first with
  | done value => next value
  | fault found => fault found
  | mishap found => mishap found

/-- A value or a fault that was found without any access. -/
def ofExcept : Except Fault α → Attempt α
  | .ok value => done value
  | .error found => fault found

/-- An access. -/
def ofChecked : Checked α → Attempt α
  | .ok value => done value
  | .error found => mishap found

instance : Monad Attempt where
  pure := done
  bind := andThen

instance : MonadLift (Except Fault) Attempt := ⟨ofExcept⟩

instance : MonadLift Checked Attempt := ⟨ofChecked⟩

/-- Whether there was a mishap, and if not, what was found. -/
def run : Attempt α → Checked (Except Fault α)
  | done value => .ok (.ok value)
  | fault found => .ok (.error found)
  | mishap found => .error found

@[simp] theorem pure_eq (value : α) : (pure value : Attempt α) = done value := rfl

@[simp] theorem done_bind (value : α) (next : α → Attempt β) :
    done value >>= next = next value :=
  rfl

@[simp] theorem fault_bind (found : Fault) (next : α → Attempt β) :
    fault found >>= next = fault found := rfl

@[simp] theorem lift_checked (value : α) :
    (liftM (Except.ok value : Checked α) : Attempt α) =
    done value := rfl

@[simp] theorem lift_except (found : Except Fault α) :
    (liftM found : Attempt α) = ofExcept found :=
  rfl

instance : LawfulMonad Attempt := LawfulMonad.mk' Attempt
  (fun first => by cases first <;> rfl)
  (fun _ _ => rfl)
  (fun first _ _ => by cases first <;> rfl)

@[simp] theorem ofExcept_ok (value : α) : ofExcept (.ok value) = done value := rfl

@[simp] theorem ofExcept_error (found : Fault) : (ofExcept (.error found) : Attempt α) =
    fault found := rfl

@[simp] theorem ofExcept_bind (first : Except Fault α) (next : α → Except Fault β) :
    ofExcept (first >>= next) = ofExcept first >>= fun value =>
      ofExcept (next value) := by
  cases first <;> rfl

@[simp] theorem ofExcept_map (first : Except Fault α) (next : α → β) :
    ofExcept (next <$> first) = ofExcept first >>= fun value => done (next value) := by
  cases first <;> rfl

@[simp] theorem run_ofExcept (found : Except Fault α) :
    (ofExcept found).run = .ok found := by
  cases found <;> rfl

end Attempt

/-! ## Lines as lists of words -/

/-- A line as a list of words. -/
structure Row extends Site where
  tokens : List String
deriving DecidableEq, Repr

/-- A line with its words in one list. -/
def Line.toRow (line : Line) : Row := { line.toSite with tokens := line.tokens }

namespace Row

/-- The first word in lower case. -/
def keyword (row : Row) : Checked String :=
  return lowercase (← Checked.nth row.tokens 0)

/-- The words after the first. -/
def args (row : Row) : Checked (List String) := Checked.dropping row.tokens 1

/-- Whether the second word, if there is one, is an equals sign. -/
def isAssignment (row : Row) : Bool := row.tokens[1]? == some "="

/-- Demands a number of words after the first. -/
def demand (row : Row) (keyword : Keyword) (expected : Nat) : Attempt Unit := do
  let args ← row.args
  unless args.length = expected do .fault (miscounted keyword expected args)

/-- Reads words as values. -/
def readTerms (keyword : Keyword) (words : List String) : Except Fault (List Term) :=
  words.mapM (readTerm (.command keyword))

/-- Reads the words after the first as that many values. -/
def terms (row : Row) (keyword : Keyword) (expected : Nat) : Attempt (List Term) := do
  row.demand keyword expected
  readTerms keyword (← row.args)

/-- Reads the one name after a keyword. -/
def onlyName (row : Row) (keyword : Keyword) : Attempt String := do
  row.demand keyword 1
  readName keyword (← Checked.nth row.tokens 1)

/-- Reads an assignment line. -/
def assignment (row : Row) : Attempt Stmt := do
  unless row.tokens.length = 3 do .fault .assignmentLength
  let name ← Checked.nth row.tokens 0
  unless isName name do .fault (.badTarget name)
  if (Keyword.ofWord? (lowercase name)).isSome then .fault (.reservedTarget name)
  let value ← readTerm .assignment (← Checked.nth row.tokens 2)
  return .assign name value row.toSite

/-- Reads the condition of a conditional block. -/
def condition (row : Row) : Attempt Condition := do
  let keyword := Keyword.opens .conditional
  row.demand keyword 3
  let args ← row.args
  let symbol ← Checked.nth args 1
  match Comparison.ofSymbol? symbol with
  | none => .fault (.badComparison symbol)
  | some comparison =>
      let left ← readTerm (.command keyword) (← Checked.nth args 0)
      let right ← readTerm (.command keyword) (← Checked.nth args 2)
      return ⟨left, comparison, right⟩

/-- Reads the count of a loop. -/
def loopCount (row : Row) : Attempt Term := do
  match ← Checked.nth (← row.terms (.opens .loop) 1) 0 with
  | .number value =>
      if value < 0 then .fault (.negativeCountWritten value)
      return .number value
  | .var name => return .var name

/-- Reads a drawing line. Control words never get here. -/
def command (row : Row) (keyword : Keyword) : Attempt Command := do
  match keyword with
  | .draw .moveTo =>
      let taken ← Checked.exactly 2 (← row.terms keyword 2)
      return .moveTo (taken.get 0) (taken.get 1)
  | .draw .drawTo =>
      let taken ← Checked.exactly 2 (← row.terms keyword 2)
      return .drawTo (taken.get 0) (taken.get 1)
  | .draw .pen =>
      row.demand keyword 1
      let word := lowercase (← Checked.nth (← row.args) 0)
      (Color.ofName? word).elim (.fault (.badColor word)) fun color => return .pen color
  | .draw .fill =>
      row.demand keyword 1
      let word := lowercase (← Checked.nth (← row.args) 0)
      if word = "on" then return .fill true
      else if word = "off" then return .fill false
      else .fault (.badFillMode word)
  | .draw .clear =>
      row.demand keyword 0
      return .clear
  | .draw .reset =>
      row.demand keyword 0
      return .reset
  | .draw .circle =>
      let taken ← Checked.exactly 1 (← row.terms keyword 1)
      return .circle (taken.get 0)
  | .draw .rectangle =>
      let taken ← Checked.exactly 2 (← row.terms keyword 2)
      return .rectangle (taken.get 0) (taken.get 1)
  | .draw .triangle =>
      let taken ← Checked.exactly 3 (← row.terms keyword 3)
      return .triangle (taken.get 0) (taken.get 1) (taken.get 2)
  | .draw .drawShape =>
      let args ← row.args
      if args.length = 0 then .fault .emptyShape
      if 3 < args.length ∧ args.length % 2 ≠ 0 then .fault (.oddPolygon args.length)
      return .drawShape (← readTerms keyword args)
  | _ => .mishap .impossible

end Row

/-! ## What lines say -/

variable (line : Line)

@[simp] theorem Line.tokens_toRow : line.toRow.tokens = line.word :: line.args := rfl

@[simp] theorem Line.toSite_toRow : line.toRow.toSite = line.toSite := rfl

namespace Row

@[simp] theorem keyword_toRow : line.toRow.keyword = .ok line.keyword := rfl

@[simp] theorem args_toRow : line.toRow.args = .ok line.args := by
  simp [args, Checked.dropping]

@[simp] theorem isAssignment_toRow : line.toRow.isAssignment = line.isAssignment := by
  simp [isAssignment, Line.isAssignment, List.head?_eq_getElem?]

@[simp] theorem demand_toRow (keyword : Keyword) (expected : Nat) :
    line.toRow.demand keyword expected =
      if line.args.length = expected then .done ()
      else .fault (miscounted keyword expected line.args) := by
  simp [demand]

theorem terms_toRow (keyword : Keyword) (expected : Nat) :
    line.toRow.terms keyword expected =
      if line.args.length = expected then .ofExcept (readTerms keyword line.args)
      else .fault (miscounted keyword expected line.args) := by
  rw [terms, demand_toRow]
  split <;> simp

theorem onlyName_toRow (keyword : Keyword) :
    line.toRow.onlyName keyword = .ofExcept (readOnlyName keyword line.args) := by
  rw [onlyName, demand_toRow]
  match hArgs : line.args with
  | [] | _ :: _ :: _ => simp [readOnlyName]
  | [name] => simp [readOnlyName, Checked.nth, hArgs]

theorem assignment_toRow : line.toRow.assignment = .ofExcept (readAssignment line) := by
  unfold assignment readAssignment
  match hArgs : line.args with
  | [] | [_] | _ :: _ :: _ :: _ => simp [hArgs]
  | [_, value] =>
      cases hName : isName line.word <;>
        cases hWord : Keyword.ofWord? (lowercase line.word) <;>
        simp [Checked.nth, hArgs, hName, hWord]

theorem condition_toRow :
    line.toRow.condition = .ofExcept (readCondition line.args) := by
  unfold condition readCondition
  match hArgs : line.args with
  | [] | [_] | [_, _] | _ :: _ :: _ :: _ :: _ => simp [hArgs]
  | [left, symbol, right] =>
      cases hSymbol : Comparison.ofSymbol? symbol <;> simp [hArgs, Checked.nth, hSymbol]

theorem loopCount_toRow : line.toRow.loopCount = .ofExcept (readCount line.args) := by
  unfold loopCount readCount
  rw [terms_toRow]
  match hArgs : line.args with
  | [] | _ :: _ :: _ => simp
  | [count] =>
      match hRead : readTerm (.command (.opens .loop)) count with
      | .error fault | .ok (.var name) => simp [readTerms, hRead, Checked.nth]
      | .ok (.number value) =>
          by_cases hNegative : value < 0 <;>
            simp [readTerms, hRead, Checked.nth, hNegative]

/-- A drawing word is none of those that control what is executed, and the number of
values is right wherever they are taken apart. -/
theorem command_toRow (verb : Verb) :
    line.toRow.command (.draw verb) = .ofExcept (readCommand verb line.args) := by
  unfold command readCommand
  cases verb with
  | moveTo | drawTo | rectangle =>
      rcases hArgs : line.args with _ | ⟨first, _ | ⟨second, _ | ⟨third, others⟩⟩⟩ <;>
        simp [hArgs, terms_toRow, readTerms, Checked.exactly, Vector.get]
  | pen =>
      rcases hArgs : line.args with _ | ⟨word, _ | ⟨second, others⟩⟩
      · simp [hArgs]
      · cases hColor : Color.ofName? (lowercase word) <;>
          simp [hArgs, Checked.nth, hColor]
      · simp [hArgs]
  | fill =>
      rcases hArgs : line.args with _ | ⟨word, _ | ⟨second, others⟩⟩
      · simp [hArgs]
      · by_cases hOn : lowercase word = "on"
        · simp [hArgs, Checked.nth, hOn]
        · by_cases hOff : lowercase word = "off" <;>
            simp [hArgs, Checked.nth, hOn, hOff]
      · simp [hArgs]
  | clear | reset => rcases hArgs : line.args with _ | ⟨first, others⟩ <;> simp [hArgs]
  | circle =>
      rcases hArgs : line.args with _ | ⟨radius, _ | ⟨second, others⟩⟩ <;>
        simp [hArgs, terms_toRow, readTerms, Checked.exactly, Vector.get]
  | triangle =>
      rcases hArgs : line.args with
        _ | ⟨adjacent, _ | ⟨base, _ | ⟨hypotenuse, _ | ⟨fourth, others⟩⟩⟩⟩ <;>
        simp [hArgs, terms_toRow, readTerms, Checked.exactly, Vector.get]
  | drawShape =>
      by_cases hNone : line.args = []
      · simp [hNone]
      · by_cases hOdd : 3 < line.args.length ∧ line.args.length % 2 = 1 <;>
          simp [readTerms, hNone, hOdd]

end Row

/-! ## What commands draw -/

namespace Gesture

/-- The runs of that many values, one behind the other. Values that fill
no run are left out. -/
def runs (size : Nat) (values : List Int32) : List (List Int32) :=
  (List.range (values.length / size)).map fun index =>
    (values.drop (index * size)).take size

/-- Values taken two by two as points. -/
def checkedPoints (values : List Int32) : Checked (List (Point Int32)) :=
  (runs 2 values).mapM fun run => return ⟨← Checked.nth run 0, ← Checked.nth run 1⟩

/-- Drawing the shape that fits the number of values. -/
def checkedShapes (verb : Verb) : List Int32 → Attempt (List Gesture)
  | [radius] => circles verb radius
  | [width, height] => rectangles verb width height
  | [adjacent, base, hypotenuse] => triangles verb adjacent base hypotenuse
  | values => return [polygon (← checkedPoints values)]

theorem runs_cons (x y : Int32) (rest : List Int32) :
    runs 2 (x :: y :: rest) = [x, y] :: runs 2 rest := by
  have hLength : (x :: y :: rest).length / 2 = rest.length / 2 + 1 := by
    rw [List.length_cons, List.length_cons]
    omega
  rw [runs, hLength, List.range_succ_eq_map, List.map_cons, List.map_map]
  simp [runs, Nat.add_mul]

theorem runs_of_short {values : List Int32} (hShort : values.length < 2) :
    runs 2 values = [] := by
  rw [runs, Nat.div_eq_of_lt hShort]
  rfl

/-- Every run has both of its values. -/
theorem checkedPoints_eq (values : List Int32) :
    checkedPoints values = .ok (pairUp values) := by
  unfold checkedPoints
  fun_induction pairUp values with
  | case1 x y rest ih =>
      rw [runs_cons, List.mapM_cons, ih]
      rfl
  | case2 values hShort =>
      have hLength : values.length < 2 := by
        rcases values with _ | ⟨x, _ | ⟨y, rest⟩⟩
        · exact Nat.two_pos
        · exact Nat.one_lt_two
        · exact absurd rfl (hShort x y rest)
      rw [runs_of_short hLength]
      rfl

theorem checkedShapes_eq (verb : Verb) (values : List Int32) :
    checkedShapes verb values = .ofExcept (shapes verb values) := by
  fun_cases shapes verb values with
  | case4 values hOne hTwo hThree =>
      rw [checkedShapes.eq_4 verb values hOne hTwo hThree, checkedPoints_eq]
      rfl
  | _ => rfl

end Gesture

namespace Command

/-- The gestures a command stands for. Only the values of a polygon are
taken one by one. -/
def checkedGestures (vars : Variables) (command : Command) : Attempt (List Gesture) :=
  match command with
  | .drawShape values => do
      let found : Except Fault (List Int32) :=
        values.mapM (Term.valueIn vars (some command.verb))
      Gesture.checkedShapes command.verb (← found)
  | _ => command.gestures vars

theorem checkedGestures_eq (vars : Variables) (command : Command) :
    command.checkedGestures vars = .ofExcept (command.gestures vars) := by
  cases command with
  | drawShape values =>
      simp [checkedGestures, gestures, Gesture.checkedShapes_eq]
  | _ => rfl

end Command

namespace Exec

/-- Executes a drawing command, if drawing is on. -/
def checkedDraw (command : Command) (site : Site) (machine : Machine) :
    Checked (EStateM.Result Diagnostic Machine Unit) := do
  if machine.gate then
    return makeAll site (← (command.checkedGestures machine.store.vars).run) machine
  else return .ok () machine

/-- In no state does drawing lead to a mishap. -/
theorem checkedDraw_eq (command : Command) (site : Site) (machine : Machine) :
    checkedDraw command site machine = .ok (draw command site machine) := by
  rw [checkedDraw, draw_apply, Command.checkedGestures_eq, Attempt.run_ofExcept]
  split <;> rfl

end Exec

end PenScript
