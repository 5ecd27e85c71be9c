import PenScript.Proofs.CheckedAccess
import PenScript.Proofs.Trees

/-!
# Reading by recursive descent

Lines are nested elsewhere by an assembly, which takes one line at a time and keeps the
blocks that are open. Here the same script is read the other way around, by a descent: a
cursor stands at a line, a statement is read from there on, and a statement that opens a
block reads statements of its own until the block ends. Which blocks are open is then
nowhere written down. It is in the calls that have not come back, and all that a call
knows of those around it is whether a loop or a method is among them.

A line inside a block that cannot be read becomes a statement; a block that is never
closed, or whose header is faulty, is a failure as a whole, and what was wrong inside it
is kept aside. A fault of a closing line waits until the block is in its place.

Every line is taken by its position, and each call of the descent costs a step. So there
are three ways for a reading to come to nothing, and they are those of any mishap.

## Main results

* `run_advance`: where a line is left, the cursor finds it;
* `Row.header_toRow`: the header of a block is what it is within the blocks around it.
-/

namespace PenScript

/-! ## The cursor -/

/-- The kinds of block that a line stands in, as far as they matter to a line. -/
structure Scope where
  inLoop : Bool := false
  inMethod : Bool := false

/-- The scope inside a block. -/
def Scope.inside (scope : Scope) : BlockKind → Scope
  | .conditional => scope
  | .loop => { scope with inLoop := true }
  | .method => { scope with inMethod := true }

/-- What is remembered between lines. -/
structure Cursor where
  /-- The position of the next line. -/
  position : Nat := 0
  /-- Faults of closing lines, which count from behind the block. -/
  trailing : List Diagnostic := []
  /-- The diagnostics lost with the bodies of failed blocks. -/
  lost : Array Diagnostic := #[]

/-- A step of the descent, which moves the cursor. -/
abbrev Descent := StateT Cursor Checked

namespace Row

/-- What was read of a line, with a fault at the place of the line. -/
def outcome (row : Row) : Except Fault Stmt → Except Diagnostic (Option Stmt)
  | .ok stmt => .ok (some stmt)
  | .error fault => .error ⟨fault, row.toSite⟩

/-- The keyword a line starts with, unless the line is an assignment. -/
def keyword? (row : Row) : Checked (Option Keyword) := do
  let word ← row.keyword
  return if row.isAssignment then none else Keyword.ofWord? word

/-- Reads the header of a block, unless the block is out of place. -/
def header (row : Row) (scope : Scope) : BlockKind → Checked Header
  | .conditional => return .conditional (← row.condition.run)
  | .loop =>
      if scope.inLoop then return .loop (.error .nestedLoop)
      else return .loop (← row.loopCount.run)
  | .method =>
      if scope.inLoop || scope.inMethod then return .method (.error .nestedMethod)
      else return .method (← (row.onlyName (.opens .method)).run)

end Row

namespace Descent

variable (rows : List Row) (ending : Ending)

/-- The line at the cursor, if there is one. -/
def peek : Descent (Option Row) := return rows[(← get).position]?

/-- The line at the cursor, which is left behind. -/
def advance : Descent Row := do
  let cursor ← get
  let row ← Checked.nth rows cursor.position
  set { cursor with position := cursor.position + 1 }
  return row

/-- Keeps diagnostics that no statement mentions. -/
def lose (problems : List Diagnostic) : Descent Unit :=
  modify fun cursor => { cursor with lost := cursor.lost ++ problems }

/-- Keeps a fault of a closing line for after the block. -/
def trail (problem : Diagnostic) : Descent Unit :=
  modify fun cursor => { cursor with trailing := cursor.trailing ++ [problem] }

/-- Takes the faults of closing lines. -/
def drain : Descent (List Diagnostic) :=
  modifyGet fun cursor => (cursor.trailing, { cursor with trailing := [] })

/-- Puts header and body of a block together. A fault in the header takes precedence,
and then what is wrong with the body is kept. -/
def join (row : Row) (header : Header) (body : Except Diagnostic (List Stmt)) :
    Descent (Except Diagnostic Stmt) := do
  match body with
  | .ok body =>
      match header.build body row.toSite with
      | .ok stmt => return .ok stmt
      | .error fault =>
          lose (Stmt.faultsIn body)
          return .error ⟨fault, row.toSite⟩
  | .error problem =>
      match header.fault? with
      | none => return .error problem
      | some fault =>
          lose [problem]
          return .error ⟨fault, row.toSite⟩

/-- Whether a conditional ends in front of a line that stands for another one, or for
the end of the block around it. -/
def endsConditional (scope : Scope) : Option Keyword → Bool
  | some (.opens .conditional) => true
  | some (.closes .loop) => scope.inLoop
  | some (.closes .method) => scope.inMethod
  | _ => false

/-- What a statement of a block and the closing lines in it add to the body. -/
def contribution (gated : Bool) (found : Except Diagnostic (Option Stmt))
    (behind : List Diagnostic) : List Stmt :=
  let own := match found with
    | .ok stmt => stmt.toList
    | .error problem => [.invalid problem gated]
  own ++ behind.map (Stmt.invalid · false)

theorem contribution_eq (gated : Bool) (found : Except Diagnostic (Option Stmt))
    (behind : List Diagnostic) :
    contribution gated found behind =
      contribution gated found [] ++ behind.map (Stmt.invalid · false) := by
  simp [contribution]

mutual

/-- Reads a statement from the line at the cursor on. A line may also be
read to no effect. -/
def statement : Nat → Scope → Descent (Except Diagnostic (Option Stmt))
  | 0, _ => throw .endless
  | steps + 1, scope => do
      let row ← advance rows
      if row.isAssignment then return row.outcome (← row.assignment.run)
      let word ← row.keyword
      match Keyword.ofWord? word with
      | none => return .error ⟨.unknownCommand word, row.toSite⟩
      | some (.opens kind) =>
          let header ← row.header scope kind
          let body ← block steps row kind (scope.inside kind) #[]
          return (← join row header body).map some
      | some (.closes .conditional) =>
          match ← (row.demand (.closes .conditional) 0).run with
          | .ok _ => return .ok none
          | .error fault => return .error ⟨fault, row.toSite⟩
      | some (.closes kind) => return .error ⟨.strayCloser kind, row.toSite⟩
      | some .call =>
          let found ← (row.onlyName .call).run
          return row.outcome (found.map fun name => .call name row.toSite)
      | some keyword =>
          let found ← (row.command keyword).run
          return row.outcome (found.map fun command => .draw command row.toSite)

/-- Reads on in the body of a block, which has these statements so far. -/
def block : Nat → Row → BlockKind → Scope → Array Stmt →
    Descent (Except Diagnostic (List Stmt))
  | 0, _, _, _, _ => throw .endless
  | steps + 1, header, kind, scope, body => do
      match ← peek rows with
      | none =>
          if kind = .conditional ∧ ending = .complete then return .ok body.toList
          lose (Stmt.faultsIn body.toList)
          return .error ⟨.neverClosed kind, header.toSite⟩
      | some row =>
          let keyword? ← row.keyword?
          let gated := !row.isAssignment && keyword?.all fun keyword =>
            !keyword.isControl
          if keyword? = some (.closes kind) then
            let closer ← advance rows
            if let .error fault ← (closer.demand (.closes kind) 0).run then
              trail ⟨fault, closer.toSite⟩
            return .ok body.toList
          if kind = .conditional ∧ endsConditional scope keyword? then
            return .ok body.toList
          let found ← statement steps scope
          let behind ← drain
          block steps header kind scope (body ++ contribution gated found behind)

end

/-- Reads the items from the cursor on, after faults that are still to be reported. -/
def items : Nat → List Diagnostic → Descent (List Item)
  | 0, _ => throw .endless
  | steps + 1, problem :: deferred => return .error problem :: (← items steps deferred)
  | steps + 1, [] => do
      if rows.length ≤ (← get).position then return []
      let found ← statement rows ending steps {}
      let deferred ← drain
      match found with
      | .ok none => items steps deferred
      | .ok (some stmt) => return .ok stmt :: (← items steps deferred)
      | .error problem => return .error problem :: (← items steps deferred)

/-- Reads lines. Two steps for each line suffice. -/
def read : Checked Reading := do
  let (found, cursor) ← (items rows ending (2 * rows.length + 1) []).run {}
  return { items := found, dropped := cursor.lost.toList }

/-! ## Steps of the cursor -/

section Steps

variable {lines : List Line} {line : Line} {rest : List Line} {cursor : Cursor}

theorem getElem?_of_drop (hAhead : lines.drop cursor.position = line :: rest) :
    (lines.map Line.toRow)[cursor.position]? = some line.toRow := by
  have hFound : lines[cursor.position]? = some line := by
    rw [← List.head?_drop, hAhead, List.head?_cons]
  rw [List.getElem?_map, hFound, Option.map_some]

theorem drop_succ (hAhead : lines.drop cursor.position = line :: rest) :
    lines.drop (cursor.position + 1) = rest := by
  rw [← List.drop_drop, hAhead, List.drop_one, List.tail_cons]

theorem run_advance (hAhead : lines.drop cursor.position = line :: rest) :
    (advance (lines.map Line.toRow)).run cursor =
      .ok (line.toRow, { cursor with position := cursor.position + 1 }) := by
  have hRow := Checked.nth_of_getElem? (getElem?_of_drop hAhead)
  simp [advance, hRow]

@[simp] theorem run_peek (rows : List Row) :
    (peek rows).run cursor = .ok (rows[cursor.position]?, cursor) := rfl

@[simp] theorem run_lose (problems : List Diagnostic) :
    (lose problems).run cursor =
      .ok ((), { cursor with lost := cursor.lost ++ problems }) := rfl

@[simp] theorem run_trail (problem : Diagnostic) :
    (trail problem).run cursor =
      .ok ((), { cursor with trailing := cursor.trailing ++ [problem] }) := rfl

@[simp] theorem run_drain :
    drain.run cursor = .ok (cursor.trailing, { cursor with trailing := [] }) := rfl

end Steps

end Descent

/-! ## Scopes -/

/-- The scope inside of blocks of the given kinds. -/
def Scope.of (around : List BlockKind) : Scope :=
  { inLoop := decide (.loop ∈ around), inMethod := decide (.method ∈ around) }

theorem Scope.of_cons (kind : BlockKind) (around : List BlockKind) :
    Scope.of (kind :: around) = (Scope.of around).inside kind := by
  cases kind <;> simp [Scope.of, Scope.inside]

theorem Row.header_toRow (line : Line) (around : List BlockKind) (kind : BlockKind) :
    line.toRow.header (Scope.of around) kind =
      .ok ((Header.read kind line.args).within around) := by
  cases kind with
  | conditional => simp [header, condition_toRow, Header.read, Header.within]
  | loop =>
      by_cases hLoop : BlockKind.loop ∈ around <;>
        simp [header, loopCount_toRow, Header.read, Header.within, Scope.of, hLoop]
  | method =>
      by_cases hLoop : BlockKind.loop ∈ around <;>
        by_cases hMethod : BlockKind.method ∈ around <;>
        simp [header, onlyName_toRow, Header.read, Header.within, Scope.of,
          hLoop, hMethod]

end PenScript
