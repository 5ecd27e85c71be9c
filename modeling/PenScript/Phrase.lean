import PenScript.Stmt

/-!
# What a single line says

Before lines are nested into blocks, each is read on its own. A line says one of
four things: a complete statement, the opening of a block, the closing of one,
or nothing that can be understood. Which block a line stands in plays no part
here, apart from the ban on nesting loops and methods, which is a function of
the blocks around it and overrides whatever else is wrong with the header.

The header of a block is read even if it is faulty, because a faulty header
still opens its block: the lines up to the closing word belong to it.

## Main results

* `readTerm_number`, `readTerm_name`: numerals and names are read as such;
* `ofLine_assignment`: an assignment line never opens or closes a block.
-/

namespace PenScript

/-- The opening of a block: what its header says, or what is wrong with the header. -/
inductive Header where
  | conditional (condition : Except Fault Condition)
  | loop (count : Except Fault Term)
  | method (name : Except Fault String)

/-- The kind of block a header opens. -/
def Header.kind : Header → BlockKind
  | conditional _ => .conditional
  | loop _ => .loop
  | method _ => .method

/-- What a line says. -/
inductive Phrase where
  /-- A statement of its own. -/
  | simple (stmt : Stmt)
  /-- The opening of a block. -/
  | opening (header : Header)
  /-- The closing of a block, with what is wrong about the words after
  the closing word. -/
  | closing (kind : BlockKind) (surplus : Option Fault)
  /-- Nothing that can be understood; `gated` if it might have been meant to draw. -/
  | faulty (fault : Fault) (gated : Bool)

/-! ## Values and names -/

/-- Reads a value. The form of the line is needed for the explanation only. -/
def readTerm (form : Form) (word : String) : Except Fault Term :=
  match Text.readInt32? word with
  | some value => .ok (.number value)
  | none =>
      if Text.isName word then .ok (.var word)
      else if Text.looksNumeric word then .error (.outOfRange word form)
      else .error (.badValue word form)

/-- Reads the name of a method. -/
def readName (keyword : Keyword) (word : String) : Except Fault String :=
  if Text.isName word then .ok word else .error (.badName word keyword)

/-- The fault of a keyword with too few or too many words after it. -/
def miscounted (keyword : Keyword) (expected : Nat) (args : List String) : Fault :=
  .wrongCount keyword expected args.length

/-! ## Drawing lines -/

/-- Reads the words after a verb. -/
def readCommand (verb : Verb) (args : List String) : Except Fault Command :=
  let term := readTerm (.command (.draw verb))
  let miscount (expected : Nat) : Except Fault Command :=
    .error (miscounted (.draw verb) expected args)
  match verb with
  | .moveTo =>
      match args with
      | [x, y] => return .moveTo (← term x) (← term y)
      | _ => miscount 2
  | .drawTo =>
      match args with
      | [x, y] => return .drawTo (← term x) (← term y)
      | _ => miscount 2
  | .pen =>
      match args with
      | [color] =>
          match Color.ofName? (Text.lowercase color) with
          | some color => .ok (.pen color)
          | none => .error (.badColor (Text.lowercase color))
      | _ => miscount 1
  | .fill =>
      match args with
      | [mode] =>
          match Text.lowercase mode with
          | "on" => .ok (.fill true)
          | "off" => .ok (.fill false)
          | other => .error (.badFillMode other)
      | _ => miscount 1
  | .clear => if args.isEmpty then .ok .clear else miscount 0
  | .reset => if args.isEmpty then .ok .reset else miscount 0
  | .circle =>
      match args with
      | [radius] => return .circle (← term radius)
      | _ => miscount 1
  | .rectangle =>
      match args with
      | [width, height] => return .rectangle (← term width) (← term height)
      | _ => miscount 2
  | .triangle =>
      match args with
      | [adjacent, base, hypotenuse] =>
          return .triangle (← term adjacent) (← term base) (← term hypotenuse)
      | _ => miscount 3
  | .drawShape =>
      if args.isEmpty then .error .emptyShape
      else if 3 < args.length ∧ args.length % 2 = 1 then
        .error (.oddPolygon args.length)
      else return .drawShape (← args.mapM term)

/-! ## Assignments -/

/-- Reads an assignment line. -/
def readAssignment (line : Line) : Except Fault Stmt :=
  match line.args with
  | [_, value] =>
      if !Text.isName line.word then .error (.badTarget line.word)
      else if (Keyword.ofWord? (Text.lowercase line.word)).isSome then
        .error (.reservedTarget line.word)
      else return .assign line.word (← readTerm .assignment value) line.toSite
  | _ => .error .assignmentLength

/-! ## Headers -/

/-- Reads the condition of a conditional block. -/
def readCondition (args : List String) : Except Fault Condition :=
  let keyword := Keyword.opens .conditional
  match args with
  | [left, symbol, right] =>
      match Comparison.ofSymbol? symbol with
      | none => .error (.badComparison symbol)
      | some comparison =>
          return ⟨← readTerm (.command keyword) left, comparison,
            ← readTerm (.command keyword) right⟩
  | _ => .error (miscounted keyword 3 args)

/-- Reads the count of a loop. A count that is written out must not be negative. -/
def readCount (args : List String) : Except Fault Term :=
  let keyword := Keyword.opens .loop
  match args with
  | [count] => do
      match ← readTerm (.command keyword) count with
      | .number value =>
          if value < 0 then .error (.negativeCountWritten value)
            else .ok (.number value)
      | .var name => .ok (.var name)
  | _ => .error (miscounted keyword 1 args)

/-- Reads the one name after a keyword. -/
def readOnlyName (keyword : Keyword) (args : List String) : Except Fault String :=
  match args with
  | [name] => readName keyword name
  | _ => .error (miscounted keyword 1 args)

/-- Reads the header of a block. -/
def Header.read (kind : BlockKind) (args : List String) : Header :=
  match kind with
  | .conditional => .conditional (readCondition args)
  | .loop => .loop (readCount args)
  | .method => .method (readOnlyName (.opens .method) args)

/-- The header where it stands: inside the given kinds of block, loops and methods
may be out of place. -/
def Header.within (surroundings : List BlockKind) : Header → Header
  | .conditional condition => .conditional condition
  | .loop count => .loop (if .loop ∈ surroundings then .error .nestedLoop else count)
  | .method name =>
      .method (if .loop ∈ surroundings ∨ .method ∈ surroundings then
        .error .nestedMethod else name)

/-! ## Lines -/

/-- A reading of a whole line, as a phrase. -/
def Phrase.ofStmt (gated : Bool) : Except Fault Stmt → Phrase
  | .ok stmt => .simple stmt
  | .error fault => .faulty fault gated

/-- Reads a line. -/
def Phrase.ofLine (line : Line) : Phrase :=
  if line.isAssignment then .ofStmt false (readAssignment line)
  else match Keyword.ofWord? line.keyword with
    | none => .faulty (.unknownCommand line.keyword) true
    | some (.draw verb) =>
        .ofStmt true ((readCommand verb line.args).map fun command =>
          .draw command line.toSite)
    | some (.opens kind) => .opening (.read kind line.args)
    | some (.closes kind) =>
        let surplus := miscounted (.closes kind) 0 line.args
        .closing kind (if line.args.isEmpty then none else some surplus)
    | some .call =>
        .ofStmt false ((readOnlyName .call line.args).map fun name =>
          .call name line.toSite)

/-! ## Small laws -/

theorem readTerm_number {word : String} {value : Int32} (form : Form)
    (hRead : Text.readInt32? word = some value) :
    readTerm form word = .ok (.number value) := by
  rw [readTerm, hRead]

theorem readTerm_name {word : String} (form : Form)
    (hNone : Text.readInt32? word = none)
    (hName : Text.isName word = true) : readTerm form word = .ok (.var word) := by
  rw [readTerm, hNone]
  exact if_pos hName

theorem Header.kind_read (kind : BlockKind) (args : List String) :
    (Header.read kind args).kind = kind := by
  cases kind <;> rfl

theorem Header.kind_within (surroundings : List BlockKind) (header : Header) :
    (header.within surroundings).kind = header.kind := by
  cases header <;> rfl

theorem Phrase.ofLine_assignment {line : Line} (hAssign : line.isAssignment = true) :
    Phrase.ofLine line = .ofStmt false (readAssignment line) := by
  rw [Phrase.ofLine, if_pos hAssign]

end PenScript
