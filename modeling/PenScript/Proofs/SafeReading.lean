import PenScript.Proofs.BlockEnds
import PenScript.Proofs.LineCutting

/-!
# Reading without mishaps

A reading by descent follows the assembly of the same lines. The correspondence is
stated about what is still to come: if the cursor stands at some lines and an assembly
has been brought there, then what the assembly amounts to after those lines is what it
amounts to after fewer of them, once it is given what the descent has read meanwhile.

For a statement the assembly has the statement added to it, and for a block the
innermost block is replaced by what becomes of it. The two are shown together, by
induction on the steps of the descent: a block is read by reading its statements, and
a statement that opens a block by reading the block. Two steps for each line that is
left suffice, since a line is read by a statement and costs the block around it one step
more. At top level, where no block is open, what has been read is the items.

From this it follows that the descent finds what the assembly finds. In particular, it
finds something: no position is out of range, no case that is thought impossible is
reached, and the reading ends.

## Main results

* `Descent.reads`: statements and blocks are read as an assembly takes the lines;
* `Descent.read_eq`: so are all lines of a script;
* `read_without_mishap`: from the text to the items, and in whatever
  is executed of them.
-/

namespace PenScript

/-! ## Statements -/

/-- Whether the cursor stands at some lines and knows of what was before them
what an assembly does. -/
structure Cursor.Agrees (lines : List Line) (assembly : Assembly) (rest : List Line)
    (cursor : Cursor) : Prop where
  ahead : lines.drop cursor.position = rest
  trailing : cursor.trailing = []
  lost : cursor.lost = assembly.dropped

/-- What has been read of a block, and what becomes of it: it has been closed,
or it never will be. -/
inductive Ended (frame : Frame) (dropped : Array Diagnostic) :
    Except Diagnostic (List Stmt) → Array Diagnostic → Stmt × List Diagnostic → Prop
  | closed : Ended frame dropped (.ok frame.body.toList) dropped frame.close
  | never : Ended frame dropped (.error ⟨.neverClosed frame.kind, frame.site⟩)
      (dropped ++ Stmt.faultsIn frame.body.toList) frame.abandon

theorem Header.ofStmt_of_build {header : Header} {body : List Stmt} {site : Site}
    {stmt : Stmt}
    (hBuild : header.build body site = .ok stmt) : Item.ofStmt stmt = .ok stmt := by
  cases header with
  | conditional found | loop found | method found =>
      cases found with
      | error fault => cases hBuild
      | ok value =>
          cases hBuild
          rfl

/-- Header and body are put together to what becomes of the block. -/
theorem Ended.join {frame : Frame} {dropped lost : Array Diagnostic}
    {body : Except Diagnostic (List Stmt)} {outcome : Stmt × List Diagnostic}
    (hEnded : Ended frame dropped body lost outcome) {row : Row}
    (hSite : frame.site = row.toSite)
    {cursor : Cursor} (hLost : cursor.lost = lost) :
    ∃ found, (Descent.join row frame.header body).run cursor =
        .ok (found, { cursor with lost := dropped ++ outcome.2 }) ∧
      Descent.contribution false (found.map some) [] = [outcome.1] ∧
      ∀ stmt, found = .ok stmt → Item.ofStmt stmt = .ok stmt := by
  cases hFault : frame.header.fault? with
  | some fault =>
      refine ⟨.error ⟨fault, frame.site⟩, ?_, ?_, fun stmt hFound => by cases hFound⟩
      · cases hEnded with
        | closed =>
            simp [Descent.join, Header.build_error hFault,
              Frame.close_of_fault hFault, hLost, hSite]
        | never =>
            have hLater (problem : Diagnostic) :
                (dropped ++ Stmt.faultsIn frame.body.toList).push problem =
                  dropped ++ (Stmt.faultsIn frame.body.toList ++ [problem]) :=
              Array.ext' (by simp)
            simp [Descent.join, hFault, Frame.abandon_of_fault hFault, hLost,
              hSite, hLater]
      · cases hEnded with
        | closed => rw [Frame.close_of_fault hFault]; rfl
        | never => rw [Frame.abandon_of_fault hFault]; rfl
  | none =>
      cases hEnded with
      | closed =>
          obtain ⟨stmt, hBuild, -⟩ :=
            Header.build_ok hFault frame.body.toList frame.site
          have hClose : frame.close = (stmt, []) := by rw [Frame.close, hBuild]
          refine ⟨.ok stmt, ?_, ?_, fun other hFound => ?_⟩
          · rw [hSite] at hBuild
            simp [Descent.join, hBuild, hClose, ← hLost]
          · rw [hClose]
            rfl
          · cases hFound
            exact Header.ofStmt_of_build hBuild
      | never =>
          refine ⟨.error ⟨.neverClosed frame.kind, frame.site⟩, ?_, ?_,
            fun stmt hFound => by cases hFound⟩
          · simp [Descent.join, hFault, Frame.abandon_of_none hFault, ← hLost]
          · rw [Frame.abandon_of_none hFault]
            rfl

namespace Descent

variable {lines : List Line} {ending : Ending} {assembly : Assembly} {line : Line}
  {rest : List Line} {cursor : Cursor} {steps : Nat}

/-- Whether what has been read at a line, and where the cursor is after it, is as an
assembly has it. At most one closing line can be at fault, that of the block itself. -/
structure Reads (lines : List Line) (ending : Ending) (assembly : Assembly)
    (line : Line)
    (rest : List Line) (found : Except Diagnostic (Option Stmt)) (after : Cursor) :
    Prop where
  shorter : (lines.drop after.position).length ≤ rest.length
  trailing : after.trailing.length ≤ 1
  conclude : (assembly.feed line).conclude ending rest =
    ({ assembly with dropped := after.lost }.placeAll
      (contribution line.isGated found after.trailing)).conclude ending
        (lines.drop after.position)
  ofStmt : ∀ stmt, found = .ok (some stmt) → Item.ofStmt stmt = .ok stmt

/-- Of a line that opens no block only the line itself is read. -/
theorem Reads.here {found : Except Diagnostic (Option Stmt)}
    (hAgrees : cursor.Agrees lines assembly (line :: rest))
    (hFeed : assembly.feed line =
      assembly.placeAll (contribution line.isGated found []))
    (hStmt : ∀ stmt, found = .ok (some stmt) → Item.ofStmt stmt = .ok stmt) :
    Reads lines ending assembly line rest found
      { cursor with position := cursor.position + 1 } := by
  have hRest := drop_succ hAgrees.ahead
  refine ⟨by simp [hRest], by simp [hAgrees.trailing], ?_, hStmt⟩
  simp only [hRest, hAgrees.lost, hAgrees.trailing, hFeed]

/-- A line that is a statement of its own, if it can be read. -/
theorem Reads.outcome {found : Except Fault Stmt}
    (hAgrees : cursor.Agrees lines assembly (line :: rest))
    (hPhrase : Phrase.ofLine line = .ofStmt line.isGated found) :
    Reads lines ending assembly line rest (line.toRow.outcome found)
      { cursor with position := cursor.position + 1 } := by
  cases found with
  | error fault =>
      refine .here hAgrees ?_ fun stmt hFound => by cases hFound
      rw [Assembly.feed, hPhrase]
      rfl
  | ok stmt =>
      refine .here hAgrees ?_ fun other hFound => ?_
      · rw [Assembly.feed, hPhrase]
        rfl
      · cases hFound
        have hPlain := Phrase.isPlain_of_simple hPhrase
        cases stmt with
        | assign _ _ _ | draw _ _ | call _ _ => rfl
        | _ => cases hPlain

/-- Whether a statement is read at a line as the line is taken into account. -/
def ReadsAt (lines : List Line) (ending : Ending) (steps : Nat) (assembly : Assembly)
    (line : Line) (rest : List Line) (cursor : Cursor) : Prop :=
  ∃ found after, (statement (lines.map Line.toRow) ending steps
      (Scope.of assembly.surroundings)).run cursor = .ok (found, after) ∧
    Reads lines ending assembly line rest found after

/-- Whether statements are read as lines are taken into account, within
that many steps. -/
def ReadsStatements (lines : List Line) (ending : Ending) (steps : Nat) : Prop :=
  ∀ (assembly : Assembly) (line : Line) (rest : List Line) (cursor : Cursor),
    2 * rest.length + 2 ≤ steps → cursor.Agrees lines assembly (line :: rest) →
    Spaced assembly.surroundings → assembly.Passes line →
    ReadsAt lines ending steps assembly line rest cursor

/-- Whether a block is read from some lines on as the lines are taken into account. -/
def ReadsFrom (lines : List Line) (ending : Ending) (steps : Nat) (assembly : Assembly)
    (frame : Frame) (outer : List Frame) (rest : List Line) (cursor : Cursor)
    (row : Row) : Prop :=
  ∃ found after body dropped outcome,
    (block (lines.map Line.toRow) ending steps row frame.kind
      (Scope.of assembly.surroundings) frame.body).run cursor = .ok (found, after) ∧
    Ended { frame with body } dropped found after.lost outcome ∧
    (lines.drop after.position).length ≤ rest.length ∧ after.trailing.length ≤ 1 ∧
    assembly.conclude ending rest =
      ((assembly.retire outer dropped outcome).placeAll
        (after.trailing.map (Stmt.invalid · false))).conclude ending
          (lines.drop after.position)

/-- Whether blocks are read as lines are taken into account, within that many steps. -/
def ReadsBlocks (lines : List Line) (ending : Ending) (steps : Nat) : Prop :=
  ∀ (assembly : Assembly) (frame : Frame) (outer : List Frame) (rest : List Line)
    (cursor : Cursor) (row : Row), 2 * rest.length + 1 ≤ steps →
    cursor.Agrees lines assembly rest → Spaced assembly.surroundings →
    assembly.frames = frame :: outer → frame.site = row.toSite →
    ReadsFrom lines ending steps assembly frame outer rest cursor row

theorem readsAt_assignment (hAgrees : cursor.Agrees lines assembly (line :: rest))
    (hAssign : line.isAssignment = true) :
    ReadsAt lines ending (steps + 1) assembly line rest cursor := by
  refine ⟨line.toRow.outcome (readAssignment line), _, ?_, .outcome hAgrees ?_⟩
  · simp [statement, run_advance hAgrees.ahead, hAssign, Row.assignment_toRow]
  · simp [Phrase.ofLine, hAssign, Line.isGated]

section NoAssignment

variable (hAgrees : cursor.Agrees lines assembly (line :: rest))
  (hOther : line.isAssignment = false)

include hAgrees hOther

theorem readsAt_unknown (hWord : Keyword.ofWord? line.keyword = none) :
    ReadsAt lines ending (steps + 1) assembly line rest cursor := by
  refine ⟨.error ⟨.unknownCommand line.keyword, line.toSite⟩, _, ?_,
    .here hAgrees ?_ ?_⟩
  · simp [statement, run_advance hAgrees.ahead, hOther, hWord]
  · have hGated : line.isGated = true := by simp [Line.isGated, hOther, hWord]
    rw [Assembly.feed, Phrase.ofLine, if_neg (by simp [hOther]), hWord, hGated]
    rfl
  · exact fun _ hFound => by cases hFound

theorem readsAt_draw {verb : Verb}
    (hWord : Keyword.ofWord? line.keyword = some (.draw verb)) :
    ReadsAt lines ending (steps + 1) assembly line rest cursor := by
  refine ⟨line.toRow.outcome ((readCommand verb line.args).map fun command =>
    .draw command line.toSite), _, ?_, .outcome hAgrees ?_⟩
  · simp [statement, run_advance hAgrees.ahead, hOther, hWord, Row.command_toRow]
  · simp [Phrase.ofLine, hOther, hWord, Line.isGated, Keyword.isControl]

theorem readsAt_call (hWord : Keyword.ofWord? line.keyword = some .call) :
    ReadsAt lines ending (steps + 1) assembly line rest cursor := by
  refine ⟨line.toRow.outcome ((readOnlyName .call line.args).map fun name =>
    .call name line.toSite), _, ?_, .outcome hAgrees ?_⟩
  · simp [statement, run_advance hAgrees.ahead, hOther, hWord, Row.onlyName_toRow]
  · simp [Phrase.ofLine, hOther, hWord, Line.isGated, Keyword.isControl]

theorem readsAt_endif (hPasses : assembly.Passes line)
    (hWord : Keyword.ofWord? line.keyword = some (.closes .conditional)) :
    ReadsAt lines ending (steps + 1) assembly line rest cursor := by
  have hFeed := Assembly.feed_endif hPasses (by simp [Line.keyword?, hOther, hWord])
  have hGated : line.isGated = false := by simp [Line.isGated, hWord, Keyword.isControl]
  by_cases hArgs : line.args = []
  · refine ⟨.ok none, _, ?_, .here hAgrees ?_ fun _ hFound => by cases hFound⟩
    · simp [statement, run_advance hAgrees.ahead, hOther, hWord, hArgs, Attempt.run]
    · rw [hFeed, hArgs]
      rfl
  · refine ⟨.error ⟨miscounted (.closes .conditional) 0 line.args, line.toSite⟩, _, ?_,
      .here hAgrees ?_ fun _ hFound => by cases hFound⟩
    · simp [statement, run_advance hAgrees.ahead, hOther, hWord, hArgs, Attempt.run]
    · rw [hFeed, if_neg (by simpa using hArgs), hGated]
      rfl

theorem readsAt_stray (hPasses : assembly.Passes line) {kind : BlockKind}
    (hKind : kind ≠ .conditional)
    (hWord : Keyword.ofWord? line.keyword = some (.closes kind)) :
    ReadsAt lines ending (steps + 1) assembly line rest cursor := by
  have hFeed :=
    Assembly.feed_stray hPasses hKind (by simp [Line.keyword?, hOther, hWord])
  have hGated : line.isGated = false := by simp [Line.isGated, hWord, Keyword.isControl]
  refine ⟨.error ⟨.strayCloser kind, line.toSite⟩, _, ?_,
      .here hAgrees ?_ fun _ hFound => by cases hFound⟩
  · cases kind with
    | conditional => exact absurd rfl hKind
    | loop | method => simp [statement, run_advance hAgrees.ahead, hOther, hWord]
  · rw [hFeed, hGated]
    rfl

/-- A block is read as its header and its body are, and these are put together. -/
theorem readsAt_opens (hBlocks : ReadsBlocks lines ending steps)
    (hSteps : 2 * rest.length + 2 ≤ steps + 1) (hSpaced : Spaced assembly.surroundings)
    (hPasses : assembly.Passes line) {kind : BlockKind}
    (hWord : Keyword.ofWord? line.keyword = some (.opens kind)) :
    ReadsAt lines ending (steps + 1) assembly line rest cursor := by
  have hKeyword : line.keyword? = some (.opens kind) := by
    simp [Line.keyword?, hOther, hWord]
  have hGated : line.isGated = false := by simp [Line.isGated, hWord, Keyword.isControl]
  have hFeed := Assembly.feed_opens hPasses hKeyword
  let frame : Frame :=
    { header := (Header.read kind line.args).within assembly.surroundings,
      site := line.toSite }
  have hKind : frame.kind = kind := by
    rw [Frame.kind, Header.kind_within, Header.kind_read]
  have hAround : (assembly.feed line).surroundings = kind :: assembly.surroundings := by
    rw [hFeed]
    exact congrArg (· :: assembly.surroundings) hKind
  obtain ⟨body, after, stmts, dropped, outcome, hRun, hEnded, hShorter, hTrailing,
    hConclude⟩ :=
    hBlocks (assembly.feed line) frame assembly.frames rest
      { cursor with position := cursor.position + 1 } line.toRow (by omega)
      ⟨drop_succ hAgrees.ahead, hAgrees.trailing, by rw [hFeed]; exact hAgrees.lost⟩
      (by rw [hAround]; exact ⟨hPasses.opensIn hKeyword, hSpaced⟩)
      (by rw [hFeed]; rfl) rfl
  obtain ⟨found, hJoin, hFound, hStmt⟩ :=
    hEnded.join (show ({ frame with body := stmts } : Frame).site =
      line.toRow.toSite from rfl) rfl
  rw [hAround, hKind, Scope.of_cons] at hRun
  refine ⟨found.map some, { after with lost := dropped ++ outcome.2 }, ?_, hShorter,
    hTrailing, ?_, fun stmt hSome => ?_⟩
  · have hBody : (block (lines.map Line.toRow) ending steps line.toRow kind
        ((Scope.of assembly.surroundings).inside kind) #[]).run
          { cursor with position := cursor.position + 1 } = .ok (body, after) := hRun
    have hHeader :
        (join line.toRow ((Header.read kind line.args).within assembly.surroundings)
        body).run after = .ok (found, _) := hJoin
    simp [statement, run_advance hAgrees.ahead, hOther, hWord, Row.header_toRow,
      hBody, hHeader]
  · rw [hConclude, hGated, contribution_eq, hFound, hFeed]
    rfl
  · cases found with
    | error problem => cases hSome
    | ok other =>
        cases hSome
        exact hStmt _ rfl

end NoAssignment

theorem statements_of_blocks (hBlocks : ReadsBlocks lines ending steps) :
    ReadsStatements lines ending (steps + 1) := by
  intro assembly line rest cursor hSteps hAgrees hSpaced hPasses
  cases hAssign : line.isAssignment with
  | true => exact readsAt_assignment hAgrees hAssign
  | false =>
      cases hWord : Keyword.ofWord? line.keyword with
      | none => exact readsAt_unknown hAgrees hAssign hWord
      | some keyword =>
          cases keyword with
          | draw verb => exact readsAt_draw hAgrees hAssign hWord
          | call => exact readsAt_call hAgrees hAssign hWord
          | opens kind =>
              exact readsAt_opens hAgrees hAssign hBlocks hSteps hSpaced hPasses hWord
          | closes kind =>
              by_cases hKind : kind = .conditional
              · exact readsAt_endif hAgrees hAssign hPasses (hKind ▸ hWord)
              · exact readsAt_stray hAgrees hAssign hPasses hKind hWord

/-! ## Blocks -/

section Blocks

variable {frame : Frame} {outer : List Frame} {row : Row}

/-- A block that ends here, with the statements that it has. -/
theorem ReadsFrom.here {found : Except Diagnostic (List Stmt)} {after : Cursor}
    (become : Frame → Stmt × List Diagnostic) (hOpen : assembly.frames = frame :: outer)
    (hRun : (block (lines.map Line.toRow) ending steps row frame.kind
      (Scope.of assembly.surroundings) frame.body).run cursor = .ok (found, after))
    (hEnded : Ended frame assembly.dropped found after.lost (become frame))
    (hShorter : (lines.drop after.position).length ≤ rest.length)
    (hTrailing : after.trailing.length ≤ 1)
    (hConclude : assembly.conclude ending rest = ((assembly.pop become).placeAll
      (after.trailing.map (Stmt.invalid · false))).conclude ending
        (lines.drop after.position)) :
    ReadsFrom lines ending steps assembly frame outer rest cursor row := by
  rw [Assembly.pop_eq_retire hOpen] at hConclude
  exact ⟨found, after, frame.body, assembly.dropped, become frame, hRun,
    hEnded, hShorter, hTrailing, hConclude⟩

/-- Where the lines end, the block expires. -/
theorem readsFrom_nil (hAgrees : cursor.Agrees lines assembly [])
    (hOpen : assembly.frames = frame :: outer) (hSite : frame.site = row.toSite) :
    ReadsFrom lines ending (steps + 1) assembly frame outer [] cursor row := by
  have hNone : (lines.map Line.toRow)[cursor.position]? = none := by
    rw [List.getElem?_map, ← List.head?_drop, hAgrees.ahead]
    rfl
  have hConclude : assembly.conclude ending [] =
      (assembly.pop (Frame.expire ending)).conclude ending
        (lines.drop cursor.position) := by
    rw [hAgrees.ahead]
    exact Assembly.finishFrames_cons ending hOpen
  by_cases hLast : frame.kind = .conditional ∧ ending = .complete
  · have hRun : (block (lines.map Line.toRow) ending (steps + 1) row frame.kind
        (Scope.of assembly.surroundings) frame.body).run cursor =
          .ok (.ok frame.body.toList, cursor) := by
      simp [block, hNone, hLast]
    refine .here (Frame.expire ending) hOpen hRun ?_ ?_ ?_ ?_
    · rw [hAgrees.lost, Frame.expire, if_pos hLast.symm]
      exact .closed
    · rw [hAgrees.ahead]
    · simp [hAgrees.trailing]
    · simpa [hAgrees.trailing] using hConclude
  · have hRun : (block (lines.map Line.toRow) ending (steps + 1) row frame.kind
        (Scope.of assembly.surroundings) frame.body).run cursor =
          .ok (.error ⟨.neverClosed frame.kind, row.toSite⟩,
            { cursor with lost := cursor.lost ++
              Stmt.faultsIn frame.body.toList }) := by
      simp [block, hNone, hLast]
    refine .here (Frame.expire ending) hOpen hRun ?_ ?_ ?_ ?_
    · rw [hAgrees.lost, Frame.expire, if_neg fun hBoth => hLast hBoth.symm, ← hSite]
      exact .never
    · rw [hAgrees.ahead]
    · simp [hAgrees.trailing]
    · simpa [hAgrees.trailing] using hConclude

theorem innermost?_of_cons (hOpen : assembly.frames = frame :: outer) :
    assembly.innermost? = some frame.kind := by
  rw [Assembly.innermost?, Assembly.surroundings, hOpen]
  rfl

/-- The closing line is read with the block, and a fault of it trails behind. -/
theorem readsFrom_closes (hAgrees : cursor.Agrees lines assembly (line :: rest))
    (hOpen : assembly.frames = frame :: outer)
    (hWord : line.keyword? = some (.closes frame.kind)) :
    ReadsFrom lines ending (steps + 1) assembly frame outer (line :: rest)
      cursor row := by
  have hRow := getElem?_of_drop hAgrees.ahead
  have hRest := drop_succ hAgrees.ahead
  have hFeed := Assembly.feed_closes hWord (innermost?_of_cons hOpen)
  by_cases hArgs : line.args = []
  · have hRun : (block (lines.map Line.toRow) ending (steps + 1) row frame.kind
        (Scope.of assembly.surroundings) frame.body).run cursor =
          .ok (.ok frame.body.toList,
            { cursor with position := cursor.position + 1 }) := by
      simp [block, hRow, run_advance hAgrees.ahead, hWord, hArgs, Attempt.run]
    refine .here Frame.close hOpen hRun ?_ ?_ ?_ ?_
    · rw [hAgrees.lost]
      exact .closed
    · simp [hRest]
    · simp [hAgrees.trailing]
    · simp only [Assembly.conclude, List.foldl_cons, hFeed, hArgs, hRest,
        hAgrees.trailing]
      rfl
  · have hRun : (block (lines.map Line.toRow) ending (steps + 1) row frame.kind
        (Scope.of assembly.surroundings) frame.body).run cursor =
          .ok (.ok frame.body.toList,
            { cursor with
              position := cursor.position + 1
              trailing :=
                [⟨miscounted (.closes frame.kind) 0 line.args, line.toSite⟩] }) := by
      simp [block, hRow, run_advance hAgrees.ahead, hWord, hArgs, Attempt.run,
        hAgrees.trailing]
    refine .here Frame.close hOpen hRun ?_ ?_ ?_ ?_
    · rw [hAgrees.lost]
      exact .closed
    · simp [hRest]
    · simp
    · simp only [Assembly.conclude, List.foldl_cons, hFeed, hArgs, hRest,
        List.isEmpty_iff]
      rfl

/-- A line that ends a conditional from outside is left to be read again. -/
theorem readsFrom_ends (hAgrees : cursor.Agrees lines assembly (line :: rest))
    (hOpen : assembly.frames = frame :: outer) (hSpaced : Spaced assembly.surroundings)
    (hKind : frame.kind = .conditional)
    (hEnds : endsConditional (Scope.of assembly.surroundings) line.keyword? = true) :
    ReadsFrom lines ending (steps + 1) assembly frame outer (line :: rest)
      cursor row := by
  have hRow := getElem?_of_drop hAgrees.ahead
  have hInner := innermost?_of_cons hOpen
  rw [hKind] at hInner
  have hOther : ¬line.keyword? = some (.closes .conditional) := by
    intro hWord
    rw [hWord] at hEnds
    cases hEnds
  have hRun : (block (lines.map Line.toRow) ending (steps + 1) row frame.kind
      (Scope.of assembly.surroundings) frame.body).run cursor =
        .ok (.ok frame.body.toList, cursor) := by
    simp [block, hRow, hOther, hKind, hEnds]
  refine .here Frame.close hOpen hRun ?_ ?_ ?_ ?_
  · rw [hAgrees.lost]
    exact .closed
  · rw [hAgrees.ahead]
  · simp [hAgrees.trailing]
  · rw [hAgrees.ahead, hAgrees.trailing, Assembly.conclude, List.foldl_cons,
      ← Assembly.feed_pop hSpaced hInner hEnds]
    rfl

/-- Any other line is read as a statement of the body, and the block
goes on behind it. -/
theorem readsFrom_statement (hStatements : ReadsStatements lines ending steps)
    (hBlocks : ReadsBlocks lines ending steps)
    (hSteps : 2 * (line :: rest).length + 1 ≤ steps + 1)
    (hAgrees : cursor.Agrees lines assembly (line :: rest))
    (hSpaced : Spaced assembly.surroundings)
    (hOpen : assembly.frames = frame :: outer) (hSite : frame.site = row.toSite)
    (hPasses : assembly.Passes line) :
    ReadsFrom lines ending (steps + 1) assembly frame outer (line :: rest)
      cursor row := by
  have hRow := getElem?_of_drop hAgrees.ahead
  obtain ⟨hGoesOn, hStays⟩ := hPasses frame.kind (innermost?_of_cons hOpen)
  rw [List.length_cons] at hSteps
  obtain ⟨found, after, hFound, hReads⟩ :=
    hStatements assembly line rest cursor (by omega) hAgrees hSpaced hPasses
  have hShorter := hReads.shorter
  let stmts := contribution line.isGated found after.trailing
  let larger : Frame := { frame with body := frame.body ++ stmts }
  have hPlaced : { assembly with dropped := after.lost }.placeAll stmts =
      { assembly with frames := larger :: outer, dropped := after.lost } :=
    Assembly.placeAll_of_cons
      (show ({ assembly with dropped := after.lost } : Assembly).frames =
        frame :: outer from hOpen)
      stmts
  have hAround : ({ assembly with frames := larger :: outer, dropped := after.lost } :
      Assembly).surroundings = assembly.surroundings := by
    rw [Assembly.surroundings, Assembly.surroundings, hOpen]
    rfl
  obtain ⟨body, last, filled, dropped, outcome, hRun, hEnded, hLess, hTrailing,
    hConclude⟩ :=
    hBlocks { assembly with frames := larger :: outer, dropped := after.lost }
      larger outer
      (lines.drop after.position) { after with trailing := [] } row (by omega)
      ⟨rfl, rfl, rfl⟩ (by rwa [hAround]) rfl hSite
  rw [hAround] at hRun
  refine ⟨body, last, filled, dropped, outcome, ?_, hEnded, ?_, hTrailing, ?_⟩
  · have hBlock : (block (lines.map Line.toRow) ending steps row frame.kind
        (Scope.of assembly.surroundings)
        (frame.body ++ contribution line.isGated found after.trailing)).run
          { after with trailing := [] } = .ok (body, last) := hRun
    have hNoEnd : ¬(frame.kind = .conditional ∧
        endsConditional (Scope.of assembly.surroundings) line.keyword? = true) :=
      fun hBoth => by simp [hStays hBoth.1] at hBoth
    simp [block, hRow, hGoesOn, hNoEnd, hFound, hBlock, ← Line.isGated_eq]
  · exact hLess.trans (hShorter.trans (Nat.le_succ _))
  · rw [Assembly.conclude, List.foldl_cons, ← Assembly.conclude,
      hReads.conclude, hPlaced, hConclude]
    rfl

end Blocks

theorem blocks_of_statements (hStatements : ReadsStatements lines ending steps)
    (hBlocks : ReadsBlocks lines ending steps) :
    ReadsBlocks lines ending (steps + 1) := by
  intro assembly frame outer rest cursor row hSteps hAgrees hSpaced hOpen hSite
  cases rest with
  | nil => exact readsFrom_nil hAgrees hOpen hSite
  | cons line rest =>
      by_cases hCloses : line.keyword? = some (.closes frame.kind)
      · exact readsFrom_closes hAgrees hOpen hCloses
      by_cases hEnds : frame.kind = .conditional ∧
          endsConditional (Scope.of assembly.surroundings) line.keyword? = true
      · exact readsFrom_ends hAgrees hOpen hSpaced hEnds.1 hEnds.2
      have hPasses : assembly.Passes line := by
        intro kind hInner
        rw [innermost?_of_cons hOpen, Option.some.injEq] at hInner
        subst hInner
        exact ⟨hCloses, fun hKind => Bool.eq_false_iff.mpr fun hTrue =>
          hEnds ⟨hKind, hTrue⟩⟩
      exact readsFrom_statement hStatements hBlocks hSteps hAgrees hSpaced hOpen
        hSite hPasses

/-- **Reading follows the assembly of the lines**, with two steps for each
line that is left. -/
theorem reads (lines : List Line) (ending : Ending) (steps : Nat) :
    ReadsStatements lines ending steps ∧ ReadsBlocks lines ending steps := by
  induction steps with
  | zero =>
      exact ⟨fun _ _ _ _ hSteps => absurd hSteps (Nat.not_succ_le_zero _),
        fun _ _ _ _ _ _ hSteps => absurd hSteps (Nat.not_succ_le_zero _)⟩
  | succ steps ih => exact ⟨statements_of_blocks ih.2, blocks_of_statements ih.1 ih.2⟩

/-! ## Items -/

/-- Where no block is open, lines are read as items until none is left. -/
def ReadsItems (lines : List Line) (ending : Ending) (steps : Nat) (done : Array Item)
    (deferred : List Diagnostic) (cursor : Cursor) : Prop :=
  ∃ found after, (items (lines.map Line.toRow) ending steps deferred).run cursor =
      .ok (found, after) ∧
    (({ items := done, dropped := cursor.lost } : Assembly).placeAll
      (deferred.map (Stmt.invalid · false))).conclude ending
        (lines.drop cursor.position) =
        { items := done ++ found, dropped := after.lost }

variable {done : Array Item}

theorem readsItems_deferred {problem : Diagnostic} {deferred : List Diagnostic}
    (hLater : ReadsItems lines ending steps (done.push (.error problem))
      deferred cursor) :
    ReadsItems lines ending (steps + 1) done (problem :: deferred) cursor := by
  obtain ⟨found, after, hRun, hConclude⟩ := hLater
  refine ⟨.error problem :: found, after, by simp [items, hRun], ?_⟩
  rw [List.map_cons, Assembly.placeAll, List.foldl_cons]
  exact hConclude.trans (by simp)

theorem readsItems_nil (hRest : lines.drop cursor.position = []) :
    ReadsItems lines ending (steps + 1) done [] cursor := by
  have hEnd : lines.length ≤ cursor.position := List.drop_eq_nil_iff.mp hRest
  refine ⟨[], cursor, by simp [items, hEnd], ?_⟩
  have hSame : done ++ ([] : List Item) = done := by simp
  rw [hRest, hSame]
  rfl

/-- What is read at a line comes first, then what is wrong with the
closing lines in it. -/
theorem readsItems_cons (hRest : lines.drop cursor.position = line :: rest)
    (hTrailing : cursor.trailing = []) (hSteps : 2 * rest.length + 2 ≤ steps)
    (hLater : ∀ (done : Array Item) (after : Cursor), after.trailing.length ≤ 1 →
      (lines.drop after.position).length ≤ rest.length →
      ReadsItems lines ending steps done after.trailing { after with trailing := [] }) :
    ReadsItems lines ending (steps + 1) done [] cursor := by
  have hBefore : ¬lines.length ≤ cursor.position := by
    rw [← List.drop_eq_nil_iff, hRest]
    exact List.cons_ne_nil line rest
  obtain ⟨found, after, hFound, hReads⟩ :=
    (reads lines ending steps).1 { items := done, dropped := cursor.lost } line rest
      cursor hSteps
      ⟨hRest, hTrailing, rfl⟩ trivial fun kind hInner => by cases hInner
  have hRun : (statement (lines.map Line.toRow) ending steps {}).run cursor =
      .ok (found, after) :=
    hFound
  have hConclude := hReads.conclude
  rw [contribution_eq, Assembly.placeAll, List.foldl_append] at hConclude
  unfold ReadsItems
  rw [hRest]
  rcases found with problem | _ | stmt
  · obtain ⟨others, last, hOthers, hSame⟩ :=
      hLater (done.push (.error problem)) after hReads.trailing hReads.shorter
    refine ⟨.error problem :: others, last, by simp [items, hBefore, hRun, hOthers], ?_⟩
    exact hConclude.trans (hSame.trans (by simp))
  · obtain ⟨others, last, hOthers, hSame⟩ :=
      hLater done after hReads.trailing hReads.shorter
    exact ⟨others, last, by simp [items, hBefore, hRun, hOthers], hConclude.trans hSame⟩
  · obtain ⟨others, last, hOthers, hSame⟩ :=
      hLater (done.push (.ok stmt)) after hReads.trailing hReads.shorter
    refine ⟨.ok stmt :: others, last, by simp [items, hBefore, hRun, hOthers], ?_⟩
    refine hConclude.trans (Eq.trans ?_ (hSame.trans (by simp)))
    rw [← hReads.ofStmt stmt rfl]
    rfl

/-- At top level a line is read and its closing faults are reported in one step each, so
that two steps for each line that is left still suffice. -/
theorem readsItems (lines : List Line) (ending : Ending) (steps : Nat) :
    ∀ (done : Array Item) (deferred : List Diagnostic) (cursor : Cursor),
      cursor.trailing = [] →
      deferred.length + 2 * (lines.drop cursor.position).length + 1 ≤ steps →
      ReadsItems lines ending steps done deferred cursor := by
  induction steps with
  | zero => exact fun _ _ _ _ hSteps => absurd hSteps (Nat.not_succ_le_zero _)
  | succ steps ih =>
      intro done deferred cursor hTrailing hSteps
      cases deferred with
      | cons problem deferred =>
          rw [List.length_cons] at hSteps
          exact readsItems_deferred (ih _ _ _ hTrailing (by omega))
      | nil =>
          cases hRest : lines.drop cursor.position with
          | nil => exact readsItems_nil hRest
          | cons line rest =>
              rw [hRest, List.length_nil, List.length_cons] at hSteps
              refine readsItems_cons hRest hTrailing (by omega)
                fun others after hOne hShorter => ?_
              exact ih _ _ _ rfl (by dsimp only; omega)

/-- **A reading by descent finds what an assembly finds**, and it ends. -/
theorem read_eq (ending : Ending) (lines : List Line) :
    read (lines.map Line.toRow) ending = .ok (PenScript.read ending lines) := by
  obtain ⟨found, after, hRun, hConclude⟩ :=
    readsItems lines ending (2 * lines.length + 1) #[] [] {} rfl (by simp)
  have hDone : (Assembly.ofLines lines).finishFrames ending =
      { items := #[] ++ found, dropped := after.lost } := hConclude
  rw [PenScript.read, Assembly.finish, hDone]
  simp [read, hRun]

end Descent

/-- **Nothing goes wrong in reading a script but what is wrong with the script.**
Whatever the text is, cutting it into lines and reading these by descent comes to
an end, without asking for a word or a line that is not there and without reaching
a case thought impossible, and the items and diagnostics are those of the script.
Nor does a drawing command that is executed later ask for a value that is not there,
in whatever state it is. -/
theorem read_without_mishap (ending : Ending) (source : String) :
    (do Descent.read (← Row.ofSource source) ending) =
        (.ok (read ending (Line.ofSource source)) : Checked Reading) ∧
      ∀ (command : Command) (site : Site) (machine : Machine),
        Exec.checkedDraw command site machine =
          .ok (Exec.draw command site machine) := by
  refine ⟨?_, Exec.checkedDraw_eq⟩
  rw [Row.ofSource_eq]
  exact Descent.read_eq ending (Line.ofSource source)

end PenScript
