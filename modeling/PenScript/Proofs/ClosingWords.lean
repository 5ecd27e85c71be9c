import PenScript.Proofs.ClosingLine

/-!
# Closing what is held

Lines that are held can always be got rid of without losing them: the closing words of
the open blocks, entered alone from the innermost block to the outermost, end one block
each, and with the last of them everything that was held is executed.

Which blocks are open is known from the lines alone. A block counts as open even if its
header is faulty, and then nothing tells of it until the lines end. A bare closing word
always finds the innermost block, be it a conditional or not: there is no conditional
inside that it would have to end on the way.

Up to the last word the session goes on holding. What it holds is unfinished, so the
outermost block has a readable header, and closing a block inside it does not change
that. The last word turns the outermost block into a statement, and then nothing is
left that could be refused.

## Main results

* `Assembly.feed_closer`: a closing word ends the innermost block;
* `Session.Reachable.enter_closer`: the closing word of an inner block is held;
* `Session.Reachable.enter_last_closer`: that of the outermost block is executed;
* `held_of_closers`: the closing words of all open blocks.
-/

namespace PenScript

/-! ## Bare closing words -/

/-- The line that consists of a closing word. -/
def BlockKind.closingLine (kind : BlockKind) (number : Nat) : Line :=
  { number, raw := kind.closer, word := kind.closer, args := [] }

namespace BlockKind

variable (kind : BlockKind)

theorem ofLine_closingLine (number : Nat) :
    Phrase.ofLine (kind.closingLine number) = .closing kind none := by
  have hKeyword : (kind.closingLine number).keyword = (Keyword.closes kind).text := by
    cases kind <;> cbv
  have hPlain : ¬(kind.closingLine number).isAssignment = true := Bool.false_ne_true
  rw [Phrase.ofLine, if_neg hPlain, hKeyword, Keyword.ofWord?_text]
  rfl

theorem trimmed_closer : Text.trimmed kind.closer = kind.closer := by
  cases kind <;> cbv

theorem words_closer : (Line.words kind.closer.toList).isEmpty = false := by
  cases kind <;> cbv

theorem ofPieces_closer (number : Nat) :
    Line.ofPieces number (Line.pieces kind.closer) = [kind.closingLine number] := by
  cases kind <;> cbv

end BlockKind

/-- A closing word that is entered is one more line. -/
theorem linesWith_closer (session : Session) (kind : BlockKind) :
    ∃ number, session.linesWith kind.closer = session.buffer ++
      [kind.closingLine number] := by
  obtain ⟨number, hSnoc⟩ := Line.ofSource_snoc session.held
  refine ⟨number, ?_⟩
  rw [Session.linesWith, kind.trimmed_closer, hSnoc, kind.ofPieces_closer,
    Session.buffer]

/-- **A closing word ends the innermost block.** -/
theorem Assembly.feed_closer {assembly : Assembly} {kind : BlockKind}
    (hInner : assembly.innermost? = some kind) (number : Nat) :
    assembly.feed (kind.closingLine number) = assembly.pop Frame.close := by
  rw [feed, kind.ofLine_closingLine]
  cases kind with
  | conditional => rw [absorb, note, leaveConditional, if_pos hInner]
  | loop | method =>
      have hAround : assembly.leaveConditional = assembly := by
        rw [leaveConditional, hInner]
        rfl
      rw [absorb, leave, hAround, ite_self, if_pos hInner, note]
      all_goals exact BlockKind.noConfusion

/-! ## The blocks that are open in held lines -/

/-- The blocks that are open in the held lines, innermost first. -/
def Session.openBlocks (session : Session) : List OpenBlock :=
  session.buffer.foldl Scan.next []

/-- The scan and the reading agree on the open blocks. -/
theorem blocks_ofLines (lines : List Line) :
    (Assembly.ofLines lines).blocks = lines.foldl Scan.next [] := by
  induction lines using List.reverseRecOn with
  | nil => rfl
  | append_singleton front last ih =>
      rw [List.foldl_append, List.foldl_cons, List.foldl_nil, ← ih, Assembly.ofLines,
        List.foldl_append]
      exact Assembly.blocks_feed (.ofLines front) last

/-! ## What is left while lines are held -/

/-- What lines that are held amount to: statements, and open blocks the outermost of
which has a readable header. -/
structure Assembly.IsHeld (assembly : Assembly) : Prop where
  stmts : ∀ problem, Except.error problem ∉ assembly.items.toList
  outermost : ∃ frame, assembly.frames.getLast? = some frame ∧
    frame.header.fault? = none

theorem Frame.kind_failure {frame : Frame} (hReadable : frame.header.fault? = none) :
    frame.failure.kind = .unterminatedBlock := by
  rw [failure, hReadable]
  rfl

/-- The header of an open block has no fault but that of its line. -/
theorem fault?_of_kind_failure {lines : List Line} {frame : Frame}
    (hFrame : frame ∈ (Assembly.ofLines lines).frames)
    (hKind : frame.failure.kind = .unterminatedBlock) : frame.header.fault? = none := by
  cases hFault : frame.header.fault? with
  | none => rfl
  | some fault =>
      have hMem : (⟨fault, frame.site⟩ : Diagnostic) ∈
          (Assembly.ofLines lines).faults := by
        refine List.mem_append_right _ (List.mem_flatMap.mpr ⟨frame, hFrame, ?_⟩)
        refine List.mem_append_left _ (List.mem_map.mpr ⟨fault, ?_, rfl⟩)
        exact Option.mem_toList.mpr hFault
      have hFailure : frame.failure = ⟨fault, frame.site⟩ := by
        rw [Frame.failure, hFault, Option.getD_some]
      rw [hFailure] at hKind
      exact absurd hKind (Assembly.isOfLine_ofLines lines _ hMem).kind_ne

/-- A block with a readable header becomes a statement. -/
theorem Frame.ofStmt_close (frame : Frame) (hReadable : frame.header.fault? = none) :
    ∃ stmt, Item.ofStmt frame.close.1 = .ok stmt := by
  obtain ⟨header, site, body⟩ := frame
  cases header with
  | conditional found | loop found | method found =>
      cases found with
      | ok _ => exact ⟨_, rfl⟩
      | error _ => cases hReadable

/-- **Lines are unfinished if and only if their outermost block could
still be closed.** -/
theorem isUnfinished_iff (lines : List Line) :
    (read .provisional lines).IsUnfinished ↔ (Assembly.ofLines lines).IsHeld := by
  have hItems : (read .provisional lines).items = _ :=
    (Assembly.ofLines lines).items_finish_provisional
  rw [Reading.IsUnfinished, hItems]
  constructor
  · rintro ⟨stmts, problem, hSame, hKind⟩
    cases hLast : (Assembly.ofLines lines).frames.getLast? with
    | none =>
        -- no line tells of an open block
        rw [hLast, Option.map_none, Option.toList_none, List.append_nil] at hSame
        have hMem : Except.error problem ∈ (Assembly.ofLines lines).items.toList := by
          rw [hSame]
          exact List.mem_append_right _ (List.mem_singleton_self _)
        exact absurd hKind
          (Assembly.kind_ne_of_mem_items (Array.mem_toList_iff.mp hMem))
    | some frame =>
        rw [hLast, Option.map_some, Option.toList_some] at hSame
        obtain ⟨hStmts, hFailure⟩ := List.append_inj' hSame rfl
        cases hFailure
        refine ⟨fun problem hMem => ?_, frame, hLast, ?_⟩
        · rw [hStmts] at hMem
          obtain ⟨stmt, -, hStmt⟩ := List.mem_map.mp hMem
          cases hStmt
        · exact fault?_of_kind_failure (List.mem_of_getLast? hLast) hKind
  · rintro ⟨hStmts, frame, hLast, hReadable⟩
    obtain ⟨stmts, hSame⟩ := exists_stmts_of_items hStmts
    refine ⟨stmts, frame.failure, ?_, Frame.kind_failure hReadable⟩
    rw [hLast, hSame]
    rfl

namespace Assembly

variable {assembly : Assembly} {frame : Frame}

/-- Closing a block inside another one leaves the outermost as it is. -/
theorem IsHeld.pop (hHeld : assembly.IsHeld) {next : Frame} {others : List Frame}
    (hFrames : assembly.frames = frame :: next :: others) :
    (assembly.pop Frame.close).IsHeld := by
  obtain ⟨hStmts, last, hLast, hReadable⟩ := hHeld
  rw [hFrames, List.getLast?_cons_cons] at hLast
  rw [Assembly.pop, hFrames]
  refine ⟨hStmts, ?_⟩
  cases others with
  | nil =>
      cases hLast
      exact ⟨_, rfl, hReadable⟩
  | cons far others => exact ⟨last, hLast, hReadable⟩

/-- The outermost block becomes a statement. -/
theorem IsHeld.pop_last (hHeld : assembly.IsHeld)
    (hFrames : assembly.frames = [frame]) :
    (assembly.pop Frame.close).frames = [] ∧
      ∀ problem, Except.error problem ∉ (assembly.pop Frame.close).items.toList := by
  obtain ⟨hStmts, last, hLast, hReadable⟩ := hHeld
  rw [hFrames] at hLast
  cases hLast
  obtain ⟨stmt, hStmt⟩ := frame.ofStmt_close hReadable
  have hPop : (assembly.pop Frame.close).items = assembly.items.push (.ok stmt) := by
    rw [Assembly.pop, hFrames, ← hStmt]
    rfl
  refine ⟨List.eq_nil_of_length_eq_zero ?_, fun problem hMem => ?_⟩
  · rw [length_frames_pop, hFrames]
    rfl
  · rw [hPop, Array.toList_push] at hMem
    rcases List.mem_append.mp hMem with hOld | hNew
    · exact hStmts problem hOld
    · cases List.mem_singleton.mp hNew

end Assembly

/-! ## Entering closing words -/

section

variable {session : Session} {line : String}

/-- A line behind which the lines are unfinished is held. -/
theorem enter_of_unfinished (hWords : (Line.words line.toList).isEmpty = false)
    (hUnfinished : (read .provisional (session.linesWith line)).IsUnfinished) :
    session.enter line =
      { result := .ok .held
        session := { session with held := session.held ++ [Text.trimmed line] } } := by
  obtain ⟨stmts, problem, hItems, hKind⟩ := hUnfinished
  have hMem : Except.error problem ∈
      (read .provisional (session.linesWith line)).items := by
    rw [hItems]
    exact List.mem_append_right _ (List.mem_singleton_self _)
  cases enter_course session line with
  | blank hBlank _ =>
      rw [hWords] at hBlank
      cases hBlank
  | @refused other hFault _ =>
      obtain ⟨item, hItem, hFound⟩ := List.exists_of_findSome?_eq_some hFault
      rw [hItems] at hItem
      rcases List.mem_append.mp hItem with hStmt | hLast
      · obtain ⟨stmt, -, rfl⟩ := List.mem_map.mp hStmt
        cases hFound
      · rw [List.mem_singleton.mp hLast] at hFound
        simp [hKind] at hFound
  | held _ hEnter => exact hEnter
  | executed hStmts _ => exact absurd hMem (hStmts problem)

/-- A line behind which there are only statements is executed. -/
theorem enter_of_stmts (hWords : (Line.words line.toList).isEmpty = false)
    (hStmts : ∀ problem,
      Except.error problem ∉ (read .provisional (session.linesWith line)).items) :
    session.enter line =
      ({ session with held := [] }.runLines (session.linesWith line)).withValue
        .executed := by
  refine enter_of_settled hWords (List.findSome?_eq_none_iff.mpr fun item hItem => ?_)
    (Reading.isOpen_eq_false_iff.mpr fun problem hItem => absurd hItem (hStmts problem))
  cases item with
  | ok stmt => rfl
  | error problem => exact absurd hItem (hStmts problem)

end

namespace Session

section

variable {session : Session}

/-- What a reachable session holds, as the assembly of its lines. -/
theorem Reachable.isHeld (hReachable : session.Reachable) (hHeld : session.held ≠ []) :
    (Assembly.ofLines session.buffer).IsHeld :=
  (isUnfinished_iff session.buffer).mp (hReachable.isUnfinished hHeld)

theorem openBlocks_eq : session.openBlocks = (Assembly.ofLines session.buffer).blocks :=
  (blocks_ofLines session.buffer).symm

theorem openBlocks_of_idle (hIdle : session.held = []) : session.openBlocks = [] := by
  rw [openBlocks, buffer, hIdle]
  rfl

/-- While lines are held, a block is open. -/
theorem Reachable.openBlocks_ne_nil (hReachable : session.Reachable)
    (hHeld : session.held ≠ []) : session.openBlocks ≠ [] := by
  obtain ⟨-, frame, hLast, -⟩ := hReachable.isHeld hHeld
  rw [openBlocks_eq]
  exact List.ne_nil_of_mem (List.mem_map_of_mem (List.mem_of_getLast? hLast))

/-- Behind a closing word, the innermost block has been ended. -/
theorem ofLines_closer {block : OpenBlock} {outer : List OpenBlock}
    (hOpen : session.openBlocks = block :: outer) :
    ∃ frame frames, (Assembly.ofLines session.buffer).frames = frame :: frames ∧
      frames.length = outer.length ∧
      Assembly.ofLines (session.linesWith block.kind.closer) =
        (Assembly.ofLines session.buffer).pop Frame.close := by
  rw [openBlocks_eq, Assembly.blocks] at hOpen
  obtain ⟨frame, frames, hFrames, hBlock, hOuter⟩ := List.map_eq_cons_iff.mp hOpen
  have hInner : (Assembly.ofLines session.buffer).innermost? = some block.kind := by
    rw [Assembly.innermost?, Assembly.surroundings, hFrames, ← hBlock]
    rfl
  obtain ⟨number, hLines⟩ := linesWith_closer session block.kind
  refine ⟨frame, frames, hFrames, ?_, ?_⟩
  · rw [← hOuter, List.length_map]
  · rw [hLines, Assembly.ofLines, List.foldl_append]
    exact Assembly.feed_closer hInner number

/-- **The closing word of an inner block is held**, and the block is closed. -/
theorem Reachable.enter_closer (hReachable : session.Reachable)
    (hHeld : session.held ≠ [])
    {block next : OpenBlock} {others : List OpenBlock}
    (hOpen : session.openBlocks = block :: next :: others) :
    session.enter block.kind.closer =
        { result := .ok .held
          session := { session with held := session.held ++ [block.kind.closer] } } ∧
      (session.enter block.kind.closer).session.openBlocks = next :: others := by
  obtain ⟨frame, frames, hFrames, hLength, hLines⟩ := ofLines_closer hOpen
  obtain ⟨inner, rest, rfl⟩ := List.exists_cons_of_length_eq_add_one hLength
  have hUnfinished :
      (read .provisional (session.linesWith block.kind.closer)).IsUnfinished := by
    rw [isUnfinished_iff, hLines]
    exact (hReachable.isHeld hHeld).pop hFrames
  have hEnter := enter_of_unfinished block.kind.words_closer hUnfinished
  rw [block.kind.trimmed_closer] at hEnter
  have hBuffer : (session.enter block.kind.closer).session.buffer =
      session.linesWith block.kind.closer := by
    rw [hEnter, linesWith, block.kind.trimmed_closer]
    rfl
  refine ⟨hEnter, ?_⟩
  rw [openBlocks_eq, hBuffer, hLines, Assembly.blocks_pop, ← openBlocks_eq, hOpen,
    List.tail_cons]

/-- **The closing word of the outermost block is executed**, with everything
that was held. -/
theorem Reachable.enter_last_closer (hReachable : session.Reachable)
    (hHeld : session.held ≠ [])
    {block : OpenBlock} (hOpen : session.openBlocks = [block]) :
    session.enter block.kind.closer =
      ({ session with held := [] }.runLines
        (session.linesWith block.kind.closer)).withValue
        .executed := by
  obtain ⟨frame, frames, hFrames, hLength, hLines⟩ := ofLines_closer hOpen
  cases List.eq_nil_of_length_eq_zero hLength
  obtain ⟨hClosed, hStmts⟩ := (hReachable.isHeld hHeld).pop_last hFrames
  refine enter_of_stmts block.kind.words_closer fun problem => ?_
  rw [read, Assembly.items_finish_provisional, hLines, hClosed]
  simpa using hStmts problem

end

/-- Enters lines one after another, whatever becomes of each. -/
def enterEach (session : Session) (lines : List String) : Session :=
  lines.foldl (fun session line => (session.enter line).session) session

end Session

/-- The closing words of blocks. -/
def OpenBlock.closers (blocks : List OpenBlock) : List String :=
  blocks.map fun block => block.kind.closer

/-- Short of the outermost block, closing words keep the session holding. -/
theorem Session.Reachable.enterEach_closers (front : List OpenBlock) {block : OpenBlock}
    {back : List OpenBlock} : ∀ {session : Session}, session.Reachable →
      session.held ≠ [] →
    session.openBlocks = front ++ block :: back →
    let before := session.enterEach (OpenBlock.closers front)
    before.Reachable ∧ before.held ≠ [] ∧ before.openBlocks = block :: back ∧
      before.store = session.store := by
  induction front with
  | nil => exact fun hReachable hHeld hOpen => ⟨hReachable, hHeld, hOpen, rfl⟩
  | cons inner front ih =>
      intro session hReachable hHeld hOpen
      obtain ⟨next, others, hRest⟩ : ∃ next others, front ++ block :: back =
        next :: others :=
        List.exists_cons_of_ne_nil
          (List.append_ne_nil_of_right_ne_nil _ (List.cons_ne_nil _ _))
      rw [List.cons_append, hRest] at hOpen
      obtain ⟨hEnter, hNext⟩ := hReachable.enter_closer hHeld hOpen
      have hStill : (session.enter inner.kind.closer).session.held ≠ [] := by
        rw [hEnter]
        exact List.append_ne_nil_of_right_ne_nil _ (List.cons_ne_nil _ _)
      have hStore : (session.enter inner.kind.closer).session.store =
          session.store := by
        rw [hEnter]
      obtain ⟨hLater, hHolding, hBlocks, hSame⟩ :=
        ih (hReachable.enter inner.kind.closer) hStill (hNext.trans hRest.symm)
      exact ⟨hLater, hHolding, hBlocks, hSame.trans hStore⟩

/-- **What is held can always be closed.** The closing words of the open blocks, from
the innermost to the outermost, close one block each. All but the last are held, and the
last one has all the lines executed, so that nothing is held any more. -/
theorem held_of_closers {session : Session} (hReachable : session.Reachable)
    (hHeld : session.held ≠ []) :
    session.openBlocks ≠ [] ∧
    (∀ (front : List OpenBlock) (block : OpenBlock) (back : List OpenBlock),
      session.openBlocks = front ++ block :: back →
      let before := session.enterEach (OpenBlock.closers front)
      let entry := before.enter block.kind.closer
      before.openBlocks = block :: back ∧ before.store = session.store ∧
        entry.session.openBlocks = back ∧
        (back ≠ [] → entry.result = .ok .held ∧ entry.gestures = []) ∧
        (back = [] → entry =
          ({ before with held := [] }.runLines
            (before.linesWith block.kind.closer)).withValue
            .executed)) ∧
    (session.enterEach (OpenBlock.closers session.openBlocks)).held = [] := by
  have hEach : ∀ (front : List OpenBlock) (block : OpenBlock) (back : List OpenBlock),
      session.openBlocks = front ++ block :: back →
      let before := session.enterEach (OpenBlock.closers front)
      let entry := before.enter block.kind.closer
      before.openBlocks = block :: back ∧ before.store = session.store ∧
        entry.session.openBlocks = back ∧
        (back ≠ [] → entry.result = .ok .held ∧ entry.gestures = []) ∧
        (back = [] → entry =
          ({ before with held := [] }.runLines
            (before.linesWith block.kind.closer)).withValue
            .executed) := by
    intro front block back hOpen before entry
    obtain ⟨hBefore, hHolding, hBlocks, hStore⟩ :=
      hReachable.enterEach_closers front hHeld hOpen
    refine ⟨hBlocks, hStore, ?_⟩
    cases back with
    | nil =>
        have hLast := hBefore.enter_last_closer hHolding hBlocks
        refine ⟨?_, fun hMore => absurd rfl hMore, fun _ => hLast⟩
        refine Session.openBlocks_of_idle ?_
        unfold entry before
        rw [hLast]
        rfl
    | cons next others =>
        obtain ⟨hEnter, hNext⟩ := hBefore.enter_closer hHolding hBlocks
        refine ⟨hNext, fun _ => ?_, fun hNone => absurd hNone (List.cons_ne_nil _ _)⟩
        unfold entry before
        rw [hEnter]
        exact ⟨rfl, rfl⟩
  have hSome := hReachable.openBlocks_ne_nil hHeld
  refine ⟨hSome, hEach, ?_⟩
  obtain ⟨front, block, hOpen⟩ :=
    (List.eq_nil_or_concat session.openBlocks).resolve_left hSome
  rw [List.concat_eq_append] at hOpen
  obtain ⟨-, -, -, -, hLast⟩ := hEach front block [] hOpen
  rw [hOpen, OpenBlock.closers, List.map_append, Session.enterEach, List.foldl_append]
  show (Session.enter _ block.kind.closer).session.held = []
  exact congrArg (fun entry => entry.session.held) (hLast rfl)

/-- A method with a loop in a loop, which is not allowed and has to be
closed all the same. -/
theorem held_of_closers_nested :
    let session : Session := { held := ["method m", "loop 2", "loop 3"] }
    session.Reachable ∧
      session.openBlocks =
        [⟨.loop, ⟨3, "loop 3"⟩⟩, ⟨.loop, ⟨2, "loop 2"⟩⟩, ⟨.method, ⟨1, "method m"⟩⟩] ∧
      (session.enterEach ["endloop", "endloop", "endmethod"]).held = [] := by
  intro session
  have hFirst : ({} : Session).enter "method m" =
      { result := .ok .held, session := { held := ["method m"] } } := by
    have hText : Text.trimmed "method m" = "method m" := by cbv
    rw [enter_of_open (by cbv) (by cbv) (by cbv), hText]
    rfl
  have hSecond : ({ held := ["method m"] } : Session).enter "loop 2" =
      { result := .ok .held, session := { held := ["method m", "loop 2"] } } := by
    have hText : Text.trimmed "loop 2" = "loop 2" := by cbv
    rw [enter_of_open (by cbv) (by cbv) (by cbv), hText]
    rfl
  have hThird : ({ held := ["method m", "loop 2"] } : Session).enter "loop 3" =
      { result := .ok .held, session } := by
    have hText : Text.trimmed "loop 3" = "loop 3" := by cbv
    rw [enter_of_open (by cbv) (by cbv) (by cbv), hText]
    rfl
  have hReachable : session.Reachable := by
    have hEntered :=
      (((Session.Reachable.fresh {}).enter "method m").enter "loop 2").enter "loop 3"
    rw [hFirst, hSecond, hThird] at hEntered
    exact hEntered
  have hOpen : session.openBlocks =
      [⟨.loop, ⟨3, "loop 3"⟩⟩, ⟨.loop, ⟨2, "loop 2"⟩⟩, ⟨.method, ⟨1, "method m"⟩⟩] := by
    unfold session
    cbv
  obtain ⟨-, -, hClosed⟩ := held_of_closers hReachable (List.cons_ne_nil _ _)
  rw [hOpen] at hClosed
  exact ⟨hReachable, hOpen, hClosed⟩

end PenScript
