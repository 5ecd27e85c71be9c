import PenScript.Proofs.HeldLines
import PenScript.Proofs.LaterLines

/-!
# The line that closes a block

When a line leaves no block open, it is executed with the lines held before it. The same
lines can be run as one script. Where they are statements, both ways do the same.

They part where one of the items is a failure. A script is executed up to its first
failure, and what comes before it keeps its effect. Lines that were entered are read as
a whole before any of them is executed, and a failure among them refuses them all. So
the error is that of the script if the statements in front of it have none of their own,
but nothing has been executed. Words after a closing word are such a failure: it counts
from behind the block, which a script has executed by then.

## Main results

* `Line.ofSource_snoc`: one more text adds its lines;
* `items_of_closed`: where no item tells of an open block, the end can
  be taken as either;
* `runItems_of_failure`: items are executed up to the first failure;
* `enter_of_closed`: the line that closes a block, entered and in a script.
-/

namespace PenScript

open Exec

/-! ## One more text -/

namespace Line

/-- **One more text adds its own lines.** -/
theorem ofSource_snoc (texts : List String) : ∃ number, ∀ text,
    ofSource (String.intercalate "\n" (texts ++ [text])) =
      ofSource (String.intercalate "\n" texts) ++ ofPieces number (pieces text) := by
  by_cases hSome : texts = []
  · subst hSome
    refine ⟨1, fun text => ?_⟩
    rw [List.nil_append, String.intercalate_singleton]
    rfl
  · obtain ⟨number, hAppend⟩ := ofSource_append_pieces (String.intercalate "\n" texts)
    refine ⟨number, fun text => ?_⟩
    rw [String.intercalate_append_of_ne_nil hSome (List.cons_ne_nil _ _),
      String.intercalate_singleton, hAppend]

theorem ofPieces_of_blank {text : String} (hNone : words text.toList = [])
    (number : Nat) : ofPieces number (pieces text) = [] := by
  refine List.filterMap_eq_nil_iff.mpr fun (piece, place) hMem => ?_
  have hPiece : piece ∈ pieces text := List.fst_mem_of_mem_zipIdx hMem
  simp only [ofPiece?, words_of_mem_pieces hNone hPiece]

theorem pieces_of_oneLine {text : String} (hText : OneLine text) :
    pieces text = [text.toList] := by
  have hPieces := pieces_intercalate (List.cons_ne_nil text []) fun other hMem => by
    rw [List.mem_singleton.mp hMem]
    exact hText
  rwa [String.intercalate_singleton] at hPieces

theorem ofPieces_trimmed {text : String} (hText : OneLine text) (number : Nat) :
    ofPieces number (pieces (Text.trimmed text)) = ofPieces number (pieces text) := by
  rw [pieces_of_oneLine hText, pieces_of_oneLine (oneLine_trimmed hText),
    Text.toList_trimmed]
  simp only [ofPieces, List.zipIdx_singleton, List.filterMap_cons, ofPiece?_trim]

end Line

section

variable (session : Session) {line : String}

theorem linesWith_of_blank (hBlank : Line.words line.toList = []) :
    session.linesWith line = session.buffer := by
  have hNone : Line.words (Text.trimmed line).toList = [] := by
    rw [Text.toList_trimmed, Line.words_trim, hBlank]
  obtain ⟨number, hSnoc⟩ := Line.ofSource_snoc session.held
  rw [Session.linesWith, hSnoc, Line.ofPieces_of_blank hNone, List.append_nil,
    Session.buffer]

/-- A line without line breaks is read with the blanks around it or without them. -/
theorem ofSource_snoc_of_oneLine (hLine : OneLine line) :
    Line.ofSource (String.intercalate "\n" (session.held ++ [line])) =
      session.linesWith line := by
  obtain ⟨number, hSnoc⟩ := Line.ofSource_snoc session.held
  rw [Session.linesWith, hSnoc, hSnoc, Line.ofPieces_trimmed hLine]

end

/-! ## Where no block is left open -/

theorem Reading.not_isUnfinished {reading : Reading}
    (hClosed : reading.isOpen = false) : ¬reading.IsUnfinished := by
  rintro ⟨stmts, problem, hItems, hKind⟩
  refine isOpen_eq_false_iff.mp hClosed problem ?_ hKind
  rw [hItems]
  exact List.mem_append_right _ (List.mem_singleton_self _)

theorem Frame.expired_fill_of_fault {frame : Frame} {fault : Fault}
    (hFault : frame.header.fault? = some fault) (stmts : List Stmt) :
    (frame.fill stmts).expired = .invalid ⟨fault, frame.site⟩ false := by
  have hFilled : (frame.fill stmts).header.fault? = some fault := hFault
  unfold expired expire
  split
  · rw [close_of_fault hFilled]
    rfl
  · rw [abandon_of_fault hFilled]
    rfl

/-- Open blocks become one statement at top level, which the outermost of them is. -/
theorem settle_of_getLast? {frames : List Frame} {frame : Frame}
    (hLast : frames.getLast? = some frame) :
    ∀ stmts, ∃ inner, settle frames stmts = [(frame.fill inner).expired] := by
  induction frames with
  | nil => cases hLast
  | cons first outer ih =>
      intro stmts
      cases outer with
      | nil =>
          cases hLast
          exact ⟨stmts, rfl⟩
      | cons next others =>
          rw [List.getLast?_cons_cons] at hLast
          exact ih hLast _

/-- **Where no item tells of an open block**, the end can be taken as either. A block
may be open even so, if its header is faulty. -/
theorem items_of_closed {lines : List Line}
    (hClosed : (read .provisional lines).isOpen = false) :
    (read .provisional lines).items = (read .complete lines).items := by
  have hProvisional := (Assembly.ofLines lines).items_finish_provisional
  have hComplete : (read .complete lines).items = (Assembly.ofLines lines).settled :=
    (Assembly.ofLines lines).items_finish
  rw [hComplete, Assembly.settled, read, hProvisional]
  cases hFrames : (Assembly.ofLines lines).frames.getLast? with
  | none =>
      rw [List.getLast?_eq_none_iff.mp hFrames]
      rfl
  | some frame =>
      obtain ⟨inner, hSettle⟩ := settle_of_getLast? hFrames []
      have hItem : Except.error frame.failure ∈ (read .provisional lines).items := by
        rw [read, hProvisional, hFrames]
        exact List.mem_append_right _ (List.mem_singleton_self _)
      have hKind := Reading.isOpen_eq_false_iff.mp hClosed _ hItem
      cases hFault : frame.header.fault? with
      | none =>
          rw [Frame.failure, hFault] at hKind
          exact absurd rfl hKind
      | some fault =>
          have hFailure : frame.failure = ⟨fault, frame.site⟩ := by
            rw [Frame.failure, hFault, Option.getD_some]
          rw [hSettle, Frame.expired_fill_of_fault hFault, Option.map_some, hFailure]
          rfl

/-! ## Failures -/

theorem Reading.firstFault?_of_failure {reading : Reading} {stmts : List Stmt}
    {problem : Diagnostic} {rest : List Item}
    (hItems : reading.items = stmts.map .ok ++ .error problem :: rest)
    (hKind : problem.kind ≠ .unterminatedBlock) :
    reading.firstFault? = some problem := by
  rw [firstFault?, hItems]
  clear hItems
  induction stmts with
  | nil => simp [hKind]
  | cons stmt others ih => exact ih

/-- **Items are executed up to the first failure.** -/
theorem runItems_of_failure (limits : Limits) (stmts : List Stmt) (problem : Diagnostic)
    (rest : List Item) (machine : Machine) :
    runItems limits (stmts.map .ok ++ .error problem :: rest) machine =
      match runItems limits (stmts.map .ok) machine with
      | .ok _ after => .error problem after
      | .error found after => .error found after := by
  rw [runItems_append, bind_apply]
  cases runItems limits (stmts.map .ok) machine with
  | ok _ after | error found after => rfl

theorem runLines_nil (session : Session) :
    session.runLines [] = { result := .ok (), session } := by
  rw [Session.runLines, read_nil]
  rfl

/-- A script with a failure executes the statements in front of it. -/
theorem runLines_of_failure {session : Session} {lines : List Line} {stmts : List Stmt}
    {problem : Diagnostic} {rest : List Item}
    (hItems : (read .complete lines).items = stmts.map .ok ++ .error problem :: rest) :
    let front := runItems session.limits (stmts.map .ok) session.machine
    (session.runLines lines).result = (outcome front).bind (fun _ => .error problem) ∧
      (session.runLines lines).session.store = (finalState front).store ∧
      (session.runLines lines).gestures = (finalState front).trace.toList := by
  intro front
  have hRun := runItems_of_failure session.limits stmts problem rest session.machine
  rw [← hItems] at hRun
  unfold front Session.runLines
  unfold Session.machine at hRun ⊢
  rw [hRun]
  cases runItems session.limits (stmts.map .ok) { store := session.store } with
  | ok _ after | error found after => exact ⟨rfl, rfl, rfl⟩

/-! ## The last line -/

section

variable {session : Session} {line : String}
  (hClosed : (read .provisional (session.linesWith line)).isOpen = false)

include hClosed

/-- A line without words closes nothing, so nothing was open. -/
theorem held_of_closed_of_blank (hReachable : session.Reachable)
    (hBlank : Line.words line.toList = []) :
    session.held = [] ∧ session.linesWith line = [] := by
  rw [linesWith_of_blank session hBlank] at hClosed ⊢
  have hHeld : session.held = [] := by
    by_contra hSome
    exact Reading.not_isUnfinished hClosed (hReachable.isUnfinished hSome)
  refine ⟨hHeld, ?_⟩
  rw [Session.buffer, hHeld]
  rfl

theorem enter_of_statements (hReachable : session.Reachable)
    (hStmts : ∀ problem,
      Except.error problem ∉ (read .provisional (session.linesWith line)).items) :
    let entry := session.enter line
    let batch := session.runLines (session.linesWith line)
    entry.result = batch.result.map (fun _ => .executed) ∧
      entry.session.store = batch.session.store ∧ entry.gestures = batch.gestures ∧
      entry.steps = batch.steps := by
  intro entry batch
  unfold entry
  cases enter_course session line with
  | blank hBlank hEnter =>
      obtain ⟨hHeld, hLines⟩ :=
        held_of_closed_of_blank hClosed hReachable (List.isEmpty_iff.mp hBlank)
      unfold batch
      rw [hEnter, hLines, runLines_nil, Session.isPending, hHeld]
      exact ⟨rfl, rfl, rfl, rfl⟩
  | @refused problem hFault hEnter =>
      obtain ⟨item, hMem, hFound⟩ := List.exists_of_findSome?_eq_some hFault
      cases item with
      | ok stmt => cases hFound
      | error other => exact absurd hMem (hStmts other)
  | held hUnfinished hEnter =>
      exact absurd hUnfinished (Reading.not_isUnfinished hClosed)
  | executed _ hEnter =>
      rw [hEnter]
      unfold batch Submission.withValue Session.runLines
      dsimp only
      exact ⟨rfl, rfl, rfl, rfl⟩

theorem enter_of_failure (hReachable : session.Reachable) {stmts : List Stmt}
    {problem : Diagnostic} {rest : List Item}
    (hItems : (read .provisional (session.linesWith line)).items =
      stmts.map .ok ++ .error problem :: rest) :
    session.enter line =
      { result := .error problem, session := { session with held := [] } } := by
  have hMem : Except.error problem ∈
      (read .provisional (session.linesWith line)).items := by
    rw [hItems]
    exact List.mem_append_right _ List.mem_cons_self
  cases enter_course session line with
  | blank hBlank _ =>
      obtain ⟨-, hLines⟩ :=
        held_of_closed_of_blank hClosed hReachable (List.isEmpty_iff.mp hBlank)
      rw [hLines] at hMem
      cases hMem
  | refused hFault hEnter =>
      have hKind := Reading.isOpen_eq_false_iff.mp hClosed problem hMem
      rw [Reading.firstFault?_of_failure hItems hKind] at hFault
      cases hFault
      exact hEnter
  | held hUnfinished _ => exact absurd hUnfinished (Reading.not_isUnfinished hClosed)
  | executed hStmts _ => exact absurd hMem (hStmts problem)

end

/-- **The line that closes a block**, entered and in a script. Both ways do the same
where there are only statements. A failure stops the script behind the statements in
front of it, and refuses the entered lines before any of them is executed. -/
theorem enter_of_closed {session : Session} (hReachable : session.Reachable)
    {line text : String} (hText : text = Text.trimmed line ∨ text = line ∧ OneLine line)
    (hClosed : (read .provisional (session.linesWith line)).isOpen = false) :
    let entry := session.enter line
    let batch := session.runSource (String.intercalate "\n" (session.held ++ [text]))
    let items := (read .provisional (session.linesWith line)).items
    ((∀ problem, Except.error problem ∉ items) →
      entry.result = batch.result.map (fun _ => .executed) ∧
        entry.session.store = batch.session.store ∧ entry.gestures = batch.gestures ∧
        entry.steps = batch.steps) ∧
    (∀ (stmts : List Stmt) (problem : Diagnostic) (rest : List Item),
      items = stmts.map .ok ++ .error problem :: rest →
      (entry.result = .error problem ∧ entry.session.store = session.store ∧
        entry.gestures = []) ∧
      let front := runItems session.limits (stmts.map .ok) session.machine
      batch.result = (outcome front).bind (fun _ => .error problem) ∧
        batch.session.store = (finalState front).store ∧
        batch.gestures = (finalState front).trace.toList) := by
  intro entry batch items
  have hLines : Line.ofSource (String.intercalate "\n" (session.held ++ [text])) =
      session.linesWith line := by
    rcases hText with rfl | ⟨rfl, hLine⟩
    · rfl
    · exact ofSource_snoc_of_oneLine session hLine
  have hBatch : batch = session.runLines (session.linesWith line) := by
    unfold batch Session.runSource
    rw [hLines]
  rw [hBatch]
  refine ⟨enter_of_statements hClosed hReachable,
    fun stmts problem rest hItems => ⟨?_, ?_⟩⟩
  · unfold entry
    rw [enter_of_failure hClosed hReachable hItems]
    exact ⟨rfl, rfl, rfl⟩
  · refine @runLines_of_failure session _ stmts problem rest ?_
    rw [← items_of_closed hClosed]
    exact hItems

/-- A loop that only has to be closed. -/
theorem reachable_loop : ({ held := ["loop 2", "circle 1"] } : Session).Reachable := by
  have hTexts : Text.trimmed "loop 2" = "loop 2" ∧
      Text.trimmed "circle 1" = "circle 1" :=
    ⟨by cbv, by cbv⟩
  have hFirst : ({} : Session).enter "loop 2" =
      { result := .ok .held, session := { held := ["loop 2"] } } := by
    rw [enter_of_open (by cbv) (by cbv) (by cbv), hTexts.1]
    rfl
  have hSecond : ({ held := ["loop 2"] } : Session).enter "circle 1" =
      { result := .ok .held, session := { held := ["loop 2", "circle 1"] } } := by
    rw [enter_of_open (by cbv) (by cbv) (by cbv), hTexts.2]
    rfl
  have hEntered := ((Session.Reachable.fresh {}).enter "loop 2").enter "circle 1"
  rw [hFirst, hSecond] at hEntered
  exact hEntered

/-- The loop is closed as it should be. -/
theorem enter_of_closed_loop :
    let session : Session := { held := ["loop 2", "circle 1"] }
    let entry := session.enter "endloop"
    let batch :=
      session.runSource (String.intercalate "\n" (session.held ++ ["endloop"]))
    OneLine "endloop" ∧ entry.result = batch.result.map (fun _ => .executed) ∧
      entry.gestures = batch.gestures ∧ batch.gestures = [.circle 1, .circle 1] := by
  intro session entry batch
  let lines : List Line :=
    [⟨⟨1, "loop 2"⟩, "loop", ["2"]⟩, ⟨⟨2, "circle 1"⟩, "circle", ["1"]⟩,
      ⟨⟨3, "endloop"⟩, "endloop", []⟩]
  let turns : Stmt :=
    .loop (.number 2) [.draw (.circle (.number 1)) ⟨2, "circle 1"⟩] ⟨1, "loop 2"⟩
  have hLines : session.linesWith "endloop" = lines := by
    unfold session lines
    cbv
  have hOneLine : OneLine "endloop" := by decide
  have hStmts : ∀ problem,
      Except.error problem ∉
        (read .provisional (session.linesWith "endloop")).items := by
    intro problem hMem
    have hItems : (read .provisional lines).items = [.ok turns] := by
      unfold lines turns
      cbv
    rw [hLines, hItems] at hMem
    cases List.mem_singleton.mp hMem
  have hClosed : (read .provisional (session.linesWith "endloop")).isOpen = false := by
    have hNone : (read .provisional lines).diagnostics = [] := by
      unfold lines
      cbv
    apply Reading.isOpen_of_diagnostics
    rw [hLines, hNone]
    exact fun _ hMem => absurd hMem List.not_mem_nil
  have hGestures : (session.runLines lines).gestures = [.circle 1, .circle 1] := by
    unfold session lines
    cbv
  obtain ⟨hResult, -, hSame, -⟩ :=
    (enter_of_closed reachable_loop (Or.inr ⟨rfl, hOneLine⟩) hClosed).1 hStmts
  have hBatch : batch = session.runLines lines := by
    rw [← hLines]
    rfl
  refine ⟨hOneLine, hResult, hSame, ?_⟩
  rw [hBatch, hGestures]

/-- **A closing word with a word too many.** As a script the loop is executed and the
line then fails. Entered, it fails at once. -/
theorem gestures_of_faulty_closer :
    let session : Session := { held := ["loop 2", "circle 1"] }
    let entry := session.enter "endloop now"
    let batch :=
      session.runSource (String.intercalate "\n" (session.held ++ ["endloop now"]))
    let problem : Diagnostic := ⟨.wrongCount (.closes .loop) 0 1, ⟨3, "endloop now"⟩⟩
    session.Reachable ∧
      (∀ problem ∈ (read .provisional (session.linesWith "endloop now")).diagnostics,
        problem.kind ≠ .unterminatedBlock) ∧
      entry.result = .error problem ∧ batch.result = .error problem ∧
        entry.gestures = [] ∧
      batch.gestures = [.circle 1, .circle 1] := by
  intro session entry batch problem
  let lines : List Line :=
    [⟨⟨1, "loop 2"⟩, "loop", ["2"]⟩, ⟨⟨2, "circle 1"⟩, "circle", ["1"]⟩,
      ⟨⟨3, "endloop now"⟩, "endloop", ["now"]⟩]
  have hLines : session.linesWith "endloop now" = lines := by
    unfold session lines
    cbv
  have hReported : (read .provisional lines).diagnostics = [problem] := by
    unfold lines problem
    cbv
  have hFault : (read .provisional (session.linesWith "endloop now")).firstFault? =
      some problem := by
    rw [hLines]
    unfold lines problem
    cbv
  have hEntry : entry = { result := .error problem, session := {} } :=
    enter_of_fault (by cbv) hFault
  have hBatch : batch = session.runLines lines := by
    rw [← hLines]
    rfl
  have hResult : (session.runLines lines).result = .error problem := by
    unfold session lines problem
    cbv
  have hGestures : (session.runLines lines).gestures = [.circle 1, .circle 1] := by
    unfold session lines
    cbv
  refine ⟨reachable_loop, ?_, ?_, ?_, ?_, ?_⟩
  · rw [hLines, hReported]
    intro other hMem
    rw [List.mem_singleton.mp hMem]
    decide
  · rw [hEntry]
  · rw [hBatch, hResult]
  · rw [hEntry]
  · rw [hBatch, hGestures]

end PenScript
