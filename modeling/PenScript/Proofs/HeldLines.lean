import PenScript.Proofs.LineEntry
import PenScript.Proofs.Reachable

/-!
# The lines that are held

A session holds the lines of a block that is not closed yet, and reads them anew with
each further line. What it holds is at any time exactly the beginning of a block: read
by themselves, the held lines are statements and then one block, which lacks its closing
word. They are never blank, never without an open block, and there is never a fault in
them that more lines could not remove.

An entered line has one of four outcomes. A line without words changes nothing. A
fault among the lines read gives them up. An open block keeps them. Otherwise they are
executed, and nothing is held any more. Only in the last case anything is executed,
so a line that is held, or refused as it is read, leaves the variables, the methods
and the drawing as they are.

## Main results

* `enter_course`: the four outcomes of an entered line;
* `Session.Reachable.isUnfinished`: what a session holds is unfinished;
* `held_of_enter`: what is held after a line, and what the line leaves as it is.
-/

namespace PenScript

/-! ## Unfinished lines -/

/-- Whether reading found statements and then a block that is not closed. -/
def Reading.IsUnfinished (reading : Reading) : Prop :=
  ∃ (stmts : List Stmt) (problem : Diagnostic),
    reading.items = stmts.map .ok ++ [.error problem] ∧
      problem.kind = .unterminatedBlock

/-- Items without failures are statements. -/
theorem exists_stmts_of_items {items : List Item}
    (hStmts : ∀ problem, Except.error problem ∉ items) :
    ∃ stmts : List Stmt, items = stmts.map Except.ok := by
  have hEach : ∀ item ∈ items, item ∈ Set.range (Except.ok : Stmt → Item) := by
    intro item hMem
    cases item with
    | ok stmt => exact ⟨stmt, rfl⟩
    | error problem => exact absurd hMem (hStmts problem)
  have hRange : items ∈ Set.range (List.map (Except.ok : Stmt → Item)) := by
    rw [Set.range_list_map]
    exact hEach
  obtain ⟨stmts, hSame⟩ := hRange
  exact ⟨stmts, hSame.symm⟩

section

variable {lines : List Line} {problem : Diagnostic}

theorem Reading.kind_of_firstFault? {reading : Reading}
    (hFaultless : reading.firstFault? = none)
    (hMem : Except.error problem ∈ reading.items) :
    problem.kind = .unterminatedBlock := by
  have hItem := List.findSome?_eq_none_iff.mp hFaultless _ hMem
  by_contra hOther
  simp [hOther] at hItem

/-- What is complete has no failures in it, if more lines could remove all there are. -/
theorem not_mem_ofLines (hFaultless : (read .provisional lines).firstFault? = none)
    (problem : Diagnostic) :
    Except.error problem ∉ (Assembly.ofLines lines).items.toList := by
  intro hMem
  have hItem : Except.error problem ∈ (read .provisional lines).items := by
    rw [read, Assembly.items_finish_provisional]
    exact List.mem_append_left _ hMem
  have hKind := Reading.kind_of_firstFault? hFaultless hItem
  exact Assembly.kind_ne_of_mem_items (Array.mem_toList_iff.mp hMem) hKind

/-- **Lines that are held are unfinished.** -/
theorem isUnfinished_of_open (hFaultless : (read .provisional lines).firstFault? = none)
    (hOpen : (read .provisional lines).isOpen = true) :
    (read .provisional lines).IsUnfinished := by
  obtain ⟨stmts, hStmts⟩ := exists_stmts_of_items (not_mem_ofLines hFaultless)
  have hItems := (Assembly.ofLines lines).items_finish_provisional
  rw [hStmts] at hItems
  cases hFrames : (Assembly.ofLines lines).frames.getLast? with
  | none =>
      -- Statements alone leave nothing open.
      rw [hFrames] at hItems
      rw [Reading.isOpen, read, hItems] at hOpen
      simp at hOpen
  | some frame =>
      rw [hFrames] at hItems
      refine ⟨stmts, frame.failure, hItems, Reading.kind_of_firstFault? hFaultless ?_⟩
      rw [read, hItems]
      exact List.mem_append_right _ (List.mem_singleton_self _)

/-- Where nothing is open and nothing is refused, there are only statements. -/
theorem not_mem_of_settled (hFaultless : (read .provisional lines).firstFault? = none)
    (hSettled : (read .provisional lines).isOpen = false) (problem : Diagnostic) :
    Except.error problem ∉ (read .provisional lines).items := by
  intro hMem
  have hKind := Reading.kind_of_firstFault? hFaultless hMem
  exact Reading.isOpen_eq_false_iff.mp hSettled problem hMem hKind

end

/-! ## The outcomes of a line -/

/-- What becomes of an entered line. -/
inductive Session.Course (session : Session) (line : String) : Prop where
  /-- It has no words. -/
  | blank (hBlank : (Line.words line.toList).isEmpty = true)
      (hEnter : session.enter line =
        { result := .ok (if session.isPending then .held else .executed), session })
  /-- It is refused, with the lines held before. -/
  | refused {problem : Diagnostic}
      (hFault : (read .provisional (session.linesWith line)).firstFault? = some problem)
      (hEnter : session.enter line =
        { result := .error problem, session := { session with held := [] } })
  /-- It is held. -/
  | held (hUnfinished : (read .provisional (session.linesWith line)).IsUnfinished)
      (hEnter : session.enter line =
        { result := .ok .held
          session := { session with held := session.held ++ [Text.trimmed line] } })
  /-- It is executed, with the lines held before. -/
  | executed
      (hStmts : ∀ problem,
        Except.error problem ∉ (read .provisional (session.linesWith line)).items)
      (hEnter : session.enter line =
        ({ session with held := [] }.runLines (session.linesWith line)).withValue
          .executed)

/-- **The four outcomes of a line.** -/
theorem enter_course (session : Session) (line : String) : session.Course line := by
  cases hWords : (Line.words line.toList).isEmpty with
  | true => exact .blank hWords (enter_of_blank hWords)
  | false =>
      cases hFault : (read .provisional (session.linesWith line)).firstFault? with
      | some problem => exact .refused hFault (enter_of_fault hWords hFault)
      | none =>
          cases hOpen : (read .provisional (session.linesWith line)).isOpen with
          | true =>
              exact .held (isUnfinished_of_open hFault hOpen)
                (enter_of_open hWords hFault hOpen)
          | false =>
              exact .executed (not_mem_of_settled hFault hOpen)
                (enter_of_settled hWords hFault hOpen)

/-! ## What sessions hold -/

/-- The lines that are held, as they are read. -/
def Session.buffer (session : Session) : List Line :=
  Line.ofSource (String.intercalate "\n" session.held)

/-- **What a session holds is unfinished.** -/
theorem Session.Reachable.isUnfinished {session : Session}
    (hReachable : session.Reachable) :
    session.held ≠ [] → (read .provisional session.buffer).IsUnfinished := by
  induction hReachable with
  | fresh limits => exact fun hHeld => absurd rfl hHeld
  | @runSource session _ source ih =>
      rw [Session.buffer, Session.held_runSource]
      exact ih
  | @enter session _ line ih =>
      cases enter_course session line with
      | blank _ hEnter =>
          rw [hEnter]
          exact ih
      | refused _ hEnter =>
          rw [hEnter]
          exact fun hHeld => absurd rfl hHeld
      | held hUnfinished hEnter =>
          rw [hEnter]
          exact fun _ => hUnfinished
      | executed _ hEnter =>
          rw [hEnter]
          exact fun hHeld => absurd rfl hHeld
  | reset _ _ => exact fun hHeld => absurd rfl hHeld

section

variable (session : Session) (line : String)

/-- A line that is executed is not held. -/
theorem withValue_executed_ne (submission : Submission Unit) :
    (submission.withValue Progress.executed).result ≠ .ok .held := by
  intro hSame
  unfold Submission.withValue at hSame
  cases hResult : submission.result with
  | ok _ | error problem =>
      rw [hResult] at hSame
      cases hSame

theorem isPending_enter :
    (session.enter line).session.isPending = true ↔
      (session.enter line).result = .ok .held := by
  cases enter_course session line with
  | blank _ hEnter =>
      rw [hEnter]
      cases session.isPending <;> simp
  | refused _ hEnter =>
      rw [hEnter]
      exact iff_of_false Bool.false_ne_true fun hHeld => by cases hHeld
  | held _ hEnter =>
      rw [hEnter]
      simp [Session.isPending]
  | executed _ hEnter =>
      rw [hEnter]
      exact iff_of_false Bool.false_ne_true (withValue_executed_ne _)

/-- A line that is held, or refused as it is read, leaves everything else as it is. -/
theorem enter_quiet
    (hUnexecuted : (session.enter line).result = .ok .held ∨
      ∃ problem, (session.enter line).result = .error problem ∧
        Except.error problem ∈ (read .provisional (session.linesWith line)).items) :
    (session.enter line).session.store = session.store ∧
      (session.enter line).gestures = [] := by
  cases enter_course session line with
  | blank _ hEnter | refused _ hEnter | held _ hEnter =>
      rw [hEnter]
      exact ⟨rfl, rfl⟩
  | executed hStmts hEnter =>
      rcases hUnexecuted with hHeld | ⟨problem, -, hMem⟩
      · rw [hEnter] at hHeld
        exact absurd hHeld (withValue_executed_ne _)
      · exact absurd hMem (hStmts problem)

theorem held_of_refused {problem : Diagnostic}
    (hRefused : (session.enter line).result = .error problem) :
    (session.enter line).session.held = [] := by
  cases enter_course session line with
  | blank _ hEnter | held _ hEnter =>
      rw [hEnter] at hRefused
      cases hRefused
  | refused _ hEnter => rw [hEnter]
  | executed _ hEnter =>
      rw [hEnter]
      rfl

end

/-- **What is held after a line**: something if and only if the line was held, and
nothing after an error. A line that is held, or refused as it is read, changes nothing
else. What a session holds is unfinished, and running a script does not touch it. -/
theorem held_of_enter {session : Session} (hReachable : session.Reachable)
    (line source : String) :
    ((session.enter line).session.isPending = true ↔
      (session.enter line).result = .ok .held) ∧
      ((session.enter line).result = .ok .held ∨
          (∃ problem, (session.enter line).result = .error problem ∧
            Except.error problem ∈ (read .provisional (session.linesWith line)).items) →
        (session.enter line).session.store = session.store ∧
          (session.enter line).gestures = []) ∧
      (∀ problem, (session.enter line).result = .error problem →
        (session.enter line).session.held = []) ∧
      (session.held ≠ [] → (read .provisional session.buffer).IsUnfinished) ∧
      (session.runSource source).session.held = session.held := by
  refine ⟨isPending_enter session line, enter_quiet session line, ?_, ?_, ?_⟩
  · intro problem hRefused
    exact held_of_refused session line hRefused
  · exact hReachable.isUnfinished
  · exact session.held_runSource source

/-- The second line of a loop is held as the first was. -/
theorem held_of_enter_loop :
    let session : Session := { held := ["loop 2"] }
    session.Reachable ∧ (session.enter "circle 1").result = .ok .held ∧
      (session.enter "circle 1").session.isPending = true ∧
      (session.enter "circle 1").session.store = session.store ∧
      (session.enter "circle 1").gestures = [] ∧
      (read .provisional session.buffer).IsUnfinished := by
  intro session
  have hText : Text.trimmed "loop 2" = "loop 2" := by cbv
  have hFirst : ({} : Session).enter "loop 2" = { result := .ok .held, session } := by
    rw [enter_of_open (by cbv) (by cbv) (by cbv), hText]
    rfl
  have hSecond : (session.enter "circle 1").result = .ok .held := by
    rw [enter_of_open (by cbv) (by cbv) (by cbv)]
  have hReachable : session.Reachable := by
    have hEntered := (Session.Reachable.fresh {}).enter "loop 2"
    rw [hFirst] at hEntered
    exact hEntered
  have hSome : session.held ≠ [] := List.cons_ne_nil _ _
  obtain ⟨hPending, hQuiet, -, hUnfinished, -⟩ := held_of_enter hReachable "circle 1" ""
  obtain ⟨hStore, hGestures⟩ := hQuiet (Or.inl hSecond)
  exact ⟨hReachable, hSecond, hPending.mpr hSecond, hStore, hGestures,
    hUnfinished hSome⟩

end PenScript
