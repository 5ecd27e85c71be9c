import Mathlib
import PenScript.Proofs.StoppedCalls

/-!
# Faults name lines

A fault names a line by its number and its text, and that line is there: it stands
in a script that the session has been given. Which script it is can be said exactly.
If the run was stopped in no method, it is the script that was being run. If it
was stopped in one, it is the script that the innermost method was defined in,
which may be an earlier one.

For the text of a method this takes one more step than for its fault. The statements
of a body name lines that the statement which defines it names, and that statement
has been read from the script.

A check finds faults without executing anything, also within blocks that are lost. The
scan knows them all, and keeps of an open block only the line that opened it.

## Main results

* `sitesIn_of_definedBy`: the body of a method names lines of the script
  that defines it;
* `site_of_faults`: what the scan finds is at a line, or at an open block;
* `site_of_problem`: where the faults of a run and of a check stand.
-/

namespace PenScript

/-! ## The lines of a body -/

namespace Stmt

mutual

/-- The body of a method names lines that are named where the method is defined. -/
theorem sites_of_definitions : ∀ stmt : Stmt, ∀ definition ∈ stmt.definitions,
    sitesIn definition.2 ⊆ stmt.sites
  | .assign .., _, hMem | .draw .., _, hMem
  | .call .., _, hMem | .invalid .., _, hMem => by
      rw [definitions] at hMem
      cases hMem
  | .branch _ body site, definition, hMem | .loop _ body site, definition, hMem => by
      rw [definitions] at hMem
      rw [sites]
      exact List.subset_cons_of_subset site
        (sites_of_definitionsIn body definition hMem)
  | .method name body site, definition, hMem => by
      rw [definitions] at hMem
      rw [sites]
      apply List.subset_cons_of_subset
      rcases List.mem_cons.mp hMem with rfl | hInner
      · exact List.Subset.refl _
      · exact sites_of_definitionsIn body definition hInner

theorem sites_of_definitionsIn :
    ∀ stmts : List Stmt, ∀ definition ∈ definitionsIn stmts,
      sitesIn definition.2 ⊆ sitesIn stmts
  | [], _, hMem => by
      rw [definitionsIn] at hMem
      cases hMem
  | stmt :: rest, definition, hMem => by
      rw [definitionsIn] at hMem
      rw [sitesIn]
      rcases List.mem_append.mp hMem with hFirst | hRest
      · exact List.subset_append_of_subset_left
          _ (sites_of_definitions stmt definition hFirst)
      · exact List.subset_append_of_subset_right
          _ (sites_of_definitionsIn rest definition hRest)

end

end Stmt

/-- Items name lines of the script that they are read from. -/
theorem items_site_mem {lines : List Line} {site : Site}
    (hSite : site ∈ (read .complete lines).items.flatMap Item.sites) :
    site ∈ lines.map Line.toSite :=
  (sites_read_sublist .complete lines).subset hSite

/-- **The body of a method names lines of the script that defines it.** -/
theorem sitesIn_of_definedBy {lines : List Line} {key : String} {body : List Stmt}
    (hDefined : (key, body) ∈ definedBy lines) :
    Stmt.sitesIn body ⊆ lines.map Line.toSite := by
  obtain ⟨stmt, hStmt, hMethod⟩ := Stmt.mem_definitionsIn.mp hDefined
  obtain ⟨item, hItem, hFound⟩ := List.mem_filterMap.mp hStmt
  intro site hSite
  cases item with
  | error problem => cases hFound
  | ok found =>
      cases hFound
      have hHere : site ∈ Item.sites (.ok stmt) :=
        stmt.sites_of_definitions (key, body) hMethod hSite
      exact items_site_mem (List.mem_flatMap.mpr ⟨_, hItem, hHere⟩)

/-! ## The lines of a scan -/

namespace Scan

theorem dropConditional_sublist (blocks : List OpenBlock) :
    (dropConditional blocks).Sublist blocks := by
  unfold dropConditional
  split
  · exact List.sublist_cons_self _ _
  · exact List.Sublist.refl _

theorem reach_sublist (kind : BlockKind) (blocks : List OpenBlock) :
    (reach kind blocks).Sublist blocks := by
  unfold reach
  split
  · exact dropConditional_sublist blocks
  · exact List.Sublist.refl _

/-- A block that is open after a line was open before it, or the line opens it. -/
theorem site_of_next {blocks : List OpenBlock} {line : Line} {block : OpenBlock}
    (hMem : block ∈ next blocks line) : block ∈ blocks ∨ block.site = line.toSite := by
  have hOpened (kind : BlockKind)
      {outer : List OpenBlock} (hOuter : outer.Sublist blocks)
      (hNext : block ∈ ⟨kind, line.toSite⟩ :: outer) :
      block ∈ blocks ∨ block.site = line.toSite := by
    rcases List.mem_cons.mp hNext with rfl | hRest
    · exact Or.inr rfl
    · exact Or.inl (hOuter.subset hRest)
  unfold next at hMem
  split at hMem
  · exact Or.inl hMem
  · split at hMem
    · exact hOpened _ (dropConditional_sublist blocks) hMem
    · exact hOpened _ (List.Sublist.refl _) hMem
    · exact Or.inl ((dropConditional_sublist blocks).subset hMem)
    · rename_i kind _ _
      have hReach := reach_sublist kind blocks
      dsimp only at hMem
      split at hMem
      · exact Or.inl (hReach.subset (List.mem_of_mem_tail hMem))
      · exact Or.inl (hReach.subset hMem)
    · exact Or.inl hMem

/-- **What the scan finds** is at one of the lines, or at a block that
was open before them. -/
theorem site_of_faults (lines : List Line) (blocks : List OpenBlock)
    {problem : Diagnostic} (hMem : problem ∈ faults blocks lines) :
    (∃ block ∈ blocks, block.site = problem.site) ∨
      problem.site ∈ lines.map Line.toSite := by
  induction lines generalizing blocks with
  | nil =>
      rw [faults, unclosed] at hMem
      obtain ⟨block, hBlock, rfl⟩ := List.mem_map.mp hMem
      exact Or.inl ⟨block, (List.mem_filter.mp hBlock).1, rfl⟩
  | cons line rest ih =>
      rw [faults] at hMem
      rw [List.map_cons]
      rcases List.mem_append.mp hMem with hHere | hLater
      · obtain ⟨fault, -, rfl⟩ := List.mem_map.mp hHere
        exact Or.inr List.mem_cons_self
      · rcases ih (next blocks line) hLater with ⟨block, hBlock, hSite⟩ | hRest
        · rcases site_of_next hBlock with hOpen | hLine
          · exact Or.inl ⟨block, hOpen, hSite⟩
          · rw [← hSite, hLine]
            exact Or.inr List.mem_cons_self
        · exact Or.inr (List.mem_cons_of_mem _ hRest)

end Scan

theorem diagnostics_of_check {source : String} {problems : List Diagnostic}
    (hFails : check source = .error problems) :
    (readSource source).diagnostics = problems := by
  unfold check at hFails
  dsimp only at hFails
  split at hFails
  · cases hFails
  · cases hFails
    rfl

/-- Everything that a check reports is at a line of the script. -/
theorem site_of_check {source : String} {problems : List Diagnostic}
    (hFails : check source = .error problems) {problem : Diagnostic}
    (hMem : problem ∈ problems) :
    problem.site ∈ (Line.ofSource source).map Line.toSite := by
  rw [← diagnostics_of_check hFails] at hMem
  have hScan : problem ∈ Scan.faults [] (Line.ofSource source) :=
    (read_faults_perm_scan _).mem_iff.mp (List.mem_mergeSort.mp hMem)
  rcases Scan.site_of_faults (Line.ofSource source) [] hScan with
    ⟨block, hNone, -⟩ | hLine
  · cases hNone
  · exact hLine

/-! ## The script that a fault points to -/

/-- **Where a stopped run points to.** It is a line of what was run, unless
the innermost method was known before, and then it is one of the body
which that method had. -/
theorem site_of_runLines {session : Session}
    (hPlain : session.store.Stores fun _ body => Stmt.definitionsIn body = [])
    {lines : List Line} {problem : Diagnostic}
    (hStopped : (session.runLines lines).result = .error problem) :
    (problem.site ∈ lines.map Line.toSite ∧
      ∀ key outer, session.stoppedIn lines = key :: outer →
      session.store.methods.bodies.get? key = none) ∨
    ∃ key outer body, session.stoppedIn lines = key :: outer ∧
      session.store.methods.bodies.get? key = some body ∧
        problem.site ∈ Stmt.sitesIn body := by
  rcases points_of_runLines hStopped with
    ⟨hNowhere, hSite⟩ | ⟨key, outer, body, hStack, hBody, hSite⟩
  · refine Or.inl ⟨items_site_mem hSite, fun key outer hStack => ?_⟩
    rw [hNowhere] at hStack
    cases hStack
  · cases hBefore : session.store.methods.bodies.get? key with
    | some known =>
        -- A method that was known before still has its body.
        have hSame := (grows_runLines session lines).methods key known hBefore
        rw [hBody] at hSame
        cases hSame
        exact Or.inr ⟨key, outer, body, hStack, hBefore, hSite⟩
    | none =>
        left
        rcases stored_of_runLines hPlain lines key body hBody with hKnown | hDefined
        · rw [hBefore] at hKnown
          cases hKnown
        · refine ⟨sitesIn_of_definedBy hDefined hSite, fun other _ hOther => ?_⟩
          rw [hStack] at hOther
          cases hOther
          exact hBefore

/-- **Where the faults of a run and of a check stand**, whatever the session has been
through. The fault that stops a run names a line of the script, unless the run was
stopped in a method that was known before; then it names a line of the body of that
method, and that is a line of the earlier submission which the method has been known
since. If no method was known before the run, it is always a line of the script. So is
everything that a check reports. The run that tells in which methods a run was stopped
ends as that run does, up to the call stack. -/
theorem site_of_problem (limits : Limits) (past : List Deed) (source : String) :
    let start : Session := { limits }
    let session := start.live past
    let lines := Line.ofSource source
    (∀ problem, (session.runSource source).result = .error problem →
      ((problem.site ∈ lines.map Line.toSite ∧
          ∀ key outer, session.stoppedIn lines = key :: outer →
            session.store.methods.bodies.get? key = none) ∨
        ∃ key outer body earlier, session.stoppedIn lines = key :: outer ∧
          session.store.methods.bodies.get? key = some body ∧
          start.Learned past key body earlier ∧ (key, body) ∈ definedBy earlier ∧
          problem.site ∈ Stmt.sitesIn body ∧ problem.site ∈ earlier.map Line.toSite) ∧
      ((∀ key, session.store.methods.bodies.get? key = none) →
        problem.site ∈ lines.map Line.toSite)) ∧
    (∀ problems, check source = .error problems →
      ∀ problem ∈ problems, problem.site ∈ lines.map Line.toSite) ∧
    let items := (read .complete lines).items
    let run := runItems session.limits items session.machine
    let stayed := stayItems session.limits items session.machine
    outcome run = outcome stayed ∧
      finalState run = { finalState stayed with stack := [] } := by
  intro start session lines
  refine ⟨fun problem hStopped => ?_,
    fun problems hFails problem hMem => site_of_check hFails hMem, ?_⟩
  case refine_2 => exact runItems_eq_stayItems session.limits _ session.machine
  have hLearned := @learned_of_live start rfl past
  have hPlain := Store.plain_of_definedBy hLearned
  rcases site_of_runLines hPlain hStopped with
    hHere | ⟨key, outer, body, hStack, hBefore, hSite⟩
  · exact ⟨Or.inl hHere, fun _ => hHere.1⟩
  · obtain ⟨earlier, hSince, hDefined⟩ := hLearned key body hBefore
    have hLine := sitesIn_of_definedBy hDefined hSite
    constructor
    · exact Or.inr ⟨key, outer, body, earlier, hStack, hBefore, hSince, hDefined,
        hSite, hLine⟩
    · intro hNone
      rw [hNone key] at hBefore
      cases hBefore

/-- A script that is stopped two calls deep, in a method of an earlier submission. -/
theorem site_of_problem_earlier :
    let past : List Deed :=
      [.run "circle 1\nmethod Far\nx = y\nendmethod", .run "move 1 2"]
    let session := ({} : Session).live past
    let source := "method near\ncall far\nendmethod\ncall near"
    let problem : Diagnostic := ⟨.unknownVariable "y" none, ⟨3, "x = y"⟩⟩
    (session.runSource source).result = .error problem ∧
      session.stoppedIn (Line.ofSource source) = ["far", "near"] ∧
      problem.site ∉ (Line.ofSource source).map Line.toSite ∧
      ∃ key body earlier, ({} : Session).Learned past key body earlier ∧
        problem.site ∈ Stmt.sitesIn body ∧ problem.site ∈ earlier.map Line.toSite := by
  intro past session source problem
  have hStopped : (session.runSource source).result = .error problem := by
    decide +kernel
  have hStack : session.stoppedIn (Line.ofSource source) = ["far", "near"] := by
    decide +kernel
  have hElsewhere : problem.site ∉ (Line.ofSource source).map Line.toSite := by
    decide +kernel
  refine ⟨hStopped, hStack, hElsewhere, ?_⟩
  rcases ((site_of_problem {} past source).1 problem hStopped).1 with
    ⟨hSite, -⟩ | ⟨key, _, body, earlier, -, -, hLearned, -, hBody, hLine⟩
  · exact absurd hSite hElsewhere
  · exact ⟨key, body, earlier, hLearned, hBody, hLine⟩

end PenScript
