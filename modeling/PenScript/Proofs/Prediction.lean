import Mathlib
import PenScript.Proofs.Reachable

/-!
# What a check foretells

Checking a script does not execute it. A check cannot know the values variables will
have, nor which methods exist where the script is run; but it reads every line, and so
it should find every fault that is there to be read.

A run meets such faults on ways of its own: an unreadable line is an item, or stands in
the body of a block, or in the body of a method that is stored and executed by a later
call. All of them come from the items of the script, as long as no methods were known
before, and the check reports the faults of all items.

## Main results

* `kind_of_arises`: what only executing a statement finds;
* `items_reported`: a check reports whatever is wrong with an item;
* `check_foretells`: a run stops at nothing else.
-/

namespace PenScript

/-- The kinds of fault that are found only by executing a statement. -/
def FaultKind.ofExecution : List FaultKind :=
  [.unknownVariable, .duplicateDefinition, .geometry, .cyclicCall,
    .unknownMethod, .limit]

/-- A number that turns out to be negative where no negative number can stand. -/
inductive Fault.IsNegative : Fault → Prop where
  | count {count : Int32} (hNegative : count < 0) : IsNegative (.negativeCount count)
  | measure {value : Int32} (measure : Measure) (verb : Verb) (hNegative : value < 0) :
      IsNegative (.negativeMeasure measure value verb)

/-- Executing a statement finds a fault of a kind of its own, or a negative number. -/
theorem Fault.kind_of_arises {fault : Fault} (hArises : fault.Arises) :
    fault.kind ∈ FaultKind.ofExecution ∨ fault.IsNegative := by
  cases fault with
  | negativeCount count => exact Or.inr (.count hArises)
  | negativeMeasure measure value verb => exact Or.inr (.measure measure verb hArises)
  | unknownVariable | noRealHeight | alreadyDefined | unknownMethod | cyclicCall =>
      left
      simp [kind, FaultKind.ofExecution]
  | _ => cases hArises

theorem Fault.IsNegative.kind_eq {fault : Fault} (hNegative : fault.IsNegative) :
    fault.kind = .form := by
  cases hNegative <;> rfl

/-! ## What a check reports -/

theorem check_eq_error {source : String} {problem : Diagnostic}
    (hReported : problem ∈ (readSource source).diagnostics) :
    check source = .error (readSource source).diagnostics := by
  unfold check
  dsimp only
  split
  · rename_i hNone
    rw [hNone] at hReported
    cases hReported
  · rfl

/-- **A check reports whatever is wrong with an item.** -/
theorem items_reported (lines : List Line) :
    ∀ item ∈ (read .complete lines).items, ∃ stmt : Stmt,
      (∀ problem ∈ stmt.faults, problem ∈ (read .complete lines).diagnostics) ∧
        item = .ofStmt stmt := by
  intro item hMem
  obtain ⟨stmt, -, hItem⟩ := items_isRead lines item hMem
  refine ⟨stmt, fun problem hFault => ?_, hItem⟩
  apply mem_diagnostics.mpr
  left
  refine ⟨item, hMem, ?_⟩
  rwa [hItem, Item.faults_ofStmt]

/-! ## What stops a run -/

/-- A run from where no method is known stops at a reported fault, or at one that only
executing a statement finds. -/
theorem runLines_foretold {session : Session}
    (hNone : ∀ name, session.store.methods.contains name = false) {lines : List Line}
    {problem : Diagnostic} (hFails : (session.runLines lines).result = .error problem) :
    problem ∈ (read .complete lines).diagnostics ∨
      problem.kind ∈ FaultKind.ofExecution ∨ problem.fault.IsNegative := by
  have hStore : session.store.Keeps fun stmt =>
      ∀ problem ∈ stmt.faults, problem ∈ (read .complete lines).diagnostics := by
    intro name body hFound
    have hContains : session.store.methods.contains name = true := by
      rw [Methods.contains, hFound, Option.isSome_some]
    rw [hNone name] at hContains
    cases hContains
  have hInherits :=
    runLines_inherits (Stmt.faults_heritable _) hStore (items_reported lines)
  have hLimit : problem.fault.kind = .limit → problem.kind ∈ FaultKind.ofExecution := by
    intro hKind
    rw [Diagnostic.kind, hKind]
    decide
  cases hInherits.2 problem hFails with
  | fault hArises => exact Or.inr (Fault.kind_of_arises hArises)
  | depth hFault => exact Or.inr (Or.inl (hLimit (by rw [hFault]; rfl)))
  | budget hFault _ => exact Or.inr (Or.inl (hLimit (by rw [hFault]; rfl)))
  | line gated hReported =>
      exact Or.inl (hReported problem (List.mem_singleton_self problem))

/-- **A check foretells a run.** Where no method is known before, a script stops at a
fault that checking it reports, or at one that only executing a statement finds; and if
a check finds nothing, no command is unknown and no block is left open. -/
theorem check_foretells {session : Session}
    (hNone : ∀ name, session.store.methods.contains name = false) (source : String) :
    (∀ problem, (session.runSource source).result = .error problem →
      (∃ problems, check source = .error problems ∧ problem ∈ problems) ∨
        problem.kind ∈ FaultKind.ofExecution ∨ problem.fault.IsNegative) ∧
    ((∃ stmts, check source = .ok stmts) →
      ∀ problem, (session.runSource source).result = .error problem →
        problem.kind ≠ .unknownCommand ∧ problem.kind ≠ .unterminatedBlock) := by
  constructor
  · intro problem hFails
    rcases runLines_foretold hNone hFails with hReported | hFound
    · exact Or.inl ⟨_, check_eq_error hReported, hReported⟩
    · exact Or.inr hFound
  · intro hPasses problem hFails
    rcases runLines_foretold hNone hFails with hReported | hKind | hNegative
    · have hClean : (readSource source).diagnostics = [] := check_eq_ok_iff.mp hPasses
      have hReport : problem ∈ (readSource source).diagnostics := hReported
      rw [hClean] at hReport
      cases hReport
    · constructor
      · intro hUnknown
        rw [hUnknown] at hKind
        exact absurd hKind (by decide)
      · intro hOpen
        rw [hOpen] at hKind
        exact absurd hKind (by decide)
    · have hForm : problem.kind = .form := hNegative.kind_eq
      rw [hForm]
      exact ⟨by decide, by decide⟩

/-- A line that is read inside a method, stored with it and met by a later call. -/
theorem check_foretells_stored :
    let source := "method m\nmove 1\nendmethod\ncall m"
    let problem : Diagnostic := ⟨.unknownCommand "move", ⟨2, "move 1"⟩⟩
    (({} : Session).runSource source).result = .error problem ∧
      ∃ problems, check source = .error problems ∧ problem ∈ problems := by
  intro source problem
  have hFails : (({} : Session).runSource source).result = .error problem := by cbv
  refine ⟨hFails, ?_⟩
  have hNone : ∀ name, (default : Session).store.methods.contains name = false :=
    fun _ => rfl
  rcases (check_foretells hNone source).1 problem hFails with
    hReported | hKind | hNegative
  · exact hReported
  · exact absurd hKind (by decide)
  · cases hNegative

end PenScript
