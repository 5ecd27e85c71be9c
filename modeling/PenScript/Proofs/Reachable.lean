import PenScript.Proofs.Inheritance

/-!
# The sessions there are

A session begins with nothing but its limits, and changes by running scripts, by
entering lines and by being reset. What it remembers is therefore no arbitrary
store: the bodies of its methods were read from scripts, so that every faulty line in
them has a fault found by reading.

This is what makes the end of the budget recognisable. A run that stops with that
fault has really used its budget up, and its counter shows it.

## Main results

* `Session.Reachable.isRead`: the methods of a session were read;
* `runLines_isRead`: so are they after a run, and a run that is stopped by the
  budget has counted exactly one statement too many.
-/

namespace PenScript

/-- Whether every faulty line in a statement has a fault found by reading. -/
def Stmt.IsRead (stmt : Stmt) : Prop := ∀ problem ∈ stmt.faults, problem.fault.IsRead

/-- Whether the bodies of all methods were read. -/
def Store.IsRead (store : Store) : Prop := store.Keeps Stmt.IsRead

/-- The sessions there are. -/
inductive Session.Reachable : Session → Prop where
  | fresh (limits : Limits) : Reachable { limits }
  | runSource {session : Session} (hBefore : Reachable session) (source : String) :
      Reachable (session.runSource source).session
  | enter {session : Session} (hBefore : Reachable session) (line : String) :
      Reachable (session.enter line).session
  | reset {session : Session} (hBefore : Reachable session) : Reachable session.reset

/-! ## Reading -/

theorem Stmt.isRead_invalid {fault : Fault} (hFault : fault.IsRead) (site : Site)
    (gated : Bool) : (Stmt.invalid ⟨fault, site⟩ gated).IsRead := by
  intro problem hMem
  rw [Stmt.faults_invalid, List.mem_singleton] at hMem
  exact hMem ▸ hFault

theorem Stmt.isRead_of_faults {stmt : Stmt} {body : List Stmt}
    (hSame : stmt.faults = Stmt.faultsIn body)
    (hBody : ∀ inner ∈ body, inner.IsRead) : stmt.IsRead := by
  intro problem hMem
  rw [hSame, Stmt.faultsIn_eq_flatMap] at hMem
  obtain ⟨inner, hInner, hFault⟩ := List.mem_flatMap.mp hMem
  exact hBody inner hInner problem hFault

theorem Frame.bears_isRead {around : List BlockKind} {frame : Frame}
    (hHeader : ∀ fault, frame.header.fault? = some fault → fault.IsRead) :
    frame.Bears (fun _ => Stmt.IsRead) around := by
  intro body hBody
  cases hFault : frame.header.fault? with
  | some fault =>
      have hFilled : ({ frame with body := body } : Frame).header.fault? = some fault :=
        hFault
      rw [close_of_fault hFilled, abandon_of_fault hFilled]
      exact ⟨Stmt.isRead_invalid (hHeader fault hFault) _ _,
        Stmt.isRead_invalid (hHeader fault hFault) _ _⟩
  | none =>
      have hFilled : ({ frame with body := body } : Frame).header.fault? = none :=
        hFault
      obtain ⟨stmt, hClose, hSame⟩ := close_of_none hFilled
      rw [hClose, abandon_of_none hFilled]
      refine ⟨Stmt.isRead_of_faults hSame fun inner hMem => ?_,
        Stmt.isRead_invalid ?_ _ _⟩
      · exact hBody inner (Array.mem_toList_iff.mp hMem)
      · exact rfl

/-- Every line bears what was read. -/
theorem Line.bears_isRead (line : Line) : line.Bears fun _ => Stmt.IsRead where
  simple {stmt} _ hPhrase := by
    have hAll := Phrase.isRead_ofLine line
    rw [hPhrase] at hAll
    exact fun problem hMem => hAll problem.fault (List.mem_map_of_mem hMem)
  faulty {fault gated} _ hPhrase := by
    have hAll := Phrase.isRead_ofLine line
    rw [hPhrase] at hAll
    exact Stmt.isRead_invalid (hAll fault (List.mem_singleton_self fault)) _ _
  opening {header} around hPhrase _ := by
    have hAll := Phrase.isRead_ofLine line
    rw [hPhrase] at hAll
    refine Frame.bears_isRead fun fault hFault => ?_
    refine Header.isRead_within around (fun found hFound => ?_) hFault
    exact hAll found (Option.mem_toList.mpr hFound)
  surplus {kind fault} _ hPhrase := by
    have hAll := Phrase.isRead_ofLine line
    rw [hPhrase] at hAll
    exact Stmt.isRead_invalid (hAll fault (by simp [Phrase.faults])) _ _
  stray {kind _} _ _ := by
    have hStray : (Fault.strayCloser kind).IsRead := rfl
    exact Stmt.isRead_invalid hStray _ _

/-- Every item of a script was read. -/
theorem items_isRead (lines : List Line) :
    ∀ item ∈ (read .complete lines).items, ∃ stmt, stmt.IsRead ∧ item = .ofStmt stmt :=
  bears_read (fun line _ => line.bears_isRead) .complete

/-! ## Executing -/

theorem Stmt.isRead_heritable : Heritable Stmt.IsRead Stmt.IsRead :=
  Stmt.faults_heritable fun problem => problem.fault.IsRead

/-- **A run of a script leaves methods that were read**, and is stopped by its budget
with exactly one statement too many. -/
theorem runLines_isRead {session : Session} (hStore : session.store.IsRead)
    (lines : List Line) :
    (session.runLines lines).session.store.IsRead ∧
      ∀ budget site, (session.runLines lines).result =
        .error ⟨.tooManySteps budget, site⟩ →
        (session.runLines lines).steps = session.limits.maxSteps + 1 := by
  obtain ⟨hKept, hReason⟩ :=
    runLines_inherits Stmt.isRead_heritable hStore (items_isRead lines)
  refine ⟨hKept, fun budget site hResult => ?_⟩
  cases hReason _ hResult with
  | fault hArises => exact hArises.elim
  | depth hFault => cases hFault
  | budget _ hSteps => exact hSteps
  | line gated hGood =>
      have hRead := hGood _ (List.mem_singleton_self _)
      cases hRead

/-- What holds of the empty store, and is kept by runs, holds of every
session there is. -/
theorem Session.Reachable.store_of_runs {Q : Store → Prop} (hEmpty : Q {})
    (hRun : ∀ (session : Session) lines, Q session.store →
      Q (session.runLines lines).session.store)
    {session : Session} (hReachable : session.Reachable) : Q session.store := by
  induction hReachable with
  | fresh limits => exact hEmpty
  | @runSource session _ source ih => exact hRun session _ ih
  | @enter session _ line ih =>
      unfold Session.enter
      split
      · exact ih
      · dsimp only
        split
        · exact ih
        · split
          · exact ih
          · exact hRun { session with held := [] } _ ih
  | reset _ _ => exact hEmpty

/-- The methods of every session were read. -/
theorem Session.Reachable.isRead {session : Session} (hReachable : session.Reachable) :
    session.store.IsRead :=
  hReachable.store_of_runs Store.keeps_empty fun _ lines hStore =>
    (runLines_isRead hStore lines).1

end PenScript
