import Mathlib
import PenScript.Proofs.Headroom
import PenScript.Proofs.Reachable

/-!
# Limits cut a run short and do nothing else

A submission runs under a budget of statements and a bound on the depth of calls.
Raising either of them changes nothing for a script that got by with the lower
one: it ends in the same way, leaves the same store, makes the same gestures and
counts the same statements. A script that was stopped by one of the two has made
a beginning of the gestures it makes under higher limits.

## Main results

* `runSource_of_larger_limits`: both, and where the counter stands when the budget
  ends a run.
-/

namespace PenScript

theorem resumedResult_zero {α : Type} (result : EStateM.Result Diagnostic Machine α) :
    resumedResult 0 #[] result = result := by
  cases result <;> simp only [resumedResult, Machine.resumed_zero]

theorem Headroom.Limited.kind_eq {room : Headroom} {problem : Diagnostic}
    {machine : Machine}
    (hLimited : room.Limited problem machine) : problem.kind = .limit := by
  cases hLimited <;> rfl

/-- Under higher limits items end as under lower ones, or the lower
ones cut them short. -/
theorem runItems_of_larger_limits {limits larger : Limits}
    (hSteps : limits.maxSteps ≤ larger.maxSteps)
    (hDepth : limits.maxCallDepth ≤ larger.maxCallDepth) (items : List Item)
    (machine : Machine) :
    runItems limits items machine = runItems larger items machine ∨
      ∃ problem final, runItems limits items machine = .error problem final ∧
        problem.kind = .limit ∧
        final.trace.toList <+:
          (finalState (runItems larger items machine)).trace.toList := by
  have hFits :=
    (@Headroom.tracks_runItems (.ofLimits hSteps hDepth 0 #[]) items).fits machine
  simp only [Headroom.Fits, Headroom.ofLimits, Machine.resumed_zero,
    resumedResult_zero] at hFits
  rcases hFits with hSame | ⟨problem, final, hStop, hLimited, hBehind⟩
  · exact Or.inl hSame
  · exact Or.inr ⟨problem, final, hStop, hLimited.kind_eq, hBehind.trace⟩

/-- **Limits only cut a run short.** -/
theorem runSource_of_larger_limits (session : Session) (source : String)
    {limits larger : Limits} (hSteps : limits.maxSteps ≤ larger.maxSteps)
    (hDepth : limits.maxCallDepth ≤ larger.maxCallDepth) :
    let short := { session with limits := limits }.runSource source
    let long := { session with limits := larger }.runSource source
    ((∀ problem, short.result = .error problem → problem.kind ≠ .limit) →
      long.result = short.result ∧ long.session.store = short.session.store ∧
        long.gestures = short.gestures ∧ long.steps = short.steps) ∧
    (∀ problem, short.result = .error problem → problem.kind = .limit →
      short.gestures <+: long.gestures) ∧
    (session.Reachable →
      ∀ budget site, short.result = .error ⟨.tooManySteps budget, site⟩ →
      short.steps = limits.maxSteps + 1) := by
  intro short long
  have hRuns := runItems_of_larger_limits hSteps hDepth
    (read .complete (Line.ofSource source)).items { store := session.store }
  refine ⟨?_, ?_, ?_⟩
  · intro hFree
    rcases hRuns with hSame | ⟨problem, final, hStop, hKind, -⟩
    · simp only [short, long, Session.runSource, Session.runLines, hSame, and_self]
    · have hResult : short.result = .error problem := by
        simp only [short, Session.runSource, Session.runLines, hStop, outcome]
      exact absurd hKind (hFree problem hResult)
  · intro problem hResult hKind
    rcases hRuns with hSame | ⟨other, final, hStop, -, hPrefix⟩
    · simp only [short, long, Session.runSource, Session.runLines, hSame,
        List.prefix_refl]
    · simp only [short, long, Session.runSource, Session.runLines, hStop, finalState]
      exact hPrefix
  · intro hReachable
    exact (@runLines_isRead { session with limits := limits } hReachable.isRead _).2

/-- A loop that is stopped in its fifth turn, and under a larger budget
comes to its end. -/
theorem runSource_of_larger_limits_loop :
    let short :=
      ({ limits := { maxSteps := 5 } } : Session).runSource "loop 9\ncircle 1\nendloop"
    let long :=
      ({ limits := { maxSteps := 10 } } : Session).runSource "loop 9\ncircle 1\nendloop"
    short.result = .error ⟨.tooManySteps 5, ⟨2, "circle 1"⟩⟩ ∧ long.result = .ok () ∧
      short.gestures <+: long.gestures ∧ short.steps = 6 := by
  have hShort : (({ limits := { maxSteps := 5 } } : Session).runSource
      "loop 9\ncircle 1\nendloop").result =
        .error ⟨.tooManySteps 5, ⟨2, "circle 1"⟩⟩ := by cbv
  have hLong : (({ limits := { maxSteps := 10 } } : Session).runSource
      "loop 9\ncircle 1\nendloop").result = .ok () := by cbv
  obtain ⟨-, hPrefix, hCount⟩ :=
    @runSource_of_larger_limits {} "loop 9\ncircle 1\nendloop"
    { maxSteps := 5 } { maxSteps := 10 } (by decide) (by decide)
  exact ⟨hShort, hLong, hPrefix _ hShort rfl, hCount (.fresh {}) _ _ hShort⟩

end PenScript
