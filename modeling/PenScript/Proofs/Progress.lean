import PenScript.Proofs.Law

/-!
# Execution goes forward

Whatever is executed, and however it ends, the count of statements does not go
down, the gestures made before stay the first ones, and the gate and the call
stack are found as they were.

## Main results

* `Law.advance`: what a single action does, and what is undone after a condition or a
  call, goes forward;
* `goesForward_callAt`, `goesForward_execAll`, `goesForward_runItems`: a machine
  advances whenever a call, statements or a run are executed from it.
-/

namespace PenScript

/-- Whether one machine has counted and drawn at least as much as another,
in the same way. -/
structure Machine.Behind (start after : Machine) : Prop where
  steps : start.steps ≤ after.steps
  trace : start.trace.toList <+: after.trace.toList

/-- How a machine that has executed something relates to the one before. -/
structure Machine.Advances (start after : Machine) :
    Prop extends start.Behind after where
  gate : after.gate = start.gate
  stack : after.stack = start.stack

namespace Machine

theorem Behind.refl (machine : Machine) : machine.Behind machine :=
  ⟨Nat.le_refl _, List.prefix_refl _⟩

theorem Behind.trans {first second third : Machine} (hFirst : first.Behind second)
    (hSecond : second.Behind third) : first.Behind third :=
  ⟨Nat.le_trans hFirst.steps hSecond.steps, hFirst.trace.trans hSecond.trace⟩

theorem Advances.refl (machine : Machine) : machine.Advances machine :=
  ⟨Behind.refl machine, rfl, rfl⟩

theorem Advances.trans {first second third : Machine} (hFirst : first.Advances second)
    (hSecond : second.Advances third) : first.Advances third :=
  ⟨hFirst.toBehind.trans hSecond.toBehind, hSecond.gate.trans hFirst.gate,
    hSecond.stack.trans hFirst.stack⟩

end Machine

open Machine (Advances Behind)

/-- Execution goes forward, whatever is executed and however it ends. -/
def Law.advance (limits : Limits) : Law limits where
  Good _ := True
  Holds _ := True
  Ends := Advances
  Stops start _ after := start.Advances after
  refl := Advances.refl
  trans := Advances.trans
  trans_stops := Advances.trans
  good_body _ _ _ := trivial
  good_stored _ _ _ _ := trivial
  counted _ _ := ⟨trivial, ⟨⟨Nat.le_succ _, List.prefix_refl _⟩, rfl, rfl⟩⟩
  exhausted _ _ _ := ⟨⟨Nat.le_succ _, List.prefix_refl _⟩, rfl, rfl⟩
  assigned _ _ _ := ⟨trivial, ⟨⟨Nat.le_refl _, List.prefix_refl _⟩, rfl, rfl⟩⟩
  drawn _ _ _ := by
    refine ⟨trivial, ⟨⟨Nat.le_refl _, ?_⟩, rfl, rfl⟩⟩
    simp
  defined _ _ _ := ⟨trivial, ⟨⟨Nat.le_refl _, List.prefix_refl _⟩, rfl, rfl⟩⟩
  faulted _ _ _ := Advances.refl _
  deepened _ _ := Advances.refl _
  raised _ _ := Advances.refl _
  gated _ _ := trivial
  ungated _ _ hInside := ⟨trivial, ⟨⟨hInside.steps, hInside.trace⟩, rfl, hInside.stack⟩⟩
  ungated_stops _ hInside := ⟨⟨hInside.steps, hInside.trace⟩, rfl, hInside.stack⟩
  called _ _ := trivial
  -- what is taken off the call stack is what was put on it, as the body has left it
  -- there
  returned _ _ hInside :=
    ⟨trivial,
      ⟨⟨hInside.steps, hInside.trace⟩, hInside.gate, congrArg List.tail hInside.stack⟩⟩
  returned_stops _ hInside :=
    ⟨⟨hInside.steps, hInside.trace⟩, hInside.gate, congrArg List.tail hInside.stack⟩

/-- Whether a machine advances wherever an action is taken. -/
def Exec.GoesForward {α : Type} (action : Exec α) : Prop :=
  ∀ machine : Machine, machine.Advances (finalState (action machine))

namespace Exec.GoesForward

variable {limits : Limits} {α β : Type}

/-- Going forward is a law, and what keeps laws keeps it. -/
theorem obeys_iff {action : Exec α} : (Law.advance limits).Obeys action ↔
    action.GoesForward := by
  refine forall_congr' fun machine => ?_
  cases hRun : action machine with
  | ok value after =>
      exact ⟨fun hAllowed => (hAllowed trivial).2, fun hEnd _ => ⟨trivial, hEnd⟩⟩
  | error problem after => exact ⟨fun hAllowed => hAllowed trivial, fun hEnd _ => hEnd⟩

theorem bind {action : Exec α} {next : α → Exec β} (hAction : action.GoesForward)
    (hNext : ∀ value, (next value).GoesForward) : (action >>= next).GoesForward := by
  have hFirst : (Law.advance default).Obeys action := obeys_iff.mpr hAction
  exact obeys_iff.mp (hFirst.bind fun value => obeys_iff.mpr (hNext value))

end Exec.GoesForward

variable (limits : Limits)

theorem goesForward_tick (site : Site) : (Exec.tick limits site).GoesForward :=
  Exec.GoesForward.obeys_iff.mp ((Law.advance limits).obeys_tick site)

theorem goesForward_test (condition : Condition) (site : Site) :
    (Exec.test condition site).GoesForward :=
  Exec.GoesForward.obeys_iff.mp ((Law.advance default).obeys_test condition site)

theorem goesForward_callAt (depth : Nat) (name : String) (site : Site) :
    (callAt limits depth name site).GoesForward :=
  Exec.GoesForward.obeys_iff.mp ((Law.advance limits).obeys_callAt depth name site)

theorem goesForward_execAll (depth : Nat) (stmts : List Stmt) :
    (Stmt.execAll limits (callAt limits depth) stmts).GoesForward :=
  Exec.GoesForward.obeys_iff.mp
    (Law.obeys_execAll ((Law.advance limits).obeys_callAt depth) stmts fun _ _ =>
      trivial)

theorem goesForward_runItems (items : List Item) :
    (runItems limits items).GoesForward := by
  refine Exec.GoesForward.obeys_iff.mp ((Law.advance limits).obeys_runItems ?_ ?_)
  · intro _ _
    trivial
  · intro _ _ machine _
    exact Advances.refl machine

end PenScript
