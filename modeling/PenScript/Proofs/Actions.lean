import PenScript.Execution

/-!
# What single actions do

Executing a statement is a sequence of actions, and each action does one thing
to the machine. Here each is said as an equation between what the action is
applied to and what comes out, so that later proofs need not look into the
action again.

## Main results

* `bind_apply`: one action after another;
* `tick_apply`, `test_apply`, `define_apply`, `raise_apply`: the actions that change the
  machine or stop it;
* `dispatch_apply`, `draw_apply`: a command makes all of its gestures or none;
* `bind_eq_ok`, `tick_eq_ok`, `andFinally_eq_ok`: what an action has done
  that did not stop;
* `callAt_unknown`, `callAt_cyclic`, `callAt_zero`, `callAt_succ`: the four
  ways a call may go.
-/

namespace PenScript

/-- Whether a condition holds of some variables. Its left value is looked up first. -/
def Condition.holdsIn (condition : Condition) (vars : Variables) :
    Except Fault Bool := do
  let left ← condition.left.valueIn vars none
  let right ← condition.right.valueIn vars none
  return condition.comparison.holds left right

namespace Exec

variable {α β : Type}

theorem bind_apply (action : Exec α) (next : α → Exec β) (machine : Machine) :
    (action >>= next) machine = match action machine with
      | .ok value after => next value after
      | .error problem after => .error problem after := by
  show EStateM.bind action next machine = _
  unfold EStateM.bind
  cases action machine <;> rfl

theorem get_apply (machine : Machine) :
    (get : Exec Machine) machine = .ok machine machine := rfl

theorem tick_apply (limits : Limits) (site : Site) (machine : Machine) :
    tick limits site machine =
      if limits.maxSteps < machine.steps + 1 then
        .error ⟨.tooManySteps limits.maxSteps, site⟩
          { machine with steps := machine.steps + 1 }
      else .ok () { machine with steps := machine.steps + 1 } := by
  show (if limits.maxSteps < machine.steps + 1 then _ else _ : Exec Unit) _ = _
  split <;> rfl

theorem demand_apply (site : Site) (found : Except Fault α) (machine : Machine) :
    demand site found machine = match found with
      | .ok value => .ok value machine
      | .error fault => .error ⟨fault, site⟩ machine := by
  cases found <;> rfl

theorem valueOf_apply (term : Term) (site : Site) (machine : Machine) :
    valueOf term site machine =
      demand site (term.valueIn machine.store.vars none) machine := rfl

theorem test_apply (condition : Condition) (site : Site) (machine : Machine) :
    test condition site machine =
      demand site (condition.holdsIn machine.store.vars) machine := by
  show (valueOf condition.left site >>= fun left =>
    valueOf condition.right site >>= fun right =>
      pure (condition.comparison.holds left right)) machine = _
  rw [bind_apply, valueOf_apply, Condition.holdsIn]
  cases condition.left.valueIn machine.store.vars none with
  | error fault => rfl
  | ok left =>
      show (valueOf condition.right site >>= _) machine = _
      rw [bind_apply, valueOf_apply]
      cases condition.right.valueIn machine.store.vars none <;> rfl

/-! ### Drawing commands

A command is carried out gesture by gesture, and yet it is all or nothing: what can go
wrong goes wrong before the first gesture. So it does what `Command.gestures` says of it
as a whole. -/

/-- Makes the gestures that were found, or stops with the fault found instead. -/
def makeAll (site : Site) (found : Except Fault (List Gesture)) :
    Exec Unit := fun machine =>
  match found with
  | .ok gestures => .ok () { machine with trace := machine.trace.appendList gestures }
  | .error fault => .error ⟨fault, site⟩ machine

/-- What is found at first is what is looked at first. -/
theorem demand_bind_eq {site : Site} {act : α → Exec Unit}
    {meaning : α → Except Fault (List Gesture)}
    (hAct : ∀ value, act value = makeAll site (meaning value))
    (found : Except Fault α) :
    (demand site found >>= act) = makeAll site (found >>= meaning) := by
  cases found with
  | error fault => rfl
  | ok value => exact hAct value

/-- Values are looked up one after another, up to the first fault. -/
theorem mapM_demand (site : Site) (find : α → Except Fault β) (xs : List α) :
    (xs.mapM fun x => demand site (find x)) = demand site (xs.mapM find) := by
  induction xs with
  | nil => rfl
  | cons x rest ih =>
      rw [List.mapM_cons, List.mapM_cons, ih]
      cases find x with
      | error fault => rfl
      | ok first => cases rest.mapM find <;> rfl

theorem make_eq (site : Site) (gesture : Gesture) :
    make gesture = makeAll site (pure [gesture]) := rfl

theorem drawCircle_eq (verb : Verb) (site : Site) (radius : Int32) :
    drawCircle verb site radius = makeAll site (Gesture.circles verb radius) := by
  rw [drawCircle, Gesture.circles]
  exact demand_bind_eq (fun _ => make_eq site _) _

theorem drawRectangle_eq (verb : Verb) (site : Site) (width height : Int32) :
    drawRectangle verb site width height =
      makeAll site (Gesture.rectangles verb width height) := by
  rw [drawRectangle, Gesture.rectangles]
  exact demand_bind_eq (fun _ => demand_bind_eq (fun _ => make_eq site _) _) _

theorem drawTriangle_eq (verb : Verb) (site : Site) (adjacent base hypotenuse : Int32) :
    drawTriangle verb site adjacent base hypotenuse =
      makeAll site (Gesture.triangles verb adjacent base hypotenuse) := by
  rw [drawTriangle, Gesture.triangles]
  refine demand_bind_eq (fun _ => demand_bind_eq (fun _ => ?_) _) _
  cases Plane.Triangle.ofSides? adjacent base hypotenuse <;> rfl

theorem drawShape_eq (verb : Verb) (site : Site) (values : List Int32) :
    drawShape verb site values = makeAll site (Gesture.shapes verb values) := by
  fun_cases Gesture.shapes verb values with
  | case1 radius => exact drawCircle_eq verb site radius
  | case2 width height => exact drawRectangle_eq verb site width height
  | case3 adjacent base hypotenuse =>
      exact drawTriangle_eq verb site adjacent base hypotenuse
  | case4 values hOne hTwo hThree =>
      rw [drawShape.eq_4 verb site values hOne hTwo hThree]
      rfl

/-- **A drawing command is all or nothing.** -/
theorem dispatch_apply (command : Command) (site : Site) (machine : Machine) :
    dispatch command site machine =
      makeAll site (command.gestures machine.store.vars) machine := by
  rw [dispatch, bind_apply, get_apply]
  refine congrFun ?_ machine
  cases command with dsimp only [Command.gestures]
  | pen | fill | clear | reset => rfl
  | moveTo x y | drawTo x y =>
      exact demand_bind_eq (fun _ => demand_bind_eq (fun _ => make_eq site _) _) _
  | circle radius => exact demand_bind_eq (drawCircle_eq _ site) _
  | rectangle width height =>
      exact demand_bind_eq (fun _ => demand_bind_eq (drawRectangle_eq _ site _) _) _
  | triangle adjacent base hypotenuse =>
      refine demand_bind_eq (fun first => demand_bind_eq (fun second => ?_) _) _
      exact demand_bind_eq (drawTriangle_eq _ site first second) _
  | drawShape values =>
      rw [mapM_demand]
      exact demand_bind_eq (drawShape_eq _ site) _

theorem draw_apply (command : Command) (site : Site) (machine : Machine) :
    draw command site machine =
      if machine.gate then
        match command.gestures machine.store.vars with
        | .ok gestures =>
            .ok () { machine with trace := machine.trace.appendList gestures }
        | .error fault => .error ⟨fault, site⟩ machine
      else .ok () machine := by
  show (if machine.gate then dispatch command site else pure () : Exec Unit) machine = _
  split
  · exact dispatch_apply command site machine
  · rfl

theorem define_apply (name : String) (body : List Stmt) (site : Site)
    (machine : Machine) :
    define name body site machine = match machine.store.methods.define name body with
      | some methods => .ok () { machine with store.methods := methods }
      | none => .error ⟨.alreadyDefined name, site⟩ machine := by
  rw [define, bind_apply, get_apply]
  dsimp only
  cases machine.store.methods.define name body <;> rfl

theorem andFinally_apply (restore : Machine → Machine) (action : Exec Unit)
    (machine : Machine) :
    andFinally restore action machine = match action machine with
      | .ok value final => .ok value (restore final)
      | .error problem final => .error problem (restore final) := rfl

/-! ## What an action that ends well has done -/

theorem bind_eq_ok {action : Exec α} {next : α → Exec β} {machine after : Machine}
    {value : β} (hRun : (action >>= next) machine = .ok value after) :
    ∃ found middle, action machine = .ok found middle ∧
      next found middle = .ok value after := by
  rw [bind_apply] at hRun
  cases hFirst : action machine with
  | ok found middle =>
      rw [hFirst] at hRun
      exact ⟨found, middle, rfl, hRun⟩
  | error problem middle =>
      rw [hFirst] at hRun
      cases hRun

theorem tick_eq_ok {limits : Limits} {site : Site} {machine after : Machine}
    {value : Unit} (hRun : tick limits site machine = .ok value after) :
    machine.steps < limits.maxSteps ∧
      after = { machine with steps := machine.steps + 1 } := by
  rw [tick_apply] at hRun
  split at hRun
  · cases hRun
  · cases hRun
    exact ⟨by omega, rfl⟩

theorem demand_eq_ok {site : Site} {found : Except Fault α} {machine after : Machine}
    {value : α} (hRun : demand site found machine = .ok value after) :
    found = .ok value ∧ after = machine := by
  cases found with
  | ok other =>
      cases hRun
      exact ⟨rfl, rfl⟩
  | error fault => cases hRun

theorem andFinally_eq_ok {restore : Machine → Machine} {action : Exec Unit}
    {machine after : Machine} {value : Unit}
    (hRun : andFinally restore action machine = .ok value after) :
    ∃ final, action machine = .ok value final ∧ after = restore final := by
  rw [andFinally_apply] at hRun
  cases hInside : action machine with
  | ok found final =>
      rw [hInside] at hRun
      cases hRun
      exact ⟨final, rfl, rfl⟩
  | error problem final =>
      rw [hInside] at hRun
      cases hRun

/-- Stops with a diagnostic found while reading, unless it is skipped
with the drawing. -/
def raise (problem : Diagnostic) (gated : Bool) : Exec Unit := do
  if (← isDrawing) || !gated then throw problem

theorem raise_apply (problem : Diagnostic) (gated : Bool) (machine : Machine) :
    raise problem gated machine =
      if machine.gate || !gated then .error problem machine else .ok () machine := by
  show (if machine.gate || !gated then _ else _ : Exec Unit) machine = _
  split <;> rfl

end Exec

open Exec

/-! ## The four ways a call may go -/

section

variable {limits : Limits} {depth : Nat} {name : String} {site : Site}
    {machine : Machine}
  {body : List Stmt}

theorem callAt_unknown (hUnknown : machine.store.methods.get? name = none) :
    callAt limits depth name site machine =
      .error ⟨.unknownMethod name, site⟩ machine := by
  rw [callAt, bind_apply, get_apply]
  dsimp only
  rw [hUnknown]
  rfl

private theorem callAt_known (hFound : machine.store.methods.get? name = some body) :
    callAt limits depth name site machine =
      if Text.lowercase name ∈ machine.stack then
        .error ⟨.cyclicCall name (machine.stack.reverse ++ [Text.lowercase name]),
          site⟩ machine
      else match depth with
        | 0 => .error ⟨.tooDeep limits.maxCallDepth, site⟩ machine
        | depth + 1 =>
            calling (Text.lowercase name)
              (Stmt.execAll limits (callAt limits depth) body) machine := by
  rw [callAt, bind_apply, get_apply]
  dsimp only
  rw [hFound]
  show (if Text.lowercase name ∈ machine.stack then _ else _ : Exec Unit) machine = _
  split
  · rfl
  · cases depth <;> rfl

theorem callAt_cyclic (hFound : machine.store.methods.get? name = some body)
    (hCyclic : Text.lowercase name ∈ machine.stack) :
    callAt limits depth name site machine =
      .error ⟨.cyclicCall name (machine.stack.reverse ++ [Text.lowercase name]), site⟩
        machine := by
  rw [callAt_known hFound, if_pos hCyclic]

theorem callAt_zero (hFound : machine.store.methods.get? name = some body)
    (hFresh : Text.lowercase name ∉ machine.stack) :
    callAt limits 0 name site machine =
      .error ⟨.tooDeep limits.maxCallDepth, site⟩ machine := by
  rw [callAt_known hFound, if_neg hFresh]

theorem callAt_succ (hFound : machine.store.methods.get? name = some body)
    (hFresh : Text.lowercase name ∉ machine.stack) :
    callAt limits (depth + 1) name site machine =
      calling (Text.lowercase name) (Stmt.execAll limits (callAt limits depth) body)
        machine := by
  rw [callAt_known hFound, if_neg hFresh]

end

end PenScript
