import Mathlib
import PenScript.Proofs.Law
import PenScript.Proofs.RelocatedRuns

/-!
# Drawing off

Where a condition does not hold, its body is executed all the same, with drawing off.
Then no gesture is made, and everything else happens as with drawing on: values are
looked up and assigned, methods are defined and called, statements are counted. Only
what a drawing line would have found wrong goes unnoticed, so that a run with drawing
on that finds nothing wrong is repeated without its gestures.

A run with drawing off does not ask what its conditions amount to, only whether they
can be tested. To say so, statements are *recast*: their conditions are replaced by
others, and so are the lines they come from. The run that is compared with a given one
executes recast statements with drawing off. Statements that are recast to the same are
thereby compared with the same run, and hence with each other.

## Main results

* `trace_obeys_closed`: with drawing off nothing is drawn, however the action ends;
* `mutes_exec`, `mutes_callAt`, `mutes_run`: recast statements and calls
  with drawing off;
* `run_of_closed_gate`: what a closed gate changes, and what conditions change.
-/

namespace PenScript

open Exec

/-! ## Nothing is drawn -/

/-- With drawing off nothing is drawn. -/
def Law.closed (limits : Limits) : Law limits where
  Good _ := True
  Holds machine := machine.gate = false
  Ends start after := after.trace = start.trace
  Stops start _ after := after.trace = start.trace
  refl _ := rfl
  trans hFirst hSecond := hSecond.trans hFirst
  trans_stops hFirst hSecond := hSecond.trans hFirst
  good_body _ _ _ := trivial
  good_stored _ _ _ _ := trivial
  counted hClosed _ := ⟨hClosed, rfl⟩
  exhausted _ _ _ := rfl
  assigned _ _ hClosed := ⟨hClosed, rfl⟩
  drawn hClosed hOpen _ := by
    rw [hClosed] at hOpen
    cases hOpen
  defined hClosed _ _ := ⟨hClosed, rfl⟩
  faulted _ _ _ := rfl
  deepened _ _ := rfl
  raised _ _ := rfl
  gated {machine} holds hClosed := by
    show (machine.gate && holds) = false
    rw [hClosed, Bool.false_and]
  ungated hClosed _ hEnds := ⟨hClosed, hEnds⟩
  ungated_stops _ hStops := hStops
  called hClosed _ := hClosed
  returned _ hAfter hEnds := ⟨hAfter, hEnds⟩
  returned_stops _ hStops := hStops

/-- **With drawing off nothing is drawn**, however the action ends. -/
theorem trace_obeys_closed {limits : Limits} {α : Type} {action : Exec α}
    (hObeys : (Law.closed limits).Obeys action) {machine : Machine}
    (hClosed : machine.gate = false) :
    (finalState (action machine)).trace = machine.trace := by
  have hAllows := hObeys machine hClosed
  cases hRun : action machine with
  | ok value after =>
      rw [hRun] at hAllows
      exact hAllows.2
  | error problem after =>
      rw [hRun] at hAllows
      exact hAllows

/-! ## Recasting -/

/-- What conditions and sites are replaced by. -/
structure Recasting where
  condition : Condition → Condition
  site : Site → Site
  /-- Conditions that can be tested are replaced by such. -/
  testable {asked : Condition} {vars : Variables} {holds : Bool} :
    asked.holdsIn vars = .ok holds → ∃ other, (condition asked).holdsIn vars = .ok other

namespace Recasting

/-- Everything is replaced by itself. -/
def same : Recasting where
  condition := id
  site := id
  testable hHolds := ⟨_, hHolds⟩

/-- Every condition is replaced by one that holds, and sites are forgotten. What remains
of a statement is what it would do if there were no conditions. -/
def plan : Recasting where
  condition _ := ⟨.number 0, .equal, .number 0⟩
  site _ := default
  testable _ := ⟨_, rfl⟩

end Recasting

variable (recasting : Recasting)

namespace Stmt

mutual

/-- A statement with the conditions and sites in it replaced. -/
def recast : Stmt → Stmt
  | assign name value site => assign name value (recasting.site site)
  | draw command site => draw command (recasting.site site)
  | branch condition body site =>
      branch (recasting.condition condition) (recastAll body) (recasting.site site)
  | loop count body site => loop count (recastAll body) (recasting.site site)
  | method name body site => method name (recastAll body) (recasting.site site)
  | call name site => call name (recasting.site site)
  | invalid problem gated => invalid (problem.relocate recasting.site) gated

/-- Statements with the conditions and sites in them replaced. -/
def recastAll : List Stmt → List Stmt
  | [] => []
  | stmt :: rest => recast stmt :: recastAll rest

end

mutual

theorem recast_same : ∀ stmt : Stmt, stmt.recast .same = stmt
  | assign _ _ _ | draw _ _ | call _ _ | invalid _ _ => by
      rw [recast]
      rfl
  | branch _ body _ | loop _ body _ | method _ body _ => by
      rw [recast, recastAll_same body]
      rfl

theorem recastAll_same : ∀ stmts : List Stmt, recastAll .same stmts = stmts
  | [] => by rw [recastAll]
  | stmt :: rest => by rw [recastAll, recast_same stmt, recastAll_same rest]

end

theorem isEmpty_recastAll (stmts : List Stmt) :
    (recastAll recasting stmts).isEmpty = stmts.isEmpty := by
  cases stmts <;> simp [recastAll]

end Stmt

theorem Methods.recast_same (methods : Methods) :
    methods.map (Stmt.recastAll .same) = methods := by
  have hSame : methods.bodies.map (Stmt.recastAll .same) = methods.bodies := by
    apply NameMap.ext_get?
    intro name
    rw [NameMap.get?_map, funext Stmt.recastAll_same, Option.map_id']
  show (⟨_⟩ : Methods) = _
  rw [hSame]

/-- The machine with recast methods, drawing off and another trace. -/
def Machine.muted (trace : Array Gesture) (machine : Machine) : Machine :=
  { machine with
    store.methods := machine.store.methods.map (Stmt.recastAll recasting)
    gate := false
    trace := trace }

theorem Machine.muted_same (trace : Array Gesture) (machine : Machine) :
    machine.muted .same trace = { machine with gate := false, trace := trace } := by
  unfold muted
  rw [Methods.recast_same]

/-- Whether an action with drawing off repeats what another does that
finds nothing wrong. -/
def Mutes {α : Type} (quiet loud : Exec α) : Prop :=
  ∀ machine value after, loud machine = .ok value after →
    ∀ trace, quiet (machine.muted recasting trace) =
      .ok value (after.muted recasting trace)

section

variable {recasting} {α β : Type}

/-! ## Single actions -/

theorem mutes_pure (value : α) : Mutes recasting (pure value) (pure value) := by
  intro machine other after hRun trace
  cases hRun
  rfl

theorem Mutes.bind {quiet loud : Exec α} {next next' : α → Exec β}
    (hFirst : Mutes recasting quiet loud)
    (hNext : ∀ value, Mutes recasting (next value) (next' value)) :
    Mutes recasting (quiet >>= next) (loud >>= next') := by
  intro machine value after hRun trace
  obtain ⟨found, middle, hLoud, hRest⟩ := bind_eq_ok hRun
  rw [bind_apply, hFirst machine found middle hLoud trace]
  exact hNext found middle value after hRest trace

/-- An action that stops needs no counterpart. -/
theorem mutes_fail (quiet : Exec α) (fault : Fault) (site : Site) :
    Mutes recasting quiet (fail fault site) := by
  intro machine value after hRun
  cases hRun

theorem mutes_tick (limits : Limits) (site other : Site) :
    Mutes recasting (tick limits other) (tick limits site) := by
  intro machine value after hRun trace
  obtain ⟨hBudget, rfl⟩ := tick_eq_ok hRun
  have hWithin : ¬limits.maxSteps < (machine.muted recasting trace).steps + 1 := by
    show ¬limits.maxSteps < machine.steps + 1
    omega
  rw [tick_apply, if_neg hWithin]
  rfl

theorem mutes_demand (site other : Site) (found : Except Fault α) :
    Mutes recasting (demand other found) (demand site found) := by
  cases found with
  | ok value => exact mutes_pure value
  | error fault => exact mutes_fail _ fault site

theorem mutes_valueOf (term : Term) (site other : Site) :
    Mutes recasting (valueOf term other) (valueOf term site) :=
  fun machine => mutes_demand site other (term.valueIn machine.store.vars none) machine

theorem mutes_assign (name : String) (value : Int32) :
    Mutes recasting (Exec.assign name value) (Exec.assign name value) := by
  intro machine found after hRun trace
  cases hRun
  rfl

/-- With drawing off a drawing line does nothing. -/
theorem mutes_draw (command : Command) (site other : Site) :
    Mutes recasting (Exec.draw command other) (Exec.draw command site) := by
  intro machine value after hRun trace
  have hClosed : ¬(machine.muted recasting trace).gate = true := Bool.false_ne_true
  rw [draw_apply] at hRun
  rw [draw_apply, if_neg hClosed]
  split at hRun
  · cases hFound : command.gestures machine.store.vars with
    | ok gestures =>
        rw [hFound] at hRun
        cases hRun
        rfl
    | error fault =>
        rw [hFound] at hRun
        cases hRun
  · cases hRun
    rfl

theorem mutes_define (name : String) (body : List Stmt) (site other : Site) :
    Mutes recasting (define name (Stmt.recastAll recasting body) other)
      (define name body site) := by
  intro machine value after hRun trace
  have hMethods : (machine.muted recasting trace).store.methods =
      machine.store.methods.map (Stmt.recastAll recasting) := rfl
  rw [define_apply] at hRun
  rw [define_apply, hMethods, Methods.define_map]
  cases hDefined : machine.store.methods.define name body with
  | none =>
      rw [hDefined] at hRun
      cases hRun
  | some methods =>
      rw [hDefined] at hRun
      cases hRun
      rfl

/-- An unreadable line that does not stop the run is one that is skipped
with the drawing. -/
theorem mutes_raise (problem other : Diagnostic) (gated : Bool) :
    Mutes recasting (raise other gated) (raise problem gated) := by
  intro machine value after hRun trace
  have hClosed : (machine.muted recasting trace).gate = false := rfl
  rw [raise_apply] at hRun
  rw [raise_apply, hClosed, Bool.false_or]
  cases gated with
  | true =>
      cases hGate : machine.gate with
      | true => simp [hGate] at hRun
      | false =>
          simp only [hGate] at hRun
          cases hRun
          rfl
  | false => simp at hRun

/-! ## Loops, conditions and calls -/

theorem Mutes.times {quiet loud : Exec Unit} (hBody : Mutes recasting quiet loud)
    (turns : Nat) : Mutes recasting (times turns quiet) (times turns loud) := by
  induction turns with
  | zero => exact mutes_pure ()
  | succ turns ih => exact hBody.bind fun _ => ih

/-- With drawing off it makes no difference whether a condition holds. -/
theorem Mutes.branch {quiet loud : Exec Unit} (hBody : Mutes recasting quiet loud)
    (condition : Condition) (site other : Site) :
    Mutes recasting
      (test (recasting.condition condition) other >>= fun holds => withGate holds quiet)
      (test condition site >>= fun holds => withGate holds loud) := by
  intro machine value after hRun trace
  obtain ⟨holds, middle, hTest, hInside⟩ := bind_eq_ok hRun
  rw [test_apply] at hTest
  obtain ⟨hHolds, rfl⟩ := demand_eq_ok hTest
  obtain ⟨inner, hLoud, rfl⟩ := andFinally_eq_ok hInside
  obtain ⟨outcome, hOutcome⟩ := recasting.testable hHolds
  have hQuiet : (recasting.condition condition).holdsIn
      (middle.muted recasting trace).store.vars = .ok outcome := hOutcome
  -- Drawing is off already, so the outcome leaves the machine as it is.
  have hStart : ({ middle.muted recasting trace with
      gate := (middle.muted recasting trace).gate && outcome } : Machine) =
      ({ middle with gate := middle.gate && holds } : Machine).muted recasting trace :=
        rfl
  rw [bind_apply, test_apply, hQuiet, demand_apply]
  dsimp only
  rw [withGate_apply, andFinally_apply, hStart, hBody _ _ _ hLoud trace]
  rfl

theorem Mutes.calling {quiet loud : Exec Unit} (hBody : Mutes recasting quiet loud)
    (key : String) : Mutes recasting (calling key quiet) (calling key loud) := by
  intro machine value after hRun trace
  obtain ⟨inner, hLoud, rfl⟩ := andFinally_eq_ok hRun
  have hStart : ({ machine.muted recasting trace with
      stack := key :: (machine.muted recasting trace).stack } : Machine) =
      ({ machine with stack := key :: machine.stack } : Machine).muted recasting
        trace := rfl
  rw [calling_apply, andFinally_apply, hStart, hBody _ _ _ hLoud trace]
  rfl

/-! ## Statements, calls and runs -/

variable (limits : Limits)

mutual

/-- **With drawing off a recast statement repeats what the statement does.** -/
theorem mutes_exec {call call' : Caller}
    (hCall : ∀ name site other, Mutes recasting (call' name other) (call name site)) :
    ∀ stmt : Stmt,
      Mutes recasting (Stmt.exec limits call' (stmt.recast recasting))
        (Stmt.exec limits call stmt)
  | .assign name value site => by
      rw [Stmt.recast, Stmt.exec, Stmt.exec]
      exact (mutes_tick limits site _).bind fun _ =>
        (mutes_valueOf value site _).bind fun found =>
        mutes_assign name found
  | .draw command site => by
      rw [Stmt.recast, Stmt.exec, Stmt.exec]
      exact (mutes_tick limits site _).bind fun _ => mutes_draw command site _
  | .branch condition body site => by
      rw [Stmt.recast, Stmt.exec, Stmt.exec]
      exact (mutes_tick limits site _).bind fun _ =>
        (mutes_execAll hCall body).branch condition site _
  | .loop count body site => by
      rw [Stmt.recast, Stmt.exec, Stmt.exec, Stmt.isEmpty_recastAll]
      refine (mutes_tick limits site _).bind fun _ =>
        (mutes_valueOf count site _).bind fun turns => ?_
      split
      · exact mutes_fail _ _ site
      · split
        · exact mutes_pure ()
        · exact (mutes_execAll hCall body).times _
  | .method name body site => by
      rw [Stmt.recast, Stmt.exec, Stmt.exec]
      exact (mutes_tick limits site _).bind fun _ => mutes_define name body site _
  | .call name site => by
      rw [Stmt.recast, Stmt.exec, Stmt.exec]
      exact (mutes_tick limits site _).bind fun _ => hCall name site _
  | .invalid problem gated => by
      rw [Stmt.recast, Stmt.exec, Stmt.exec]
      exact (mutes_tick limits problem.site _).bind fun _ => mutes_raise problem _ gated

theorem mutes_execAll {call call' : Caller}
    (hCall : ∀ name site other, Mutes recasting (call' name other) (call name site)) :
    ∀ stmts : List Stmt,
      Mutes recasting (Stmt.execAll limits call' (Stmt.recastAll recasting stmts))
        (Stmt.execAll limits call stmts)
  | [] => by
      rw [Stmt.recastAll, Stmt.execAll, Stmt.execAll]
      exact mutes_pure ()
  | stmt :: rest => by
      rw [Stmt.recastAll, Stmt.execAll, Stmt.execAll]
      exact (mutes_exec hCall stmt).bind fun _ => mutes_execAll hCall rest

end

theorem mutes_callAt (depth : Nat) : ∀ name site other,
    Mutes recasting (callAt limits depth name other)
      (callAt limits depth name site) := by
  induction depth using Nat.strongRecOn with
  | ind depth ih =>
      intro name site other machine value after hRun trace
      have hQuiet : (machine.muted recasting trace).store.methods.get? name =
          (machine.store.methods.get? name).map (Stmt.recastAll recasting) :=
        Methods.get?_map _ machine.store.methods name
      cases hFound : machine.store.methods.get? name with
      | none =>
          rw [callAt_unknown hFound] at hRun
          cases hRun
      | some body =>
          rw [hFound, Option.map_some] at hQuiet
          by_cases hCyclic : Text.lowercase name ∈ machine.stack
          · rw [callAt_cyclic hFound hCyclic] at hRun
            cases hRun
          · cases depth with
            | zero =>
                rw [callAt_zero hFound hCyclic] at hRun
                cases hRun
            | succ depth =>
                rw [callAt_succ hFound hCyclic] at hRun
                rw [callAt_succ hQuiet hCyclic]
                have hBody :=
                  mutes_execAll limits (ih depth (Nat.lt_succ_self depth)) body
                exact hBody.calling _ machine value after hRun trace

theorem mutes_run (stmt : Stmt) :
    Mutes recasting ((stmt.recast recasting).run limits) (stmt.run limits) :=
  fun machine =>
    mutes_exec limits (mutes_callAt limits (machine.callsLeft limits)) stmt machine

theorem mutes_runAll (stmts : List Stmt) :
    Mutes recasting (runAll limits (Stmt.recastAll recasting stmts))
      (runAll limits stmts) :=
  fun machine =>
    mutes_execAll limits (mutes_callAt limits (machine.callsLeft limits)) stmts machine

end

/-! ## What the outcome of a condition changes -/

/-- A condition whose body ends well has been tested, and its body ended as it
did under the outcome. -/
theorem exec_branch_eq_ok {limits : Limits} {call : Caller} {condition : Condition}
    {body : List Stmt} {site : Site} {machine after : Machine}
    (hRun : Stmt.exec limits call (.branch condition body site) machine =
      .ok () after) :
    ∃ holds, withGate holds (Stmt.execAll limits call body)
      { machine with steps := machine.steps + 1 } = .ok () after := by
  rw [Stmt.exec] at hRun
  obtain ⟨_, counted, hTick, hRest⟩ := bind_eq_ok hRun
  obtain ⟨-, rfl⟩ := tick_eq_ok hTick
  obtain ⟨holds, middle, hTest, hBody⟩ := bind_eq_ok hRest
  rw [test_apply] at hTest
  obtain ⟨-, rfl⟩ := demand_eq_ok hTest
  exact ⟨holds, hBody⟩

/-- Where an action ends well with drawing on and off, only the gestures differ. -/
theorem Mutes.of_withGate {action : Exec Unit} (hAction : Mutes .same action action)
    {holds holds' : Bool} {machine after after' : Machine}
    (hRun : withGate holds action machine = .ok () after)
    (hRun' : withGate holds' action machine = .ok () after') :
    after' = { after with trace := after'.trace } := by
  obtain ⟨inner, hInside, rfl⟩ := andFinally_eq_ok hRun
  obtain ⟨inner', hInside', rfl⟩ := andFinally_eq_ok hRun'
  have hQuiet := hAction _ _ _ hInside #[]
  have hQuiet' := hAction _ _ _ hInside' #[]
  rw [Machine.muted_same, Machine.muted_same] at hQuiet hQuiet'
  have hSame : ({ inner with gate := false, trace := #[] } : Machine) =
      { inner' with gate := false, trace := #[] } := by
    injection hQuiet.symm.trans hQuiet'
  have hBack := congrArg (fun final : Machine =>
    { final with gate := machine.gate, trace := inner'.trace }) hSame
  exact hBack.symm

/-- The outcome of a condition changes nothing but what is drawn. -/
theorem run_of_outcome {limits : Limits} {condition condition' : Condition}
    {body : List Stmt} {site : Site} {machine after after' : Machine}
    (hRun : (Stmt.branch condition body site).run limits machine = .ok () after)
    (hRun' : (Stmt.branch condition' body site).run limits machine = .ok () after') :
    after' = { after with trace := after'.trace } := by
  obtain ⟨holds, hBody⟩ := exec_branch_eq_ok hRun
  obtain ⟨holds', hBody'⟩ := exec_branch_eq_ok hRun'
  have hMutes : Mutes .same _ _ :=
    mutes_execAll limits (mutes_callAt limits (machine.callsLeft limits)) body
  rw [Stmt.recastAll_same] at hMutes
  exact hMutes.of_withGate hBody hBody'

/-- Statements that differ in nothing but their conditions and lines, where both end
well, differ only in what they draw and in the bodies they define. -/
theorem runAll_of_same_plan {limits : Limits} {stmts others : List Stmt}
    (hPlan : Stmt.recastAll .plan others = Stmt.recastAll .plan stmts)
    {machine after after' : Machine} (hRun : runAll limits stmts machine = .ok () after)
    (hRun' : runAll limits others machine = .ok () after') :
    after'.muted .plan #[] = after.muted .plan #[] := by
  have hFirst := @mutes_runAll .plan limits stmts machine () after hRun #[]
  have hSecond := @mutes_runAll .plan limits others machine () after' hRun' #[]
  rw [hPlan, hFirst] at hSecond
  injection hSecond.symm

/-- **A closed gate keeps a statement from drawing, and from nothing else.** With
drawing off no gesture is made, however the statement ends. A statement that ends well
with drawing on does so with drawing off, and all that is missing afterwards are the
gestures. Hence the outcome of a condition changes nothing else either; and whole lists
of statements that differ only in their conditions and lines leave the same variables,
and the same methods up to such differences, and count the same. -/
theorem run_of_closed_gate (limits : Limits) :
    (∀ (stmt : Stmt) (machine : Machine),
      (finalState (stmt.run limits { machine with gate := false })).trace =
        machine.trace) ∧
    (∀ (stmt : Stmt) (machine after : Machine),
      stmt.run limits { machine with gate := true } = .ok () after →
        stmt.run limits { machine with gate := false } =
          .ok () { after with gate := false, trace := machine.trace }) ∧
    (∀ condition condition' body site, ∀ machine after after' : Machine,
      (Stmt.branch condition body site).run limits machine = .ok () after →
        (Stmt.branch condition' body site).run limits machine = .ok () after' →
          after' = { after with trace := after'.trace }) ∧
    ∀ stmts others : List Stmt, Stmt.recastAll .plan others =
      Stmt.recastAll .plan stmts →
      ∀ machine after after' : Machine, runAll limits stmts machine = .ok () after →
        runAll limits others machine = .ok () after' →
          after'.store.vars = after.store.vars ∧
          after'.store.methods.map (Stmt.recastAll .plan) =
            after.store.methods.map (Stmt.recastAll .plan) ∧
          after'.steps = after.steps := by
  refine ⟨?_, ?_, ?_, ?_⟩
  · intro stmt machine
    have hObeys : (Law.closed limits).Obeys (stmt.run limits) := Law.obeys_run _ trivial
    exact @trace_obeys_closed limits Unit _ hObeys { machine with gate := false } rfl
  · intro stmt machine after hRun
    have hQuiet := @mutes_run .same limits stmt _ () after hRun machine.trace
    rwa [Stmt.recast_same, Machine.muted_same, Machine.muted_same] at hQuiet
  · intro condition condition' body site machine after after' hRun hRun'
    exact run_of_outcome hRun hRun'
  · intro stmts others hPlan machine after after' hRun hRun'
    have hSame := runAll_of_same_plan hPlan hRun hRun'
    have hVars := congrArg (fun final : Machine => final.store.vars) hSame
    have hMethods := congrArg (fun final : Machine => final.store.methods) hSame
    have hSteps := congrArg Machine.steps hSame
    exact ⟨hVars, hMethods, hSteps⟩

/-- A loop that calls a method under a condition, with drawing on and off. -/
theorem run_of_closed_gate_call :
    let site : Site := ⟨1, "call m"⟩
    let body : List Stmt :=
      [.draw (.circle (.number 4)) site, .assign "a" (.number 7) site]
    let machine : Machine := { store := { methods := ⟨NameMap.empty.insert "m" body⟩ } }
    let stmt : Stmt := .loop (.number 2)
      [.branch ⟨.number 1, .less, .number 2⟩ [.call "M" site] site] site
    (finalState (stmt.run {} machine)).trace.size = 2 ∧
      stmt.run {} { machine with gate := false } =
        .ok ()
          { finalState (stmt.run {} machine) with gate := false, trace := #[] } := by
  intro site body machine stmt
  have hRun : stmt.run {} machine = .ok () (finalState (stmt.run {} machine)) := by
    simp only [stmt, machine, body, site]
    cbv
  refine ⟨?_, ?_⟩
  · simp only [stmt, machine, body, site]
    cbv
  · exact (run_of_closed_gate {}).2.1 stmt machine _ hRun

end PenScript
