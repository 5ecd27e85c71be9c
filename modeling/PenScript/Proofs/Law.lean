import PenScript.Proofs.Actions
import PenScript.Proofs.Faults

/-!
# Laws of execution

Many facts about executing statements have one shape: something holds of the
machine beforehand, a relation leads from the machine before to the machine
after, and another relation describes where a fault may stop the run. Such a
fact is a *law*. A law is checked on the few things that a single action can do
to a machine, and then holds of every statement, of every call and of every run.

Loops, conditions and calls need no attention of their own: a loop is a chain of
regular ends, and closing the gate or entering a method is undone afterwards, so
a law only has to survive being done and undone.

## Main results

* `Law.obeys_exec`, `Law.obeys_callAt`, `Law.obeys_runItems`: what every single
  action obeys, every statement, call and run obeys.
-/

namespace PenScript

open Exec

open Fault

/-- What is claimed of every execution under some limits, with the reasons for it. -/
structure Law (limits : Limits) where
  /-- The statements it is claimed of. -/
  Good : Stmt → Prop
  /-- What holds of the machine before and after. -/
  Holds : Machine → Prop
  /-- How the machine after a regular end relates to the one before. -/
  Ends : Machine → Machine → Prop
  /-- Where execution may stop instead, and why. -/
  Stops : Machine → Diagnostic → Machine → Prop
  refl (machine : Machine) : Ends machine machine
  trans {first second third : Machine} : Ends first second → Ends second third →
    Ends first third
  trans_stops {first second third : Machine} {problem : Diagnostic} :
    Ends first second → Stops second problem third → Stops first problem third
  good_body {stmt : Stmt} : Good stmt → ∀ inner ∈ stmt.body, Good inner
  good_stored {machine : Machine} {name : String} {body : List Stmt} : Holds machine →
    machine.store.methods.get? name = some body → ∀ stmt ∈ body, Good stmt
  counted {machine : Machine} : Holds machine → machine.steps < limits.maxSteps →
    Holds { machine with steps := machine.steps + 1 } ∧
      Ends machine { machine with steps := machine.steps + 1 }
  exhausted {machine : Machine} (site : Site) : Holds machine →
    limits.maxSteps ≤ machine.steps →
    Stops machine ⟨.tooManySteps limits.maxSteps, site⟩
      { machine with steps := machine.steps + 1 }
  assigned {machine : Machine} (name : String) (value : Int32) : Holds machine →
    Holds { machine with store.vars := machine.store.vars.insert name value } ∧
      Ends machine { machine with store.vars := machine.store.vars.insert name value }
  drawn {machine : Machine} {command : Command} {gestures : List Gesture} :
    Holds machine →
    machine.gate = true → command.gestures machine.store.vars = .ok gestures →
    Holds { machine with trace := machine.trace.appendList gestures } ∧
      Ends machine { machine with trace := machine.trace.appendList gestures }
  defined {machine : Machine} {name : String} {body : List Stmt} {site : Site}
    {methods : Methods} : Holds machine → Good (.method name body site) →
    machine.store.methods.define name body = some methods →
    Holds { machine with store.methods := methods } ∧
      Ends machine { machine with store.methods := methods }
  /-- A fault found by executing, in which no limit has a part. -/
  faulted {machine : Machine} {fault : Fault} (site : Site) : Holds machine →
    fault.Arises →
    Stops machine ⟨fault, site⟩ machine
  /-- A call that is nested too deep. -/
  deepened {machine : Machine} (site : Site) : Holds machine →
    Stops machine ⟨.tooDeep limits.maxCallDepth, site⟩ machine
  /-- A fault found by reading. -/
  raised {machine : Machine} {problem : Diagnostic} {gated : Bool} : Holds machine →
    Good (.invalid problem gated) → Stops machine problem machine
  gated {machine : Machine} (holds : Bool) : Holds machine →
    Holds { machine with gate := machine.gate && holds }
  ungated {machine after : Machine} {holds : Bool} : Holds machine → Holds after →
    Ends { machine with gate := machine.gate && holds } after →
    Holds { after with gate := machine.gate } ∧
      Ends machine { after with gate := machine.gate }
  ungated_stops {machine after : Machine} {holds : Bool} {problem : Diagnostic} :
    Holds machine →
    Stops { machine with gate := machine.gate && holds } problem after →
    Stops machine problem { after with gate := machine.gate }
  called {machine : Machine} {key : String} : Holds machine → key ∉ machine.stack →
    Holds { machine with stack := key :: machine.stack }
  returned {machine after : Machine} {key : String} : Holds machine → Holds after →
    Ends { machine with stack := key :: machine.stack } after →
    Holds { after with stack := after.stack.tail } ∧
      Ends machine { after with stack := after.stack.tail }
  returned_stops {machine after : Machine} {key : String} {problem : Diagnostic} :
    Holds machine →
    Stops { machine with stack := key :: machine.stack } problem after →
    Stops machine problem { after with stack := after.stack.tail }

namespace Law

variable {limits : Limits} (law : Law limits) {α β : Type}

/-- What a law says of how an action ended that began at `machine`. -/
def Allows (machine : Machine) : EStateM.Result Diagnostic Machine α → Prop
  | .ok _ after => law.Holds after ∧ law.Ends machine after
  | .error problem after => law.Stops machine problem after

/-- Whether an action follows a law wherever it is taken. -/
def Obeys (action : Exec α) : Prop :=
  ∀ machine, law.Holds machine → law.Allows machine (action machine)

/-! ## Single actions -/

theorem obeys_pure (value : α) : law.Obeys (pure value : Exec α) :=
  fun machine hHolds => ⟨hHolds, law.refl machine⟩

variable {law}

theorem Obeys.bind {action : Exec α} {next : α → Exec β} (hAction : law.Obeys action)
    (hNext : ∀ value, law.Obeys (next value)) : law.Obeys (action >>= next) := by
  intro machine hHolds
  have hFirst := hAction machine hHolds
  rw [bind_apply]
  cases hRun : action machine with
  | error problem after =>
      rw [hRun] at hFirst
      exact hFirst
  | ok value middle =>
      rw [hRun] at hFirst
      obtain ⟨hMiddle, hEnds⟩ := hFirst
      have hSecond := hNext value middle hMiddle
      show law.Allows machine (next value middle)
      cases hRest : next value middle with
      | ok _ after =>
          rw [hRest] at hSecond
          exact ⟨hSecond.1, law.trans hEnds hSecond.2⟩
      | error problem after =>
          rw [hRest] at hSecond
          exact law.trans_stops hEnds hSecond

theorem Obeys.times {action : Exec Unit} (hAction : law.Obeys action) (turns : Nat) :
    law.Obeys (times turns action) := by
  induction turns with
  | zero => exact law.obeys_pure ()
  | succ turns ih => exact hAction.bind fun _ => ih

variable (law)

theorem obeys_tick (site : Site) : law.Obeys (tick limits site) := by
  intro machine hHolds
  rw [tick_apply]
  by_cases hOver : limits.maxSteps < machine.steps + 1
  · rw [if_pos hOver]
    exact law.exhausted site hHolds (Nat.le_of_lt_succ hOver)
  · rw [if_neg hOver]
    exact law.counted hHolds (by omega)

theorem obeys_fail {fault : Fault} (hArises : fault.Arises) (site : Site) :
    law.Obeys (fail fault site : Exec α) :=
  fun _ hHolds => law.faulted site hHolds hArises

theorem obeys_demand (site : Site) {found : Except Fault α}
    (hFault : FailsWith Arises found) : law.Obeys (demand site found) := by
  cases found with
  | ok value => exact law.obeys_pure value
  | error fault => exact law.obeys_fail (hFault fault rfl) site

theorem obeys_valueOf (term : Term) (site : Site) : law.Obeys (valueOf term site) := by
  intro machine hHolds
  rw [valueOf_apply]
  exact law.obeys_demand site (Term.failsWith_valueIn _ _ _) machine hHolds

theorem obeys_test (condition : Condition) (site : Site) :
    law.Obeys (test condition site) :=
  (law.obeys_valueOf _ site).bind fun _ => (law.obeys_valueOf _ site).bind fun _ =>
    law.obeys_pure _

theorem obeys_assign (name : String) (value : Int32) :
    law.Obeys (Exec.assign name value) :=
  fun _ hHolds => law.assigned name value hHolds

theorem obeys_draw (command : Command) (site : Site) :
    law.Obeys (Exec.draw command site) := by
  intro machine hHolds
  rw [draw_apply]
  split
  · rename_i hGate
    cases hFound : command.gestures machine.store.vars with
    | ok gestures => exact law.drawn hHolds hGate hFound
    | error fault =>
        exact law.faulted site hHolds (Command.failsWith_gestures _ _ fault hFound)
  · exact ⟨hHolds, law.refl machine⟩

theorem obeys_define {name : String} {body : List Stmt} {site : Site}
    (hGood : law.Good (.method name body site)) :
    law.Obeys (define name body site) := by
  intro machine hHolds
  rw [define_apply]
  cases hFound : machine.store.methods.define name body with
  | some methods => exact law.defined hHolds hGood hFound
  | none =>
      exact law.faulted site hHolds (show (Fault.alreadyDefined name).Arises from rfl)

theorem obeys_raise {problem : Diagnostic} {gated : Bool}
    (hGood : law.Good (.invalid problem gated)) : law.Obeys (raise problem gated) := by
  intro machine hHolds
  rw [raise_apply]
  split
  · exact law.raised hHolds hGood
  · exact ⟨hHolds, law.refl machine⟩

/-! ## Changes that are undone -/

variable {law}

theorem Obeys.withGate {action : Exec Unit} (hAction : law.Obeys action)
    (holds : Bool) : law.Obeys (withGate holds action) := by
  intro machine hHolds
  have hInside := hAction _ (law.gated holds hHolds)
  rw [withGate_apply, andFinally]
  cases hRun : action { machine with gate := machine.gate && holds } with
  | ok _ after =>
      rw [hRun] at hInside
      exact law.ungated hHolds hInside.1 hInside.2
  | error problem after =>
      rw [hRun] at hInside
      exact law.ungated_stops hHolds hInside

/-- A call, where it is not a cyclic one. -/
theorem Obeys.calling {action : Exec Unit} (hAction : law.Obeys action) {key : String}
    {machine : Machine} (hHolds : law.Holds machine) (hFresh : key ∉ machine.stack) :
    law.Allows machine (calling key action machine) := by
  have hInside := hAction _ (law.called hHolds hFresh)
  rw [calling_apply, andFinally]
  cases hRun : action { machine with stack := key :: machine.stack } with
  | ok _ after =>
      rw [hRun] at hInside
      exact law.returned hHolds hInside.1 hInside.2
  | error problem after =>
      rw [hRun] at hInside
      exact law.returned_stops hHolds hInside

/-! ## Statements, calls and runs -/

mutual

theorem obeys_exec {call : Caller} (hCall : ∀ name site, law.Obeys (call name site)) :
    ∀ stmt, law.Good stmt → law.Obeys (Stmt.exec limits call stmt)
  | .assign name value site, _ => by
      rw [Stmt.exec]
      exact (law.obeys_tick site).bind fun _ =>
        (law.obeys_valueOf value site).bind fun found => law.obeys_assign name found
  | .draw command site, _ => by
      rw [Stmt.exec]
      exact (law.obeys_tick site).bind fun _ => law.obeys_draw command site
  | .branch condition body site, hGood => by
      rw [Stmt.exec]
      have hBody := obeys_execAll hCall body (law.good_body hGood)
      exact (law.obeys_tick site).bind fun _ =>
        (law.obeys_test condition site).bind fun holds => hBody.withGate holds
  | .loop count body site, hGood => by
      rw [Stmt.exec]
      have hBody := obeys_execAll hCall body (law.good_body hGood)
      refine (law.obeys_tick site).bind fun _ =>
        (law.obeys_valueOf count site).bind fun turns => ?_
      split
      · rename_i hNegative
        exact law.obeys_fail (show (Fault.negativeCount turns).Arises from hNegative)
          site
      · split
        · exact law.obeys_pure ()
        · exact hBody.times _
  | .method name body site, hGood => by
      rw [Stmt.exec]
      exact (law.obeys_tick site).bind fun _ => law.obeys_define hGood
  | .call name site, _ => by
      rw [Stmt.exec]
      exact (law.obeys_tick site).bind fun _ => hCall name site
  | .invalid problem gated, hGood => by
      rw [Stmt.exec]
      exact (law.obeys_tick problem.site).bind fun _ => law.obeys_raise hGood

theorem obeys_execAll {call : Caller}
    (hCall : ∀ name site, law.Obeys (call name site)) :
    ∀ stmts, (∀ stmt ∈ stmts, law.Good stmt) →
      law.Obeys (Stmt.execAll limits call stmts)
  | [], _ => by
      rw [Stmt.execAll]
      exact law.obeys_pure ()
  | stmt :: rest, hGood => by
      rw [Stmt.execAll]
      have hFirst := obeys_exec hCall stmt (hGood stmt List.mem_cons_self)
      have hRest := obeys_execAll hCall rest fun other hMem =>
        hGood other (List.mem_cons_of_mem stmt hMem)
      exact hFirst.bind fun _ => hRest

end

variable (law)

theorem obeys_callAt (depth : Nat) :
    ∀ name site, law.Obeys (callAt limits depth name site) := by
  induction depth using Nat.strongRecOn with
  | ind depth ih =>
      intro name site machine hHolds
      cases hFound : machine.store.methods.get? name with
      | none =>
          rw [callAt_unknown hFound]
          exact law.faulted site hHolds
            (show (Fault.unknownMethod name).Arises from rfl)
      | some body =>
          by_cases hCyclic : Text.lowercase name ∈ machine.stack
          · rw [callAt_cyclic hFound hCyclic]
            exact law.faulted site hHolds
              (show (Fault.cyclicCall name _).Arises from rfl)
          · cases depth with
            | zero =>
                rw [callAt_zero hFound hCyclic]
                exact law.deepened site hHolds
            | succ depth =>
                rw [callAt_succ hFound hCyclic]
                have hCall := ih depth (Nat.lt_succ_self depth)
                have hBody := obeys_execAll hCall body (law.good_stored hHolds hFound)
                exact hBody.calling hHolds hCyclic

/-- A statement in its own right, outside of any other. -/
theorem obeys_run {stmt : Stmt} (hGood : law.Good stmt) : law.Obeys (stmt.run limits) :=
  fun machine hHolds => obeys_exec (law.obeys_callAt _) stmt hGood machine hHolds

/-- **Every run obeys the law**, if its statements are good and its
failures may stop it. -/
theorem obeys_runItems {items : List Item}
    (hGood : ∀ stmt, .ok stmt ∈ items → law.Good stmt)
    (hFailed : ∀ problem, .error problem ∈ items → ∀ machine, law.Holds machine →
      law.Stops machine problem machine) : law.Obeys (runItems limits items) := by
  induction items with
  | nil => exact law.obeys_pure ()
  | cons item rest ih =>
      have hRest := ih (fun stmt hMem => hGood stmt (List.mem_cons_of_mem item hMem))
        fun problem hMem => hFailed problem (List.mem_cons_of_mem item hMem)
      rw [runItems]
      refine Obeys.bind ?_ fun _ => hRest
      cases item with
      | ok stmt => exact law.obeys_run (hGood stmt List.mem_cons_self)
      | error problem => exact hFailed problem List.mem_cons_self

end Law

end PenScript
