import Mathlib
import PenScript.Proofs.LineOrder
import PenScript.Proofs.Progress
import PenScript.Proofs.StoreGrowth

/-!
# The methods a run stops in

A run that is stopped by a fault leaves every method it is in, so that the machine does
not tell afterwards which methods were being executed. To speak of them, the run is
repeated with calls that *stay*: at a fault they leave the call stack as it is. Up to
the stack of a machine that was stopped this is the same run, and the stack it ends with
names the methods that were being executed, the innermost first.

Every fault that executing finds is raised at the line of the statement that is being
executed. If the run stops in no method, this is a statement of the script. Otherwise it
is one in the body of the innermost method, and what is stored under its name is still
that body, because the store only grows.

## Main results

* `traces_exec`, `traces_callAt`, `traces_stayItems`: staying is executing, and where it
  stops the fault points to the innermost method;
* `runItems_eq_stayItems`: a run and the run that stays;
* `points_of_runLines`: the line that a stopped run names.
-/

namespace PenScript

open Exec

/-! ## Staying in a method -/

/-- Acts within a method, and stays in it at a fault. -/
def Exec.staying (key : String) (action : Exec Unit) : Exec Unit := fun machine =>
  match action { machine with stack := key :: machine.stack } with
  | .ok value final => .ok value { final with stack := final.stack.tail }
  | .error problem final => .error problem final

/-- Calls a method as `callAt` does, but stays in a method that has been entered. -/
def stayAt (limits : Limits) : Nat → Caller
  | 0 => callAt limits 0
  | depth + 1 => fun name site machine =>
      match machine.store.methods.get? name with
      | none => callAt limits (depth + 1) name site machine
      | some body =>
          let key := Text.lowercase name
          if key ∈ machine.stack then callAt limits (depth + 1) name site machine
          else staying key (Stmt.execAll limits (stayAt limits depth) body) machine

/-- Executes an item, and stays in the methods it stops in. -/
def Item.stay (limits : Limits) : Item → Exec Unit
  | .ok stmt => fun machine =>
      stmt.exec limits (stayAt limits (machine.callsLeft limits)) machine
  | .error problem => throw problem

/-- Executes items up to the first fault, and stays in the methods it stops in. -/
def stayItems (limits : Limits) : List Item → Exec Unit
  | [] => pure ()
  | item :: rest => do
      item.stay limits
      stayItems limits rest

/-- The methods that are being executed where a run of lines is stopped, the innermost
first, by their names in lower case. -/
def Session.stoppedIn (session : Session) (lines : List Line) : List String :=
  (finalState (stayItems session.limits (read .complete lines).items
    session.machine)).stack

/-! ## Where faults are raised -/

/-- Whether all faults of an action are raised at some of the lines. -/
def Exec.FailsIn {α : Type} (sites : List Site) (action : Exec α) : Prop :=
  ∀ machine problem after, action machine = .error problem after → problem.site ∈ sites

namespace Exec.FailsIn

variable {α : Type} {sites : List Site} {site : Site}

theorem pure (value : α) : (Pure.pure value : Exec α).FailsIn sites := by
  intro machine problem after hFails
  cases hFails

theorem fail (fault : Fault) (hSite : site ∈ sites) :
    (Exec.fail fault site : Exec α).FailsIn sites := by
  intro machine problem after hFails
  cases hFails
  exact hSite

theorem tick (limits : Limits) (hSite : site ∈ sites) :
    (Exec.tick limits site).FailsIn sites := by
  intro machine problem after hFails
  rw [tick_apply] at hFails
  split at hFails
  · cases hFails
    exact hSite
  · cases hFails

theorem demand (found : Except Fault α) (hSite : site ∈ sites) :
    (Exec.demand site found).FailsIn sites := by
  cases found with
  | ok value => exact .pure value
  | error fault => exact .fail fault hSite

theorem valueOf (term : Term) (hSite : site ∈ sites) :
    (Exec.valueOf term site).FailsIn sites := by
  intro machine problem after hFails
  rw [valueOf_apply] at hFails
  exact demand _ hSite machine problem after hFails

theorem test (condition : Condition) (hSite : site ∈ sites) :
    (Exec.test condition site).FailsIn sites := by
  intro machine problem after hFails
  rw [test_apply] at hFails
  exact demand _ hSite machine problem after hFails

theorem assign (name : String) (value : Int32) :
    (Exec.assign name value).FailsIn sites := by
  intro machine problem after hFails
  cases hFails

theorem draw (command : Command) (hSite : site ∈ sites) :
    (Exec.draw command site).FailsIn sites := by
  intro machine problem after hFails
  rw [draw_apply] at hFails
  split at hFails
  · split at hFails
    · cases hFails
    · cases hFails
      exact hSite
  · cases hFails

theorem define (name : String) (body : List Stmt) (hSite : site ∈ sites) :
    (Exec.define name body site).FailsIn sites := by
  intro machine problem after hFails
  rw [define_apply] at hFails
  split at hFails
  · cases hFails
  · cases hFails
    exact hSite

theorem raise {problem : Diagnostic} (gated : Bool) (hSite : problem.site ∈ sites) :
    (Exec.raise problem gated).FailsIn sites := by
  intro machine found after hFails
  rw [raise_apply] at hFails
  split at hFails
  · cases hFails
    exact hSite
  · cases hFails

end Exec.FailsIn

/-! ## Staying is executing -/

/-- Where a fault points to that stops a machine which began with some call stack:
at one of the lines that were executed, or, if methods have been entered since, at
a line of the innermost. -/
inductive Machine.PointsTo (stack : List String) (sites : List Site) (site : Site)
    (final : Machine) : Prop where
  | here (hStack : final.stack = stack) (hSite : site ∈ sites)
  | inside {key : String} {outer : List String} {body : List Stmt}
      (hStack : final.stack = key :: outer)
      (hBody : final.store.methods.bodies.get? key = some body)
      (hSite : site ∈ Stmt.sitesIn body)

/-- Whether one action does what another does, except that it stays in the
methods it stops in; the first executes some lines, and the faults of both
point where they should. -/
def Exec.Traces {α : Type} (sites : List Site) (stay act : Exec α) : Prop :=
  ∀ machine, match stay machine with
    | .ok value after => act machine = .ok value after ∧ after.stack = machine.stack
    | .error problem after =>
        act machine = .error problem { after with stack := machine.stack } ∧
          Machine.PointsTo machine.stack sites problem.site after

namespace Exec.Traces

variable {α β : Type} {sites other : List Site} {limits : Limits}

/-- An action that enters no method. -/
theorem single {action : Exec α} (hForward : (Law.advance limits).Obeys action)
    (hFails : action.FailsIn sites) : Traces sites action action := by
  have hAdvances := Exec.GoesForward.obeys_iff.mp hForward
  intro machine
  have hStack : (finalState (action machine)).stack = machine.stack :=
    (hAdvances machine).stack
  cases hRun : action machine with
  | ok value after =>
      rw [hRun] at hStack
      exact ⟨rfl, hStack⟩
  | error problem after =>
      rw [hRun] at hStack
      have hSame : { after with stack := machine.stack } = after := by
        rw [← hStack]
        rfl
      exact ⟨by rw [hSame], .here hStack (hFails machine problem after hRun)⟩

theorem mono {stay act : Exec α} (hTraces : Traces sites stay act)
    (hSites : sites ⊆ other) : Traces other stay act := by
  intro machine
  have hHere := hTraces machine
  cases hRun : stay machine with
  | ok value after =>
      rw [hRun] at hHere
      exact hHere
  | error problem after =>
      rw [hRun] at hHere
      refine ⟨hHere.1, ?_⟩
      cases hHere.2 with
      | here hStack hSite => exact .here hStack (hSites hSite)
      | inside hStack hBody hSite => exact .inside hStack hBody hSite

theorem bind {stay act : Exec α} {stayNext actNext : α → Exec β}
    (hFirst : Traces sites stay act)
    (hNext : ∀ value, Traces sites (stayNext value) (actNext value)) :
    Traces sites (stay >>= stayNext) (act >>= actNext) := by
  intro machine
  have hHere := hFirst machine
  rw [bind_apply, bind_apply]
  cases hRun : stay machine with
  | error problem after =>
      rw [hRun] at hHere
      rw [hHere.1]
      exact ⟨rfl, hHere.2⟩
  | ok value middle =>
      rw [hRun] at hHere
      obtain ⟨hAct, hStack⟩ := hHere
      have hRest := hNext value middle
      rw [hAct, ← hStack]
      exact hRest

theorem times {stay act : Exec Unit} (hBody : Traces sites stay act) (turns : Nat) :
    Traces sites (Exec.times turns stay) (Exec.times turns act) := by
  induction turns with
  | zero => exact single ((Law.advance default).obeys_pure ()) (.pure ())
  | succ turns ih => exact hBody.bind fun _ => ih

theorem withGate {stay act : Exec Unit} (hBody : Traces sites stay act) (holds : Bool) :
    Traces sites (Exec.withGate holds stay) (Exec.withGate holds act) := by
  intro machine
  have hHere := hBody { machine with gate := machine.gate && holds }
  rw [withGate_apply, withGate_apply, andFinally_apply, andFinally_apply]
  cases hRun : stay { machine with gate := machine.gate && holds } with
  | ok value after =>
      rw [hRun] at hHere
      rw [hHere.1]
      exact ⟨rfl, hHere.2⟩
  | error problem after =>
      rw [hRun] at hHere
      rw [hHere.1]
      refine ⟨rfl, ?_⟩
      cases hHere.2 with
      | here hStack hSite => exact .here hStack hSite
      | inside hStack hBody hSite => exact .inside hStack hBody hSite

end Exec.Traces

section

variable {limits : Limits}

theorem traces_tick {site : Site} {sites : List Site} (hSite : site ∈ sites) :
    Traces sites (tick limits site) (tick limits site) :=
  .single ((Law.advance limits).obeys_tick site) (.tick limits hSite)

mutual

/-- **Executing a statement with calls that stay** points to its lines,
or into a method. -/
theorem traces_exec {stay act : Caller}
    (hCall : ∀ name site, Traces [site] (stay name site) (act name site)) :
    ∀ stmt : Stmt, Traces stmt.sites (stmt.exec limits stay) (stmt.exec limits act)
  | .assign name value site => by
      rw [Stmt.exec, Stmt.exec, Stmt.sites]
      have hSite := List.mem_singleton_self site
      refine (traces_tick hSite).bind fun _ => .bind ?_ fun found => ?_
      · exact .single ((Law.advance limits).obeys_valueOf value site)
          (.valueOf value hSite)
      · exact .single ((Law.advance limits).obeys_assign name found)
          (.assign name found)
  | .draw command site => by
      rw [Stmt.exec, Stmt.exec, Stmt.sites]
      have hSite := List.mem_singleton_self site
      refine (traces_tick hSite).bind fun _ => ?_
      exact .single ((Law.advance limits).obeys_draw command site) (.draw command hSite)
  | .branch condition body site => by
      rw [Stmt.exec, Stmt.exec, Stmt.sites]
      have hSite : site ∈ site :: Stmt.sitesIn body := List.mem_cons_self
      have hBody := (traces_execAll hCall body).mono (List.subset_cons_self site _)
      refine (traces_tick hSite).bind fun _ => .bind ?_ fun holds =>
        hBody.withGate holds
      exact .single ((Law.advance limits).obeys_test condition site)
        (.test condition hSite)
  | .loop count body site => by
      rw [Stmt.exec, Stmt.exec, Stmt.sites]
      have hSite : site ∈ site :: Stmt.sitesIn body := List.mem_cons_self
      have hBody := (traces_execAll hCall body).mono (List.subset_cons_self site _)
      refine (traces_tick hSite).bind fun _ => .bind ?_ fun turns => ?_
      · exact .single ((Law.advance limits).obeys_valueOf count site)
          (.valueOf count hSite)
      · split
        · rename_i hNegative
          have hArises : (Fault.negativeCount turns).Arises := hNegative
          exact .single ((Law.advance limits).obeys_fail hArises site) (.fail _ hSite)
        · split
          · exact .single ((Law.advance limits).obeys_pure ()) (.pure ())
          · exact hBody.times _
  | .method name body site => by
      rw [Stmt.exec, Stmt.exec, Stmt.sites]
      have hSite : site ∈ site :: Stmt.sitesIn body := List.mem_cons_self
      refine (traces_tick hSite).bind fun _ => ?_
      exact .single ((Law.advance limits).obeys_define trivial)
        (.define name body hSite)
  | .call name site => by
      rw [Stmt.exec, Stmt.exec, Stmt.sites]
      exact (traces_tick (List.mem_singleton_self site)).bind fun _ => hCall name site
  | .invalid problem gated => by
      rw [Stmt.exec, Stmt.exec, Stmt.sites]
      have hSite := List.mem_singleton_self problem.site
      refine (traces_tick hSite).bind fun _ => ?_
      exact .single ((Law.advance limits).obeys_raise trivial) (.raise gated hSite)

theorem traces_execAll {stay act : Caller}
    (hCall : ∀ name site, Traces [site] (stay name site) (act name site)) :
    ∀ stmts : List Stmt, Traces (Stmt.sitesIn stmts) (Stmt.execAll limits stay stmts)
      (Stmt.execAll limits act stmts)
  | [] => by
      rw [Stmt.execAll, Stmt.execAll]
      exact .single ((Law.advance limits).obeys_pure ()) (.pure ())
  | stmt :: rest => by
      rw [Stmt.execAll, Stmt.execAll, Stmt.sitesIn]
      have hFirst :=
        (traces_exec hCall stmt).mono (List.subset_append_left _ (Stmt.sitesIn rest))
      have hRest :=
        (traces_execAll hCall rest).mono (List.subset_append_right stmt.sites _)
      exact hFirst.bind fun _ => hRest

end

/-- A call that enters no method stops at its own line, whether or not it would stay. -/
theorem stayAt_cases (depth : Nat) (name : String) (site : Site) (machine : Machine) :
    (∃ fault, stayAt limits depth name site machine = .error ⟨fault, site⟩ machine ∧
      callAt limits depth name site machine = .error ⟨fault, site⟩ machine) ∨
    ∃ left body, depth = left + 1 ∧ machine.store.methods.get? name = some body ∧
      stayAt limits depth name site machine =
        staying (Text.lowercase name) (Stmt.execAll limits (stayAt limits left) body)
          machine ∧
      callAt limits depth name site machine =
        calling (Text.lowercase name) (Stmt.execAll limits (callAt limits left) body)
          machine := by
  cases hFound : machine.store.methods.get? name with
  | none =>
      refine Or.inl ⟨_, ?_, callAt_unknown hFound⟩
      cases depth <;> simp [stayAt, hFound, callAt_unknown hFound]
  | some body =>
      by_cases hCyclic : Text.lowercase name ∈ machine.stack
      · refine Or.inl ⟨_, ?_, callAt_cyclic hFound hCyclic⟩
        cases depth <;> simp [stayAt, hFound, hCyclic, callAt_cyclic hFound hCyclic]
      · cases depth with
        | zero =>
            exact Or.inl ⟨_, callAt_zero hFound hCyclic, callAt_zero hFound hCyclic⟩
        | succ left =>
            refine Or.inr ⟨left, body, rfl, rfl, ?_, callAt_succ hFound hCyclic⟩
            simp [stayAt, hFound, hCyclic]

variable (limits)

/-- **A call that stays** points to its own line, or into a method. -/
theorem traces_callAt (depth : Nat) (name : String) (site : Site) :
    Traces [site] (stayAt limits depth name site) (callAt limits depth name site) := by
  induction depth generalizing name site with
  | zero =>
      intro machine
      rcases stayAt_cases 0 name site machine with
        ⟨fault, hStay, hAct⟩ | ⟨left, _, hDepth, -⟩
      · rw [hStay, hAct]
        exact ⟨rfl, .here rfl (List.mem_singleton_self site)⟩
      · omega
  | succ depth ih =>
      intro machine
      rcases stayAt_cases (depth + 1) name site machine with
        ⟨fault, hStay, hAct⟩ | ⟨left, body, hDepth, hFound, hStay, hAct⟩
      · rw [hStay, hAct]
        exact ⟨rfl, .here rfl (List.mem_singleton_self site)⟩
      · obtain rfl : depth = left := by omega
        rw [hStay, hAct, calling_apply, andFinally_apply, staying]
        let inside : Machine :=
          { machine with stack := Text.lowercase name :: machine.stack }
        have hInside := @traces_execAll limits _ _ ih body inside
        have hGrows := grows_execAll limits depth body inside
        cases hRun : Stmt.execAll limits (stayAt limits depth) body inside with
        | ok value after =>
            rw [hRun] at hInside
            rw [hInside.1]
            -- The name that is taken off is the one that was put on.
            exact ⟨rfl, congrArg List.tail hInside.2⟩
        | error problem after =>
            rw [hRun] at hInside
            rw [hInside.1] at hGrows ⊢
            refine ⟨rfl, ?_⟩
            cases hInside.2 with
            | here hStack hSite =>
                -- What is being executed is still what is stored.
                exact .inside hStack (hGrows.methods _ body hFound) hSite
            | inside hStack hBody hSite => exact .inside hStack hBody hSite

/-! ## Whole runs -/

theorem traces_stay (item : Item) :
    Traces item.sites (item.stay limits) (item.run limits) := by
  cases item with
  | error problem =>
      have hFails : (throw problem : Exec Unit).FailsIn [problem.site] := by
        intro machine found after hRun
        cases hRun
        exact List.mem_singleton_self _
      have hForward : (Law.advance limits).Obeys (throw problem : Exec Unit) :=
        Exec.GoesForward.obeys_iff.mpr fun machine => .refl machine
      exact .single hForward hFails
  | ok stmt =>
      intro machine
      exact traces_exec (traces_callAt limits (machine.callsLeft limits)) stmt machine

/-- **Running items with calls that stay** points to one of their lines,
or into a method. -/
theorem traces_stayItems (items : List Item) :
    Traces (items.flatMap Item.sites) (stayItems limits items)
      (runItems limits items) := by
  induction items with
  | nil => exact .single ((Law.advance limits).obeys_pure ()) (.pure ())
  | cons item rest ih =>
      rw [List.flatMap_cons]
      refine Traces.bind ?first fun _ => ?rest
      case first => exact (traces_stay limits item).mono (List.subset_append_left _ _)
      case rest => exact ih.mono (List.subset_append_right _ _)

/-- **A run and the run that stays** in the methods it stops in end alike,
up to the call stack. -/
theorem runItems_eq_stayItems (items : List Item) (machine : Machine) :
    outcome (runItems limits items machine) = outcome (stayItems limits items machine) ∧
      finalState (runItems limits items machine) =
        { finalState (stayItems limits items machine) with stack :=
          machine.stack } := by
  have hTraces := traces_stayItems limits items machine
  cases hRun : stayItems limits items machine with
  | ok value after =>
      rw [hRun] at hTraces
      rw [hTraces.1, ← hTraces.2]
      exact ⟨rfl, rfl⟩
  | error problem after =>
      rw [hRun] at hTraces
      rw [hTraces.1]
      exact ⟨rfl, rfl⟩

end

/-- **The line that a stopped run names.** If it stopped in no method, this is a line of
the statements that were run, and otherwise one of the body of the innermost. -/
theorem points_of_runLines {session : Session} {lines : List Line}
    {problem : Diagnostic}
    (hStopped : (session.runLines lines).result = .error problem) :
    (session.stoppedIn lines = [] ∧
      problem.site ∈ (read .complete lines).items.flatMap Item.sites) ∨
    ∃ key outer body, session.stoppedIn lines = key :: outer ∧
      (session.runLines lines).session.store.methods.bodies.get? key = some body ∧
      problem.site ∈ Stmt.sitesIn body := by
  have hTraces :=
    traces_stayItems session.limits (read .complete lines).items session.machine
  unfold Session.stoppedIn
  obtain ⟨final, hEnd, hSession, -⟩ := runLines_cases session lines
  rcases hEnd with ⟨-, hOk⟩ | ⟨found, hRun, hFound⟩
  · rw [hStopped] at hOk
    cases hOk
  · rw [hStopped] at hFound
    cases hFound
    cases hStay : stayItems session.limits (read .complete lines).items
      session.machine with
    | ok value after =>
        rw [hStay, hRun] at hTraces
        cases hTraces.1
    | error other after =>
        rw [hStay, hRun] at hTraces
        obtain ⟨hSame, hPoints⟩ := hTraces
        cases hSame
        rw [hSession]
        cases hPoints with
        | here hStack hSite => exact Or.inl ⟨hStack, hSite⟩
        | inside hStack hBody hSite => exact Or.inr ⟨_, _, _, hStack, hBody, hSite⟩

end PenScript
