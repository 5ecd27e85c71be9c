import PenScript.Proofs.Actions

/-!
# Runs that write down where they have been

What holds in the middle of a run can only be said of a run that shows its middle.
So statements are executed once more, and machines on the way are written down.
What is of interest differs: every machine that a single action leaves, with those
right after the gate is closed or opened again and a method is entered or left; or
the machines at which turns of loops start, around some bodies or around all. A
*watch* says which of them are written down.

Writing down changes nothing about the run, whatever is watched. There is one
difference in the making: a loop over an empty body is left at once where
statements are executed, and makes all its turns where they are recorded, so that
they can be seen. Such turns do nothing.

## Main results

* `snd_recordExec`, `snd_recordCallAt`, `snd_recordItems`: a recorded run is the run;
* `recordCallAt_cases`: a call is stopped where it stands, or enters a method.
-/

namespace PenScript

open Exec

/-- An action together with the machines it writes down, in order. -/
def Recorded (α : Type) := Machine → List Machine × EStateM.Result Diagnostic Machine α

/-- What is written down of a run. -/
structure Watch where
  /-- Whether every moment is: the end of a single action, of a change
  and of undoing it. -/
  moments : Bool
  /-- The bodies whose turns are, each where it starts. -/
  turns : List Stmt → Bool

namespace Watch

/-- Watches every moment. -/
def everyMoment : Watch := ⟨true, fun _ => false⟩

/-- Watches the turns around the bodies that are seen. -/
def turnsOf (seen : List Stmt → Bool) : Watch := ⟨false, seen⟩

/-- Writes a moment down, if moments are watched. -/
def note (watch : Watch) (machine : Machine) : List Machine :=
  if watch.moments then [machine] else []

end Watch

/-! ## Recorded actions -/

namespace Recorded

variable {α β : Type}

/-- Goes on after an action, unless it was stopped. -/
def andThen (action : Recorded α) (next : α → Recorded β) : Recorded β := fun machine =>
  match action machine with
  | (points, .ok value after) =>
      let rest := next value after
      (points ++ rest.1, rest.2)
  | (points, .error problem after) => (points, .error problem after)

instance : Monad Recorded where
  pure value := fun machine => ([], .ok value machine)
  bind := andThen

variable (watch : Watch)

/-- A single action, of which at most the end is seen. -/
def single (action : Exec α) : Recorded α := fun machine =>
  (watch.note (finalState (action machine)), action machine)

/-- Changes the machine for an action, and undoes it however the action ends. -/
def within (enter : Machine → Machine) (leave : Machine → Machine → Machine)
    (action : Recorded Unit) : Recorded Unit := fun machine =>
  let inside := action (enter machine)
  let last := leave machine (finalState inside.2)
  (watch.note (enter machine) ++ (inside.1 ++ watch.note last),
    andFinally (leave machine) (fun start => (action start).2) (enter machine))

/-- Acts with drawing on only if it already is and the condition holds. -/
def withGate (holds : Bool) : Recorded Unit → Recorded Unit :=
  within watch (fun machine => { machine with gate := machine.gate && holds })
    fun machine final => { final with gate := machine.gate }

/-- Acts within a method. -/
def calling (key : String) : Recorded Unit → Recorded Unit :=
  within watch (fun machine => { machine with stack := key :: machine.stack })
    fun _ final => { final with stack := final.stack.tail }

/-- A turn, which is written down where it starts, if it is seen. -/
def turn (seen : Bool) (action : Recorded Unit) : Recorded Unit := fun machine =>
  let inside := action machine
  (if seen then machine :: inside.1 else inside.1, inside.2)

/-- Repeats an action. -/
def times : Nat → Recorded Unit → Recorded Unit
  | 0, _ => pure ()
  | n + 1, action => do
      action
      times n action

end Recorded

/-! ## Recorded statements and calls -/

namespace Stmt

open Recorded (single)

mutual

/-- Executes a statement and records it, given what calls do. -/
def recordExec (watch : Watch) (limits : Limits)
    (call : String → Site → Recorded Unit) :
    Stmt → Recorded Unit
  | .assign name value site => do
      single watch (tick limits site)
      single watch (Exec.assign name (← single watch (valueOf value site)))
  | .draw command site => do
      single watch (tick limits site)
      single watch (Exec.draw command site)
  | .branch condition body site => do
      single watch (tick limits site)
      let holds ← single watch (test condition site)
      Recorded.withGate watch holds (recordExecAll watch limits call body)
  | .loop count body site => do
      single watch (tick limits site)
      let turns ← single watch (valueOf count site)
      if turns < 0 then single watch (fail (.negativeCount turns) site)
      else
        Recorded.times turns.toInt.toNat <|
          Recorded.turn (watch.turns body) (recordExecAll watch limits call body)
  | .method name body site => do
      single watch (tick limits site)
      single watch (define name body site)
  | .call name site => do
      single watch (tick limits site)
      call name site
  | .invalid problem gated => do
      single watch (tick limits problem.site)
      single watch (raise problem gated)

/-- Executes and records statements in order, up to the first fault. -/
def recordExecAll (watch : Watch) (limits : Limits)
    (call : String → Site → Recorded Unit) :
    List Stmt → Recorded Unit
  | [] => pure ()
  | stmt :: rest => do
      recordExec watch limits call stmt
      recordExecAll watch limits call rest

end

end Stmt

/-- Calls a method as `callAt` does, and records what is done within it. -/
def recordCallAt (watch : Watch) (limits : Limits) : Nat → String → Site → Recorded Unit
  | 0, name, site => .single watch (callAt limits 0 name site)
  | depth + 1, name, site => fun machine =>
      match machine.store.methods.get? name with
      | none => Recorded.single watch (callAt limits (depth + 1) name site) machine
      | some body =>
          let key := Text.lowercase name
          if key ∈ machine.stack then
            Recorded.single watch (callAt limits (depth + 1) name site) machine
          else
            Recorded.calling watch key
              (Stmt.recordExecAll watch limits (recordCallAt watch limits depth) body)
                machine

/-- Executes and records a statement in its own right. -/
def Stmt.record (watch : Watch) (limits : Limits) (stmt : Stmt) :
    Recorded Unit := fun machine =>
  stmt.recordExec watch limits (recordCallAt watch limits (machine.callsLeft limits))
    machine

/-- Executes and records statements in order, up to the first fault. -/
def recordAll (watch : Watch) (limits : Limits) (stmts : List Stmt) : Recorded Unit :=
  fun machine =>
    Stmt.recordExecAll watch limits
      (recordCallAt watch limits (machine.callsLeft limits)) stmts
      machine

/-- Executes and records items in order, up to the first fault. -/
def recordItems (watch : Watch) (limits : Limits) : List Item → Recorded Unit
  | [] => pure ()
  | .ok stmt :: rest => do
      stmt.record watch limits
      recordItems watch limits rest
  | .error problem :: _ => .single watch (throw problem)

/-! ## A recorded run is the run -/

namespace Recorded

variable {α β : Type}

/-- What comes of two actions recorded one after the other is what comes
of the two actions. -/
theorem snd_bind {record : Recorded α} {act : Exec α} {next : α → Recorded β}
    {next' : α → Exec β} (hFirst : ∀ machine, (record machine).2 = act machine)
    (hNext : ∀ value machine, (next value machine).2 = next' value machine)
    (machine : Machine) : ((record >>= next) machine).2 = (act >>= next') machine := by
  show (andThen record next machine).2 = _
  rw [bind_apply, ← hFirst machine, andThen]
  cases record machine with
  | mk points result =>
      cases result with
      | ok value after => exact hNext value after
      | error problem after => rfl

theorem snd_times {record : Recorded Unit} {act : Exec Unit}
    (hTells : ∀ machine, (record machine).2 = act machine) (turns : Nat)
    (machine : Machine) :
    (times turns record machine).2 = Exec.times turns act machine := by
  induction turns generalizing machine with
  | zero => rfl
  | succ turns ih => exact snd_bind hTells (fun _ => ih) machine

theorem snd_within {record : Recorded Unit} {act : Exec Unit}
    (hTells : ∀ machine, (record machine).2 = act machine) (watch : Watch)
    (enter : Machine → Machine) (leave : Machine → Machine → Machine)
    (machine : Machine) :
    (within watch enter leave record machine).2 =
      andFinally (leave machine) act (enter machine) := by
  have hSame : (fun start => (record start).2) = act := funext hTells
  rw [within, hSame]

/-- A change that is undone ends where undoing it leads from the end of what
is done in between. -/
theorem finalState_within (watch : Watch) (enter : Machine → Machine)
    (leave : Machine → Machine → Machine) (record : Recorded Unit) (machine : Machine) :
    finalState (within watch enter leave record machine).2 =
      leave machine (finalState (record (enter machine)).2) :=
  finalState_andFinally (leave machine) (fun start => (record start).2) (enter machine)

end Recorded

/-- A loop that does nothing in its turns does nothing. -/
theorem times_pure (turns : Nat) : Exec.times turns (pure ()) = pure () := by
  induction turns with
  | zero => rfl
  | succ turns ih => rw [Exec.times, ih]; rfl

section

variable {watch : Watch} {limits : Limits}

mutual

/-- **A recorded statement is the statement**, if recorded calls are the calls. -/
theorem snd_recordExec {record : String → Site → Recorded Unit} {call : Caller}
    (hCall : ∀ name site machine, (record name site machine).2 =
      call name site machine) :
    ∀ (stmt : Stmt) (machine : Machine),
      (Stmt.recordExec watch limits record stmt machine).2 =
        Stmt.exec limits call stmt machine
  | .assign name value site => by
      rw [Stmt.recordExec, Stmt.exec]
      exact Recorded.snd_bind (fun _ => rfl) fun _ =>
        Recorded.snd_bind (fun _ => rfl) fun _ _ => rfl
  | .draw command site => by
      rw [Stmt.recordExec, Stmt.exec]
      exact Recorded.snd_bind (fun _ => rfl) fun _ _ => rfl
  | .branch condition body site => by
      rw [Stmt.recordExec, Stmt.exec]
      refine Recorded.snd_bind (fun _ => rfl) fun _ => ?_
      refine Recorded.snd_bind (fun _ => rfl) fun holds machine => ?_
      rw [withGate_apply]
      exact Recorded.snd_within (snd_recordExecAll hCall body) watch _ _ machine
  | .loop count body site => by
      rw [Stmt.recordExec, Stmt.exec]
      refine Recorded.snd_bind (fun _ => rfl) fun _ => ?_
      refine Recorded.snd_bind (fun _ => rfl) fun turns machine => ?_
      by_cases hNegative : turns < 0
      · rw [if_pos hNegative, if_pos hNegative]
        rfl
      · rw [if_neg hNegative, if_neg hNegative]
        have hTurn : ∀ machine : Machine, (Recorded.turn (watch.turns body)
            (Stmt.recordExecAll watch limits record body) machine).2 =
              Stmt.execAll limits call body machine := snd_recordExecAll hCall body
        rw [Recorded.snd_times hTurn]
        split
        · -- execution skips the turns that are recorded here, and they would do nothing
          rename_i hEmpty
          rw [List.isEmpty_iff.mp hEmpty, Stmt.execAll, times_pure]
        · rfl
  | .method name body site => by
      rw [Stmt.recordExec, Stmt.exec]
      exact Recorded.snd_bind (fun _ => rfl) fun _ _ => rfl
  | .call name site => by
      rw [Stmt.recordExec, Stmt.exec]
      exact Recorded.snd_bind (fun _ => rfl) fun _ => hCall name site
  | .invalid problem gated => by
      rw [Stmt.recordExec, Stmt.exec]
      exact Recorded.snd_bind (fun _ => rfl) fun _ _ => rfl

theorem snd_recordExecAll {record : String → Site → Recorded Unit} {call : Caller}
    (hCall : ∀ name site machine, (record name site machine).2 =
      call name site machine) :
    ∀ (stmts : List Stmt) (machine : Machine),
      (Stmt.recordExecAll watch limits record stmts machine).2 =
        Stmt.execAll limits call stmts machine
  | [] => by
      rw [Stmt.recordExecAll, Stmt.execAll]
      exact fun _ => rfl
  | stmt :: rest => by
      rw [Stmt.recordExecAll, Stmt.execAll]
      exact Recorded.snd_bind (snd_recordExec hCall stmt) fun _ =>
        snd_recordExecAll hCall rest

end

/-- A call is stopped where it stands, or enters a method that is defined and
not being executed. -/
theorem recordCallAt_cases (depth : Nat) (name : String) (site : Site)
    (machine : Machine) :
    (∃ fault, recordCallAt watch limits depth name site machine =
        Recorded.single watch (callAt limits depth name site) machine ∧
      callAt limits depth name site machine = .error ⟨fault, site⟩ machine) ∨
    ∃ left body, depth = left + 1 ∧ machine.store.methods.get? name = some body ∧
      Text.lowercase name ∉ machine.stack ∧
      recordCallAt watch limits depth name site machine =
        Recorded.calling watch (Text.lowercase name)
          (Stmt.recordExecAll watch limits (recordCallAt watch limits left) body)
            machine ∧
      callAt limits depth name site machine =
        calling (Text.lowercase name) (Stmt.execAll limits (callAt limits left) body)
          machine := by
  cases hFound : machine.store.methods.get? name with
  | none =>
      refine Or.inl ⟨_, ?_, callAt_unknown hFound⟩
      cases depth <;> simp [recordCallAt, hFound]
  | some body =>
      by_cases hCyclic : Text.lowercase name ∈ machine.stack
      · refine Or.inl ⟨_, ?_, callAt_cyclic hFound hCyclic⟩
        cases depth <;> simp [recordCallAt, hFound, hCyclic]
      · cases depth with
        | zero => exact Or.inl ⟨_, rfl, callAt_zero hFound hCyclic⟩
        | succ left =>
            refine Or.inr ⟨left, body, rfl, rfl, hCyclic, ?_,
              callAt_succ hFound hCyclic⟩
            simp [recordCallAt, hFound, hCyclic]

/-- **A recorded call is the call.** -/
theorem snd_recordCallAt (depth : Nat) :
    ∀ (name : String) (site : Site) (machine : Machine),
      (recordCallAt watch limits depth name site machine).2 =
      callAt limits depth name site machine := by
  induction depth with
  | zero => exact fun _ _ _ => rfl
  | succ depth ih =>
      intro name site machine
      rcases recordCallAt_cases (depth + 1) name site machine with
        ⟨fault, hRecord, -⟩ | ⟨left, body, hDepth, -, -, hRecord, hCall⟩
      · rw [hRecord]
        rfl
      · cases hDepth
        rw [hRecord, hCall, calling_apply]
        exact Recorded.snd_within (snd_recordExecAll ih body) watch _ _ machine

variable (watch limits)

theorem snd_record (stmt : Stmt) (machine : Machine) :
    (stmt.record watch limits machine).2 = stmt.run limits machine :=
  snd_recordExec (snd_recordCallAt _) stmt machine

theorem snd_recordAll (stmts : List Stmt) (machine : Machine) :
    (recordAll watch limits stmts machine).2 = runAll limits stmts machine :=
  snd_recordExecAll (snd_recordCallAt _) stmts machine

/-- **A recorded run of items is the run.** -/
theorem snd_recordItems (items : List Item) (machine : Machine) :
    (recordItems watch limits items machine).2 = runItems limits items machine := by
  induction items generalizing machine with
  | nil => rfl
  | cons item rest ih =>
      cases item with
      | error problem => rfl
      | ok stmt =>
          rw [recordItems, runItems]
          exact Recorded.snd_bind (snd_record watch limits stmt) (fun _ => ih) machine

end

end PenScript
