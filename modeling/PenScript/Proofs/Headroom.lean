import PenScript.Proofs.Pairing
import PenScript.Proofs.Progress

/-!
# Runs with more room

The same statements are executed twice: once under *tight* limits, from a
machine that has already counted and drawn something, and once under *roomy*
ones, from a machine that has not. As long as the first run is not stopped by a
limit, the two do the same; where a limit stops the first, it has drawn a
beginning of what the second draws.

What the first machine has done before is kept as two numbers of a kind, the
steps it is ahead and the gestures it has made, so that the two machines are
equal up to these and the comparison is an equation.

## Main results

* `tracks_exec`, `tracks_callAt`, `tracks_runItems`: a run under tight limits
  tracks the run under roomy ones until a limit stops it.
-/

namespace PenScript

open Exec
open Exec.GoesForward (obeys_iff)

/-- The machine it would be, had some steps been counted and some
gestures made before. -/
def Machine.resumed (lead : Nat) (earlier : Array Gesture) (machine : Machine) :
    Machine :=
  { machine with steps := lead + machine.steps, trace := earlier ++ machine.trace }

namespace Machine

variable (lead : Nat) (earlier : Array Gesture)

@[simp] theorem resumed_store (machine : Machine) :
    (machine.resumed lead earlier).store = machine.store := rfl

@[simp] theorem resumed_gate (machine : Machine) :
    (machine.resumed lead earlier).gate = machine.gate := rfl

@[simp] theorem resumed_stack (machine : Machine) :
    (machine.resumed lead earlier).stack = machine.stack := rfl

@[simp] theorem resumed_steps (machine : Machine) :
    (machine.resumed lead earlier).steps = lead + machine.steps := rfl

@[simp] theorem resumed_trace (machine : Machine) :
    (machine.resumed lead earlier).trace = earlier ++ machine.trace := rfl

end Machine

theorem Machine.resumed_zero (machine : Machine) : machine.resumed 0 #[] = machine := by
  simp [resumed]

/-- How a run would have ended, had something been counted and drawn before. -/
def resumedResult {α : Type} (lead : Nat) (earlier : Array Gesture) :
    EStateM.Result Diagnostic Machine α → EStateM.Result Diagnostic Machine α
  | .ok value after => .ok value (after.resumed lead earlier)
  | .error problem after => .error problem (after.resumed lead earlier)

/-- Two runs to compare: what the first has done before, and the limits on both. -/
structure Headroom where
  /-- Steps counted before the first run. -/
  lead : Nat
  /-- Gestures made before the first run. -/
  earlier : Array Gesture
  /-- The limits on the first run. -/
  tight : Limits
  /-- The limits on the second run. -/
  roomy : Limits
  steps_le : tight.maxSteps ≤ lead + roomy.maxSteps
  depth_le : tight.maxCallDepth ≤ roomy.maxCallDepth

namespace Headroom

/-- A run after some steps and gestures, and a run from the start under limits
at least as high. -/
def ofLimits {limits larger : Limits} (hSteps : limits.maxSteps ≤ larger.maxSteps)
    (hDepth : limits.maxCallDepth ≤ larger.maxCallDepth) (lead : Nat)
    (earlier : Array Gesture) : Headroom where
  lead := lead
  earlier := earlier
  tight := limits
  roomy := larger
  steps_le := by omega
  depth_le := hDepth

variable (room : Headroom) {α β : Type}

/-- A stop that the second run may be spared. -/
inductive Limited : Diagnostic → Machine → Prop where
  | steps (site : Site) {machine : Machine}
      (hOver : room.tight.maxSteps < machine.steps) :
      Limited ⟨.tooManySteps room.tight.maxSteps, site⟩ machine
  | depth (site : Site) (machine : Machine)
      (hLess : room.tight.maxCallDepth < room.roomy.maxCallDepth) :
      Limited ⟨.tooDeep room.tight.maxCallDepth, site⟩ machine

/-- Whether the first run ends as the second, or is cut short on the way. -/
def Fits (short long : EStateM.Result Diagnostic Machine α) : Prop :=
  short = resumedResult room.lead room.earlier long ∨
    ∃ problem final, short = .error problem final ∧ room.Limited problem final ∧
      final.Behind ((finalState long).resumed room.lead room.earlier)

/-- Whether one action tracks another wherever they are taken. -/
structure Tracks (short long : Exec α) : Prop where
  fits (machine : Machine) :
    room.Fits (short (machine.resumed room.lead room.earlier)) (long machine)
  goesForward : long.GoesForward

variable {room}

/-! ## Single actions -/

theorem Tracks.of_eq {short long : Exec α} (hForward : long.GoesForward)
    (hSame : ∀ machine : Machine, short (machine.resumed room.lead room.earlier) =
      resumedResult room.lead room.earlier (long machine)) : room.Tracks short long :=
  ⟨fun machine => Or.inl (hSame machine), hForward⟩

theorem behind_resumed {first second : Machine} (hBehind : first.Behind second) :
    (first.resumed room.lead room.earlier).Behind
      (second.resumed room.lead room.earlier) := by
  refine ⟨Nat.add_le_add_left hBehind.steps _, ?_⟩
  simp only [Machine.resumed, Array.toList_append]
  exact (List.prefix_append_right_inj _).mpr hBehind.trace

theorem Tracks.bind {short long : Exec α} {next next' : α → Exec β}
    (hFirst : room.Tracks short long)
    (hNext : ∀ value, room.Tracks (next value) (next' value)) :
    room.Tracks (short >>= next) (long >>= next') := by
  refine ⟨fun machine => ?_, hFirst.goesForward.bind fun value =>
    (hNext value).goesForward⟩
  rw [bind_apply, bind_apply]
  rcases hFirst.fits machine with hSame | ⟨problem, final, hStop, hLimited, hBehind⟩
  · rw [hSame]
    cases hRun : long machine with
    | ok value middle => exact (hNext value).fits middle
    | error problem final => exact Or.inl rfl
  · rw [hStop]
    refine Or.inr ⟨problem, final, rfl, hLimited, hBehind.trans ?_⟩
    cases hRun : long machine with
    | ok value middle =>
        exact behind_resumed ((hNext value).goesForward middle).toBehind
    | error problem final => exact Machine.Behind.refl _

theorem tracks_tick (site : Site) :
    room.Tracks (tick room.tight site) (tick room.roomy site) := by
  refine ⟨fun machine => ?_, obeys_iff.mp ((Law.advance _).obeys_tick site)⟩
  rw [tick_apply, tick_apply]
  have hRoom := room.steps_le
  by_cases hOver : room.tight.maxSteps <
    (machine.resumed room.lead room.earlier).steps + 1
  · rw [if_pos hOver]
    refine Or.inr ⟨_, _, rfl, .steps site hOver, ?_⟩
    split <;> exact Machine.Behind.refl _
  · rw [if_neg hOver]
    rw [Machine.resumed_steps] at hOver
    rw [if_neg (by omega)]
    exact Or.inl rfl

theorem tracks_pure (value : α) : room.Tracks (pure value : Exec α) (pure value) :=
  .of_eq (fun machine => Machine.Advances.refl machine) fun _ => rfl

theorem tracks_fail (fault : Fault) (site : Site) :
    room.Tracks (fail fault site : Exec α) (fail fault site) :=
  .of_eq (fun machine => Machine.Advances.refl machine) fun _ => rfl

theorem tracks_valueOf (term : Term) (site : Site) :
    room.Tracks (valueOf term site) (valueOf term site) := by
  refine .of_eq (obeys_iff.mp ((Law.advance default).obeys_valueOf term site))
    fun machine => ?_
  rw [valueOf_apply, valueOf_apply, demand_apply, demand_apply, Machine.resumed_store]
  cases term.valueIn machine.store.vars none <;> rfl

theorem tracks_assign (name : String) (value : Int32) :
    room.Tracks (Exec.assign name value) (Exec.assign name value) :=
  .of_eq (obeys_iff.mp ((Law.advance default).obeys_assign name value)) fun _ => rfl

private theorem append_appendList (first second : Array Gesture)
    (third : List Gesture) : first ++ second ++ third = first ++ (second ++ third) :=
  Array.ext' (by simp)

theorem tracks_draw (command : Command) (site : Site) :
    room.Tracks (Exec.draw command site) (Exec.draw command site) := by
  refine .of_eq (obeys_iff.mp ((Law.advance default).obeys_draw command site))
    fun machine => ?_
  rw [draw_apply, draw_apply, Machine.resumed_gate, Machine.resumed_store]
  split
  · cases command.gestures machine.store.vars with
    | ok gestures => simp [resumedResult, Machine.resumed, append_appendList]
    | error fault => rfl
  · rfl

theorem tracks_define (name : String) (body : List Stmt) (site : Site) :
    room.Tracks (define name body site) (define name body site) := by
  refine .of_eq (obeys_iff.mp ((Law.advance default).obeys_define trivial))
    fun machine => ?_
  rw [define_apply, define_apply, Machine.resumed_store]
  cases machine.store.methods.define name body <;> rfl

theorem tracks_raise (problem : Diagnostic) (gated : Bool) :
    room.Tracks (raise problem gated) (raise problem gated) := by
  refine .of_eq (obeys_iff.mp ((Law.advance default).obeys_raise trivial))
    fun machine => ?_
  rw [raise_apply, raise_apply, Machine.resumed_gate]
  split <;> rfl

/-! ## Changes that are undone -/

/-- What is done to both ends alike does not matter, if it leaves count
and gestures alone. -/
theorem Fits.finally {short long : Exec Unit} {machine machine' : Machine}
    (hFits : room.Fits (short machine) (long machine')) {restore : Machine → Machine}
    (hSame : ∀ final : Machine, (restore final).resumed room.lead room.earlier =
      restore (final.resumed room.lead room.earlier))
    (hSteps : ∀ final, (restore final).steps = final.steps)
    (hTrace : ∀ final, (restore final).trace = final.trace) :
    room.Fits (andFinally restore short machine)
      (andFinally restore long machine') := by
  rcases hFits with hEnd | ⟨problem, final, hStop, hLimited, hBehind⟩
  · left
    rw [andFinally_apply, andFinally_apply, hEnd]
    cases long machine' <;> simp only [resumedResult, hSame]
  · right
    rw [andFinally_apply restore short, hStop]
    refine ⟨problem, restore final, rfl, ?_, ?_, ?_⟩
    · cases hLimited with
      | steps site hOver => exact .steps site (by rwa [hSteps])
      | depth site _ hLess => exact .depth site _ hLess
    · simpa [finalState_andFinally, hSteps] using hBehind.steps
    · simpa [finalState_andFinally, hTrace] using hBehind.trace

theorem Tracks.withGate {short long : Exec Unit} (hTracks : room.Tracks short long)
    (holds : Bool) : room.Tracks (withGate holds short) (withGate holds long) := by
  constructor
  · intro machine
    rw [withGate_apply, withGate_apply]
    exact (hTracks.fits { machine with gate := machine.gate && holds }).finally
      (fun _ => rfl) (fun _ => rfl) fun _ => rfl
  · have hObeys : (Law.advance default).Obeys long := obeys_iff.mpr hTracks.goesForward
    exact obeys_iff.mp (hObeys.withGate holds)

/-- A call that both runs enter. -/
theorem Tracks.fits_calling {short long : Exec Unit} (hTracks : room.Tracks short long)
    (key : String) (machine : Machine) :
    room.Fits (calling key short (machine.resumed room.lead room.earlier))
      (calling key long machine) := by
  rw [calling_apply, calling_apply]
  exact (hTracks.fits { machine with stack := key :: machine.stack }).finally
    (fun _ => rfl) (fun _ => rfl) fun _ => rfl

/-! ## Statements, calls and runs -/

/-- Tracking, as a relation between the actions of two runs. -/
def pairing (room : Headroom) : Pairing room.tight room.roomy where
  Pairs := room.Tracks
  pure := tracks_pure
  bind := Tracks.bind
  tick := tracks_tick
  fail := tracks_fail
  valueOf := tracks_valueOf
  assign := tracks_assign
  draw := tracks_draw
  define := tracks_define
  raise := tracks_raise
  withGate holds hTracks := hTracks.withGate holds

theorem tracks_exec {call call' : Caller}
    (hCall : ∀ name site, room.Tracks (call name site) (call' name site))
    (stmt : Stmt) :
    room.Tracks (Stmt.exec room.tight call stmt) (Stmt.exec room.roomy call' stmt) := by
  have hPairs : ∀ name site, room.pairing.Pairs (call name site) (call' name site) :=
    hCall
  exact Pairing.exec hPairs stmt

theorem tracks_execAll {call call' : Caller}
    (hCall : ∀ name site, room.Tracks (call name site) (call' name site))
    (stmts : List Stmt) :
    room.Tracks (Stmt.execAll room.tight call stmts)
      (Stmt.execAll room.roomy call' stmts) := by
  have hPairs : ∀ name site, room.pairing.Pairs (call name site) (call' name site) :=
    hCall
  exact Pairing.execAll hPairs stmts

/-- **Calls track each other**, if the second run has at least as many calls left, and
more only where its limit is higher. -/
theorem tracks_callAt (depth : Nat) : ∀ depth' : Nat, depth ≤ depth' →
    (depth < depth' → room.tight.maxCallDepth < room.roomy.maxCallDepth) →
    ∀ name site, room.Tracks (callAt room.tight depth name site)
      (callAt room.roomy depth' name site) := by
  induction depth using Nat.strongRecOn with
  | ind depth ih =>
      intro depth' hLe hMore name site
      refine ⟨fun machine => ?_, goesForward_callAt _ _ _ _⟩
      cases hFound : machine.store.methods.get? name with
      | none =>
          have hThere : (machine.resumed room.lead room.earlier).store.methods.get?
              name = none :=
            hFound
          rw [callAt_unknown hFound, callAt_unknown hThere]
          exact Or.inl rfl
      | some body =>
          have hThere : (machine.resumed room.lead room.earlier).store.methods.get?
              name =
            some body := hFound
          by_cases hCyclic : Text.lowercase name ∈ machine.stack
          · rw [callAt_cyclic hFound hCyclic, callAt_cyclic hThere hCyclic]
            exact Or.inl rfl
          · cases depth with
            | zero =>
                rw [callAt_zero hThere hCyclic]
                by_cases hLess : room.tight.maxCallDepth < room.roomy.maxCallDepth
                · exact Or.inr ⟨_, _, rfl, .depth site _ hLess,
                    behind_resumed (goesForward_callAt _ _ _ _ machine).toBehind⟩
                · have hNone : depth' = 0 :=
                    Nat.eq_zero_of_not_pos fun hSome => hLess (hMore hSome)
                  have hSame := Nat.le_antisymm room.depth_le (Nat.le_of_not_lt hLess)
                  rw [hNone, callAt_zero hFound hCyclic, hSame]
                  exact Or.inl rfl
            | succ depth =>
                obtain ⟨left, rfl⟩ : ∃ left, depth' = left + 1 := ⟨depth' - 1, by omega⟩
                rw [callAt_succ hFound hCyclic, callAt_succ hThere hCyclic]
                have hCall := ih depth (Nat.lt_succ_self depth) left (by omega)
                  fun hLt => hMore (by omega)
                exact (tracks_execAll hCall body).fits_calling _ machine

/-- The calls that two machines at the same depth have left. -/
theorem tracks_callAt_callsLeft (machine : Machine) (name : String) (site : Site) :
    room.Tracks
      (callAt room.tight ((machine.resumed room.lead room.earlier).callsLeft room.tight)
        name site)
      (callAt room.roomy (machine.callsLeft room.roomy) name site) := by
  have hDepth := room.depth_le
  refine tracks_callAt _ _ ?_ ?_ name site <;>
    · simp only [Machine.callsLeft, Machine.resumed_stack]
      omega

theorem tracks_run (stmt : Stmt) :
    room.Tracks (stmt.run room.tight) (stmt.run room.roomy) := by
  constructor
  · intro machine
    exact (tracks_exec (tracks_callAt_callsLeft machine) stmt).fits machine
  · exact obeys_iff.mp ((Law.advance room.roomy).obeys_run trivial)

/-- **A run tracks the same run with more room.** -/
theorem tracks_runItems (items : List Item) :
    room.Tracks (runItems room.tight items) (runItems room.roomy items) := by
  induction items with
  | nil => exact tracks_pure ()
  | cons item rest ih =>
      rw [runItems, runItems]
      refine Tracks.bind ?_ fun _ => ih
      cases item with
      | ok stmt => exact tracks_run stmt
      | error problem => exact tracks_fail problem.fault problem.site

end Headroom

end PenScript
