import PenScript.Proofs.Actions

/-!
# Two runs side by side

Where the same statements are executed twice, under two limits or from two
machines, what relates the two runs is again a matter of single actions. A
*pairing* relates actions of the one run to actions of the other. If it relates
every single action to itself and survives what is done one after another and
behind a condition, it relates every statement to itself, given what it says of
calls.

Calls are left to each pairing: they are the one place where a run looks at how
deep it is, and so where most pairs of runs differ.

## Main results

* `Pairing.exec`, `Pairing.execAll`: what pairs the actions pairs the statements.
-/

namespace PenScript

open Exec

/-- A relation between the actions of two runs, each under limits of its own. -/
structure Pairing (limits limits' : Limits) where
  /-- Whether an action of the first run goes with one of the second. -/
  Pairs : {α : Type} → Exec α → Exec α → Prop
  pure {α : Type} (value : α) : Pairs (pure value) (pure value)
  bind {α β : Type} {first second : Exec α} {next next' : α → Exec β} :
    Pairs first second →
    (∀ value, Pairs (next value) (next' value)) →
      Pairs (first >>= next) (second >>= next')
  tick (site : Site) : Pairs (tick limits site) (tick limits' site)
  fail (fault : Fault) (site : Site) : Pairs (fail fault site : Exec Unit)
    (fail fault site)
  valueOf (term : Term) (site : Site) : Pairs (valueOf term site) (valueOf term site)
  assign (name : String) (value : Int32) : Pairs (Exec.assign name value)
    (Exec.assign name value)
  draw (command : Command) (site : Site) : Pairs (Exec.draw command site)
    (Exec.draw command site)
  define (name : String) (body : List Stmt) (site : Site) :
    Pairs (define name body site) (define name body site)
  raise (problem : Diagnostic) (gated : Bool) : Pairs (raise problem gated)
    (raise problem gated)
  withGate {first second : Exec Unit} (holds : Bool) : Pairs first second →
    Pairs (withGate holds first) (withGate holds second)

namespace Pairing

variable {limits limits' : Limits} (pairing : Pairing limits limits')

theorem test (condition : Condition) (site : Site) :
    pairing.Pairs (test condition site) (test condition site) :=
  pairing.bind (pairing.valueOf _ site) fun _ =>
    pairing.bind (pairing.valueOf _ site) fun _ => pairing.pure _

variable {pairing}

theorem times {first second : Exec Unit} (hPairs : pairing.Pairs first second)
    (turns : Nat) : pairing.Pairs (times turns first) (times turns second) := by
  induction turns with
  | zero => exact pairing.pure ()
  | succ turns ih => exact pairing.bind hPairs fun _ => ih

mutual

theorem exec {call call' : Caller}
    (hCall : ∀ name site, pairing.Pairs (call name site) (call' name site)) :
    ∀ stmt, pairing.Pairs (Stmt.exec limits call stmt) (Stmt.exec limits' call' stmt)
  | .assign name value site => by
      rw [Stmt.exec, Stmt.exec]
      exact pairing.bind (pairing.tick site) fun _ =>
        pairing.bind (pairing.valueOf value site) fun found => pairing.assign name found
  | .draw command site => by
      rw [Stmt.exec, Stmt.exec]
      exact pairing.bind (pairing.tick site) fun _ => pairing.draw command site
  | .branch condition body site => by
      rw [Stmt.exec, Stmt.exec]
      exact pairing.bind (pairing.tick site) fun _ =>
        pairing.bind (pairing.test condition site) fun holds =>
          pairing.withGate holds (execAll hCall body)
  | .loop count body site => by
      rw [Stmt.exec, Stmt.exec]
      refine pairing.bind (pairing.tick site) fun _ =>
        pairing.bind (pairing.valueOf count site) fun turns => ?_
      split
      · exact pairing.fail _ site
      · split
        · exact pairing.pure ()
        · exact times (execAll hCall body) _
  | .method name body site => by
      rw [Stmt.exec, Stmt.exec]
      exact pairing.bind (pairing.tick site) fun _ => pairing.define name body site
  | .call name site => by
      rw [Stmt.exec, Stmt.exec]
      exact pairing.bind (pairing.tick site) fun _ => hCall name site
  | .invalid problem gated => by
      rw [Stmt.exec, Stmt.exec]
      exact pairing.bind (pairing.tick problem.site) fun _ =>
        pairing.raise problem gated

/-- **What pairs the actions pairs the statements.** -/
theorem execAll {call call' : Caller}
    (hCall : ∀ name site, pairing.Pairs (call name site) (call' name site)) :
    ∀ stmts,
      pairing.Pairs (Stmt.execAll limits call stmts) (Stmt.execAll limits' call' stmts)
  | [] => by
      rw [Stmt.execAll, Stmt.execAll]
      exact pairing.pure ()
  | stmt :: rest => by
      rw [Stmt.execAll, Stmt.execAll]
      exact pairing.bind (exec hCall stmt) fun _ => execAll hCall rest

end

end Pairing

end PenScript
