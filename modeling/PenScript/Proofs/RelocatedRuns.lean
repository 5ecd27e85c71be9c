import PenScript.Proofs.Actions
import PenScript.Proofs.Relocation

/-!
# Execution does not depend on where lines stand

Statements are executed together with the same statements moved to other sites,
from a machine whose methods have been moved as well. The two runs do the same,
and differ only in the site of the diagnostic that may end them and in the sites
inside the methods they define.

## Main results

* `relocates_exec`, `relocates_callAt`: moved statements and calls;
* `runItems_relocate`: moved items end as the items do, moved.
-/

namespace PenScript

open Exec

/-! ## Moving what is remembered -/

namespace NameMap

variable {α β : Type}

/-- The map with every value changed. -/
def map (g : α → β) (names : NameMap α) : NameMap β where
  entries := names.entries.map fun entry => (entry.1, g entry.2)
  ordered := List.pairwise_map.mpr names.ordered

theorem get?_map (g : α → β) (names : NameMap α) (name : String) :
    (names.map g).get? name = (names.get? name).map g := by
  unfold get? map
  dsimp only
  induction names.entries with
  | nil => rfl
  | cons entry rest ih =>
      rw [List.map_cons, List.lookup_cons, List.lookup_cons, ih]
      split <;> rfl

theorem map_insert (g : α → β) (names : NameMap α) (name : String) (value : α) :
    (names.insert name value).map g = (names.map g).insert name (g value) := by
  refine ext_get? fun other => ?_
  rw [get?_map]
  by_cases hSame : other = name
  · rw [hSame, get?_insert_self, get?_insert_self, Option.map_some]
  · rw [get?_insert_of_ne _ hSame, get?_insert_of_ne _ hSame, get?_map]

end NameMap

namespace Methods

/-- Methods with every body changed. -/
def map (g : List Stmt → List Stmt) (methods : Methods) : Methods :=
  ⟨methods.bodies.map g⟩

theorem get?_map (g : List Stmt → List Stmt) (methods : Methods) (name : String) :
    (methods.map g).get? name = (methods.get? name).map g :=
  NameMap.get?_map _ _ _

theorem define_map (g : List Stmt → List Stmt) (methods : Methods) (name : String)
    (body : List Stmt) :
    (methods.map g).define name (g body) = (methods.define name body).map (map g) := by
  have hTaken : (methods.map g).contains name = methods.contains name := by
    rw [contains, get?_map, Option.isSome_map, contains]
  unfold define
  rw [hTaken]
  split
  · rfl
  · rw [Option.map_some, map, map, NameMap.map_insert]

end Methods

variable (f : Site → Site)

/-- Methods with every site in their bodies moved. -/
def Methods.relocate (methods : Methods) : Methods := methods.map (Stmt.relocateAll f)

/-- A store with every site in its methods moved. -/
def Store.relocate (store : Store) : Store :=
  { store with methods := store.methods.relocate f }

/-- A machine with every site in its methods moved. -/
def Machine.relocate (machine : Machine) : Machine :=
  { machine with store := machine.store.relocate f }

/-- How a run ends that moves along. -/
def relocatedResult {α : Type} :
    EStateM.Result Diagnostic Machine α → EStateM.Result Diagnostic Machine α
  | .ok value after => .ok value (after.relocate f)
  | .error problem after => .error (problem.relocate f) (after.relocate f)

/-- Only a run that ends well moves to one that does. -/
theorem eq_ok_of_relocatedResult {α : Type}
    {result : EStateM.Result Diagnostic Machine α}
    {value : α} {moved : Machine}
    (hMoved : relocatedResult f result = .ok value moved) :
    ∃ after, result = .ok value after ∧ after.relocate f = moved := by
  cases result with
  | ok found after =>
      obtain ⟨rfl, rfl⟩ := EStateM.Result.ok.inj hMoved
      exact ⟨after, rfl, rfl⟩
  | error problem after => cases hMoved

/-- Only a run that stops moves to one that does. -/
theorem eq_error_of_relocatedResult {α : Type}
    {result : EStateM.Result Diagnostic Machine α}
    {problem : Diagnostic} {moved : Machine}
    (hMoved : relocatedResult f result = .error problem moved) :
    ∃ found after, result = .error found after ∧ found.relocate f = problem ∧
      after.relocate f = moved := by
  cases result with
  | ok found after => cases hMoved
  | error found after =>
      obtain ⟨rfl, rfl⟩ := EStateM.Result.error.inj hMoved
      exact ⟨found, after, rfl, rfl, rfl⟩

theorem Methods.get?_relocate (methods : Methods) (name : String) :
    (methods.relocate f).get? name = (methods.get? name).map (Stmt.relocateAll f) :=
  Methods.get?_map _ _ _

theorem Methods.define_relocate (methods : Methods) (name : String) (body : List Stmt) :
    (methods.relocate f).define name (Stmt.relocateAll f body) =
      (methods.define name body).map (Methods.relocate f) :=
  Methods.define_map _ _ _ _

/-- Whether an action does what another does, moved, wherever the two are taken. -/
def Relocates {α : Type} (moved action : Exec α) : Prop :=
  ∀ machine : Machine, moved (machine.relocate f) = relocatedResult f (action machine)

section

variable {f} {α β : Type}

/-! ## Single actions -/

theorem relocates_pure (value : α) : Relocates f (pure value) (pure value) :=
  fun _ => rfl

theorem Relocates.bind {moved action : Exec α} {next next' : α → Exec β}
    (hFirst : Relocates f moved action)
    (hNext : ∀ value, Relocates f (next value) (next' value)) :
    Relocates f (moved >>= next) (action >>= next') := by
  intro machine
  rw [bind_apply, bind_apply, hFirst machine]
  cases action machine with
  | ok value after => exact hNext value after
  | error problem after => rfl

theorem relocates_fail (fault : Fault) (site : Site) :
    Relocates f (fail fault (f site) : Exec α) (fail fault site) := fun _ => rfl

theorem relocates_tick (limits : Limits) (site : Site) :
    Relocates f (tick limits (f site)) (tick limits site) := by
  intro machine
  have hSteps : (machine.relocate f).steps = machine.steps := rfl
  rw [tick_apply, tick_apply, hSteps]
  split <;> rfl

theorem relocates_demand (site : Site) (found : Except Fault α) :
    Relocates f (demand (f site) found) (demand site found) := by
  intro machine
  cases found <;> rfl

theorem relocates_valueOf (term : Term) (site : Site) :
    Relocates f (valueOf term (f site)) (valueOf term site) :=
  fun machine => relocates_demand site (term.valueIn machine.store.vars none) machine

theorem relocates_test (condition : Condition) (site : Site) :
    Relocates f (test condition (f site)) (test condition site) :=
  (relocates_valueOf _ site).bind fun _ => (relocates_valueOf _ site).bind fun _ =>
    relocates_pure _

theorem relocates_assign (name : String) (value : Int32) :
    Relocates f (Exec.assign name value) (Exec.assign name value) := fun _ => rfl

theorem relocates_draw (command : Command) (site : Site) :
    Relocates f (Exec.draw command (f site)) (Exec.draw command site) := by
  intro machine
  have hGate : (machine.relocate f).gate = machine.gate := rfl
  have hVars : (machine.relocate f).store.vars = machine.store.vars := rfl
  rw [draw_apply, draw_apply, hGate, hVars]
  split
  · cases command.gestures machine.store.vars <;> rfl
  · rfl

theorem relocates_define (name : String) (body : List Stmt) (site : Site) :
    Relocates f (define name (Stmt.relocateAll f body) (f site))
      (define name body site) := by
  intro machine
  have hMethods : (machine.relocate f).store.methods =
      machine.store.methods.relocate f := rfl
  rw [define_apply, define_apply, hMethods, Methods.define_relocate]
  cases machine.store.methods.define name body <;> rfl

theorem relocates_raise (problem : Diagnostic) (gated : Bool) :
    Relocates f (raise (problem.relocate f) gated) (raise problem gated) := by
  intro machine
  have hGate : (machine.relocate f).gate = machine.gate := rfl
  rw [raise_apply, raise_apply, hGate]
  split <;> rfl

/-! ## Changes that are undone -/

theorem Relocates.times {moved action : Exec Unit} (hMoved : Relocates f moved action)
    (turns : Nat) : Relocates f (times turns moved) (times turns action) := by
  induction turns with
  | zero => exact relocates_pure ()
  | succ turns ih => exact hMoved.bind fun _ => ih

/-- What is done to both ends alike does not matter, if it leaves the methods alone. -/
theorem Relocates.andFinally {moved action : Exec Unit}
    (hMoved : Relocates f moved action)
    {restore : Machine → Machine}
    (hSame : ∀ final : Machine, restore (final.relocate f) =
      (restore final).relocate f) :
    Relocates f (andFinally restore moved) (andFinally restore action) := by
  intro machine
  rw [andFinally_apply, andFinally_apply, hMoved machine]
  cases action machine <;> simp only [relocatedResult, hSame]

theorem Relocates.withGate {moved action : Exec Unit}
    (hMoved : Relocates f moved action)
    (holds : Bool) : Relocates f (withGate holds moved) (withGate holds action) := by
  intro machine
  have hInside : Relocates f
      (Exec.andFinally (fun final => { final with gate := machine.gate }) moved)
      (Exec.andFinally (fun final => { final with gate := machine.gate }) action) :=
    hMoved.andFinally fun _ => rfl
  exact hInside { machine with gate := machine.gate && holds }

theorem Relocates.calling {moved action : Exec Unit} (hMoved : Relocates f moved action)
    (key : String) : Relocates f (calling key moved) (calling key action) := by
  intro machine
  have hInside : Relocates f
      (Exec.andFinally (fun final => { final with stack := final.stack.tail }) moved)
      (Exec.andFinally (fun final =>
        { final with stack := final.stack.tail }) action) :=
    hMoved.andFinally fun _ => rfl
  exact hInside { machine with stack := key :: machine.stack }

/-! ## Statements, calls and runs -/

variable {limits : Limits}

mutual

theorem relocates_exec {call : Caller}
    (hCall : ∀ name site, Relocates f (call name (f site)) (call name site)) :
    ∀ stmt : Stmt,
      Relocates f (Stmt.exec limits call (stmt.relocate f)) (Stmt.exec limits call stmt)
  | .assign name value site => by
      rw [Stmt.relocate, Stmt.exec, Stmt.exec]
      exact (relocates_tick limits site).bind fun _ =>
        (relocates_valueOf value site).bind fun found => relocates_assign name found
  | .draw command site => by
      rw [Stmt.relocate, Stmt.exec, Stmt.exec]
      exact (relocates_tick limits site).bind fun _ => relocates_draw command site
  | .branch condition body site => by
      rw [Stmt.relocate, Stmt.exec, Stmt.exec]
      exact (relocates_tick limits site).bind fun _ =>
        (relocates_test condition site).bind fun holds =>
          (relocates_execAll hCall body).withGate holds
  | .loop count body site => by
      rw [Stmt.relocate, Stmt.exec, Stmt.exec, Stmt.relocateAll_eq_map,
        List.isEmpty_map, ← Stmt.relocateAll_eq_map]
      refine (relocates_tick limits site).bind fun _ =>
        (relocates_valueOf count site).bind fun turns => ?_
      split
      · exact relocates_fail _ site
      · split
        · exact relocates_pure ()
        · exact (relocates_execAll hCall body).times _
  | .method name body site => by
      rw [Stmt.relocate, Stmt.exec, Stmt.exec]
      exact (relocates_tick limits site).bind fun _ => relocates_define name body site
  | .call name site => by
      rw [Stmt.relocate, Stmt.exec, Stmt.exec]
      exact (relocates_tick limits site).bind fun _ => hCall name site
  | .invalid problem gated => by
      rw [Stmt.relocate, Stmt.exec, Stmt.exec]
      exact (relocates_tick limits problem.site).bind fun _ =>
        relocates_raise problem gated

theorem relocates_execAll {call : Caller}
    (hCall : ∀ name site, Relocates f (call name (f site)) (call name site)) :
    ∀ stmts : List Stmt,
      Relocates f (Stmt.execAll limits call (Stmt.relocateAll f stmts))
        (Stmt.execAll limits call stmts)
  | [] => by
      rw [Stmt.relocateAll, Stmt.execAll]
      exact relocates_pure ()
  | stmt :: rest => by
      rw [Stmt.relocateAll, Stmt.execAll, Stmt.execAll]
      exact (relocates_exec hCall stmt).bind fun _ => relocates_execAll hCall rest

end

theorem relocates_callAt (depth : Nat) : ∀ name site,
    Relocates f (callAt limits depth name (f site))
      (callAt limits depth name site) := by
  induction depth using Nat.strongRecOn with
  | ind depth ih =>
      intro name site machine
      have hMoved : (machine.relocate f).store.methods.get? name =
          (machine.store.methods.get? name).map (Stmt.relocateAll f) :=
        Methods.get?_relocate f machine.store.methods name
      cases hFound : machine.store.methods.get? name with
      | none =>
          rw [hFound, Option.map_none] at hMoved
          rw [callAt_unknown hFound, callAt_unknown hMoved]
          rfl
      | some body =>
          rw [hFound, Option.map_some] at hMoved
          by_cases hCyclic : Text.lowercase name ∈ machine.stack
          · rw [callAt_cyclic hFound hCyclic, callAt_cyclic hMoved hCyclic]
            rfl
          · cases depth with
            | zero =>
                rw [callAt_zero hFound hCyclic, callAt_zero hMoved hCyclic]
                rfl
            | succ depth =>
                rw [callAt_succ hFound hCyclic, callAt_succ hMoved hCyclic]
                have hCall := ih depth (Nat.lt_succ_self depth)
                exact (relocates_execAll hCall body).calling _ machine

theorem relocates_runItems (items : List Item) :
    Relocates f (runItems limits (items.map (Item.relocate f)))
      (runItems limits items) := by
  induction items with
  | nil => exact relocates_pure ()
  | cons item rest ih =>
      rw [List.map_cons, runItems, runItems]
      refine Relocates.bind (fun machine => ?_) fun _ => ih
      cases item with
      | ok stmt =>
          exact relocates_exec (relocates_callAt (machine.callsLeft limits))
            stmt machine
      | error problem => rfl

end

/-- **Moved items end as the items do, moved.** -/
theorem runItems_relocate (limits : Limits) (items : List Item) (machine : Machine) :
    runItems limits (items.map (Item.relocate f)) (machine.relocate f) =
      relocatedResult f (runItems limits items machine) :=
  relocates_runItems items machine

end PenScript
