import Mathlib
import PenScript.Proofs.Nesting

/-!
# Scripts end by themselves

The budget of statements is a limit and not what makes scripts end. How many
statements a script counts at most can be read off its text and the methods known
before it: a loop takes its count once, and no count is larger than a value can be;
a call executes a body, and a method that is being executed is not called again.

A *scene* is what a statement finds itself in: all the methods that can ever be
known, and those that are being executed. A call enters a scene in which one more of
them is taken, so that the number of *fresh* methods bounds how deep calls go. The
outlay of a statement is what it may count, given the outlay of a call, and the
outlay of a call is by recursion on the number of fresh methods.

None of this mentions the limits. Where they allow for the outlay, neither of them
has any effect.

## Main results

* `freshMethods_cons_lt`: a call leaves fewer methods fresh;
* `spends_exec`, `spends_callAt`, `spends_runItems`: what statements, calls and runs
  count at most, and that calls then do not get too deep;
* `runSource_ends`: a script has an outlay that no limits change.
-/

namespace PenScript

open Exec Fault

/-! ## What statements may count -/

/-- The most turns a loop can take. -/
def longestLoop : Nat := 2147483647

theorem turns_le_longestLoop (count : Int32) : count.toInt.toNat ≤ longestLoop := by
  have hLess := Int32.toInt_lt count
  unfold longestLoop
  omega

namespace Stmt

mutual

/-- What a statement counts at most, if a call counts at most `call` in
the method it calls. -/
def outlay (call : Nat) : Stmt → Nat
  | assign _ _ _ | draw _ _ | method _ _ _ | invalid _ _ => 1
  | branch _ body _ => 1 + outlayAll call body
  | loop _ body _ => 1 + longestLoop * outlayAll call body
  | Stmt.call _ _ => 1 + call

/-- What statements count at most. -/
def outlayAll (call : Nat) : List Stmt → Nat
  | [] => 0
  | stmt :: rest => outlay call stmt + outlayAll call rest

end

end Stmt

/-- What a call counts at most in the method it calls, if the methods are among the
known ones and no more than so many of them are fresh. -/
def callOutlay (known : List (String × List Stmt)) : Nat → Nat
  | 0 => 0
  | fresh + 1 =>
      (known.map fun method => Stmt.outlayAll (callOutlay known fresh) method.2).sum

/-- What items count at most. -/
def itemsOutlay (call : Nat) : List Item → Nat
  | [] => 0
  | .ok stmt :: rest => stmt.outlay call + itemsOutlay call rest
  | .error _ :: rest => itemsOutlay call rest

/-- The number of known methods that are not being executed. -/
def freshMethods (known : List (String × List Stmt)) (stack : List String) : Nat :=
  known.countP fun method => decide (method.1 ∉ stack)

section

variable {known : List (String × List Stmt)} {stack : List String} {key : String}

theorem freshMethods_cons_le :
    freshMethods known (key :: stack) ≤ freshMethods known stack := by
  apply List.countP_mono_left
  intro method _ hFresh
  simp only [List.mem_cons, not_or, decide_eq_true_eq] at hFresh ⊢
  exact hFresh.2

/-- Entering a method leaves fewer methods fresh. -/
theorem freshMethods_cons_lt {body : List Stmt} (hKnown : (key, body) ∈ known)
    (hFresh : key ∉ stack) :
    freshMethods known (key :: stack) < freshMethods known stack := by
  induction known with
  | nil => cases hKnown
  | cons method rest ih =>
      have hRest : freshMethods rest (key :: stack) ≤ freshMethods rest stack :=
        freshMethods_cons_le
      unfold freshMethods at ih hRest ⊢
      rw [List.countP_cons, List.countP_cons]
      rcases List.mem_cons.mp hKnown with rfl | hLater
      · have hTaken : ¬decide (key ∉ key :: stack) = true := by simp
        have hThere : decide (key ∉ stack) = true := decide_eq_true hFresh
        rw [if_neg hTaken, if_pos hThere]
        omega
      · have hLess := ih hLater
        by_cases hHere : method.1 ∈ stack
        · have hStill : method.1 ∈ key :: stack := List.mem_cons_of_mem key hHere
          simp only [hHere, hStill, not_true_eq_false, decide_false,
            Bool.false_eq_true, if_false]
          omega
        · simp only [hHere, not_false_eq_true, decide_true, if_true]
          split <;> omega

/-- The outlay of a call covers the outlay of every known body in one call less. -/
theorem outlayAll_le_callOutlay {body : List Stmt} (hKnown : (key, body) ∈ known)
    (fresh : Nat) :
    Stmt.outlayAll (callOutlay known fresh) body ≤ callOutlay known (fresh + 1) := by
  rw [callOutlay]
  apply List.le_sum_of_mem
  exact List.mem_map_of_mem (f := fun method =>
    Stmt.outlayAll (callOutlay known fresh) method.2)
    hKnown

end

/-- Whether a statement may stand in the body of a known method: it was
read, and defines none. -/
def Stmt.IsStorable (stmt : Stmt) : Prop := stmt.IsRead ∧ stmt.definitions = []

/-! ## Scenes -/

/-- What a statement finds itself in. -/
structure Scene where
  /-- The methods that can ever be known: names in lower case, with bodies. -/
  known : List (String × List Stmt)
  /-- The names of the methods being executed, in lower case. -/
  stack : List String
  /-- Whether the limit on calls within calls leaves room for every method. -/
  roomy : Prop

namespace Scene

/-- Whether a machine is in the scene. -/
structure Has (scene : Scene) (machine : Machine) : Prop where
  stack : machine.stack = scene.stack
  known : ∀ name body, machine.store.methods.get? name = some body →
    (Text.lowercase name, body) ∈ scene.known

/-- Whether an action ended in the scene with at most so many statements counted. -/
structure Allows {α : Type} (scene : Scene) (most : Nat)
    (result : EStateM.Result Diagnostic Machine α) : Prop where
  has : scene.Has (finalState result)
  steps : (finalState result).steps ≤ most
  room : scene.roomy → ∀ problem, outcome result = .error problem →
    ∀ limit, problem.fault ≠ .tooDeep limit

/-- Whether an action counts at most so many statements, wherever it is
taken in the scene. -/
def Spends {α : Type} (scene : Scene) (cost : Nat) (action : Exec α) : Prop :=
  ∀ machine : Machine, scene.Has machine →
    scene.Allows (machine.steps + cost) (action machine)

variable {scene : Scene} {α β : Type} {cost other : Nat}

/-! ## Single actions -/

theorem Allows.ok {machine : Machine} (value : α) (hHas : scene.Has machine)
    {most : Nat}
    (hSteps : machine.steps ≤ most) : scene.Allows most (.ok value machine) :=
  ⟨hHas, hSteps, fun _ _ hError => by cases hError⟩

theorem Allows.error {machine : Machine} {problem : Diagnostic}
    (hHas : scene.Has machine) {most : Nat} (hSteps : machine.steps ≤ most)
    (hRoom : scene.roomy → ∀ limit, problem.fault ≠ .tooDeep limit) :
    scene.Allows most (.error problem machine : EStateM.Result Diagnostic Machine α) :=
  ⟨hHas, hSteps, fun hRoomy _ hError => by cases hError; exact hRoom hRoomy⟩

theorem Spends.mono {action : Exec α} (hSpends : scene.Spends cost action)
    (hLe : cost ≤ other) : scene.Spends other action := by
  intro machine hHas
  have hAllows := hSpends machine hHas
  exact ⟨hAllows.has, Nat.le_trans hAllows.steps (Nat.add_le_add_left hLe _),
    hAllows.room⟩

theorem spends_pure (value : α) : scene.Spends 0 (pure value : Exec α) :=
  fun _ hHas => .ok value hHas (Nat.le_refl _)

theorem Spends.bind {action : Exec α} {next : α → Exec β}
    (hAction : scene.Spends cost action)
    (hNext : ∀ value, scene.Spends other (next value)) :
    scene.Spends (cost + other) (action >>= next) := by
  intro machine hHas
  have hFirst := hAction machine hHas
  rw [bind_apply]
  cases hRun : action machine with
  | error problem after =>
      rw [hRun] at hFirst
      have hSteps : after.steps ≤ machine.steps + cost := hFirst.steps
      apply Allows.error hFirst.has
      · show after.steps ≤ _
        omega
      · exact fun hRoomy => hFirst.room hRoomy problem rfl
  | ok value middle =>
      rw [hRun] at hFirst
      have hSteps : middle.steps ≤ machine.steps + cost := hFirst.steps
      have hSecond := hNext value middle hFirst.has
      refine ⟨hSecond.has, Nat.le_trans hSecond.steps ?_, hSecond.room⟩
      omega

/-- An action after one that counts nothing. -/
theorem Spends.after {action : Exec α} {next : α → Exec β}
    (hAction : scene.Spends 0 action)
    (hNext : ∀ value, scene.Spends cost (next value)) :
    scene.Spends cost (action >>= next) := by
  have hBoth := hAction.bind hNext
  rwa [Nat.zero_add] at hBoth

theorem spends_fail {fault : Fault} (hArises : fault.Arises) (site : Site) :
    scene.Spends 0 (fail fault site : Exec α) := by
  intro machine hHas
  refine .error hHas (Nat.le_refl _) fun _ limit hDeep => ?_
  have hFault : fault = .tooDeep limit := hDeep
  rw [hFault] at hArises
  exact hArises

theorem spends_demand (site : Site) {found : Except Fault α}
    (hFault : FailsWith Arises found) : scene.Spends 0 (demand site found) := by
  cases found with
  | ok value => exact spends_pure value
  | error fault => exact spends_fail (hFault fault rfl) site

theorem spends_valueOf (term : Term) (site : Site) :
    scene.Spends 0 (valueOf term site) := by
  intro machine hHas
  rw [valueOf_apply]
  exact spends_demand site (Term.failsWith_valueIn _ _ _) machine hHas

theorem spends_test (condition : Condition) (site : Site) :
    scene.Spends 0 (test condition site) :=
  (spends_valueOf _ site).after fun _ => (spends_valueOf _ site).after fun _ =>
    spends_pure _

theorem spends_assign (name : String) (value : Int32) :
    scene.Spends 0 (Exec.assign name value) := by
  intro machine hHas
  apply Allows.ok
  · exact ⟨hHas.stack, hHas.known⟩
  · exact Nat.le_refl _

theorem spends_draw (command : Command) (site : Site) :
    scene.Spends 0 (Exec.draw command site) := by
  intro machine hHas
  rw [draw_apply]
  split
  · cases hFound : command.gestures machine.store.vars with
    | ok gestures =>
        apply Allows.ok
        · exact ⟨hHas.stack, hHas.known⟩
        · exact Nat.le_refl _
    | error fault =>
        exact spends_fail (Command.failsWith_gestures _ _ fault hFound) site
          machine hHas
  · exact .ok () hHas (Nat.le_refl _)

theorem spends_define {name : String} {body : List Stmt} (site : Site)
    (hKnown : (Text.lowercase name, body) ∈ scene.known) :
    scene.Spends 0 (define name body site) := by
  intro machine hHas
  rw [define_apply]
  cases hFound : machine.store.methods.define name body with
  | none =>
      exact spends_fail (show (Fault.alreadyDefined name).Arises from rfl) site
        machine hHas
  | some methods =>
      apply Allows.ok
      · refine ⟨hHas.stack, fun asked found hGet => ?_⟩
        have hLook : methods.get? asked = some found := hGet
        rw [Methods.get?_define hFound] at hLook
        split at hLook
        · rename_i hSame
          cases hLook
          exact hSame ▸ hKnown
        · exact hHas.known asked found hLook
      · exact Nat.le_refl _

theorem spends_raise {problem : Diagnostic} (gated : Bool)
    (hRead : problem.fault.IsRead) : scene.Spends 0 (raise problem gated) := by
  intro machine hHas
  rw [raise_apply]
  split
  · refine .error hHas (Nat.le_refl _) fun _ limit hDeep => ?_
    rw [hDeep] at hRead
    cases hRead
  · exact .ok () hHas (Nat.le_refl _)

theorem spends_tick (limits : Limits) (site : Site) :
    scene.Spends 1 (tick limits site) := by
  intro machine hHas
  rw [tick_apply]
  split
  · apply Allows.error
    · exact ⟨hHas.stack, hHas.known⟩
    · exact Nat.le_refl _
    · intro _ limit hDeep
      cases hDeep
  · apply Allows.ok
    · exact ⟨hHas.stack, hHas.known⟩
    · exact Nat.le_refl _

/-! ## Loops, conditions and calls -/

theorem Spends.times {action : Exec Unit} (hAction : scene.Spends cost action)
    (turns : Nat) : scene.Spends (turns * cost) (times turns action) := by
  induction turns with
  | zero =>
      rw [Nat.zero_mul]
      exact spends_pure ()
  | succ turns ih =>
      rw [Nat.succ_mul, Nat.add_comm]
      exact hAction.bind fun _ => ih

theorem Spends.withGate {action : Exec Unit} (hAction : scene.Spends cost action)
    (holds : Bool) : scene.Spends cost (withGate holds action) := by
  intro machine hHas
  have hInside :=
    hAction { machine with gate := machine.gate && holds } ⟨hHas.stack, hHas.known⟩
  rw [withGate_apply]
  constructor
  · rw [finalState_andFinally]
    exact ⟨hInside.has.stack, hInside.has.known⟩
  · rw [finalState_andFinally]
    exact hInside.steps
  · rw [outcome_andFinally]
    exact hInside.room

/-- A call, seen from where it is made. -/
theorem Allows.calling {action : Exec Unit} {key : String} {machine : Machine}
    (hHas : scene.Has machine) {roomy : Prop} (hRoomy : scene.roomy → roomy)
    (hInside : Spends ⟨scene.known, key :: scene.stack, roomy⟩ cost action) :
    scene.Allows (machine.steps + cost) (calling key action machine) := by
  have hEnd := hInside { machine with stack := key :: machine.stack }
    ⟨congrArg (key :: ·) hHas.stack, hHas.known⟩
  rw [calling_apply]
  constructor
  · rw [finalState_andFinally]
    exact ⟨congrArg List.tail hEnd.has.stack, hEnd.has.known⟩
  · rw [finalState_andFinally]
    exact hEnd.steps
  · rw [outcome_andFinally]
    exact fun hHere => hEnd.room (hRoomy hHere)

/-! ## Statements, calls and runs -/

/-- Whether a statement was read and defines only methods of the scene. -/
def Suits (scene : Scene) (stmt : Stmt) : Prop :=
  stmt.IsRead ∧ stmt.definitions ⊆ scene.known

theorem suits_body {stmt : Stmt} (hSuits : scene.Suits stmt) :
    ∀ inner ∈ stmt.body, scene.Suits inner := fun inner hMem =>
  ⟨Stmt.isRead_heritable.body hSuits.1 inner hMem, fun _ hDefined =>
    hSuits.2 (Stmt.definitions_body hMem hDefined)⟩

mutual

theorem spends_exec (limits : Limits) {call : Caller}
    (hCall : ∀ name site, scene.Spends cost (call name site)) :
    ∀ stmt, scene.Suits stmt →
      scene.Spends (stmt.outlay cost) (Stmt.exec limits call stmt)
  | .assign name value site, _ => by
      rw [Stmt.exec, Stmt.outlay]
      exact (spends_tick limits site).bind fun _ =>
        (spends_valueOf value site).after fun found =>
        spends_assign name found
  | .draw command site, _ => by
      rw [Stmt.exec, Stmt.outlay]
      exact (spends_tick limits site).bind fun _ => spends_draw command site
  | .branch condition body site, hSuits => by
      rw [Stmt.exec, Stmt.outlay]
      have hBody := spends_execAll limits hCall body (suits_body hSuits)
      exact (spends_tick limits site).bind fun _ =>
        (spends_test condition site).after fun holds =>
        hBody.withGate holds
  | .loop count body site, hSuits => by
      rw [Stmt.exec, Stmt.outlay]
      have hBody := spends_execAll limits hCall body (suits_body hSuits)
      refine (spends_tick limits site).bind fun _ =>
        (spends_valueOf count site).after fun turns =>
        ?_
      split
      · rename_i hNegative
        have hArises : (Fault.negativeCount turns).Arises := hNegative
        exact (spends_fail hArises site).mono (Nat.zero_le _)
      · split
        · exact (spends_pure ()).mono (Nat.zero_le _)
        · exact (hBody.times _).mono
            (Nat.mul_le_mul_right _ (turns_le_longestLoop turns))
  | .method name body site, hSuits => by
      rw [Stmt.exec, Stmt.outlay]
      have hKnown : (Text.lowercase name, body) ∈ scene.known :=
        hSuits.2 (by rw [Stmt.definitions]; exact List.mem_cons_self)
      exact (spends_tick limits site).bind fun _ => spends_define site hKnown
  | .call name site, _ => by
      rw [Stmt.exec, Stmt.outlay]
      exact (spends_tick limits site).bind fun _ => hCall name site
  | .invalid problem gated, hSuits => by
      rw [Stmt.exec, Stmt.outlay]
      have hRead := hSuits.1 problem (List.mem_singleton_self problem)
      exact (spends_tick limits problem.site).bind fun _ => spends_raise gated hRead

theorem spends_execAll (limits : Limits) {call : Caller}
    (hCall : ∀ name site, scene.Spends cost (call name site)) :
    ∀ stmts, (∀ stmt ∈ stmts, scene.Suits stmt) →
      scene.Spends (Stmt.outlayAll cost stmts) (Stmt.execAll limits call stmts)
  | [], _ => by
      rw [Stmt.execAll, Stmt.outlayAll]
      exact spends_pure ()
  | stmt :: rest, hSuits => by
      rw [Stmt.execAll, Stmt.outlayAll]
      obtain ⟨hFirst, hRest⟩ := List.forall_mem_cons.mp hSuits
      exact (spends_exec limits hCall stmt hFirst).bind fun _ =>
        spends_execAll limits hCall rest hRest

end

/-- **A call counts no more than the fresh methods allow for**, and where every fresh
method may still be entered, it does not get too deep. -/
theorem spends_callAt (limits : Limits) {known : List (String × List Stmt)}
    (hKnown : ∀ method ∈ known, ∀ stmt ∈ method.2, stmt.IsStorable)
    (depth : Nat) : ∀ fresh stack, freshMethods known stack ≤ fresh → ∀ name site,
      Spends ⟨known, stack, fresh ≤ depth⟩ (callOutlay known fresh)
        (callAt limits depth name site) := by
  -- The depth limits the recursion of calls, and the fresh methods decrease along with
  -- it.
  induction depth using Nat.strongRecOn with
  | ind depth ih =>
      intro fresh stack hFresh name site machine hHas
      cases hFound : machine.store.methods.get? name with
      | none =>
          rw [callAt_unknown hFound]
          have hArises : (Fault.unknownMethod name).Arises := rfl
          exact ((spends_fail hArises site).mono (Nat.zero_le _)) machine hHas
      | some body =>
          have hBody : (Text.lowercase name, body) ∈ known :=
            hHas.known name body hFound
          by_cases hCyclic : Text.lowercase name ∈ machine.stack
          · rw [callAt_cyclic hFound hCyclic]
            have hArises (chain : List String) : (Fault.cyclicCall name chain).Arises :=
              rfl
            exact ((spends_fail (hArises _) site).mono (Nat.zero_le _)) machine hHas
          · have hStack : machine.stack = stack := hHas.stack
            have hOutside : Text.lowercase name ∉ stack := hStack ▸ hCyclic
            have hLess := freshMethods_cons_lt hBody hOutside
            obtain ⟨fewer, rfl⟩ : ∃ fewer, fresh = fewer + 1 := ⟨fresh - 1, by omega⟩
            cases depth with
            | zero =>
                rw [callAt_zero hFound hCyclic]
                refine .error hHas (Nat.le_add_right _ _) fun hRoomy => ?_
                exact absurd hRoomy (Nat.not_succ_le_zero fewer)
            | succ depth =>
                rw [callAt_succ hFound hCyclic]
                have hCall := ih depth (Nat.lt_succ_self depth) fewer
                  (Text.lowercase name :: stack) (by omega)
                have hInside := spends_execAll limits hCall body fun stmt hMem => by
                  obtain ⟨hRead, hNone⟩ := hKnown _ hBody stmt hMem
                  exact ⟨hRead, by rw [hNone]; exact List.nil_subset _⟩
                exact .calling hHas Nat.le_of_succ_le_succ
                  (hInside.mono (outlayAll_le_callOutlay hBody fewer))

/-- What items count, run from where no method is being executed. -/
theorem spends_runItems (limits : Limits) {known : List (String × List Stmt)}
    (hKnown : ∀ method ∈ known, ∀ stmt ∈ method.2, stmt.IsStorable)
    {items : List Item} (hItems : ∀ item ∈ items, ∃ stmt : Stmt,
      (stmt.IsRead ∧ stmt.definitions ⊆ known) ∧ item = .ofStmt stmt) :
    Spends ⟨known, [], known.length ≤ limits.maxCallDepth⟩
      (itemsOutlay (callOutlay known known.length) items) (runItems limits items) := by
  have hAll : freshMethods known [] ≤ known.length := List.countP_le_length
  have hCall := spends_callAt limits hKnown limits.maxCallDepth known.length [] hAll
  induction items with
  | nil => exact spends_pure ()
  | cons item rest ih =>
      obtain ⟨⟨found, hSuits, hItem⟩, hRest⟩ := List.forall_mem_cons.mp hItems
      rw [runItems]
      cases item with
      | error problem =>
          obtain ⟨gated, rfl⟩ := Item.exists_of_error_eq_ofStmt hItem
          refine Spends.after ?_ fun _ => ih hRest
          intro machine hHas
          refine .error hHas (Nat.le_refl _) fun _ limit hDeep => ?_
          have hRead := hSuits.1 problem (List.mem_singleton_self problem)
          rw [hDeep] at hRead
          cases hRead
      | ok stmt =>
          obtain rfl := Item.eq_of_ok_eq_ofStmt hItem
          refine Spends.bind ?_ fun _ => ih hRest
          intro machine hHas
          have hLeft : machine.callsLeft limits = limits.maxCallDepth := by
            rw [Machine.callsLeft, hHas.stack]
            rfl
          show Allows _ _ (Stmt.exec limits (callAt limits (machine.callsLeft limits))
            found machine)
          rw [hLeft]
          exact spends_exec limits hCall found hSuits machine hHas

end Scene

/-! ## Scripts -/

/-- The methods a store knows, as a list. -/
theorem Store.Keeps.exists_known {Kept : Stmt → Prop} {store : Store}
    (hStore : store.Keeps Kept) :
    ∃ known : List (String × List Stmt),
      (∀ name body, store.methods.get? name = some body →
        (Text.lowercase name, body) ∈ known) ∧
      ∀ method ∈ known, ∀ stmt ∈ method.2, Kept stmt := by
  classical
  -- Entries under a name that is not in lower case are never found, so nothing is known
  -- of them.
  refine ⟨store.methods.bodies.entries.filter fun method => ∀ stmt ∈ method.2,
    Kept stmt, ?_, ?_⟩
  · intro name body hFound
    have hEntry := (NameMap.mem_entries_iff store.methods.bodies).mpr hFound
    exact List.mem_filter.mpr ⟨hEntry, decide_eq_true (hStore name body hFound)⟩
  · intro method hMem
    exact of_decide_eq_true (List.mem_filter.mp hMem).2

/-- The methods that lines define. -/
def definedBy (lines : List Line) : List (String × List Stmt) :=
  Stmt.definitionsIn (read .complete lines).stmts

/-- The items of lines define no other methods than the lines. -/
theorem items_define (lines : List Line) :
    ∀ item ∈ (read .complete lines).items, ∃ stmt : Stmt,
      (stmt.IsRead ∧ stmt.definitions ⊆ definedBy lines) ∧ item = .ofStmt stmt := by
  intro item hMem
  obtain ⟨stmt, hRead, hItem⟩ := items_isRead lines item hMem
  refine ⟨stmt, ⟨hRead, fun definition hDefined => ?_⟩, hItem⟩
  cases item with
  | error problem =>
      obtain ⟨gated, rfl⟩ := Item.exists_of_error_eq_ofStmt hItem
      rw [Stmt.definitions] at hDefined
      cases hDefined
  | ok found =>
      obtain rfl := Item.eq_of_ok_eq_ofStmt hItem
      apply Stmt.mem_definitionsIn.mpr
      exact ⟨stmt, List.mem_filterMap.mpr ⟨_, hMem, rfl⟩, hDefined⟩

theorem definedBy_storable (lines : List Line) :
    ∀ method ∈ definedBy lines, ∀ stmt ∈ method.2, stmt.IsStorable := by
  have hStmts : ∀ stmt ∈ (read .complete lines).stmts,
      stmt.IsRead ∧ ∃ around, stmt.Nests around := by
    intro stmt hMem
    constructor
    · exact Reading.forall_stmts (items_isRead lines) stmt hMem
    · exact ⟨[], Reading.forall_stmts (nests_of_read lines .complete) stmt hMem⟩
  intro method hMethod stmt hMem
  have hBoth := Stmt.isRead_heritable.and Stmt.nests_heritable
  obtain ⟨hRead, hNests⟩ := hBoth.definitionsIn _ hStmts method hMethod stmt hMem
  exact ⟨hRead, hNests.definitions_eq_nil⟩

theorem Session.Reachable.storable {session : Session}
    (hReachable : session.Reachable) : session.store.Keeps Stmt.IsStorable := by
  intro name body hFound stmt hMem
  constructor
  · exact hReachable.isRead name body hFound stmt hMem
  · exact (hReachable.nests name body hFound stmt hMem).definitions_eq_nil

/-- What a script counts at most does not depend on the limits, and neither does
how deep its calls go. -/
theorem runLines_allows {session : Session} (hReachable : session.Reachable)
    (lines : List Line) :
    ∃ enough, ∀ limits : Limits,
      let submission := { session with limits := limits }.runLines lines
      submission.steps ≤ enough ∧ (enough ≤ limits.maxCallDepth →
        ∀ problem, submission.result = .error problem →
          ∀ limit, problem.fault ≠ .tooDeep limit) := by
  obtain ⟨stored, hStored, hStorable⟩ := hReachable.storable.exists_known
  have hKnown : ∀ method ∈ stored ++ definedBy lines, ∀ stmt ∈ method.2,
      stmt.IsStorable := by
    intro method hMem
    exact (List.mem_append.mp hMem).elim (hStorable method)
      (definedBy_storable lines method)
  have hItems : ∀ item ∈ (read .complete lines).items, ∃ stmt : Stmt,
      (stmt.IsRead ∧ stmt.definitions ⊆ stored ++ definedBy lines) ∧
        item = .ofStmt stmt := by
    intro item hMem
    obtain ⟨stmt, ⟨hRead, hDefined⟩, hItem⟩ := items_define lines item hMem
    exact ⟨stmt, ⟨hRead, List.subset_append_of_subset_right _ hDefined⟩, hItem⟩
  have hStart : ∀ name body, session.store.methods.get? name = some body →
      (Text.lowercase name, body) ∈ stored ++ definedBy lines := fun name body hFound =>
    List.mem_append_left _ (hStored name body hFound)
  generalize stored ++ definedBy lines = known at hKnown hItems hStart
  refine ⟨itemsOutlay (callOutlay known known.length) (read .complete lines).items +
    known.length, fun limits => ?_⟩
  have hAllows :=
    Scene.spends_runItems limits hKnown hItems session.machine ⟨rfl, hStart⟩
  constructor
  · have hSteps := hAllows.steps
    rw [show session.machine.steps = 0 from rfl, Nat.zero_add] at hSteps
    exact Nat.le_trans hSteps (Nat.le_add_right _ _)
  · exact fun hEnough => hAllows.room (Nat.le_trans (Nat.le_add_left _ _) hEnough)

/-- **Every script ends by itself.** No method that is known defines another, and there
is a number of statements that a script never exceeds, whatever the limits. A budget of
that many does not stop it, and where calls may be nested as deep, no limit does. -/
theorem runSource_ends {session : Session} (hReachable : session.Reachable)
    (source : String) :
    (∀ name body, session.store.methods.get? name = some body →
      Stmt.definitionsIn body = []) ∧
    ∃ enough, ∀ limits : Limits,
      let submission := { session with limits := limits }.runSource source
      submission.steps ≤ enough ∧
      (enough ≤ limits.maxSteps → ∀ budget site,
        submission.result ≠ .error ⟨.tooManySteps budget, site⟩) ∧
      (enough ≤ limits.maxSteps → enough ≤ limits.maxCallDepth →
        ∀ problem, submission.result = .error problem → problem.kind ≠ .limit) := by
  constructor
  · intro name body hFound
    exact Stmt.definitionsIn_eq_nil_iff.mpr fun stmt hMem =>
      (hReachable.nests name body hFound stmt hMem).definitions_eq_nil
  obtain ⟨enough, hEnough⟩ := runLines_allows hReachable (Line.ofSource source)
  refine ⟨enough, fun limits => ?_⟩
  intro submission
  obtain ⟨hSteps, hDeep⟩ := hEnough limits
  have hBudget : enough ≤ limits.maxSteps → ∀ budget site,
      submission.result ≠ .error ⟨.tooManySteps budget, site⟩ := by
    intro hLe budget site hStop
    -- A run that its budget stops has counted one statement more than that.
    have hCount : submission.steps = limits.maxSteps + 1 :=
      (@runLines_isRead { session with limits := limits } hReachable.isRead _).2
        budget site hStop
    have hMost : submission.steps ≤ enough := hSteps
    omega
  refine ⟨hSteps, hBudget, fun hLe hRoom problem hStop hKind => ?_⟩
  obtain ⟨fault, site⟩ := problem
  cases fault with
  | tooManySteps budget => exact hBudget hLe budget site hStop
  | tooDeep limit => exact hDeep hRoom _ hStop limit rfl
  | _ => cases hKind

/-- Two methods that call each other, from a loop: what stops the run is the cycle. -/
theorem runSource_ends_mutual :
    let methods := "method even\ncall odd\nendmethod\nmethod odd\ncall even\nendmethod"
    let session := (({} : Session).runSource methods).session
    let submission := session.runSource "loop 3\ncall even\nendloop"
    submission.result =
      .error ⟨.cyclicCall "even" ["even", "odd", "even"], ⟨5, "call even"⟩⟩ ∧
      submission.steps = 4 ∧ ∃ enough, ∀ limits : Limits, enough ≤ limits.maxSteps →
        ∀ budget site, ({ session with limits := limits }.runSource
          "loop 3\ncall even\nendloop").result ≠
            .error ⟨.tooManySteps budget, site⟩ := by
  intro methods session submission
  have hReachable : session.Reachable := .runSource (.fresh {}) methods
  obtain ⟨-, enough, hEnough⟩ := runSource_ends hReachable "loop 3\ncall even\nendloop"
  have hRun : (submission.result, submission.steps) =
      (.error ⟨.cyclicCall "even" ["even", "odd", "even"], ⟨5, "call even"⟩⟩, 4) := by
    cbv
  obtain ⟨hResult, hSteps⟩ := Prod.mk.inj hRun
  refine ⟨hResult, hSteps, enough, fun limits => ?_⟩
  exact (hEnough limits).2.1

end PenScript
