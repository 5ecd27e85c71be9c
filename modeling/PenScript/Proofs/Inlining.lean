import Mathlib
import PenScript.Proofs.Pairing
import PenScript.Proofs.Progress

/-!
# A call is the body of its method

A method that is called does what its body does where it stands, but for one
statement that the call counts. Within the call the call stack is longer by the
method, and so are the stacks of all calls that its body makes: more of them are
cyclic, and fewer may still be entered. Nothing else looks at the stack.

So the two runs are compared with the stack of the inner one *sheltering* that of
the outer, which has only names the inner one has. They agree unless the inner
run is stopped by one of the three guards that its greater depth and its further
count may trip.

## Main results

* `shelters_callAt`: a call from a longer stack;
* `run_call_inlined`: a call and the body it stands for.
-/

namespace PenScript

open Exec

/-- The machine within a call: with another call stack, and the call counted. -/
def Machine.inside (stack : List String) (machine : Machine) : Machine :=
  { machine with stack, steps := machine.steps + 1 }

namespace Machine

variable (stack : List String) (machine : Machine)

@[simp] theorem inside_store : (machine.inside stack).store = machine.store := rfl

@[simp] theorem inside_gate : (machine.inside stack).gate = machine.gate := rfl

@[simp] theorem inside_steps : (machine.inside stack).steps = machine.steps + 1 := rfl

variable {stack machine}

theorem inside_of_stack (hStack : machine.stack = stack) :
    machine.inside stack = { machine with steps := machine.steps + 1 } := by
  subst hStack
  rfl

end Machine

/-- How a run within a call may end, given how the same run ends outside of it. The call
stacks that the two have to leave are given. -/
inductive Sheltered {α : Type} (stack stack' : List String) :
    EStateM.Result Diagnostic Machine α → EStateM.Result Diagnostic Machine α →
      Prop where
  /-- Both come to their end, with the same machine but for call stack and count. -/
  | done (value : α) (after : Machine) (hStack : after.stack = stack') :
      Sheltered stack stack' (.ok value (after.inside stack)) (.ok value after)
  /-- Both stop. -/
  | stopped (problem problem' : Diagnostic) (final final' : Machine) :
      Sheltered stack stack' (.error problem final) (.error problem' final')
  /-- The run within the call is stopped by a guard. -/
  | guarded {problem : Diagnostic} (hKind : problem.kind = .cyclicCall ∨
      problem.kind = .limit)
      (final : Machine) (other : EStateM.Result Diagnostic Machine α) :
      Sheltered stack stack' (.error problem final) other

/-- Whether an action within a call ends as another does outside of it, whatever the two
stacks, and both leave the stacks as they find them. -/
def Shelters {α : Type} (inner outer : Exec α) : Prop :=
  ∀ (stack : List String) (machine : Machine), machine.stack ⊆ stack →
    Sheltered stack machine.stack (inner (machine.inside stack)) (outer machine)

/-! ## Single actions -/

section

variable {α β : Type}

theorem shelters_pure (value : α) : Shelters (pure value : Exec α) (pure value) :=
  fun _ machine _ => .done value machine rfl

theorem Shelters.bind {inner outer : Exec α} {next next' : α → Exec β}
    (hFirst : Shelters inner outer)
    (hNext : ∀ value, Shelters (next value) (next' value)) :
    Shelters (inner >>= next) (outer >>= next') := by
  intro stack machine hStack
  have hEnds := hFirst stack machine hStack
  rw [bind_apply, bind_apply]
  generalize inner (machine.inside stack) = first, outer machine = second at hEnds
  cases hEnds with
  | done value after hAfter =>
      rw [← hAfter] at hStack ⊢
      exact hNext value stack after hStack
  | stopped problem problem' final final' =>
      exact .stopped problem problem' final final'
  | guarded hKind final => exact .guarded hKind final _

theorem shelters_fail (fault : Fault) (site : Site) :
    Shelters (fail fault site : Exec α) (fail fault site) :=
  fun _ _ _ => .stopped _ _ _ _

theorem shelters_tick (limits : Limits) (site : Site) :
    Shelters (tick limits site) (tick limits site) := by
  intro stack machine hStack
  rw [tick_apply, tick_apply, Machine.inside_steps]
  by_cases hOver : limits.maxSteps < machine.steps + 1 + 1
  · rw [if_pos hOver]
    exact .guarded (Or.inr rfl) _ _
  · rw [if_neg hOver, if_neg (by omega)]
    exact .done () { machine with steps := machine.steps + 1 } rfl

theorem shelters_demand (site : Site) (found : Except Fault α) :
    Shelters (demand site found) (demand site found) := by
  cases found with
  | ok value => exact shelters_pure value
  | error fault => exact shelters_fail fault site

theorem shelters_valueOf (term : Term) (site : Site) :
    Shelters (valueOf term site) (valueOf term site) := fun stack machine hStack =>
  shelters_demand site (term.valueIn machine.store.vars none) stack machine hStack

theorem shelters_assign (name : String) (value : Int32) :
    Shelters (Exec.assign name value) (Exec.assign name value) := fun _ machine _ =>
  .done () { machine with store.vars := machine.store.vars.insert name value } rfl

theorem shelters_draw (command : Command) (site : Site) :
    Shelters (Exec.draw command site) (Exec.draw command site) := by
  intro stack machine hStack
  rw [draw_apply, draw_apply, Machine.inside_gate, Machine.inside_store]
  split
  · cases command.gestures machine.store.vars with
    | ok gestures =>
        exact .done () { machine with trace := machine.trace.appendList gestures } rfl
    | error fault => exact .stopped _ _ _ _
  · exact .done () machine rfl

theorem shelters_define (name : String) (body : List Stmt) (site : Site) :
    Shelters (define name body site) (define name body site) := by
  intro stack machine hStack
  rw [define_apply, define_apply, Machine.inside_store]
  cases machine.store.methods.define name body with
  | some methods => exact .done () { machine with store.methods := methods } rfl
  | none => exact .stopped _ _ _ _

theorem shelters_raise (problem : Diagnostic) (gated : Bool) :
    Shelters (raise problem gated) (raise problem gated) := by
  intro stack machine hStack
  rw [raise_apply, raise_apply, Machine.inside_gate]
  split
  · exact .stopped _ _ _ _
  · exact .done () machine rfl

/-! ## Changes that are undone -/

/-- What is undone on both sides. -/
theorem Sheltered.finally {stack stack' left left' : List String}
    {inner outer : Exec Unit} {start start' : Machine}
    (hEnds : Sheltered stack stack' (inner start) (outer start'))
    {restore : Machine → Machine}
    (hInner : ∀ after : Machine, restore (after.inside stack) =
      (restore after).inside left)
    (hOuter : ∀ after : Machine, after.stack = stack' → (restore after).stack = left') :
    Sheltered left left' (andFinally restore inner start)
      (andFinally restore outer start') := by
  rw [andFinally_apply, andFinally_apply]
  generalize inner start = first, outer start' = second at hEnds
  cases hEnds with
  | done _ after hStack =>
      show Sheltered left left' (.ok () (restore (after.inside stack)))
        (.ok () (restore after))
      rw [hInner]
      exact .done () (restore after) (hOuter after hStack)
  | stopped problem problem' final final' => exact .stopped problem problem' _ _
  | guarded hKind final => exact .guarded hKind _ _

/-- What the inner run alone undoes, when it leaves the call that the
other has not made. -/
theorem Sheltered.leaving {key : String} {stack : List String} {inner : Exec Unit}
    {start : Machine} {outer : EStateM.Result Diagnostic Machine Unit}
    (hEnds : Sheltered (key :: stack) stack (inner start) outer) :
    Sheltered stack stack
      (andFinally (fun final => { final with stack := final.stack.tail }) inner start)
        outer := by
  rw [andFinally_apply]
  generalize inner start = first at hEnds
  cases hEnds with
  | done _ after hStack => exact .done () after hStack
  | stopped problem problem' final final' => exact .stopped problem problem' _ _
  | guarded hKind final => exact .guarded hKind _ _

theorem Shelters.withGate {inner outer : Exec Unit} (hBody : Shelters inner outer)
    (holds : Bool) : Shelters (withGate holds inner) (withGate holds outer) := by
  intro stack machine hStack
  rw [withGate_apply, withGate_apply]
  exact (hBody stack { machine with gate := machine.gate && holds } hStack).finally
    (fun _ => rfl) fun _ hAfter => hAfter

/-- A call that both runs enter. Each of them takes the method off its own stack. -/
theorem Shelters.calling {inner outer : Exec Unit} (hBody : Shelters inner outer)
    (key : String) : Shelters (calling key inner) (calling key outer) := by
  intro stack machine hStack
  rw [calling_apply, calling_apply]
  exact (hBody (key :: stack) { machine with stack := key :: machine.stack }
    (List.cons_subset_cons key hStack)).finally (fun _ => rfl) fun _ hAfter =>
      congrArg List.tail hAfter

end

/-! ## Statements and calls -/

/-- Shelter, as a relation between the actions of two runs. -/
def shelter (limits : Limits) : Pairing limits limits where
  Pairs := Shelters
  pure := shelters_pure
  bind := Shelters.bind
  tick := shelters_tick limits
  fail := shelters_fail
  valueOf := shelters_valueOf
  assign := shelters_assign
  draw := shelters_draw
  define := shelters_define
  raise := shelters_raise
  withGate holds hBody := hBody.withGate holds

variable {limits : Limits}

theorem shelters_execAll {call call' : Caller}
    (hCall : ∀ name site, Shelters (call name site) (call' name site))
    (stmts : List Stmt) :
    Shelters (Stmt.execAll limits call stmts) (Stmt.execAll limits call' stmts) := by
  have hPairs : ∀ name site,
      (shelter limits).Pairs (call name site) (call' name site) := hCall
  exact Pairing.execAll hPairs stmts

/-- **A call from a longer stack**, with no more calls left, ends as the call from the
shorter one unless it is cyclic or too deep. -/
theorem shelters_callAt (depth : Nat) : ∀ depth' : Nat, depth ≤ depth' →
    ∀ name site,
      Shelters (callAt limits depth name site) (callAt limits depth' name site) := by
  induction depth using Nat.strongRecOn with
  | ind depth ih =>
      intro depth' hLe name site stack machine hStack
      cases hFound : machine.store.methods.get? name with
      | none =>
          have hThere : (machine.inside stack).store.methods.get? name = none := hFound
          rw [callAt_unknown hFound, callAt_unknown hThere]
          exact .stopped _ _ _ _
      | some body =>
          have hThere : (machine.inside stack).store.methods.get? name = some body :=
            hFound
          by_cases hCyclic : Text.lowercase name ∈ (machine.inside stack).stack
          · rw [callAt_cyclic hThere hCyclic]
            exact .guarded (Or.inl rfl) _ _
          · have hFresh : Text.lowercase name ∉ machine.stack :=
              fun hMem => hCyclic (hStack hMem)
            cases depth with
            | zero =>
                rw [callAt_zero hThere hCyclic]
                exact .guarded (Or.inr rfl) _ _
            | succ depth =>
                obtain ⟨left, rfl⟩ : ∃ left, depth' = left + 1 := ⟨depth' - 1, by omega⟩
                rw [callAt_succ hFound hFresh, callAt_succ hThere hCyclic]
                have hCall := ih depth (Nat.lt_succ_self depth) left (by omega)
                exact (shelters_execAll hCall body).calling _ stack machine hStack

/-! ## A call and the body it stands for -/

/-- The call of a method, next to its body as a list of statements. -/
theorem sheltered_run_call {machine : Machine} {name : String} {body : List Stmt}
    (hMethod : machine.store.methods.get? name = some body) (site : Site) :
    Sheltered machine.stack machine.stack ((Stmt.call name site).run limits machine)
      (runAll limits body machine) := by
  have hHere :
      ({ machine with steps := machine.steps + 1 } : Machine).store.methods.get? name =
    some body := hMethod
  show Sheltered _ _ ((tick limits site >>= fun _ =>
    callAt limits (machine.callsLeft limits) name site) machine) _
  rw [bind_apply, tick_apply]
  by_cases hOver : limits.maxSteps < machine.steps + 1
  · rw [if_pos hOver]
    exact .guarded (Or.inr rfl) _ _
  · rw [if_neg hOver]
    by_cases hCyclic : Text.lowercase name ∈ machine.stack
    · show Sheltered _ _ (callAt _ _ _ _ _) _
      rw [callAt_cyclic hHere hCyclic]
      exact .guarded (Or.inl rfl) _ _
    · show Sheltered _ _ (callAt _ _ _ _ _) _
      cases hLeft : machine.callsLeft limits with
      | zero =>
          rw [callAt_zero hHere hCyclic]
          exact .guarded (Or.inr rfl) _ _
      | succ left =>
          have hCall := @shelters_callAt limits left (left + 1) (Nat.le_succ left)
          have hBody := @shelters_execAll limits _ _ hCall body
            (Text.lowercase name :: machine.stack) machine (List.subset_cons_self _ _)
          rw [callAt_succ hHere hCyclic, calling_apply, runAll, hLeft]
          exact hBody.leaving

/-- **A call is its body inlined.** If it succeeds, so does the body from the same
machine, to the same effect, and it has counted one statement less. If the body
succeeds, the call does the same, or is found cyclic or stopped by a limit. -/
theorem run_call_inlined {limits : Limits} {machine : Machine} {name : String}
    {body : List Stmt}
    (hMethod : machine.store.methods.get? name = some body) (site : Site) :
    (∀ after, (Stmt.call name site).run limits machine = .ok () after →
      ∃ inlined, runAll limits body machine = .ok () inlined ∧
        after = { inlined with steps := inlined.steps + 1 }) ∧
    ∀ inlined, runAll limits body machine = .ok () inlined →
      (Stmt.call name site).run limits machine =
        .ok () { inlined with steps := inlined.steps + 1 } ∨
      ∃ problem final, (Stmt.call name site).run limits machine = .error problem final ∧
        (problem.kind = .cyclicCall ∨ problem.kind = .limit) := by
  have hEnds := @sheltered_run_call limits _ _ _ hMethod site
  generalize (Stmt.call name site).run limits machine = called,
    runAll limits body machine = direct at hEnds
  constructor
  · rintro after rfl
    cases hEnds with
    | done _ inlined hStack => exact ⟨inlined, rfl, Machine.inside_of_stack hStack⟩
  · rintro inlined rfl
    cases hEnds with
    | done _ _ hStack =>
        rw [Machine.inside_of_stack hStack]
        exact Or.inl rfl
    | guarded hKind final => exact Or.inr ⟨_, final, rfl, hKind⟩

/-- A method that itself makes calls. -/
theorem run_call_inlined_row :
    let dot : List Stmt := [.draw (.circle (.number 1)) ⟨2, "circle 1"⟩]
    let row : List Stmt := [.call "dot" ⟨5, "call dot"⟩, .call "dot" ⟨6, "call dot"⟩]
    let machine : Machine :=
      { store.methods := ⟨(NameMap.empty.insert "dot" dot).insert "row" row⟩ }
    let stmt := Stmt.call "row" ⟨8, "call row"⟩
    machine.store.methods.get? "row" = some row ∧
      ∃ inlined, runAll {} row machine = .ok () inlined ∧ inlined.steps = 4 ∧
        stmt.run {} machine = .ok () { inlined with steps := inlined.steps + 1 } := by
  intro dot row machine stmt
  have hMethod : machine.store.methods.get? "row" = some row := by
    unfold machine row dot
    cbv
  have hCall : outcome (stmt.run {} machine) = .ok () ∧
      (finalState (stmt.run {} machine)).steps = 5 := by
    unfold stmt machine row dot
    constructor <;> cbv
  cases hRun : stmt.run {} machine with
  | error problem final =>
      rw [hRun] at hCall
      cases hCall.1
  | ok _ after =>
      obtain ⟨inlined, hInlined, rfl⟩ :=
        (run_call_inlined hMethod ⟨8, "call row"⟩).1 after hRun
      rw [hRun] at hCall
      exact ⟨hMethod, inlined, hInlined, Nat.succ.inj hCall.2, rfl⟩

end PenScript
