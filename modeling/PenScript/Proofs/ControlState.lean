import Mathlib
import PenScript.Proofs.Progress
import PenScript.Proofs.Recording
import PenScript.Proofs.StoreGrowth

/-!
# Every moment of a run

Closing the gate is undone by setting it to what it was, and entering a method by
taking one name off the call stack. That a statement leaves the gate and the call
stack as it finds them is therefore a fact about all that is executed in between:
what is taken off is what was put on only because the body of the method has left
the stack alone, and this is known by induction.

What holds in between is said of the machines that a run writes down if every moment
is watched. At none of them is a method on the call stack twice, or one that is not
defined, or more of them than may be: a method is entered only where it is defined and
not being executed, and where that many more calls may be entered as `callAt` still
counts.

## Main results

* `follows_exec`, `follows_callAt`: a recorded run is in order at every moment;
* `Machine.Reachable.hasRoom`: so are all machines that runs pass through;
* `control_of_reachable`: gate, call stack and count while a statement is executed.
-/

namespace PenScript

open Exec

open Watch (everyMoment)

/-- Executes a statement and records every moment. -/
def Stmt.recordRun (limits : Limits) (stmt : Stmt) : Recorded Unit :=
  stmt.record everyMoment limits

/-- Executes and records statements in order, up to the first fault. -/
def recordRunAll (limits : Limits) (stmts : List Stmt) : Recorded Unit :=
  recordAll everyMoment limits stmts

/-! ## Machines in order -/

namespace Machine

/-- Whether the call stack is in order and that many more calls may be entered. -/
structure HasRoom (limits : Limits) (room : Nat) (machine : Machine) : Prop where
  nodup : machine.stack.Nodup
  defined : ∀ key ∈ machine.stack, key ∈ machine.store.methods.names
  depth : machine.stack.length + room ≤ limits.maxCallDepth

/-- Whether one machine has counted no more and knows no more than another. -/
structure Precedes (first second : Machine) : Prop where
  steps : first.steps ≤ second.steps
  store : first.store.GrowsInto second.store

variable {limits : Limits} {room : Nat} {first second third machine : Machine}

theorem Precedes.refl (machine : Machine) : machine.Precedes machine :=
  ⟨Nat.le_refl _, .refl _⟩

theorem Precedes.trans (hFirst : first.Precedes second)
    (hSecond : second.Precedes third) : first.Precedes third :=
  ⟨Nat.le_trans hFirst.steps hSecond.steps, hFirst.store.trans hSecond.store⟩

/-- What is defined stays defined. -/
theorem Precedes.names (hPrecedes : first.Precedes second) {key : String}
    (hKey : key ∈ first.store.methods.names) : key ∈ second.store.methods.names := by
  obtain ⟨entry, hEntry, rfl⟩ := List.mem_map.mp hKey
  have hFound := hPrecedes.store.methods _ _ ((NameMap.mem_entries_iff _).mp hEntry)
  exact List.mem_map.mpr ⟨entry, (NameMap.mem_entries_iff _).mpr hFound, rfl⟩

theorem HasRoom.less (hRoom : machine.HasRoom limits room) : machine.HasRoom limits 0 :=
  ⟨hRoom.nodup, hRoom.defined, Nat.le_trans (Nat.le_add_right _ _) hRoom.depth⟩

/-- Later, with the call stack as it was, there is as much room. -/
theorem HasRoom.later (hRoom : first.HasRoom limits room)
    (hPrecedes : first.Precedes second)
    (hStack : second.stack = first.stack) : second.HasRoom limits room where
  nodup := hStack ▸ hRoom.nodup
  defined key hKey := hPrecedes.names (hRoom.defined key (hStack ▸ hKey))
  depth := hStack ▸ hRoom.depth

/-- Entering a method that is defined and not being executed takes one call. -/
theorem HasRoom.enter (hRoom : machine.HasRoom limits (room + 1)) {key : String}
    (hFresh : key ∉ machine.stack) (hDefined : key ∈ machine.store.methods.names) :
    { machine with stack := key :: machine.stack }.HasRoom limits room where
  nodup := List.nodup_cons.mpr ⟨hFresh, hRoom.nodup⟩
  defined := List.forall_mem_cons.mpr ⟨hDefined, hRoom.defined⟩
  depth := by
    have hDepth := hRoom.depth
    show (key :: machine.stack).length + room ≤ limits.maxCallDepth
    rw [List.length_cons]
    omega

end Machine

/-- Whether some machines may be passed through, one after another, on the way between
two: none of them is behind an earlier one, and all are in order. -/
structure Passage (limits : Limits) (start : Machine) (points : List Machine)
    (final : Machine) : Prop where
  ordered : (start :: points).Pairwise Machine.Precedes
  arrives : ∀ point ∈ start :: points, point.Precedes final
  last : points.getLastD start = final
  inOrder : ∀ point ∈ points, point.HasRoom limits 0

namespace Passage

variable {limits : Limits} {start middle final : Machine} {points more : List Machine}

theorem stay (machine : Machine) : Passage limits machine [] machine where
  ordered := List.pairwise_singleton _ _
  arrives := List.forall_mem_singleton.mpr (.refl machine)
  last := rfl
  inOrder _ hMem := absurd hMem List.not_mem_nil

theorem single (hPrecedes : start.Precedes final) (hRoom : final.HasRoom limits 0) :
    Passage limits start [final] final where
  ordered := List.pairwise_pair.mpr hPrecedes
  arrives :=
    List.forall_mem_cons.mpr ⟨hPrecedes, List.forall_mem_singleton.mpr (.refl final)⟩
  last := rfl
  inOrder := List.forall_mem_singleton.mpr hRoom

theorem append (hFirst : Passage limits start points middle)
    (hSecond : Passage limits middle more final) :
    Passage limits start (points ++ more) final := by
  obtain ⟨hLater, hMore⟩ := List.pairwise_cons.mp hSecond.ordered
  constructor
  · rw [← List.cons_append]
    refine List.pairwise_append.mpr ⟨hFirst.ordered, hMore,
      fun earlier hEarlier later hMem => ?_⟩
    exact (hFirst.arrives earlier hEarlier).trans (hLater later hMem)
  · rw [← List.cons_append]
    intro point hMem
    rcases List.mem_append.mp hMem with hEarlier | hLate
    · exact (hFirst.arrives point hEarlier).trans
        (hSecond.arrives middle List.mem_cons_self)
    · exact hSecond.arrives point (List.mem_cons_of_mem _ hLate)
  · rw [← hSecond.last, ← hFirst.last]
    cases more with
    | nil => rw [List.append_nil]; rfl
    | cons point others => simp
  · exact fun point hMem => (List.mem_append.mp hMem).elim (hFirst.inOrder point)
      (hSecond.inOrder point)

end Passage

/-! ## A recorded run is in order -/

/-- Whether a recorded action leaves gate and call stack as it finds them, and is in
order at every moment if it is taken where that many more calls may be entered. -/
structure Recorded.Follows {α : Type} (limits : Limits) (room : Nat)
    (record : Recorded α) : Prop where
  forward (machine : Machine) : machine.Advances (finalState (record machine).2)
  passage {machine : Machine} : machine.HasRoom limits room →
    Passage limits machine (record machine).1 (finalState (record machine).2)

namespace Recorded.Follows

variable {α β : Type} {limits : Limits} {room inner : Nat}

theorem pure (value : α) : Follows limits room (Pure.pure value) where
  forward := Machine.Advances.refl
  passage _ := .stay _

/-- A single action that obeys all laws. -/
theorem single {action : Exec α}
    (hObeys : ∀ law : Law limits, (∀ stmt, law.Good stmt) → law.Obeys action) :
    Follows limits room (Recorded.single everyMoment action) := by
  have hForward :=
    Exec.GoesForward.obeys_iff.mp (hObeys (Law.advance limits) fun _ => trivial)
  refine ⟨hForward, fun {machine} hRoom => ?_⟩
  let law : Law limits := @Law.growth (fun _ _ => True) limits fun _ _ _ _ _ => trivial
  have hGrows := (Law.growth_of_allows
    (hObeys law (fun _ _ _ => trivial) machine fun _ _ _ => trivial)).1
  have hPrecedes : machine.Precedes (finalState (action machine)) :=
    ⟨(hForward machine).steps, hGrows⟩
  exact .single hPrecedes (hRoom.less.later hPrecedes (hForward machine).stack)

theorem bind {record : Recorded α} {next : α → Recorded β}
    (hFirst : Follows limits room record)
    (hNext : ∀ value, Follows limits room (next value)) :
    Follows limits room (record >>= next) := by
  constructor
  · intro machine
    have hForward := hFirst.forward machine
    show machine.Advances (finalState (andThen record next machine).2)
    rw [andThen]
    cases hRecord : record machine with
    | mk points result =>
        rw [hRecord] at hForward
        cases result with
        | error problem after => exact hForward
        | ok value after => exact hForward.trans ((hNext value).forward after)
  · intro machine hRoom
    have hPassage := hFirst.passage hRoom
    have hForward := hFirst.forward machine
    show Passage limits machine (andThen record next machine).1
      (finalState (andThen record next machine).2)
    rw [andThen]
    cases hRecord : record machine with
    | mk points result =>
        rw [hRecord] at hPassage hForward
        cases result with
        | error problem after => exact hPassage
        | ok value after =>
            have hLater :=
              hRoom.later (hPassage.arrives machine List.mem_cons_self) hForward.stack
            exact hPassage.append ((hNext value).passage hLater)

theorem times {record : Recorded Unit} (hFollows : Follows limits room record)
    (turns : Nat) : Follows limits room (Recorded.times turns record) := by
  induction turns with
  | zero => exact pure ()
  | succ turns ih => exact hFollows.bind fun _ => ih

/-- A turn of which nothing is seen. -/
theorem turn {record : Recorded Unit} (hFollows : Follows limits room record) :
    Follows limits room (Recorded.turn false record) :=
  ⟨hFollows.forward, hFollows.passage⟩

/-- What is recorded of a change that is undone. -/
theorem passage_within {record : Recorded Unit} (hFollows : Follows limits inner record)
    {enter : Machine → Machine} {leave : Machine → Machine → Machine}
    {machine : Machine} (hRoom : machine.HasRoom limits room)
    (hEnter : (enter machine).HasRoom limits inner)
    (hBefore : machine.Precedes (enter machine))
    (hAfter : ∀ final : Machine, final.Precedes (leave machine final))
    (hStack : ∀ final : Machine, final.stack = (enter machine).stack →
      (leave machine final).stack = machine.stack) :
    Passage limits machine (within everyMoment enter leave record machine).1
      (finalState (within everyMoment enter leave record machine).2) := by
  have hInside := hFollows.passage hEnter
  have hForward := hFollows.forward (enter machine)
  rw [finalState_within]
  show Passage limits machine ([enter machine] ++ ((record (enter machine)).1 ++
    [leave machine (finalState (record (enter machine)).2)])) _
  generalize finalState (record (enter machine)).2 = final at hInside hForward ⊢
  have hWhole : machine.Precedes (leave machine final) :=
    (hBefore.trans (hInside.arrives _ List.mem_cons_self)).trans (hAfter final)
  have hLast := hRoom.less.later hWhole (hStack final hForward.stack)
  exact (Passage.single hBefore hEnter.less).append
    (hInside.append (.single (hAfter final) hLast))

/-- The gate is set to what it was. -/
theorem withGate {record : Recorded Unit} (hFollows : Follows limits room record)
    (holds : Bool) :
    Follows limits room (Recorded.withGate everyMoment holds record) := by
  constructor
  · intro machine
    have hInside := hFollows.forward { machine with gate := machine.gate && holds }
    rw [Recorded.withGate, finalState_within]
    exact ⟨⟨hInside.steps, hInside.trace⟩, rfl, hInside.stack⟩
  · intro machine hRoom
    have hEnter : { machine with gate := machine.gate && holds }.HasRoom limits room :=
      ⟨hRoom.nodup, hRoom.defined, hRoom.depth⟩
    exact hFollows.passage_within hRoom hEnter ⟨Nat.le_refl _, .refl _⟩
      (fun _ => ⟨Nat.le_refl _, .refl _⟩) fun _ hStack => hStack

/-- **A name is taken off the call stack**, and it is the one that was put on: what is
executed in the method leaves it there. -/
theorem passage_calling {record : Recorded Unit}
    (hFollows : Follows limits inner record)
    {key : String} {machine : Machine} (hRoom : machine.HasRoom limits (inner + 1))
    (hFresh : key ∉ machine.stack) (hDefined : key ∈ machine.store.methods.names) :
    Passage limits machine (Recorded.calling everyMoment key record machine).1
      (finalState (Recorded.calling everyMoment key record machine).2) :=
  hFollows.passage_within hRoom (hRoom.enter hFresh hDefined) ⟨Nat.le_refl _, .refl _⟩
    (fun _ => ⟨Nat.le_refl _, .refl _⟩) fun _ hStack => congrArg List.tail hStack

end Recorded.Follows

section

variable {limits : Limits} {room : Nat}

mutual

/-- **A recorded statement is in order at every moment**, if the calls in it are. -/
theorem follows_exec {record : String → Site → Recorded Unit}
    (hCall : ∀ name site, (record name site).Follows limits room) :
    ∀ stmt, (Stmt.recordExec everyMoment limits record stmt).Follows limits room
  | .assign name value site => by
      rw [Stmt.recordExec]
      refine .bind (.single fun law _ => law.obeys_tick site) fun _ => ?_
      refine .bind (.single fun law _ => law.obeys_valueOf value site) fun found => ?_
      exact .single fun law _ => law.obeys_assign name found
  | .draw command site => by
      rw [Stmt.recordExec]
      refine .bind (.single fun law _ => law.obeys_tick site) fun _ => ?_
      exact .single fun law _ => law.obeys_draw command site
  | .branch condition body site => by
      rw [Stmt.recordExec]
      refine .bind (.single fun law _ => law.obeys_tick site) fun _ => ?_
      refine .bind (.single fun law _ => law.obeys_test condition site) fun holds => ?_
      exact (follows_execAll hCall body).withGate holds
  | .loop count body site => by
      rw [Stmt.recordExec]
      refine .bind (.single fun law _ => law.obeys_tick site) fun _ => ?_
      refine .bind (.single fun law _ => law.obeys_valueOf count site) fun turns => ?_
      split
      · rename_i hNegative
        have hArises : (Fault.negativeCount turns).Arises := hNegative
        exact .single fun law _ => law.obeys_fail hArises site
      · exact (follows_execAll hCall body).turn.times _
  | .method name body site => by
      rw [Stmt.recordExec]
      refine .bind (.single fun law _ => law.obeys_tick site) fun _ => ?_
      exact .single fun law hGood => law.obeys_define (hGood _)
  | .call name site => by
      rw [Stmt.recordExec]
      exact .bind (.single fun law _ => law.obeys_tick site) fun _ => hCall name site
  | .invalid problem gated => by
      rw [Stmt.recordExec]
      refine .bind (.single fun law _ => law.obeys_tick problem.site) fun _ => ?_
      exact .single fun law hGood => law.obeys_raise (hGood (.invalid problem gated))

theorem follows_execAll {record : String → Site → Recorded Unit}
    (hCall : ∀ name site, (record name site).Follows limits room) :
    ∀ stmts, (Stmt.recordExecAll everyMoment limits record stmts).Follows limits room
  | [] => by
      rw [Stmt.recordExecAll]
      exact .pure ()
  | stmt :: rest => by
      rw [Stmt.recordExecAll]
      exact .bind (follows_exec hCall stmt) fun _ => follows_execAll hCall rest

end

/-- The name of a method that is found is among the names. -/
theorem Methods.mem_names {methods : Methods} {name : String} {body : List Stmt}
    (hFound : methods.get? name = some body) : Text.lowercase name ∈ methods.names :=
  List.mem_map.mpr ⟨_, (NameMap.mem_entries_iff _).mpr hFound, rfl⟩

/-- **A recorded call is in order at every moment**, if it may still be entered. -/
theorem follows_callAt (limits : Limits) (depth : Nat) : ∀ name site,
    (recordCallAt everyMoment limits depth name site).Follows limits depth := by
  induction depth with
  | zero =>
      refine fun name site => ⟨goesForward_callAt limits 0 name site,
        fun {machine} hRoom => ?_⟩
      rcases recordCallAt_cases 0 name site machine with
        ⟨fault, hRecord, hCall⟩ | ⟨_, _, hNone, -⟩
      · rw [hRecord, Recorded.single, hCall]
        exact .single (.refl machine) hRoom.less
      · cases hNone
  | succ depth ih =>
      intro name site
      constructor
      · intro machine
        rw [snd_recordCallAt]
        exact goesForward_callAt limits _ name site machine
      · intro machine hRoom
        rcases recordCallAt_cases (depth + 1) name site machine with
          ⟨fault, hRecord, hCall⟩ | ⟨left, body, hDepth, hFound, hFresh, hRecord, -⟩
        · rw [hRecord, Recorded.single, hCall]
          exact .single (.refl machine) hRoom.less
        · cases hDepth
          rw [hRecord]
          exact (follows_execAll ih body).passage_calling hRoom hFresh
            (Methods.mem_names hFound)

end

/-! ## Machines that runs pass through -/

/-- The machines there are while statements are executed, one list of them after
another, whether or not they are stopped by faults. -/
inductive Machine.Reachable (limits : Limits) : Machine → Prop where
  | fresh (store : Store) : Reachable limits { store }
  | run {machine : Machine} (hBefore : machine.Reachable limits) (stmt : Stmt) :
      Reachable limits (finalState (stmt.run limits machine))
  | runAll {machine : Machine} (hBefore : machine.Reachable limits)
      (stmts : List Stmt) :
      Reachable limits (finalState (runAll limits stmts machine))
  | during {machine point : Machine} (hBefore : machine.Reachable limits)
      (stmts : List Stmt)
      (hPoint : point ∈ (recordRunAll limits stmts machine).1) : Reachable limits point

section

variable {limits : Limits} {machine : Machine}

theorem Machine.HasRoom.callsLeft (hRoom : machine.HasRoom limits 0) :
    machine.HasRoom limits (machine.callsLeft limits) where
  nodup := hRoom.nodup
  defined := hRoom.defined
  depth := by
    have hDepth := hRoom.depth
    rw [Machine.callsLeft]
    omega

theorem passage_recordRun (hRoom : machine.HasRoom limits 0) (stmt : Stmt) :
    Passage limits machine (stmt.recordRun limits machine).1
      (finalState (stmt.run limits machine)) := by
  rw [← snd_record everyMoment]
  exact (follows_exec (follows_callAt limits _) stmt).passage hRoom.callsLeft

theorem passage_recordRunAll (hRoom : machine.HasRoom limits 0) (stmts : List Stmt) :
    Passage limits machine (recordRunAll limits stmts machine).1
      (finalState (runAll limits stmts machine)) := by
  rw [← snd_recordAll everyMoment]
  exact (follows_execAll (follows_callAt limits _) stmts).passage hRoom.callsLeft

theorem goesForward_run (limits : Limits) (stmt : Stmt) :
    (stmt.run limits).GoesForward :=
  Exec.GoesForward.obeys_iff.mp ((Law.advance limits).obeys_run trivial)

/-- **All machines that runs pass through are in order.** -/
theorem Machine.Reachable.hasRoom (hReachable : machine.Reachable limits) :
    machine.HasRoom limits 0 := by
  induction hReachable with
  | fresh store =>
      exact ⟨List.nodup_nil, fun _ hMem => absurd hMem List.not_mem_nil, Nat.zero_le _⟩
  | @run machine _ stmt ih =>
      have hPassage := passage_recordRun ih stmt
      exact ih.later (hPassage.arrives machine List.mem_cons_self)
        (goesForward_run limits stmt machine).stack
  | @runAll machine _ stmts ih =>
      have hPassage := passage_recordRunAll ih stmts
      exact ih.later (hPassage.arrives machine List.mem_cons_self)
        (goesForward_execAll limits (machine.callsLeft limits) stmts machine).stack
  | during _ stmts hPoint ih => exact (passage_recordRunAll ih stmts).inOrder _ hPoint

end

/-- **Gate, call stack and count while a statement is executed.** Gate and call stack
are found as they were, however the statement ends. At every moment on the way the call
stack names methods that are defined, none of them twice and no more than may be, and
the count never goes down. -/
theorem control_of_reachable (limits : Limits) :
    (∀ (stmt : Stmt) (machine : Machine),
      (finalState (stmt.run limits machine)).gate = machine.gate ∧
      (finalState (stmt.run limits machine)).stack = machine.stack) ∧
    ∀ machine : Machine, machine.Reachable limits → ∀ stmt : Stmt,
      let record := stmt.recordRun limits machine
      record.2 = stmt.run limits machine ∧
      record.1.getLastD machine = finalState (stmt.run limits machine) ∧
      (∀ point ∈ machine :: record.1, point.stack.Nodup ∧
        (∀ key ∈ point.stack, key ∈ point.store.methods.names) ∧
        point.stack.length ≤ limits.maxCallDepth) ∧
      (machine :: record.1).Pairwise fun earlier later =>
        earlier.steps ≤ later.steps := by
  refine ⟨fun stmt machine => ?_, fun machine hReachable stmt => ?_⟩
  · have hForward := goesForward_run limits stmt machine
    exact ⟨hForward.gate, hForward.stack⟩
  · have hPassage := passage_recordRun hReachable.hasRoom stmt
    refine ⟨snd_record everyMoment limits stmt machine, hPassage.last,
      fun point hMem => ?_, hPassage.ordered.imp Machine.Precedes.steps⟩
    · have hRoom : point.HasRoom limits 0 := by
        rcases List.mem_cons.mp hMem with rfl | hPoint
        · exact hReachable.hasRoom
        · exact hPassage.inOrder point hPoint
      exact ⟨hRoom.nodup, hRoom.defined, hRoom.depth⟩

/-- A fault in a method that is called from another, behind a condition
that does not hold. -/
theorem control_of_reachable_nested :
    let inner : List Stmt := [.assign "x" (.var "y") ⟨2, "x = y"⟩]
    let outer : List Stmt :=
      [.branch ⟨.number 2, .less, .number 1⟩ [.call "in" ⟨6, "call in"⟩]
        ⟨5, "if 2 < 1"⟩]
    let machine : Machine :=
      { store.methods := ⟨(NameMap.empty.insert "in" inner).insert "out" outer⟩ }
    let stmt := Stmt.call "out" ⟨9, "call out"⟩
    machine.Reachable {} ∧
      outcome (stmt.run {} machine) = .error ⟨.unknownVariable "y" none, ⟨2, "x = y"⟩⟩ ∧
      (∃ point ∈ (stmt.recordRun {} machine).1, point.stack = ["in", "out"] ∧
        point.gate = false ∧
        point.stack.Nodup ∧ point.stack.length ≤ ({} : Limits).maxCallDepth) ∧
      (finalState (stmt.run {} machine)).stack = [] ∧
      (finalState (stmt.run {} machine)).gate = true := by
  intro inner outer machine stmt
  have hReachable : machine.Reachable {} := .fresh _
  have hMoment : (["in", "out"], false) ∈
      (stmt.recordRun {} machine).1.map fun point => (point.stack, point.gate) := by
    unfold stmt machine outer inner
    decide +kernel
  have hFault : outcome (stmt.run {} machine) =
      .error ⟨.unknownVariable "y" none, ⟨2, "x = y"⟩⟩ := by
    unfold stmt machine outer inner
    cbv
  obtain ⟨hRestored, hControl⟩ := control_of_reachable {}
  obtain ⟨point, hPoint, hSeen⟩ := List.mem_map.mp hMoment
  obtain ⟨hNodup, -, hDepth⟩ :=
    (hControl machine hReachable stmt).2.2.1 point (List.mem_cons_of_mem _ hPoint)
  exact ⟨hReachable, hFault,
    ⟨point, hPoint, congrArg Prod.fst hSeen, congrArg Prod.snd hSeen, hNodup, hDepth⟩,
    (hRestored stmt machine).2, (hRestored stmt machine).1⟩

end PenScript
