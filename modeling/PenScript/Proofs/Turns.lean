import Mathlib
import PenScript.Proofs.Inheritance
import PenScript.Proofs.Progress
import PenScript.Proofs.Recording

/-!
# What the turns of loops cost

The step budget counts statements. A turn of a loop is no statement, and costs
what the statements of the body cost: at least one step, if the body has any. So
a run that stays within its budget makes no more turns than it has steps, however
deep loops are nested and whatever calls repeat. A loop without statements in its
body is the exception. It costs one step, however often it turns.

Turns are counted in recorded runs, where the machine at the start of every turn is
written down. Which turns are of interest depends on the body, and a body is left out
by watching other ones only.

## Main results

* `pays_exec`, `pays_callAt`: a step for every turn that is written down;
* `steps_of_turns`: loops on their own and the turns of a whole run;
* `turns_of_empty_body`: turns that the budget does not see.
-/

namespace PenScript

open Exec

open Watch (turnsOf)

/-- Executes items in order, up to the first fault, and writes down the turns around
bodies that are seen. -/
def turnsItems (limits : Limits) (seen : List Stmt → Bool) (items : List Item) :
    Recorded Unit :=
  recordItems (turnsOf seen) limits items

/-- The turns that are made in a run of lines, each as the machine at its start. -/
def Session.turns (session : Session) (seen : List Stmt → Bool) (lines : List Line) :
    List Machine :=
  (turnsItems session.limits seen (read .complete lines).items session.machine).1

/-! ## A step for every turn -/

/-- Whether each turn that a recorded action writes down is paid for by a step,
with some steps to spare. -/
def Recorded.Pays {α : Type} (spare : Nat) (record : Recorded α) : Prop :=
  ∀ machine : Machine,
    machine.steps + spare + (record machine).1.length ≤
      (finalState (record machine).2).steps

namespace Recorded.Pays

variable {α β : Type} {limits : Limits} {seen : List Stmt → Bool} {spare : Nat}

theorem less {record : Recorded α} (hPays : Pays spare record) : Pays 0 record := by
  intro machine
  have hPaid := hPays machine
  omega

theorem pure (value : α) : Pays 0 (Pure.pure value) := fun _ => Nat.le_refl _

/-- Single actions write no turns down. -/
theorem single {action : Exec α} (hForward : (Law.advance limits).Obeys action) :
    Pays 0 (Recorded.single (turnsOf seen) action) :=
  fun machine => (GoesForward.obeys_iff.mp hForward machine).steps

theorem tick (site : Site) :
    Pays 1 (Recorded.single (turnsOf seen) (Exec.tick limits site)) := by
  intro machine
  show machine.steps + 1 ≤ (finalState (Exec.tick limits site machine)).steps
  rw [tick_apply]
  split <;> exact Nat.le_refl _

theorem bind {record : Recorded α} {next : α → Recorded β} (hFirst : Pays spare record)
    (hNext : ∀ value, Pays 0 (next value)) : Pays spare (record >>= next) := by
  intro machine
  have hPaid := hFirst machine
  show machine.steps + spare + (andThen record next machine).1.length ≤
    (finalState (andThen record next machine).2).steps
  rw [andThen]
  cases hRecord : record machine with
  | mk points result =>
      rw [hRecord] at hPaid
      cases result with
      | error problem after => exact hPaid
      | ok value after =>
          have hSoFar : machine.steps + spare + points.length ≤ after.steps := hPaid
          have hMore := hNext value after
          show machine.steps + spare + (points ++ (next value after).1).length ≤
            (finalState (next value after).2).steps
          rw [List.length_append]
          omega

/-- A turn is paid for by what its body has to spare. -/
theorem turn {body : List Stmt} {record : Recorded Unit} (hNone : seen [] = false)
    (hBody : Pays (if body.isEmpty then 0 else 1) record) :
    Pays 0 (Recorded.turn (seen body) record) := by
  intro machine
  have hPaid := hBody machine
  rw [Recorded.turn]
  cases body with
  | nil => rwa [hNone]
  | cons stmt rest =>
      rw [List.isEmpty_cons, if_neg Bool.false_ne_true] at hPaid
      dsimp only
      split
      · rw [List.length_cons]
        omega
      · omega

theorem times {record : Recorded Unit} (hPays : Pays 0 record) (turns : Nat) :
    Pays 0 (Recorded.times turns record) := by
  induction turns with
  | zero => exact pure ()
  | succ turns ih => exact hPays.bind fun _ => ih

/-- A change that is undone costs nothing, and only what is done in between
is written down. -/
theorem within {record : Recorded Unit} (hPays : Pays spare record)
    {enter : Machine → Machine} {leave : Machine → Machine → Machine}
    (hEnter : ∀ machine, (enter machine).steps = machine.steps)
    (hLeave : ∀ machine final, (leave machine final).steps = final.steps) :
    Pays spare (Recorded.within (turnsOf seen) enter leave record) := by
  intro machine
  have hPaid := hPays (enter machine)
  rw [finalState_within, hLeave, ← hEnter machine]
  show _ + ([] ++ ((record (enter machine)).1 ++ [])).length ≤ _
  rwa [List.nil_append, List.append_nil]

theorem withGate {record : Recorded Unit} (hPays : Pays spare record) (holds : Bool) :
    Pays spare (Recorded.withGate (turnsOf seen) holds record) :=
  hPays.within (fun _ => rfl) fun _ _ => rfl

theorem calling {record : Recorded Unit} (hPays : Pays spare record) (key : String) :
    Pays spare (Recorded.calling (turnsOf seen) key record) :=
  hPays.within (fun _ => rfl) fun _ _ => rfl

end Recorded.Pays

section

variable (limits : Limits) {seen : List Stmt → Bool}

mutual

/-- **A statement pays for its turns**, and for itself. -/
theorem pays_exec (hNone : seen [] = false) {record : String → Site → Recorded Unit}
    (hCall : ∀ name site, (record name site).Pays 0) :
    ∀ stmt, (Stmt.recordExec (turnsOf seen) limits record stmt).Pays 1
  | .assign name value site => by
      rw [Stmt.recordExec]
      refine .bind (.tick site) fun _ => ?_
      refine .bind (.single ((Law.advance limits).obeys_valueOf value site))
        fun found => ?_
      exact .single ((Law.advance limits).obeys_assign name found)
  | .draw command site => by
      rw [Stmt.recordExec]
      exact .bind (.tick site) fun _ =>
        .single ((Law.advance limits).obeys_draw command site)
  | .branch condition body site => by
      rw [Stmt.recordExec]
      refine .bind (.tick site) fun _ => ?_
      refine .bind (.single ((Law.advance limits).obeys_test condition site))
        fun holds => ?_
      exact (pays_execAll hNone hCall body).less.withGate holds
  | .loop count body site => by
      rw [Stmt.recordExec]
      refine .bind (.tick site) fun _ => ?_
      refine .bind (.single ((Law.advance limits).obeys_valueOf count site))
        fun turns => ?_
      split
      · rename_i hNegative
        have hArises : (Fault.negativeCount turns).Arises := hNegative
        exact .single ((Law.advance limits).obeys_fail hArises site)
      · exact ((pays_execAll hNone hCall body).turn hNone).times _
  | .method name body site => by
      rw [Stmt.recordExec]
      exact .bind (.tick site) fun _ =>
        .single ((Law.advance limits).obeys_define trivial)
  | .call name site => by
      rw [Stmt.recordExec]
      exact .bind (.tick site) fun _ => hCall name site
  | .invalid problem gated => by
      rw [Stmt.recordExec]
      exact .bind (.tick problem.site) fun _ =>
        .single ((Law.advance limits).obeys_raise trivial)

theorem pays_execAll (hNone : seen [] = false) {record : String → Site → Recorded Unit}
    (hCall : ∀ name site, (record name site).Pays 0) :
    ∀ stmts : List Stmt, (Stmt.recordExecAll (turnsOf seen) limits record stmts).Pays
      (if stmts.isEmpty then 0 else 1)
  | [] => by
      rw [Stmt.recordExecAll]
      exact .pure ()
  | stmt :: rest => by
      rw [Stmt.recordExecAll]
      exact .bind (pays_exec hNone hCall stmt) fun _ =>
        (pays_execAll hNone hCall rest).less

end

/-- **A call pays for its turns.** -/
theorem pays_callAt (hNone : seen [] = false) (depth : Nat) : ∀ name site,
    (recordCallAt (turnsOf seen) limits depth name site).Pays 0 := by
  induction depth with
  | zero =>
      exact fun name site => .single ((Law.advance limits).obeys_callAt 0 name site)
  | succ depth ih =>
      intro name site machine
      rcases recordCallAt_cases (depth + 1) name site machine with
        ⟨fault, hRecord, -⟩ | ⟨left, body, hDepth, -, -, hRecord, -⟩
      · rw [hRecord]
        exact Recorded.Pays.single ((Law.advance limits).obeys_callAt _ name site)
          machine
      · cases hDepth
        rw [hRecord]
        exact (pays_execAll limits hNone ih body).less.calling
          (Text.lowercase name) machine

/-- A statement in its own right pays for its turns, and for itself. -/
theorem pays_record (hNone : seen [] = false) (stmt : Stmt) :
    (stmt.record (turnsOf seen) limits).Pays 1 :=
  fun machine => pays_exec limits hNone (pays_callAt limits hNone _) stmt machine

/-- A run pays for its turns, and for its first statement if it makes any. -/
theorem pays_turnsItems (hNone : seen [] = false) (items : List Item) :
    (turnsItems limits seen items).Pays 0 ∧
      ∀ machine : Machine, (turnsItems limits seen items machine).1 ≠ [] →
        machine.steps + 1 + (turnsItems limits seen items machine).1.length ≤
          (finalState (turnsItems limits seen items machine).2).steps := by
  induction items with
  | nil => exact ⟨.pure (), fun _ hTurns => absurd rfl hTurns⟩
  | cons item rest ih =>
      cases item with
      | error problem =>
          exact ⟨fun _ => Nat.le_refl _, fun _ hTurns => absurd rfl hTurns⟩
      | ok stmt =>
          have hPays := (pays_record limits hNone stmt).bind fun _ => ih.1
          exact ⟨hPays.less, fun machine _ => hPays machine⟩

end

/-! ## The budget -/

/-- A run counts at most one statement more than the budget allows, if
it starts within it. -/
def Law.budget (limits : Limits) : Law limits where
  Good _ := True
  Holds machine := machine.steps ≤ limits.maxSteps
  Ends _ _ := True
  Stops _ _ after := after.steps ≤ limits.maxSteps + 1
  refl _ := trivial
  trans _ _ := trivial
  trans_stops _ hStops := hStops
  good_body _ _ _ := trivial
  good_stored _ _ _ _ := trivial
  counted _ hLess := ⟨hLess, trivial⟩
  exhausted _ hHolds _ := Nat.succ_le_succ hHolds
  assigned _ _ hHolds := ⟨hHolds, trivial⟩
  drawn hHolds _ _ := ⟨hHolds, trivial⟩
  defined hHolds _ _ := ⟨hHolds, trivial⟩
  faulted _ hHolds _ := Nat.le_succ_of_le hHolds
  deepened _ hHolds := Nat.le_succ_of_le hHolds
  raised hHolds _ := Nat.le_succ_of_le hHolds
  gated _ hHolds := hHolds
  ungated _ hAfter _ := ⟨hAfter, trivial⟩
  ungated_stops _ hStops := hStops
  called hHolds _ := hHolds
  returned _ hAfter _ := ⟨hAfter, trivial⟩
  returned_stops _ hStops := hStops

theorem steps_runItems_le {limits : Limits} (items : List Item) {machine : Machine}
    (hWithin : machine.steps ≤ limits.maxSteps) :
    (finalState (runItems limits items machine)).steps ≤ limits.maxSteps + 1 := by
  have hObeys : (Law.budget limits).Obeys (runItems limits items) :=
    (Law.budget limits).obeys_runItems (fun _ _ => trivial)
      fun _ _ _ hHolds => Nat.le_succ_of_le hHolds
  have hAllows := hObeys machine hWithin
  cases hRun : runItems limits items machine with
  | ok value after =>
      rw [hRun] at hAllows
      exact Nat.le_succ_of_le hAllows.1
  | error problem after =>
      rw [hRun] at hAllows
      exact hAllows

/-- An action that has a price has it in every turn. -/
theorem steps_times {action : Exec Unit} {price : Nat}
    (hPrice : ∀ {machine after : Machine}, action machine = .ok () after →
      machine.steps + price ≤ after.steps) (turns : Nat) {machine after : Machine}
    (hRun : Exec.times turns action machine = .ok () after) :
    machine.steps + turns * price ≤ after.steps := by
  induction turns generalizing machine with
  | zero =>
      cases hRun
      omega
  | succ turns ih =>
      obtain ⟨_, middle, hFirst, hRest⟩ := bind_eq_ok hRun
      have hTurn := hPrice hFirst
      have hTurns := ih hRest
      rw [Nat.succ_mul]
      omega

/-- Statements take a step at least, unless there are none. -/
theorem steps_execAll {limits : Limits} {depth : Nat} {body : List Stmt}
    (hBody : body ≠ []) {machine after : Machine}
    (hRun : Stmt.execAll limits (callAt limits depth) body machine = .ok () after) :
    machine.steps + 1 ≤ after.steps := by
  let unseen : List Stmt → Bool := fun _ => false
  have hNone : unseen [] = false := rfl
  have hPaid := pays_execAll limits hNone (pays_callAt limits hNone depth) body machine
  rw [snd_recordExecAll (snd_recordCallAt depth) body, hRun,
    if_neg (by rwa [List.isEmpty_iff])] at hPaid
  have hSteps : machine.steps + 1 + _ ≤ after.steps := hPaid
  omega

/-- **Turns of a loop and steps.** A loop that ends well has counted itself and a
statement at least for each of its turns, if its body has any; else it has counted
nothing but itself. -/
theorem steps_loop {limits : Limits} {machine after : Machine} {count : Term}
    {body : List Stmt} {site : Site} {turns : Int32}
    (hCount : count.valueIn machine.store.vars none = .ok turns)
    (hRun : (Stmt.loop count body site).run limits machine = .ok () after) :
    0 ≤ turns ∧ (body ≠ [] → machine.steps + 1 + turns.toInt.toNat ≤ after.steps) ∧
      (body = [] → after.steps = machine.steps + 1) := by
  rw [Stmt.run, Stmt.exec] at hRun
  obtain ⟨_, ticked, hTick, hRun⟩ := bind_eq_ok hRun
  obtain ⟨-, rfl⟩ := tick_eq_ok hTick
  obtain ⟨found, middle, hValue, hRun⟩ := bind_eq_ok hRun
  rw [valueOf_apply] at hValue
  obtain ⟨hFound, rfl⟩ := demand_eq_ok hValue
  cases hCount.symm.trans hFound
  split at hRun
  · cases hRun
  · rename_i hNegative
    refine ⟨Int32.not_lt.mp hNegative, fun hBody => ?_, fun hBody => ?_⟩
    · rw [if_neg (by rwa [List.isEmpty_iff])] at hRun
      have hTurns := steps_times (steps_execAll hBody) turns.toInt.toNat hRun
      rwa [Nat.mul_one] at hTurns
    · subst hBody
      cases hRun
      rfl

/-- A run makes no more turns around bodies with statements than it takes steps, and no
more than the budget allows. -/
theorem length_turns_le (session : Session) (lines : List Line) :
    let turns := session.turns (fun body => !body.isEmpty) lines
    turns.length ≤ (session.runLines lines).steps ∧
      turns.length ≤ session.limits.maxSteps := by
  intro turns
  let seen : List Stmt → Bool := fun body => !body.isEmpty
  have hUnseen : seen [] = false := rfl
  have hPaid :=
    (pays_turnsItems session.limits hUnseen (read .complete lines).items).2
    session.machine
  rw [turnsItems, snd_recordItems] at hPaid
  have hStart : session.machine.steps ≤ session.limits.maxSteps := Nat.zero_le _
  have hBudget := steps_runItems_le (read .complete lines).items hStart
  -- the step to spare is that of the first statement, which is there if there is a turn
  by_cases hNone : turns = []
  · rw [hNone]
    exact ⟨Nat.zero_le _, Nat.zero_le _⟩
  · have hSteps : 0 + 1 + turns.length ≤ (session.runLines lines).steps := hPaid hNone
    have hMost : (session.runLines lines).steps ≤ session.limits.maxSteps + 1 := hBudget
    omega

/-- **What turns cost**, whatever a session remembers. A loop that ends well has counted
a statement at least for each of its turns, besides itself, if there is a statement in
its body; it has counted nothing but itself if there is none. And a run never makes more
turns around bodies with statements than it has counted statements, nor more than the
budget, however loops and calls are nested. -/
theorem steps_of_turns (session : Session) :
    (∀ (machine after : Machine) (count : Term) (body : List Stmt) (site : Site)
      (turns : Int32), count.valueIn machine.store.vars none = .ok turns →
      (Stmt.loop count body site).run session.limits machine = .ok () after →
      0 ≤ turns ∧ (body ≠ [] → machine.steps + 1 + turns.toInt.toNat ≤ after.steps) ∧
        (body = [] → after.steps = machine.steps + 1)) ∧
    ∀ lines : List Line,
      (∀ seen,
        (turnsItems session.limits seen (read .complete lines).items
          session.machine).2 =
        runItems session.limits (read .complete lines).items session.machine) ∧
      let turns := session.turns (fun body => !body.isEmpty) lines
      turns.length ≤ (session.runLines lines).steps ∧
        turns.length ≤ session.limits.maxSteps := by
  refine ⟨?_, fun lines => ⟨fun seen => ?_, length_turns_le session lines⟩⟩
  · intro machine after count body site turns hCount hRun
    exact steps_loop hCount hRun
  · exact snd_recordItems (turnsOf seen) session.limits _ session.machine

/-- A loop of three turns takes four steps. -/
theorem steps_of_turns_loop :
    let body : List Stmt := [.draw (.circle (.number 1)) ⟨2, "circle 1"⟩]
    let stmt : Stmt := .loop (.number 3) body ⟨1, "loop 3"⟩
    let after : Machine := { steps := 4, trace := #[.circle 1, .circle 1, .circle 1] }
    stmt.run {} {} = .ok () after ∧ body ≠ [] ∧
      0 + 1 + (3 : Int32).toInt.toNat ≤ after.steps := by
  intro body stmt after
  have hRun : stmt.run {} {} = .ok () after := by
    unfold stmt body after
    cbv
  have hBody : body ≠ [] := List.cons_ne_nil _ _
  exact ⟨hRun, hBody, ((steps_of_turns {}).1 {} after _ body _ 3 rfl hRun).2.1 hBody⟩

/-- **The budget does not see turns around an empty body.** A script makes five turns of
a loop with a budget of three, and has counted one statement in the end. -/
theorem turns_of_empty_body :
    let session : Session := { limits := { maxSteps := 3 } }
    let source := "loop 5\nendloop"
    (session.runSource source).result = .ok () ∧ (session.runSource source).steps = 1 ∧
      (session.turns (fun _ => true) (Line.ofSource source)).length = 5 ∧
      session.limits.maxSteps <
        (session.turns (fun _ => true) (Line.ofSource source)).length ∧
      (Stmt.loop (.number 5) [] ⟨1, "loop 5"⟩).run session.limits {} =
        .ok () { steps := 1 } := by
  intro session source
  have hLines : Line.ofSource source =
      [⟨⟨1, "loop 5"⟩, "loop", ["5"]⟩, ⟨⟨2, "endloop"⟩, "endloop", []⟩] := by
    unfold source
    cbv
  have hResult : (session.runSource source).result = .ok () := by
    unfold Session.runSource
    rw [hLines]
    unfold session
    cbv
  have hSteps : (session.runSource source).steps = 1 := by
    unfold Session.runSource
    rw [hLines]
    unfold session
    cbv
  have hTurns : (session.turns (fun _ => true) (Line.ofSource source)).length = 5 := by
    rw [hLines]
    unfold session
    cbv
  refine ⟨hResult, hSteps, hTurns, ?_, ?_⟩
  · rw [hTurns]
    decide
  · unfold session
    cbv

end PenScript
