import Mathlib
import PenScript.Proofs.Actions

/-!
# A variable and its value

A value in a script is a numeral or the name of a variable. Where a variable has a
value, writing that value in its place makes no difference, for as long as nothing
else is given to the variable. That is a matter of the statements being executed:
they must neither assign to it nor lead away, to bodies that other scripts wrote.

Terms are looked at in commands, assignments, conditions and counts, and in each of
them only through what they stand for. So the two runs take the same actions, and
what has to be carried along is that the variable still has its value, through all
turns of a loop and behind every condition.

## Main results

* `Term.valueIn_replace`, `Command.gestures_replace`: what a term and
  a command stand for;
* `agrees_exec`, `agrees_execAll`: every statement does the same, and leaves the
  variable alone;
* `runAll_replaceAll`: so does a block, with the same end.
-/

namespace PenScript

open Exec

/-! ## Replacing a variable by a number -/

/-- The term with a number in place of a variable. -/
def Term.replace (name : String) (value : Int32) : Term → Term
  | .number found => .number found
  | .var other => if other = name then .number value else .var other

/-- The condition with a number in place of a variable. -/
def Condition.replace (name : String) (value : Int32) (condition : Condition) :
    Condition :=
  { condition with
    left := condition.left.replace name value
    right := condition.right.replace name value }

/-- The command with a number in place of a variable. -/
def Command.replace (name : String) (value : Int32) : Command → Command
  | .moveTo x y => .moveTo (x.replace name value) (y.replace name value)
  | .drawTo x y => .drawTo (x.replace name value) (y.replace name value)
  | .pen color => .pen color
  | .fill on => .fill on
  | .clear => .clear
  | .reset => .reset
  | .circle radius => .circle (radius.replace name value)
  | .rectangle width height =>
      .rectangle (width.replace name value) (height.replace name value)
  | .triangle adjacent base hypotenuse =>
      .triangle (adjacent.replace name value) (base.replace name value)
        (hypotenuse.replace name value)
  | .drawShape values => .drawShape (values.map (Term.replace name value))

namespace Stmt

mutual

/-- The statement with a number in place of a variable, wherever its
value is asked for. -/
def replace (name : String) (value : Int32) : Stmt → Stmt
  | .assign target term site => .assign target (term.replace name value) site
  | .draw command site => .draw (command.replace name value) site
  | .branch condition body site =>
      .branch (condition.replace name value) (replaceAll name value body) site
  | .loop count body site =>
      .loop (count.replace name value) (replaceAll name value body) site
  | .method defined body site => .method defined (replaceAll name value body) site
  | .call called site => .call called site
  | .invalid problem gated => .invalid problem gated

/-- The statements with a number in place of a variable. -/
def replaceAll (name : String) (value : Int32) : List Stmt → List Stmt
  | [] => []
  | stmt :: rest => replace name value stmt :: replaceAll name value rest

end

mutual

/-- Whether there is no call, no definition and no assignment to a variable
in a statement. -/
def Spares (name : String) : Stmt → Prop
  | .assign target _ _ => target ≠ name
  | .draw _ _ | .invalid _ _ => True
  | .branch _ body _ | .loop _ body _ => SparesAll name body
  | .method _ _ _ | .call _ _ => False

/-- Whether there is no call, no definition and no assignment to a variable
in some statements. -/
def SparesAll (name : String) : List Stmt → Prop
  | [] => True
  | stmt :: rest => Spares name stmt ∧ SparesAll name rest

end

theorem isEmpty_replaceAll (name : String) (value : Int32) (stmts : List Stmt) :
    (replaceAll name value stmts).isEmpty = stmts.isEmpty := by
  cases stmts with
  | nil => rw [replaceAll]
  | cons stmt rest =>
      rw [replaceAll]
      rfl

end Stmt

section

variable {vars : Variables} {name : String} {value : Int32}

/-- **A variable stands for its value.** -/
theorem Term.valueIn_replace (hValue : vars.get? name = some value) (verb : Option Verb)
    (term : Term) :
    (term.replace name value).valueIn vars verb = term.valueIn vars verb := by
  cases term with
  | number found => rfl
  | var other =>
      rw [replace]
      split
      · rename_i hSame
        rw [hSame, valueIn, valueIn, hValue]
      · rfl

theorem Condition.holdsIn_replace (hValue : vars.get? name = some value)
    (condition : Condition) :
    (condition.replace name value).holdsIn vars = condition.holdsIn vars := by
  simp only [holdsIn, replace, Term.valueIn_replace hValue]

theorem Command.gestures_replace (hValue : vars.get? name = some value)
    (command : Command) :
    (command.replace name value).gestures vars = command.gestures vars := by
  have hTerm := Term.valueIn_replace hValue (some command.verb)
  cases command with
  | pen | fill | clear | reset => rfl
  | drawShape values =>
      have hSame : (values.map (Term.replace name value)).mapM
          (Term.valueIn vars (some .drawShape)) =
          values.mapM (Term.valueIn vars (some .drawShape)) := by
        rw [List.mapM_map]
        congr 1
        funext term
        exact hTerm term
      simp only [gestures, replace, verb, hSame]
  | _ =>
      simp only [verb] at hTerm
      simp only [gestures, replace, verb, hTerm]

end

/-! ## Doing the same -/

/-- Whether two actions do the same wherever a variable has a certain value, and it
keeps that value however they end. -/
def Agrees {α : Type} (name : String) (value : Int32) (first second : Exec α) : Prop :=
  ∀ machine : Machine, machine.store.vars.get? name = some value →
    first machine = second machine ∧
      (finalState (second machine)).store.vars.get? name = some value

section

variable {name : String} {value : Int32} {α β : Type}

theorem agrees_pure (found : α) : Agrees name value (pure found) (pure found) :=
  fun _ hValue => ⟨rfl, hValue⟩

theorem Agrees.bind {first second : Exec α} {next next' : α → Exec β}
    (hFirst : Agrees name value first second)
    (hNext : ∀ found, Agrees name value (next found) (next' found)) :
    Agrees name value (first >>= next) (second >>= next') := by
  intro machine hValue
  obtain ⟨hSame, hKept⟩ := hFirst machine hValue
  rw [bind_apply, bind_apply, hSame]
  cases hRun : second machine with
  | error problem after =>
      rw [hRun] at hKept
      exact ⟨rfl, hKept⟩
  | ok found after =>
      rw [hRun] at hKept
      exact hNext found after hKept

theorem agrees_demand (site : Site) (found : Except Fault α) :
    Agrees name value (demand site found) (demand site found) := by
  intro machine hValue
  cases found with
  | ok result => exact ⟨rfl, hValue⟩
  | error fault => exact ⟨rfl, hValue⟩

theorem agrees_tick (limits : Limits) (site : Site) :
    Agrees name value (tick limits site) (tick limits site) := by
  intro machine hValue
  refine ⟨rfl, ?_⟩
  rw [tick_apply]
  split
  · exact hValue
  · exact hValue

theorem agrees_valueOf (term : Term) (site : Site) :
    Agrees name value (valueOf (term.replace name value) site) (valueOf term site) := by
  intro machine hValue
  rw [valueOf_apply, valueOf_apply, Term.valueIn_replace hValue]
  exact agrees_demand site _ machine hValue

theorem agrees_test (condition : Condition) (site : Site) :
    Agrees name value (test (condition.replace name value) site)
      (test condition site) := by
  intro machine hValue
  rw [test_apply, test_apply, Condition.holdsIn_replace hValue]
  exact agrees_demand site _ machine hValue

theorem agrees_assign {target : String} (hOther : target ≠ name) (found : Int32) :
    Agrees name value (Exec.assign target found) (Exec.assign target found) := by
  intro machine hValue
  refine ⟨rfl, ?_⟩
  show (machine.store.vars.insert target found).get? name = some value
  rw [NameMap.get?_insert_of_ne _ hOther.symm, hValue]

theorem agrees_draw (command : Command) (site : Site) :
    Agrees name value (Exec.draw (command.replace name value) site)
      (Exec.draw command site) := by
  intro machine hValue
  rw [draw_apply, draw_apply, Command.gestures_replace hValue]
  refine ⟨rfl, ?_⟩
  split
  · cases command.gestures machine.store.vars with
    | ok gestures => exact hValue
    | error fault => exact hValue
  · exact hValue

theorem agrees_raise (problem : Diagnostic) (gated : Bool) :
    Agrees name value (raise problem gated) (raise problem gated) := by
  intro machine hValue
  refine ⟨rfl, ?_⟩
  rw [raise_apply]
  split
  · exact hValue
  · exact hValue

theorem Agrees.times {first second : Exec Unit} (hTurn : Agrees name value first second)
    (turns : Nat) : Agrees name value (times turns first) (times turns second) := by
  induction turns with
  | zero => exact agrees_pure ()
  | succ turns ih => exact hTurn.bind fun _ => ih

theorem Agrees.withGate {first second : Exec Unit}
    (hBody : Agrees name value first second)
    (holds : Bool) :
    Agrees name value (withGate holds first) (withGate holds second) := by
  intro machine hValue
  obtain ⟨hSame, hKept⟩ := hBody { machine with gate := machine.gate && holds } hValue
  rw [withGate_apply, withGate_apply, finalState_andFinally, andFinally_apply,
    andFinally_apply, hSame]
  exact ⟨rfl, hKept⟩

/-! ## Statements -/

mutual

theorem agrees_exec (limits : Limits) (call : Caller) :
    ∀ stmt : Stmt, stmt.Spares name →
    Agrees name value (Stmt.exec limits call (stmt.replace name value))
      (Stmt.exec limits call stmt)
  | .assign target term site, hSpares => by
      rw [Stmt.Spares] at hSpares
      rw [Stmt.replace, Stmt.exec, Stmt.exec]
      exact (agrees_tick limits site).bind fun _ =>
        (agrees_valueOf term site).bind fun found =>
        agrees_assign hSpares found
  | .draw command site, _ => by
      rw [Stmt.replace, Stmt.exec, Stmt.exec]
      exact (agrees_tick limits site).bind fun _ => agrees_draw command site
  | .branch condition body site, hSpares => by
      rw [Stmt.Spares] at hSpares
      rw [Stmt.replace, Stmt.exec, Stmt.exec]
      have hBody := agrees_execAll limits call body hSpares
      exact (agrees_tick limits site).bind fun _ =>
        (agrees_test condition site).bind fun holds =>
        hBody.withGate holds
  | .loop count body site, hSpares => by
      rw [Stmt.Spares] at hSpares
      rw [Stmt.replace, Stmt.exec, Stmt.exec, Stmt.isEmpty_replaceAll]
      have hBody := agrees_execAll limits call body hSpares
      refine (agrees_tick limits site).bind fun _ =>
        (agrees_valueOf count site).bind fun turns => ?_
      split
      · exact agrees_demand site (.error (.negativeCount turns))
      · split
        · exact agrees_pure ()
        · exact hBody.times _
  | .method _ _ _, hSpares => by
      rw [Stmt.Spares] at hSpares
      exact hSpares.elim
  | .call _ _, hSpares => by
      rw [Stmt.Spares] at hSpares
      exact hSpares.elim
  | .invalid problem gated, _ => by
      rw [Stmt.replace, Stmt.exec]
      exact (agrees_tick limits problem.site).bind fun _ => agrees_raise problem gated

theorem agrees_execAll (limits : Limits) (call : Caller) :
    ∀ stmts, Stmt.SparesAll name stmts →
    Agrees name value (Stmt.execAll limits call (Stmt.replaceAll name value stmts))
      (Stmt.execAll limits call stmts)
  | [], _ => by
      rw [Stmt.replaceAll, Stmt.execAll]
      exact agrees_pure ()
  | stmt :: rest, hSpares => by
      rw [Stmt.SparesAll] at hSpares
      rw [Stmt.replaceAll, Stmt.execAll, Stmt.execAll]
      exact (agrees_exec limits call stmt hSpares.1).bind fun _ =>
        agrees_execAll limits call rest hSpares.2

end

end

/-- **A variable may be replaced by its value** in a block that has no calls and no
definitions and does not assign to it. The block ends in the same way, with the same
diagnostic if there is one, and leaves the same machine. -/
theorem runAll_replaceAll (limits : Limits) {stmts : List Stmt} {name : String}
    {value : Int32} {machine : Machine} (hSpares : Stmt.SparesAll name stmts)
    (hValue : machine.store.vars.get? name = some value) :
    runAll limits (Stmt.replaceAll name value stmts) machine =
      runAll limits stmts machine :=
  (agrees_execAll limits _ stmts hSpares machine hValue).1

/-- A loop that takes its count from the variable, draws with it twice and then meets
a variable without a value. -/
theorem runAll_replaceAll_unknown :
    let turn : List Stmt :=
      [.assign "x" (.var "n") ⟨2, "x = n"⟩,
       .branch ⟨.var "x", .atLeast, .var "n"⟩
         [.draw (.drawShape [.var "n", .var "x"]) ⟨4, "drawshape n x"⟩]
           ⟨3, "if x >= n"⟩]
    let block : List Stmt :=
      [.loop (.var "n") turn ⟨1, "loop n"⟩,
       .draw (.rectangle (.var "n") (.var "m")) ⟨7, "rectangle n m"⟩]
    let machine : Machine := { store.vars := NameMap.empty.insert "n" 2 }
    Stmt.SparesAll "n" block ∧ machine.store.vars.get? "n" = some 2 ∧
      outcome (runAll {} block machine) =
        .error ⟨.unknownVariable "m" (some .rectangle), ⟨7, "rectangle n m"⟩⟩ ∧
      (finalState (runAll {} block machine)).steps = 8 ∧
      runAll {} (Stmt.replaceAll "n" 2 block) machine = runAll {} block machine := by
  intro turn block machine
  have hSpares : Stmt.SparesAll "n" block := by
    simp [block, turn, Stmt.SparesAll, Stmt.Spares]
  have hValue : machine.store.vars.get? "n" = some 2 := NameMap.get?_insert_self _ _ _
  have hRun : (outcome (runAll {} block machine),
      (finalState (runAll {} block machine)).steps) =
      (.error ⟨.unknownVariable "m" (some .rectangle), ⟨7, "rectangle n m"⟩⟩, 8) := by
    unfold machine block turn
    cbv
  obtain ⟨hFault, hSteps⟩ := Prod.mk.inj hRun
  exact ⟨hSpares, hValue, hFault, hSteps, runAll_replaceAll {} hSpares hValue⟩

end PenScript
