import PenScript.Proofs.Law
import PenScript.Proofs.Trees
import PenScript.Session

/-!
# What methods inherit

The body of a method leaves the script it was read from and is executed later, by
other statements and in other submissions. Whatever the lines of a script have in
common must therefore be known of the bodies a session remembers as well, or
nothing could be said about a call.

A property is *heritable* if a statement that has it hands it down to the
statements inside it, and a definition hands it, or something stronger, to the body
it stores. A heritable property of a script is then one of all bodies that running
the script leaves. It also says why the run may stop: at a fault that executing a
statement finds, at one of the two limits, or at an unreadable line that has the
property.

## Main results

* `runLines_cases`: a run of lines is the run of the items they are read as;
* `runLines_inherits`: bodies have the property afterwards, and a run stops for one
  of the four reasons.
-/

namespace PenScript

open Exec

/-! ## Properties that are handed down -/

/-- Whether every statement in the bodies of the methods has a property. -/
def Store.Keeps (Kept : Stmt → Prop) (store : Store) : Prop :=
  ∀ name body, store.methods.get? name = some body → ∀ stmt ∈ body, Kept stmt

/-- Whether statements hand a property down, and method definitions another
that implies it. -/
structure Heritable (Good Kept : Stmt → Prop) : Prop where
  body {stmt : Stmt} : Good stmt → ∀ inner ∈ stmt.body, Good inner
  method {name : String} {body : List Stmt} {site : Site} :
    Good (.method name body site) →
    ∀ inner ∈ body, Kept inner
  good {stmt : Stmt} : Kept stmt → Good stmt

/-- Why a run may stop after counting some statements. -/
inductive Reason (limits : Limits) (Good : Stmt → Prop) (problem : Diagnostic)
    (steps : Nat) : Prop where
  /-- Executing a statement found a fault of that statement. -/
  | fault (hArises : problem.fault.Arises)
  /-- A call was nested too deep. -/
  | depth (hFault : problem.fault = .tooDeep limits.maxCallDepth)
  /-- The budget was exhausted, by the last statement counted. -/
  | budget (hFault : problem.fault = .tooManySteps limits.maxSteps)
      (hSteps : steps = limits.maxSteps + 1)
  /-- Execution reached an unreadable line. -/
  | line (gated : Bool) (hGood : Good (.invalid problem gated))

theorem Methods.get?_define {methods extended : Methods} {name : String}
    {body : List Stmt}
    (hDefine : methods.define name body = some extended) (other : String) :
    extended.get? other =
      if Text.lowercase other = Text.lowercase name then some body
        else methods.get? other := by
  split
  · rename_i hSame
    exact Methods.get?_define_self hDefine hSame
  · rename_i hOther
    unfold define at hDefine
    split at hDefine
    · cases hDefine
    · cases hDefine
      exact NameMap.get?_insert_of_ne _ hOther _

variable {Good Kept : Stmt → Prop}

theorem Store.keeps_empty : ({} : Store).Keeps Kept := by
  intro name body hFound
  cases hFound

theorem Store.Keeps.define {store : Store} (hStore : store.Keeps Kept) {name : String}
    {body : List Stmt} (hBody : ∀ stmt ∈ body, Kept stmt) {methods : Methods}
    (hDefine : store.methods.define name body = some methods) :
    { store with methods := methods }.Keeps Kept := by
  intro other found hFound
  rw [Methods.get?_define hDefine] at hFound
  split at hFound
  · cases hFound
    exact hBody
  · exact hStore other found hFound

/-- The unreadable lines inside a statement are among those of the statement. -/
theorem Stmt.faults_body {stmt inner : Stmt} (hInner : inner ∈ stmt.body) :
    inner.faults ⊆ stmt.faults := by
  intro problem hFault
  have hBody : problem ∈ Stmt.faultsIn stmt.body := by
    rw [Stmt.faultsIn_eq_flatMap]
    exact List.mem_flatMap.mpr ⟨inner, hInner, hFault⟩
  cases stmt with
  | invalid other gated => cases hInner
  | _ =>
      rw [Stmt.faults_of_body]
      · exact hBody
      · exact fun _ _ hEq => by cases hEq

/-- What all unreadable lines of a statement have in common is handed down. -/
theorem Stmt.faults_heritable (P : Diagnostic → Prop) :
    Heritable (fun stmt => ∀ problem ∈ stmt.faults, P problem)
      fun stmt => ∀ problem ∈ stmt.faults, P problem where
  body hAll _ hInner problem hFault := hAll problem (Stmt.faults_body hInner hFault)
  method {name body site} hAll inner hInner problem hFault :=
    hAll problem (@Stmt.faults_body (.method name body site) inner hInner
      problem hFault)
  good hAll := hAll

/-- Two heritable properties together. -/
theorem Heritable.and {Good' Kept' : Stmt → Prop} (hHeritable : Heritable Good Kept)
    (hOther : Heritable Good' Kept') :
    Heritable (fun stmt => Good stmt ∧ Good' stmt)
      fun stmt => Kept stmt ∧ Kept' stmt where
  body hGood inner hInner :=
    ⟨hHeritable.body hGood.1 inner hInner, hOther.body hGood.2 inner hInner⟩
  method hGood inner hInner :=
    ⟨hHeritable.method hGood.1 inner hInner, hOther.method hGood.2 inner hInner⟩
  good hKept := ⟨hHeritable.good hKept.1, hOther.good hKept.2⟩

/-- Bodies keep what they inherit, and a run stops for one of four reasons. -/
def Law.inheritance (limits : Limits) (hHeritable : Heritable Good Kept) :
    Law limits where
  Good := Good
  Holds machine := machine.store.Keeps Kept ∧ machine.steps ≤ limits.maxSteps
  Ends _ _ := True
  Stops _ problem final := final.store.Keeps Kept ∧
    Reason limits Good problem final.steps
  refl _ := trivial
  trans _ _ := trivial
  trans_stops _ hStops := hStops
  good_body := hHeritable.body
  good_stored hHolds hFound stmt hMem := hHeritable.good (hHolds.1 _ _ hFound stmt hMem)
  counted hHolds hLess := ⟨⟨hHolds.1, hLess⟩, trivial⟩
  exhausted _ hHolds hLe :=
    ⟨hHolds.1, .budget rfl (by rw [Nat.le_antisymm hHolds.2 hLe])⟩
  assigned _ _ hHolds := ⟨hHolds, trivial⟩
  drawn hHolds _ _ := ⟨hHolds, trivial⟩
  defined hHolds hGood hDefine :=
    ⟨⟨hHolds.1.define (hHeritable.method hGood) hDefine, hHolds.2⟩, trivial⟩
  faulted _ hHolds hArises := ⟨hHolds.1, .fault hArises⟩
  deepened _ hHolds := ⟨hHolds.1, .depth rfl⟩
  raised {_ _ gated} hHolds hGood := ⟨hHolds.1, .line gated hGood⟩
  gated _ hHolds := hHolds
  ungated _ hAfter _ := ⟨hAfter, trivial⟩
  ungated_stops _ hStops := hStops
  called hHolds _ := hHolds
  returned _ hAfter _ := ⟨hAfter, trivial⟩
  returned_stops _ hStops := hStops

/-! ## Runs of lines -/

/-- The machine a submission starts with. -/
def Session.machine (session : Session) : Machine := { store := session.store }

/-- **A run of lines is the run of their items**, from a machine that has
done nothing yet. -/
theorem runLines_cases (session : Session) (lines : List Line) :
    ∃ final : Machine,
      ((runItems session.limits (read .complete lines).items session.machine =
        .ok () final ∧
          (session.runLines lines).result = .ok ()) ∨
        ∃ problem,
          runItems session.limits (read .complete lines).items session.machine =
            .error problem final ∧
          (session.runLines lines).result = .error problem) ∧
      (session.runLines lines).session = { session with store := final.store } ∧
      (session.runLines lines).gestures = final.trace.toList ∧
      (session.runLines lines).steps = final.steps := by
  refine ⟨finalState (runItems session.limits (read .complete lines).items
    session.machine), ?_, rfl, rfl, rfl⟩
  cases hRun : runItems session.limits (read .complete lines).items session.machine with
  | ok value final =>
      refine Or.inl ⟨rfl, ?_⟩
      exact congrArg outcome hRun
  | error problem final =>
      refine Or.inr ⟨problem, rfl, ?_⟩
      exact congrArg outcome hRun

/-- **What the items of a script have in common, the bodies of methods inherit.** -/
theorem runLines_inherits (hHeritable : Heritable Good Kept) {session : Session}
    (hStore : session.store.Keeps Kept) {lines : List Line}
    (hItems : ∀ item ∈ (read .complete lines).items, ∃ stmt, Good stmt ∧
      item = .ofStmt stmt) :
    (session.runLines lines).session.store.Keeps Kept ∧
      ∀ problem, (session.runLines lines).result = .error problem →
        Reason session.limits Good problem (session.runLines lines).steps := by
  have hObeys : (Law.inheritance session.limits hHeritable).Obeys
      (runItems session.limits (read .complete lines).items) := by
    refine Law.obeys_runItems _ (fun stmt hMem => ?_)
      fun problem hMem machine hHolds => ?_
    · obtain ⟨found, hGood, hItem⟩ := hItems _ hMem
      exact Item.eq_of_ok_eq_ofStmt hItem ▸ hGood
    · obtain ⟨found, hGood, hItem⟩ := hItems _ hMem
      obtain ⟨gated, rfl⟩ := Item.exists_of_error_eq_ofStmt hItem
      exact ⟨hHolds.1, .line gated hGood⟩
  have hRun := hObeys session.machine ⟨hStore, Nat.zero_le _⟩
  obtain ⟨final, hEnd, hSession, -, hSteps⟩ := runLines_cases session lines
  rw [hSession, hSteps]
  rcases hEnd with ⟨hOk, hResult⟩ | ⟨problem, hError, hResult⟩
  · rw [hOk] at hRun
    refine ⟨hRun.1.1, fun problem hStop => ?_⟩
    rw [hResult] at hStop
    cases hStop
  · rw [hError] at hRun
    refine ⟨hRun.1, fun other hStop => ?_⟩
    rw [hResult] at hStop
    cases hStop
    exact hRun.2

end PenScript
