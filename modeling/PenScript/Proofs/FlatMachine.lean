import PenScript.Proofs.Actions
import PenScript.Proofs.Faults

/-!
# The flat machine

A script without loops and methods can be understood without blocks. There is
one flag, whether drawing is on, and the lines are obeyed one after another: an
`if` sets the flag to whether its condition holds, `endif` sets it again, and
neither has a partner. A line that cannot be read stops the machine, unless the
flag is off and the line would have drawn or is of unknown purpose.

The flag is the gate of the machine in which statements are executed. The flat
machine counts none of its own lines; only a method that is called counts its
statements.

## Main results

* `Line.IsFlat.phrase`: what a flat line can say;
* `obey_eq_act`: what a line says is what the flat machine does.
-/

namespace PenScript

open Exec

/-- Whether a line neither opens nor closes a loop or a method. -/
def Line.IsFlat (line : Line) : Prop :=
  line.isAssignment = true ∨ line.keyword ∉ ["loop", "endloop", "method", "endmethod"]

instance (line : Line) : Decidable line.IsFlat := inferInstanceAs (Decidable (_ ∨ _))

/-- Sets the flag. -/
def Exec.setGate (on : Bool) : Exec Unit :=
  modify fun machine => { machine with gate := on }

/-- Calls a method with the calls that are left. -/
def callFrom (limits : Limits) (name : String) (site : Site) :
    Exec Unit := fun machine =>
  callAt limits (machine.callsLeft limits) name site machine

/-- Obeys a line. -/
def Line.obey (limits : Limits) (line : Line) : Exec Unit :=
  let site := line.toSite
  if line.isAssignment then do
    match ← demand site (readAssignment line) with
    | .assign name value _ => Exec.assign name (← valueOf value site)
    | _ => pure ()
  else match Keyword.ofWord? line.keyword with
    | none => do
        if ← isDrawing then fail (.unknownCommand line.keyword) site
    | some (.draw verb) => do
        if ← isDrawing then
          let command ← demand site (readCommand verb line.args)
          makeAll site (command.gestures (← get).store.vars)
    | some (.opens .conditional) => do
        let condition ← demand site (readCondition line.args)
        setGate (← test condition site)
    | some (.closes .conditional) =>
        if line.args.isEmpty then setGate true
        else fail (miscounted (.closes .conditional) 0 line.args) site
    | some .call => do
        callFrom limits (← demand site (readOnlyName .call line.args)) site
    | some (.opens _) | some (.closes _) => pure ()

/-- Obeys lines in order, up to the first fault. -/
def obeyAll (limits : Limits) : List Line → Exec Unit
  | [] => pure ()
  | line :: rest => do
      line.obey limits
      obeyAll limits rest

/-- What a statement of a single line does once it is counted. -/
def Stmt.act (limits : Limits) : Stmt → Exec Unit
  | .assign name value site => do Exec.assign name (← valueOf value site)
  | .draw command site => Exec.draw command site
  | .call name site => callFrom limits name site
  | _ => pure ()

/-- What the flat machine does on account of what a line says. -/
def Phrase.act (limits : Limits) (site : Site) : Phrase → Exec Unit
  | .simple stmt => stmt.act limits
  | .faulty fault gated => raise ⟨fault, site⟩ gated
  | .opening (.conditional condition) => do
      let condition ← demand site condition
      setGate (← test condition site)
  | .closing .conditional none => setGate true
  | .closing .conditional (some fault) => fail fault site
  | .opening _ | .closing _ _ => pure ()

/-- Whether a phrase is what a flat line can say. -/
def Phrase.IsFlat : Phrase → Prop
  | .simple stmt => stmt.IsPlain
  | .opening header => header.kind = .conditional
  | .closing kind _ => kind = .conditional
  | .faulty _ _ => True

/-! ## What a flat line says -/

/-- The kinds of block that flat lines open and close. -/
theorem Line.IsFlat.kind_eq {line : Line} {kind : BlockKind} (hFlat : line.IsFlat)
    (hOther : ¬line.isAssignment = true)
    (hKeyword : Keyword.ofWord? line.keyword = some (.opens kind) ∨
      Keyword.ofWord? line.keyword = some (.closes kind)) : kind = .conditional := by
  have hNone : line.keyword ∉ ["loop", "endloop", "method", "endmethod"] :=
    hFlat.resolve_left hOther
  cases kind with
  | conditional => rfl
  | loop | method =>
      refine absurd ?_ hNone
      rcases hKeyword with hFound | hFound
      all_goals
        rw [← Keyword.text_of_ofWord? hFound]
        decide

theorem Phrase.isFlat_ofStmt (gated : Bool) {found : Except Fault Stmt}
    (hPlain : ∀ stmt, found = .ok stmt → stmt.IsPlain) :
    (Phrase.ofStmt gated found).IsFlat := by
  cases found with
  | ok stmt => exact hPlain stmt rfl
  | error fault => trivial

theorem Line.IsFlat.phrase {line : Line} (hFlat : line.IsFlat) :
    (Phrase.ofLine line).IsFlat := by
  unfold Phrase.ofLine
  split
  · refine Phrase.isFlat_ofStmt false fun stmt hRead => ?_
    obtain ⟨value, rfl, -⟩ := exists_of_readAssignment hRead
    trivial
  · rename_i hOther
    split
    · trivial
    · exact Phrase.isFlat_ofStmt true (forall_of_map_ok fun _ _ => trivial)
    · rename_i kind hKeyword
      show (Header.read kind line.args).kind = .conditional
      rw [Header.kind_read]
      exact hFlat.kind_eq hOther (Or.inl hKeyword)
    · rename_i hKeyword
      exact hFlat.kind_eq hOther (Or.inr hKeyword)
    · exact Phrase.isFlat_ofStmt false (forall_of_map_ok fun _ _ => trivial)

/-! ## What a line says and what it does -/

section

variable {limits : Limits}

theorem raise_ungated (problem : Diagnostic) (machine : Machine) :
    raise problem false machine = .error problem machine := by
  rw [raise_apply, Bool.not_false, Bool.or_true, if_pos rfl]

theorem raise_gated (problem : Diagnostic) (machine : Machine) :
    raise problem true machine =
      if machine.gate then .error problem machine else .ok () machine := by
  rw [raise_apply, Bool.not_true, Bool.or_false]

theorem act_ofStmt (gated : Bool) (site : Site) (found : Except Fault Stmt) :
    (Phrase.ofStmt gated found).act limits site = match found with
      | .ok stmt => stmt.act limits
      | .error fault => raise ⟨fault, site⟩ gated := by
  cases found <;> rfl

/-- **What a line says is what is done.** -/
theorem obey_eq_act (limits : Limits) (line : Line) :
    line.obey limits = (Phrase.ofLine line).act limits line.toSite := by
  funext machine
  unfold Line.obey Phrase.ofLine
  dsimp only
  split
  · rw [act_ofStmt]
    cases hRead : readAssignment line with
    | error fault => exact (raise_ungated _ machine).symm
    | ok stmt =>
        obtain ⟨value, rfl, -⟩ := exists_of_readAssignment hRead
        rfl
  · cases Keyword.ofWord? line.keyword with
    | none =>
        refine Eq.trans ?_ (raise_gated _ machine).symm
        show (if machine.gate then _ else _ : Exec Unit) machine = _
        split <;> rfl
    | some keyword =>
        cases keyword with
        | draw verb =>
            rw [act_ofStmt]
            show (if machine.gate then _ else _ : Exec Unit) machine = _
            cases readCommand verb line.args with
            | ok command =>
                show _ = draw command line.toSite machine
                rw [draw_apply]
                split <;> rfl
            | error fault =>
                refine Eq.trans ?_ (raise_gated _ machine).symm
                split <;> rfl
        | opens kind => cases kind <;> rfl
        | closes kind =>
            cases kind with
            | conditional => cases line.args <;> rfl
            | loop | method => rfl
        | call =>
            rw [act_ofStmt]
            cases readOnlyName .call line.args with
            | ok name => rfl
            | error fault => exact (raise_ungated _ machine).symm

end

end PenScript
