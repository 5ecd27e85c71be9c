import Mathlib.Algebra.Group.Nat.Even
import PenScript.Phrase

/-!
# What a line can say

Reading a line gives a phrase, and what the words of the line must have been for that
phrase is known from the phrase. Names are names, and none that is assigned to is a
keyword; a count that is written out is not negative; a polygon has both coordinates of
each corner. A faulty line is gated if its first word does not control execution and it
gives no value to a variable.

## Main results

* `isWellCounted_of_readCommand`, `le_toInt_of_readCount`, `isName_of_readOnlyName`,
  `exists_of_readAssignment`: what the readers of words give;
* `Phrase.suits_ofLine`: what a line can say.
-/

namespace PenScript

/-! ## Computations that succeed in certain ways only -/

/-- What is built from whatever is found is found as well. -/
theorem forall_of_map_ok {α β : Type} {P : β → Prop} {found : Except Fault α}
    {build : α → β} (hBuild : ∀ value, found = .ok value → P (build value)) :
    ∀ result, found.map build = .ok result → P result := by
  intro result hResult
  cases found with
  | error fault => cases hResult
  | ok value =>
      cases hResult
      exact hBuild value rfl

/-- What is found in two steps is found by the second. -/
theorem forall_of_bind_ok {α β : Type} {P : β → Prop} {found : Except Fault α}
    {next : α → Except Fault β}
    (hNext : ∀ value result, next value = .ok result → P result) :
    ∀ result, found >>= next = .ok result → P result := by
  intro result hResult
  cases found with
  | error fault => cases hResult
  | ok value => exact hNext value result hResult

/-! ## Words -/

theorem Keyword.text_ne_of_ofWord? {word : String} (hNone : ofWord? word = none)
    (keyword : Keyword) : word ≠ keyword.text := by
  intro hSame
  rw [hSame, ofWord?_text] at hNone
  cases hNone

theorem le_toInt_of_readCount {args : List String} : ∀ term, readCount args = .ok term →
    ∀ count, term = .number count → 0 ≤ count.toInt := by
  unfold readCount
  split
  · refine forall_of_bind_ok fun found => ?_
    cases found with
    | var name =>
        intro term hTerm count hCount
        cases hTerm
        cases hCount
    | number value =>
        intro term hTerm count hCount
        dsimp only at hTerm
        split at hTerm
        · cases hTerm
        · rename_i hNegative
          cases hTerm
          cases hCount
          rw [Int32.lt_iff_toInt_lt] at hNegative
          exact Int.not_lt.mp hNegative
  · intro term hTerm
    cases hTerm

/-- Whether a shape has one to three values, or a second one for each
that is a first. -/
def Command.IsWellCounted : Command → Prop
  | .drawShape values => 0 < values.length ∧ (values.length ≤ 3 ∨ Even values.length)
  | _ => True

theorem length_of_mapM_ok {α β : Type} {next : α → Except Fault β} (values : List α) :
    ∀ results, values.mapM next = .ok results → results.length = values.length := by
  induction values with
  | nil =>
      intro results hResults
      cases hResults
      rfl
  | cons value rest ih =>
      rw [List.mapM_cons]
      refine forall_of_bind_ok fun first => ?_
      intro results hResults
      cases hRest : rest.mapM next with
      | error fault =>
          rw [hRest] at hResults
          cases hResults
      | ok others =>
          rw [hRest] at hResults
          cases hResults
          rw [List.length_cons, List.length_cons, ih others hRest]

theorem isWellCounted_of_readCommand (verb : Verb) (args : List String) :
    ∀ command, readCommand verb args = .ok command → command.IsWellCounted := by
  have hOk : ∀ command : Command, command.IsWellCounted →
      ∀ result, (pure command : Except Fault Command) = .ok result →
        result.IsWellCounted := by
    intro command hCommand result hResult
    cases hResult
    exact hCommand
  have hError : ∀ (fault : Fault) result, (Except.error fault : Except Fault Command) =
      .ok result →
      result.IsWellCounted := by
    intro fault result hResult
    cases hResult
  cases verb with
  | moveTo | drawTo | rectangle =>
      simp only [readCommand]
      split
      · exact forall_of_bind_ok fun _ => forall_of_bind_ok fun _ => hOk _ trivial
      · exact hError _
  | pen =>
      simp only [readCommand]
      split
      · split
        · exact hOk _ trivial
        · exact hError _
      · exact hError _
  | fill =>
      simp only [readCommand]
      split
      · split
        · exact hOk _ trivial
        · exact hOk _ trivial
        · exact hError _
      · exact hError _
  | clear | reset =>
      simp only [readCommand]
      split
      · exact hOk _ trivial
      · exact hError _
  | circle =>
      simp only [readCommand]
      split
      · exact forall_of_bind_ok fun _ => hOk _ trivial
      · exact hError _
  | triangle =>
      simp only [readCommand]
      split
      · exact forall_of_bind_ok fun _ => forall_of_bind_ok fun _ =>
          forall_of_bind_ok fun _ =>
          hOk _ trivial
      · exact hError _
  | drawShape =>
      simp only [readCommand]
      split
      · exact hError _
      · rename_i hSome
        split
        · exact hError _
        · rename_i hPairs
          intro command hCommand
          cases hValues : args.mapM (readTerm (.command (.draw .drawShape))) with
          | error fault =>
              rw [hValues] at hCommand
              cases hCommand
          | ok values =>
              rw [hValues] at hCommand
              cases hCommand
              have hLength := length_of_mapM_ok args values hValues
              have hPositive : 0 < args.length :=
                List.length_pos_iff.mpr fun hNil => hSome (by rw [hNil]; rfl)
              rw [Command.IsWellCounted, hLength, Nat.even_iff]
              omega

/-- A readable assignment line is an assignment to a name that is not taken. -/
theorem exists_of_readAssignment {line : Line} {stmt : Stmt}
    (hRead : readAssignment line = .ok stmt) :
    ∃ value, stmt = .assign line.word value line.toSite ∧ Text.isName line.word = true ∧
      Keyword.ofWord? line.keyword = none := by
  unfold readAssignment at hRead
  split at hRead
  · rename_i word _
    split at hRead
    · cases hRead
    · rename_i hName
      split at hRead
      · cases hRead
      · rename_i hFree
        cases hTerm : readTerm .assignment word with
        | error fault =>
            rw [hTerm] at hRead
            cases hRead
        | ok value =>
            rw [hTerm] at hRead
            cases hRead
            refine ⟨value, rfl, ?_, ?_⟩
            · simpa using hName
            · simpa [Line.keyword] using hFree
  · cases hRead

theorem isName_of_readOnlyName {keyword : Keyword} {args : List String} {name : String}
    (hRead : readOnlyName keyword args = .ok name) : Text.isName name = true := by
  unfold readOnlyName at hRead
  split at hRead
  · rename_i word
    unfold readName at hRead
    split at hRead
    · rename_i hName
      cases hRead
      exact hName
    · cases hRead
  · cases hRead

/-! ## Lines -/

/-- What a line can say by itself. -/
inductive Line.Says (line : Line) : Stmt → Prop where
  | assign (value : Term) (hName : Text.isName line.word = true)
      (hFree : Keyword.ofWord? line.keyword = none) :
      Says line (.assign line.word value line.toSite)
  | draw {verb : Verb} {command : Command}
      (hWord : Keyword.ofWord? line.keyword = some (.draw verb))
      (hCounted : command.IsWellCounted) : Says line (.draw command line.toSite)
  | call {name : String} (hWord : Keyword.ofWord? line.keyword = some .call)
      (hName : Text.isName name = true) : Says line (.call name line.toSite)

/-- Whether a line, if it is faulty, is skipped where drawing is: it gives no value to a
variable and does not begin with a word that controls execution. -/
def Line.isGated (line : Line) : Bool :=
  !line.isAssignment && !(Keyword.ofWord? line.keyword).any Keyword.isControl

/-- Whether a phrase is one that a line can say. -/
def Phrase.Suits (line : Line) : Phrase → Prop
  | .simple stmt => line.Says stmt
  | .faulty _ gated => gated = line.isGated
  | .opening header => line.isGated = false ∧ ∃ kind, header = .read kind line.args ∧
      Keyword.ofWord? line.keyword = some (.opens kind)
  | .closing kind _ =>
      line.isGated = false ∧ Keyword.ofWord? line.keyword = some (.closes kind)

theorem Phrase.suits_ofStmt {line : Line} {gated : Bool} {found : Except Fault Stmt}
    (hGated : gated = line.isGated)
    (hSays : ∀ stmt, found = .ok stmt → line.Says stmt) :
    (Phrase.ofStmt gated found).Suits line := by
  cases found with
  | ok stmt => exact hSays stmt rfl
  | error fault => exact hGated

/-- **What a line can say.** -/
theorem Phrase.suits_ofLine (line : Line) : (Phrase.ofLine line).Suits line := by
  unfold Phrase.ofLine
  by_cases hAssign : line.isAssignment = true
  · have hGated : false = line.isGated := by simp [Line.isGated, hAssign]
    rw [if_pos hAssign]
    refine suits_ofStmt hGated fun stmt hRead => ?_
    obtain ⟨value, rfl, hName, hFree⟩ := exists_of_readAssignment hRead
    exact .assign value hName hFree
  · rw [if_neg hAssign]
    cases hWord : Keyword.ofWord? line.keyword with
    | none => simp [Suits, Line.isGated, hAssign, hWord]
    | some keyword =>
        have hGated : line.isGated = !keyword.isControl := by
          simp [Line.isGated, hAssign, hWord]
        cases keyword with
        | draw verb =>
            refine suits_ofStmt hGated.symm ?_
            exact forall_of_map_ok fun command hRead =>
              .draw hWord (isWellCounted_of_readCommand verb line.args command hRead)
        | call =>
            refine suits_ofStmt hGated.symm ?_
            exact forall_of_map_ok fun name hRead =>
              .call hWord (isName_of_readOnlyName hRead)
        | opens kind => exact ⟨hGated, kind, rfl, hWord⟩
        | closes kind => exact ⟨hGated, hWord⟩

/-- Whether a statement has no body and could be read. -/
def Stmt.IsPlain : Stmt → Prop
  | .assign _ _ _ | .draw _ _ | .call _ _ => True
  | _ => False

theorem Phrase.says_of_simple {line : Line} {stmt : Stmt}
    (hSaid : Phrase.ofLine line = .simple stmt) : line.Says stmt := by
  have hSuits := suits_ofLine line
  rwa [hSaid] at hSuits

/-- What a line says by itself is an assignment, a drawing command or a call. -/
theorem Phrase.isPlain_of_simple {line : Line} {stmt : Stmt}
    (hSaid : Phrase.ofLine line = .simple stmt) : stmt.IsPlain := by
  cases says_of_simple hSaid <;> trivial

end PenScript
