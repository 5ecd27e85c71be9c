import PenScript.Proofs.HeldLines

/-!
# What is done with a session

A session is told to run a script, to take a line, or to start afresh. The list of these
deeds is its history, and there is nothing else that could change it.

Not every deed has something executed. A script always is; a line is only if it
leaves no block open and nothing in front of it has been refused, and then it is
executed together with the lines held before. What is executed is called a submission,
and is known by its lines.

## Main results

* `live_snoc`: the latest deed acts on what all others have led to;
* `store_after`: a deed executes a submission, or leaves the store as it
  is, or empties it.
-/

namespace PenScript

/-- One thing done with a session. -/
inductive Deed where
  | run (source : String)
  | enter (line : String)
  | reset
deriving DecidableEq, Repr

namespace Session

/-- The session after a deed, however it ends. -/
def after (session : Session) : Deed → Session
  | .run source => (session.runSource source).session
  | .enter line => (session.enter line).session
  | .reset => session.reset

/-- The session after deeds, one after another. -/
def live (session : Session) (deeds : List Deed) : Session := deeds.foldl after session

/-- Whether a deed has a session execute lines. -/
inductive Submits (session : Session) : Deed → List Line → Prop where
  | run (source : String) : Submits session (.run source) (Line.ofSource source)
  /-- A line with words, where reading it after the held lines finds statements only. -/
  | enter {line : String} (hWords : (Line.words line.toList).isEmpty = false)
      (hStmts : ∀ problem,
        Except.error problem ∉ (read .provisional (session.linesWith line)).items) :
      Submits session (.enter line) (session.linesWith line)

variable (session : Session)

theorem live_nil : session.live [] = session := rfl

/-- The latest deed comes last. -/
theorem live_snoc (deeds : List Deed) (deed : Deed) :
    session.live (deeds ++ [deed]) = (session.live deeds).after deed :=
  List.foldl_concat ..

theorem live_append (front back : List Deed) :
    session.live (front ++ back) = (session.live front).live back :=
  List.foldl_append

/-- **What a deed does to the store.** -/
theorem store_after (deed : Deed) :
    (∃ lines, session.Submits deed lines ∧
      (session.after deed).store = (session.runLines lines).session.store) ∨
    (deed ≠ .reset ∧ (session.after deed).store = session.store) ∨
    (deed = .reset ∧ (session.after deed).store = {}) := by
  cases deed with
  | run source => exact Or.inl ⟨_, .run source, rfl⟩
  | reset => exact Or.inr (Or.inr ⟨rfl, rfl⟩)
  | enter line =>
      have hOther : Deed.enter line ≠ .reset := by simp
      cases hWords : (Line.words line.toList).isEmpty with
      | true =>
          have hSame : (session.after (.enter line)).store = session.store := by
            rw [after, enter_blank session hWords]
          exact Or.inr (Or.inl ⟨hOther, hSame⟩)
      | false =>
          cases enter_course session line with
          | blank _ hEnter | refused _ hEnter | held _ hEnter =>
              have hSame : (session.after (.enter line)).store = session.store := by
                rw [after, hEnter]
              exact Or.inr (Or.inl ⟨hOther, hSame⟩)
          | executed hStmts hEnter =>
              refine Or.inl ⟨_, .enter hWords hStmts, ?_⟩
              rw [after, hEnter]
              rfl

end Session

end PenScript
