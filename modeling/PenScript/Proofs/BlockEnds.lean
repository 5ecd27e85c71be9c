import PenScript.Proofs.Descent

/-!
# Where a block goes on and where it ends

Seen from the innermost open block, a line does one of three things. It is the closing
line of the block; or, if the block is a conditional, it may end the block without
belonging to it, as another `if` does and the closing line of a block around it; or else
the block goes on, and the line says something inside it.

Each of the three is a rule of its own for what an assembly makes of the line.
The second rests on conditionals never standing directly inside each other: a
conditional may be ended first and the line be looked at afterwards, because no other
conditional comes to the front.

## Main results

* `Assembly.feed_closes`: a closing line in the block that it closes;
* `Assembly.feed_pop`: a conditional may as well be ended before the line that ends it;
* `Assembly.feed_opens`, `feed_endif`, `feed_stray`: control lines in a
  block that goes on.
-/

namespace PenScript

/-! ## What an assembly makes of it -/

/-- The keyword a line starts with, unless the line is an assignment. -/
def Line.keyword? (line : Line) : Option Keyword :=
  if line.isAssignment then none else Keyword.ofWord? line.keyword

@[simp] theorem Row.keyword?_toRow (line : Line) :
    line.toRow.keyword? = .ok line.keyword? := by
  simp [keyword?, Line.keyword?]

theorem Line.isGated_eq (line : Line) :
    line.isGated = (!line.isAssignment && line.keyword?.all fun keyword =>
      !keyword.isControl) := by
  unfold Line.isGated Line.keyword?
  cases line.isAssignment with
  | true => rfl
  | false => cases Keyword.ofWord? line.keyword <;> rfl

theorem Phrase.ofLine_closes {line : Line} {kind : BlockKind}
    (hWord : line.keyword? = some (.closes kind)) :
    Phrase.ofLine line = .closing kind
      (if line.args.isEmpty then none
        else some (miscounted (.closes kind) 0 line.args)) := by
  unfold Line.keyword? at hWord
  split at hWord
  · cases hWord
  · rename_i hOther
    rw [Phrase.ofLine, if_neg hOther, hWord]

theorem Phrase.ofLine_opens {line : Line} {kind : BlockKind}
    (hWord : line.keyword? = some (.opens kind)) :
    Phrase.ofLine line = .opening (.read kind line.args) := by
  unfold Line.keyword? at hWord
  split at hWord
  · cases hWord
  · rename_i hOther
    rw [Phrase.ofLine, if_neg hOther, hWord]

/-- Whether no conditional stands directly inside another, in blocks of these kinds. -/
def Spaced : List BlockKind → Prop
  | [] => True
  | kind :: around => kind.OpensIn around ∧ Spaced around

namespace Assembly

variable {assembly : Assembly} {line : Line}

/-- Adds statements, in order. -/
def placeAll (assembly : Assembly) (stmts : List Stmt) : Assembly :=
  stmts.foldl place assembly

/-- What an assembly amounts to after some more lines. -/
def conclude (ending : Ending) (assembly : Assembly) (lines : List Line) : Assembly :=
  (lines.foldl feed assembly).finishFrames ending

theorem finishFrames_cons {frame : Frame} {outer : List Frame} (ending : Ending)
    (hOpen : assembly.frames = frame :: outer) :
    assembly.finishFrames ending =
      (assembly.pop (Frame.expire ending)).finishFrames ending := by
  have hLength : (assembly.pop (Frame.expire ending)).frames.length = outer.length := by
    rw [length_frames_pop, hOpen, List.length_cons, Nat.add_sub_cancel]
  rw [finishFrames, finishFrames, List.foldl_const, List.foldl_const, hLength, hOpen,
    List.length_cons, Function.iterate_succ_apply]

/-- A closing word in the block that it closes. -/
theorem feed_closes {kind : BlockKind} (hWord : line.keyword? = some (.closes kind))
    (hInner : assembly.innermost? = some kind) :
    assembly.feed line = (assembly.pop Frame.close).note
      (if line.args.isEmpty then none else some (miscounted (.closes kind) 0 line.args))
      line.toSite := by
  have hAround : kind ∈ assembly.surroundings := List.mem_of_mem_head? hInner
  rw [feed, Phrase.ofLine_closes hWord]
  cases kind with
  | conditional => rw [absorb, leaveConditional, if_pos hInner]
  | loop | method =>
      have hOther : ¬ assembly.innermost? = some .conditional := by rw [hInner]; decide
      simp only [absorb, leave, leaveConditional, if_pos hAround, if_neg hOther,
        if_pos hInner]

@[simp] theorem placeAll_nil : assembly.placeAll [] = assembly := rfl

theorem placeAll_of_cons {frame : Frame} {outer : List Frame}
    (hOpen : assembly.frames = frame :: outer) (stmts : List Stmt) :
    assembly.placeAll stmts =
      { assembly with frames := { frame with body := frame.body ++ stmts } ::
        outer } := by
  induction stmts generalizing assembly frame with
  | nil => simp [placeAll, ← hOpen]
  | cons stmt rest ih =>
      have hPlaced := place_of_cons hOpen stmt
      rw [placeAll, List.foldl_cons, ← placeAll, ih (by rw [hPlaced]), hPlaced]
      simp

/-- Puts what becomes of a block in the place of the block. -/
def retire (assembly : Assembly) (outer : List Frame) (dropped : Array Diagnostic)
    (outcome : Stmt × List Diagnostic) : Assembly :=
  { assembly with frames := outer, dropped := dropped ++ outcome.2 }.place outcome.1

theorem pop_eq_retire {frame : Frame} {outer : List Frame}
    (hOpen : assembly.frames = frame :: outer)
    (become : Frame → Stmt × List Diagnostic) :
    assembly.pop become = assembly.retire outer assembly.dropped (become frame) := by
  rw [pop, hOpen]
  rfl

/-- A conditional never stands directly inside another, so no second
one ends with it. -/
theorem leaveConditional_pop (hSpaced : Spaced assembly.surroundings)
    (hInner : assembly.innermost? = some .conditional) :
    (assembly.pop Frame.close).leaveConditional = assembly.pop Frame.close := by
  rw [leaveConditional, if_neg]
  rw [innermost?, surroundings_pop]
  rw [innermost?] at hInner
  cases hAround : assembly.surroundings with
  | nil => exact fun hNone => by cases hNone
  | cons kind around =>
      rw [hAround] at hInner hSpaced
      exact hSpaced.1 (Option.some.inj hInner)

theorem mem_surroundings_pop {kind : BlockKind} (hKind : kind ≠ .conditional)
    (hInner : assembly.innermost? = some .conditional) :
    kind ∈ (assembly.pop Frame.close).surroundings ↔ kind ∈ assembly.surroundings := by
  rw [surroundings_pop]
  rw [innermost?] at hInner
  cases hAround : assembly.surroundings with
  | nil => rfl
  | cons inner around =>
      rw [hAround] at hInner
      rw [List.tail_cons, List.mem_cons, Option.some.inj hInner, or_iff_right hKind]

theorem leave_pop {kind : BlockKind} (hKind : kind ≠ .conditional)
    (hAround : kind ∈ assembly.surroundings) (hSpaced : Spaced assembly.surroundings)
    (hInner : assembly.innermost? = some .conditional) (surplus : Option Fault)
    (site : Site) :
    (assembly.pop Frame.close).leave kind surplus site =
      assembly.leave kind surplus site := by
  have hStill := (mem_surroundings_pop hKind hInner).mpr hAround
  have hLeave : assembly.leaveConditional = assembly.pop Frame.close := if_pos hInner
  rw [leave, leave, if_pos hStill, if_pos hAround, leaveConditional_pop hSpaced hInner,
    hLeave]

/-- A conditional may as well be ended before the line that ends it. -/
theorem feed_pop (hSpaced : Spaced assembly.surroundings)
    (hInner : assembly.innermost? = some .conditional)
    (hEnds :
      Descent.endsConditional (Scope.of assembly.surroundings) line.keyword? = true) :
    (assembly.pop Frame.close).feed line = assembly.feed line := by
  have hLeave : assembly.leaveConditional = assembly.pop Frame.close := if_pos hInner
  unfold Descent.endsConditional at hEnds
  split at hEnds
  · rename_i hWord
    rw [feed, feed, Phrase.ofLine_opens hWord]
    simp only [Header.read, absorb, leaveConditional_pop hSpaced hInner, hLeave]
  · rename_i hWord
    rw [feed, feed, Phrase.ofLine_closes hWord]
    exact leave_pop (by decide) (of_decide_eq_true hEnds) hSpaced hInner _ _
  · rename_i hWord
    rw [feed, feed, Phrase.ofLine_closes hWord]
    exact leave_pop (by decide) (of_decide_eq_true hEnds) hSpaced hInner _ _
  · cases hEnds

/-- Whether the innermost block goes on at a line. -/
def Passes (assembly : Assembly) (line : Line) : Prop :=
  ∀ kind, assembly.innermost? = some kind → line.keyword? ≠ some (.closes kind) ∧
    (kind = .conditional →
      Descent.endsConditional (Scope.of assembly.surroundings) line.keyword? = false)

/-- Where the innermost block goes on, no conditional is opened directly in another. -/
theorem Passes.opensIn (hPasses : assembly.Passes line) {kind : BlockKind}
    (hWord : line.keyword? = some (.opens kind)) :
    kind.OpensIn assembly.surroundings := by
  rintro rfl hInner
  have hEnds := (hPasses .conditional hInner).2 rfl
  rw [hWord] at hEnds
  cases hEnds

theorem feed_opens (hPasses : assembly.Passes line) {kind : BlockKind}
    (hWord : line.keyword? = some (.opens kind)) :
    assembly.feed line = assembly.enter (.read kind line.args) line.toSite := by
  rw [feed, Phrase.ofLine_opens hWord]
  cases kind with
  | conditional =>
      have hOther : ¬assembly.innermost? = some .conditional :=
        hPasses.opensIn hWord rfl
      simp only [Header.read, absorb, leaveConditional, if_neg hOther]
  | loop | method => rfl

/-- `endif` has no effect where no conditional is innermost. -/
theorem feed_endif (hPasses : assembly.Passes line)
    (hWord : line.keyword? = some (.closes .conditional)) :
    assembly.feed line = assembly.note
      (if line.args.isEmpty then none
        else some (miscounted (.closes .conditional) 0 line.args))
      line.toSite := by
  have hOther : ¬assembly.innermost? = some .conditional := fun hInner =>
    (hPasses .conditional hInner).1 hWord
  rw [feed, Phrase.ofLine_closes hWord]
  simp only [absorb, leaveConditional, if_neg hOther]

theorem feed_stray (hPasses : assembly.Passes line) {kind : BlockKind}
    (hKind : kind ≠ .conditional) (hWord : line.keyword? = some (.closes kind)) :
    assembly.feed line =
      assembly.place (.invalid ⟨.strayCloser kind, line.toSite⟩ false) := by
  have hInner : ¬assembly.innermost? = some kind :=
    fun hInner => (hPasses kind hInner).1 hWord
  have hStays :
      (if kind ∈ assembly.surroundings then assembly.leaveConditional else assembly) =
        assembly := by
    refine ite_eq_right_iff.mpr fun hAround => if_neg fun hOther => ?_
    have hEnds := (hPasses .conditional hOther).2 rfl
    rw [hWord] at hEnds
    cases kind with
    | conditional => exact hKind rfl
    | loop | method => exact absurd hAround (of_decide_eq_false hEnds)
  rw [feed, Phrase.ofLine_closes hWord]
  cases kind with
  | conditional => exact absurd rfl hKind
  | loop | method => simp only [absorb, leave, hStays, if_neg hInner, note]

end Assembly

end PenScript
