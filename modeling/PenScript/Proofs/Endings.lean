import PenScript.Proofs.ClosingLine
import PenScript.Proofs.LineEntry

/-!
# The two meanings of the end

The same lines are read with their end taken as that of a complete script, or as
the place where more lines may follow. Both readings find the same items before the
end. What is left at the end is at most one item, which the outermost of the open
blocks becomes, and it is only there that the two may differ: they do where this
block is a conditional with a readable header, which a complete script closes and
which is incomplete otherwise.

Where the outermost block was opened is known from the lines. It is an invariant of the
assembly that this block keeps its header and its line until it is closed, and at the
line that opened it no other block was open.

## Main results

* `outermost?_feed`: a further line keeps the outermost block, closes
  it or opens another;
* `exists_of_outermost?`: the line that opened the outermost block;
* `items_of_endings`: how the two readings differ, and that what is executed
  is what was read.
-/

namespace PenScript

/-! ## The outermost block -/

/-- Outside of all blocks no header is out of place. -/
theorem Header.within_nil (header : Header) : header.within [] = header := by
  cases header <;> simp [within]

namespace Assembly

/-- The header and the line of the outermost open block. -/
def outermost? (assembly : Assembly) : Option (Header × Site) :=
  assembly.frames.getLast?.map fun frame => (frame.header, frame.site)

variable (assembly : Assembly)

theorem outermost?_place (stmt : Stmt) :
    (assembly.place stmt).outermost? = assembly.outermost? := by
  cases hFrames : assembly.frames with
  | nil => rw [place_of_nil hFrames, outermost?, outermost?]
  | cons frame outer =>
      rw [place_of_cons hFrames, outermost?, outermost?, hFrames]
      cases outer with
      | nil => rfl
      | cons next others => rw [List.getLast?_cons_cons, List.getLast?_cons_cons]

theorem outermost?_note (fault : Option Fault) (site : Site) :
    (assembly.note fault site).outermost? = assembly.outermost? := by
  cases fault with
  | none => rfl
  | some fault => exact assembly.outermost?_place _

/-- Taking the innermost block away leaves the outermost, unless it is the same. -/
theorem outermost?_pop {become : Frame → Stmt × List Diagnostic} {block : Header × Site}
    (hOuter : (assembly.pop become).outermost? = some block) :
    assembly.outermost? = some block := by
  cases hFrames : assembly.frames with
  | nil =>
      rw [pop, hFrames] at hOuter
      exact hOuter
  | cons frame outer =>
      rw [pop, hFrames] at hOuter
      dsimp only at hOuter
      rw [outermost?_place, outermost?] at hOuter
      cases outer with
      | nil => cases hOuter
      | cons next others =>
          rw [outermost?, hFrames, List.getLast?_cons_cons]
          exact hOuter

theorem outermost?_leaveConditional {block : Header × Site}
    (hOuter : assembly.leaveConditional.outermost? = some block) :
    assembly.outermost? = some block := by
  unfold leaveConditional at hOuter
  split at hOuter
  · exact assembly.outermost?_pop hOuter
  · exact hOuter

theorem outermost?_leave {kind : BlockKind} {surplus : Option Fault} {site : Site}
    {block : Header × Site}
    (hOuter : (assembly.leave kind surplus site).outermost? = some block) :
    assembly.outermost? = some block := by
  have hInner : ∀ found, (if kind ∈ assembly.surroundings then assembly.leaveConditional
      else assembly).outermost? = some found → assembly.outermost? = some found := by
    intro found hFound
    split at hFound
    · exact assembly.outermost?_leaveConditional hFound
    · exact hFound
  unfold leave at hOuter
  generalize
    (if kind ∈ assembly.surroundings then assembly.leaveConditional else assembly) =
      inner at hInner hOuter
  dsimp only at hOuter
  split at hOuter
  · rw [outermost?_note] at hOuter
    exact hInner block (inner.outermost?_pop hOuter)
  · rw [outermost?_note] at hOuter
    exact hInner block hOuter

/-- A block that is opened is the outermost if no other is open. -/
theorem outermost?_enter {header : Header} {site : Site} {block : Header × Site}
    (hOuter : (assembly.enter header site).outermost? = some block) :
    assembly.outermost? = some block ∨
      block = (header, site) ∧
        (assembly.enter header site).surroundings = [header.kind] := by
  cases hFrames : assembly.frames with
  | nil =>
      have hNone : assembly.surroundings = [] := by
        rw [surroundings, hFrames, List.map_nil]
      rw [outermost?, enter, hFrames, hNone, Header.within_nil] at hOuter
      refine Or.inr ⟨(Option.some.inj hOuter).symm, ?_⟩
      rw [enter, surroundings, hFrames, hNone, Header.within_nil]
      rfl
  | cons frame outer =>
      rw [outermost?, enter, hFrames, List.getLast?_cons_cons] at hOuter
      exact Or.inl (by rw [outermost?, hFrames]; exact hOuter)

/-- **A further line keeps the outermost block, closes it or opens another.** -/
theorem outermost?_feed {line : Line} {block : Header × Site}
    (hOuter : (assembly.feed line).outermost? = some block) :
    assembly.outermost? = some block ∨
      block.2 = line.toSite ∧ Phrase.ofLine line = .opening block.1 ∧
        (assembly.feed line).surroundings = [block.1.kind] := by
  unfold feed at hOuter ⊢
  cases hPhrase : Phrase.ofLine line with
  | simple stmt =>
      rw [hPhrase, absorb, outermost?_place] at hOuter
      exact Or.inl hOuter
  | faulty fault gated =>
      rw [hPhrase, absorb, outermost?_place] at hOuter
      exact Or.inl hOuter
  | closing kind surplus =>
      rw [hPhrase] at hOuter
      cases kind with
      | conditional =>
          rw [absorb, outermost?_note] at hOuter
          exact Or.inl (assembly.outermost?_leaveConditional hOuter)
      | loop | method => exact Or.inl (assembly.outermost?_leave hOuter)
  | opening header =>
      rw [hPhrase] at hOuter
      cases header with
      | conditional condition =>
          rcases assembly.leaveConditional.outermost?_enter hOuter with
            hOld | ⟨rfl, hOnly⟩
          · exact Or.inl (assembly.outermost?_leaveConditional hOld)
          · exact Or.inr ⟨rfl, rfl, hOnly⟩
      | loop | method =>
          rcases assembly.outermost?_enter hOuter with hOld | ⟨rfl, hOnly⟩
          · exact Or.inl hOld
          · exact Or.inr ⟨rfl, rfl, hOnly⟩

/-- **The line that opened the outermost block**, when no other was open. -/
theorem exists_of_outermost? {lines : List Line} {block : Header × Site}
    (hOuter : (ofLines lines).outermost? = some block) :
    ∃ before line after, lines = before ++ line :: after ∧ block.2 = line.toSite ∧
      Phrase.ofLine line = .opening block.1 ∧
      (ofLines (before ++ [line])).surroundings = [block.1.kind] := by
  induction lines using List.reverseRecOn with
  | nil => cases hOuter
  | append_singleton front last ih =>
      have hFeed : ofLines (front ++ [last]) = (ofLines front).feed last :=
        ofLines_append front _
      rw [hFeed] at hOuter
      rcases (ofLines front).outermost?_feed hOuter with hOld | ⟨hSite, hPhrase, hOnly⟩
      · obtain ⟨before, line, after, hLines, hOpened⟩ := ih hOld
        refine ⟨before, line, after ++ [last], ?_, hOpened⟩
        rw [hLines, List.append_assoc, List.cons_append]
      · rw [← hFeed] at hOnly
        exact ⟨front, last, [], rfl, hSite, hPhrase, hOnly⟩

end Assembly

/-! ## What is left at the end -/

/-- A line that opens a block begins with the word for it, and the header is
what the others say. -/
theorem Phrase.keyword_of_opening {line : Line} {header : Header}
    (hPhrase : ofLine line = .opening header) :
    line.isAssignment = false ∧ line.keyword = header.kind.opener ∧
      header = .read header.kind line.args := by
  have hSuits := suits_ofLine line
  rw [hPhrase] at hSuits
  obtain ⟨-, kind, rfl, hWord⟩ := hSuits
  rw [Header.kind_read]
  refine ⟨?_, (Keyword.text_of_ofWord? hWord).symm, rfl⟩
  cases hAssign : line.isAssignment with
  | false => rfl
  | true =>
      rw [ofLine_assignment hAssign] at hPhrase
      cases hRead : readAssignment line with
      | ok stmt | error fault =>
          rw [hRead] at hPhrase
          cases hPhrase

namespace Frame

/-- What is left of a block in a complete script is a failure, unless it is a
conditional that can be read. -/
theorem expired_fill_of_other {frame : Frame}
    (hOther : ¬∃ condition, frame.header = .conditional (.ok condition))
    (stmts : List Stmt) :
    (frame.fill stmts).expired = .invalid frame.failure false := by
  obtain ⟨header, site, body⟩ := frame
  cases header with
  | conditional found =>
      cases found with
      | ok condition => exact absurd ⟨condition, rfl⟩ hOther
      | error fault => rfl
  | loop found | method found => cases found <;> rfl

theorem expired_fill_of_condition {frame : Frame} {condition : Condition}
    (hHeader : frame.header = .conditional (.ok condition)) (stmts : List Stmt) :
    (frame.fill stmts).expired =
      .branch condition (frame.fill stmts).body.toList frame.site := by
  obtain ⟨header, site, body⟩ := frame
  cases hHeader
  rfl

end Frame

section

variable (lines : List Line)

/-- What is found before the end is followed by at most one item. -/
theorem items_read (ending : Ending) :
    ∃ last : Option Item, (read ending lines).items =
      (Assembly.ofLines lines).items.toList ++ last.toList := by
  cases ending with
  | provisional => exact ⟨_, (Assembly.ofLines lines).items_finish_provisional⟩
  | complete =>
      have hItems : (read .complete lines).items = (Assembly.ofLines lines).settled :=
        (Assembly.ofLines lines).items_finish
      cases hFrames : (Assembly.ofLines lines).frames.getLast? with
      | none =>
          refine ⟨none, ?_⟩
          rw [hItems, Assembly.settled, List.getLast?_eq_none_iff.mp hFrames]
          rfl
      | some frame =>
          obtain ⟨inner, hSettle⟩ := settle_of_getLast? hFrames []
          refine ⟨some (.ofStmt (frame.fill inner).expired), ?_⟩
          rw [hItems, Assembly.settled, hSettle]
          rfl

variable {lines}

/-- **Only the last item can tell of a block that is never closed.** -/
theorem last_of_unterminated {ending : Ending} {front back : List Item}
    {problem : Diagnostic}
    (hItems : (read ending lines).items = front ++ .error problem :: back)
    (hKind : problem.kind = .unterminatedBlock) : back = [] := by
  obtain ⟨last, hLast⟩ := items_read lines ending
  rw [hLast] at hItems
  rcases List.append_eq_append_iff.mp hItems with
    ⟨more, -, hMore⟩ | ⟨more, hFront, hMore⟩
  · -- The item is among those left at the end, and there is but one of them.
    have hLength := congrArg List.length hMore
    simp only [List.length_append, List.length_cons] at hLength
    have hOne : last.toList.length ≤ 1 := by cases last <;> simp
    exact List.eq_nil_of_length_eq_zero (by omega)
  · cases more with
    | nil =>
        have hLength := congrArg List.length hMore
        simp only [List.nil_append, List.length_cons] at hLength
        have hOne : last.toList.length ≤ 1 := by cases last <;> simp
        exact List.eq_nil_of_length_eq_zero (by omega)
    | cons item others =>
        -- The item was found before the end, where no block is reported.
        rw [List.cons_append, List.cons.injEq] at hMore
        have hMem : Except.error problem ∈ (Assembly.ofLines lines).items.toList := by
          rw [hFront, hMore.1]
          exact List.mem_append_right _ List.mem_cons_self
        exact absurd hKind
          (Assembly.kind_ne_of_mem_items (Array.mem_toList_iff.mp hMem))

/-- **Where the two readings differ**, the last item is a conditional at top level. -/
theorem items_of_open
    (hDiffer : (read .provisional lines).items ≠ (read .complete lines).items) :
    ∃ (front : List Item) (condition : Condition) (body : List Stmt)
      (before : List Line)
      (line : Line) (after : List Line), lines = before ++ line :: after ∧
      (line.isAssignment = false ∧ line.keyword = BlockKind.conditional.opener ∧
        readCondition line.args = .ok condition) ∧
      (Assembly.ofLines (before ++ [line])).surroundings = [.conditional] ∧
      (read .provisional lines).items =
        front ++ [.error ⟨.neverClosed .conditional, line.toSite⟩] ∧
      (read .complete lines).items =
        front ++ [.ok (.branch condition body line.toSite)] := by
  have hProvisional : (read .provisional lines).items = _ :=
    (Assembly.ofLines lines).items_finish_provisional
  have hComplete : (read .complete lines).items = (Assembly.ofLines lines).settled :=
    (Assembly.ofLines lines).items_finish
  rw [Assembly.settled] at hComplete
  cases hFrames : (Assembly.ofLines lines).frames.getLast? with
  | none =>
      rw [hFrames] at hProvisional
      rw [List.getLast?_eq_none_iff.mp hFrames] at hComplete
      exact absurd (hProvisional.trans hComplete.symm) hDiffer
  | some frame =>
      obtain ⟨inner, hSettle⟩ := settle_of_getLast? hFrames []
      rw [hFrames] at hProvisional
      rw [hSettle] at hComplete
      obtain ⟨condition, hHeader⟩ : ∃ condition, frame.header =
        .conditional (.ok condition) := by
        by_contra hOther
        rw [frame.expired_fill_of_other hOther] at hComplete
        exact hDiffer (hProvisional.trans hComplete.symm)
      have hOuter : (Assembly.ofLines lines).outermost? =
          some (.conditional (.ok condition), frame.site) := by
        rw [Assembly.outermost?, hFrames, ← hHeader]
        rfl
      obtain ⟨before, line, after, hLines, hSite, hPhrase, hOnly⟩ :=
        Assembly.exists_of_outermost? hOuter
      replace hSite : frame.site = line.toSite := hSite
      obtain ⟨hAssign, hWord, hRead⟩ := Phrase.keyword_of_opening hPhrase
      have hFailure : frame.failure = ⟨.neverClosed .conditional, line.toSite⟩ := by
        rw [Frame.failure, Frame.kind, hHeader, hSite]
        rfl
      refine ⟨(Assembly.ofLines lines).items.toList, condition,
        (frame.fill inner).body.toList, before, line, after, hLines,
        ⟨hAssign, hWord, (Header.conditional.inj hRead).symm⟩, hOnly, ?_, ?_⟩
      · rw [hProvisional, ← hFailure]
        rfl
      · rw [hComplete, Frame.expired_fill_of_condition hHeader, hSite]
        rfl

/-- Where no block is left open, both readings are the same. -/
theorem items_of_terminated
    (hEnded : ∀ problem, Except.error problem ∈ (read .provisional lines).items →
      problem.kind ≠ .unterminatedBlock) :
    (read .complete lines).items = (read .provisional lines).items := by
  by_contra hDiffer
  obtain ⟨front, condition, body, before, line, after, -, -, -, hOpen, -⟩ :=
    items_of_open fun hSame => hDiffer hSame.symm
  have hMem : Except.error ⟨.neverClosed .conditional, line.toSite⟩ ∈
      (read .provisional lines).items := by
    rw [hOpen]
    exact List.mem_append_right _ (List.mem_singleton_self _)
  exact hEnded _ hMem rfl

end

/-- What is executed of an entered line is what was read of it. -/
theorem enter_of_faultless {session : Session} {text : String}
    (hWords : (Line.words text.toList).isEmpty = false)
    (hFaultless : ∀ problem,
      Except.error problem ∉ (read .provisional (session.linesWith text)).items) :
    session.enter text =
      let result :=
        runItems session.limits (read .provisional (session.linesWith text)).items
        { store := session.store }
      { result := (outcome result).map fun _ => .executed
        session := { session with store := (finalState result).store, held := [] }
        gestures := (finalState result).trace.toList
        steps := (finalState result).steps } := by
  have hNone : (read .provisional (session.linesWith text)).firstFault? = none := by
    refine List.findSome?_eq_none_iff.mpr fun item hItem => ?_
    cases item with
    | ok stmt => rfl
    | error problem => exact absurd hItem (hFaultless problem)
  have hSettled : (read .provisional (session.linesWith text)).isOpen = false :=
    Reading.isOpen_eq_false_iff.mpr fun problem hItem =>
      absurd hItem (hFaultless problem)
  rw [enter_of_settled hWords hNone hSettled, Session.runLines,
    items_of_terminated fun problem hItem => absurd hItem (hFaultless problem)]
  rfl

/-- **The two readings of lines differ in the last item only, and only if it is a
conditional.** A block that is never closed is told of by the last item alone. Where
none is told of, the lines are executed as they were read. -/
theorem items_of_endings (lines : List Line) :
    ((read .provisional lines).items = (read .complete lines).items ∨
      ∃ (front : List Item) (condition : Condition) (body : List Stmt)
        (before : List Line)
        (line : Line) (after : List Line), lines = before ++ line :: after ∧
        (line.isAssignment = false ∧ line.keyword = BlockKind.conditional.opener ∧
          readCondition line.args = .ok condition) ∧
        (Assembly.ofLines (before ++ [line])).surroundings = [.conditional] ∧
        (read .provisional lines).items =
          front ++ [.error ⟨.neverClosed .conditional, line.toSite⟩] ∧
        (read .complete lines).items =
          front ++ [.ok (.branch condition body line.toSite)]) ∧
    (∀ (ending : Ending) (front back : List Item) (problem : Diagnostic),
      (read ending lines).items = front ++ .error problem :: back →
      problem.kind = .unterminatedBlock → back = []) ∧
    ((∀ problem, Except.error problem ∈ (read .provisional lines).items →
        problem.kind ≠ .unterminatedBlock) →
      (read .complete lines).items = (read .provisional lines).items) ∧
    ∀ (session : Session) (text : String), session.linesWith text = lines →
      (Line.words text.toList).isEmpty = false →
      (∀ problem, Except.error problem ∉ (read .provisional lines).items) →
      session.enter text =
        let result := runItems session.limits (read .provisional lines).items
          { store := session.store }
        { result := (outcome result).map fun _ => .executed
          session := { session with store := (finalState result).store, held := [] }
          gestures := (finalState result).trace.toList
          steps := (finalState result).steps } := by
  refine ⟨?_, fun _ _ _ _ => last_of_unterminated, items_of_terminated, ?_⟩
  · by_cases hSame : (read .provisional lines).items = (read .complete lines).items
    · exact Or.inl hSame
    · exact Or.inr (items_of_open hSame)
  · rintro session text rfl hWords hFaultless
    exact enter_of_faultless hWords hFaultless

/-- A conditional that is still open is what the readings differ in. -/
theorem items_of_endings_open_conditional :
    ((read .provisional (Line.ofSource "circle 1\nif 1 < 2\ncircle 2")).items ≠
      (read .complete (Line.ofSource "circle 1\nif 1 < 2\ncircle 2")).items) ∧
    ∃ (front : List Item) (condition : Condition) (body : List Stmt) (line : Line),
      (read .provisional (Line.ofSource "circle 1\nif 1 < 2\ncircle 2")).items =
        front ++ [.error ⟨.neverClosed .conditional, line.toSite⟩] ∧
      (read .complete (Line.ofSource "circle 1\nif 1 < 2\ncircle 2")).items =
        front ++ [.ok (.branch condition body line.toSite)] := by
  have hDiffer :
      (read .provisional (Line.ofSource "circle 1\nif 1 < 2\ncircle 2")).items ≠
      (read .complete (Line.ofSource "circle 1\nif 1 < 2\ncircle 2")).items := by
    intro hSame
    have hFaults := congrArg (fun items => items.flatMap Item.faults) hSame
    revert hFaults
    decide +kernel
  obtain ⟨front, condition, body, -, line, -, -, -, -, hOpen, hClosed⟩ :=
    (items_of_endings _).1.resolve_left hDiffer
  exact ⟨hDiffer, front, condition, body, line, hOpen, hClosed⟩

end PenScript
