import PenScript.Proofs.Endings
import PenScript.Proofs.SingleFlag

/-!
# Lines inside a loop

Lines that open and close nothing but conditionals are read inside a loop as they
are read on their own. The two assemblies have the same conditionals open, the one
has the loop around them, and the statements that are items of the other are the
body of the loop so far. Inside the loop no block is the outermost, but no line
of this kind asks for that.

Such lines leave a conditional open unless every `if` is followed by an `endif`
somewhere. It need not be the next word of its kind: an `if` ends the conditional
before it.

## Main results

* `frames_of_isPaired`: lines with an `endif` after every `if` leave no block open;
* `encloses_feedAll`: lines inside a loop and on their own;
* `items_of_loop`: a loop is read as one statement, with the statements its lines are
  on their own for its body.
-/

namespace PenScript

/-! ## Pairs of words -/

/-- Whether a line begins with a word, in whatever letters, and is no
assignment to it. -/
def Line.StartsWith (line : Line) (word : String) : Prop :=
  line.isAssignment = false ∧ line.keyword = word

instance (line : Line) (word : String) : Decidable (line.StartsWith word) :=
  inferInstanceAs (Decidable (_ ∧ _))

/-- Whether every `if` line is followed by an `endif` line, at whatever distance. -/
def IsPaired : List Line → Prop
  | [] => True
  | line :: rest =>
      (line.StartsWith "if" → ∃ closer ∈ rest, closer.StartsWith "endif") ∧
        IsPaired rest

instance decidableIsPaired : ∀ lines : List Line, Decidable (IsPaired lines)
  | [] => inferInstanceAs (Decidable True)
  | _ :: rest =>
      have := decidableIsPaired rest
      inferInstanceAs (Decidable (_ ∧ _))

/-- An `endif` line closes a conditional, whatever comes after the word. -/
theorem Line.StartsWith.closes {line : Line} (hWord : line.StartsWith "endif") :
    ∃ surplus, Phrase.ofLine line = .closing .conditional surplus := by
  obtain ⟨hOther, hFirst⟩ := hWord
  have hKeyword : Keyword.ofWord? "endif" = some (.closes .conditional) := by decide
  rw [Phrase.ofLine, hOther, if_neg Bool.false_ne_true, hFirst, hKeyword]
  exact ⟨_, rfl⟩

section

variable {assembly : Assembly} {line : Line} {rest : List Line}

theorem Assembly.frames_note_eq_nil {fault : Option Fault} {site : Site} :
    (assembly.note fault site).frames = [] ↔ assembly.frames = [] := by
  cases fault with
  | none => exact Iff.rfl
  | some fault =>
      rw [note, ← List.length_eq_zero_iff, length_frames_place, List.length_eq_zero_iff]

/-- After one line, a conditional is open only if an `endif` follows. -/
theorem Assembly.closes_feed (hShallow : assembly.IsShallow) (hFlat : line.IsFlat)
    (hPaired : line.StartsWith "if" → ∃ closer ∈ rest, closer.StartsWith "endif")
    (hCloses : assembly.frames = [] ∨ ∃ closer ∈ line :: rest,
      closer.StartsWith "endif") :
    (assembly.feed line).frames = [] ∨ ∃ closer ∈ rest, closer.StartsWith "endif" := by
  have hLeft := frames_leaveConditional hShallow
  -- A line that places a statement is no `endif`, so whatever closes comes after it.
  have hPlaces : ∀ stmt,
      (∀ surplus, Phrase.ofLine line ≠ .closing .conditional surplus) →
      (assembly.place stmt).frames = [] ∨
        ∃ closer ∈ rest, closer.StartsWith "endif" := by
    intro stmt hOther
    rcases hCloses with hNone | ⟨closer, hMem, hWord⟩
    · left
      rw [place_of_nil hNone]
      exact hNone
    · rcases List.mem_cons.mp hMem with rfl | hLater
      · obtain ⟨surplus, hPhrase⟩ := hWord.closes
        exact absurd hPhrase (hOther surplus)
      · exact Or.inr ⟨closer, hLater, hWord⟩
  have hPhrase := hFlat.phrase
  unfold feed
  cases hSaid : Phrase.ofLine line with
  | simple stmt =>
      exact hPlaces stmt fun surplus hClosing =>
        Phrase.noConfusion (hSaid.symm.trans hClosing)
  | faulty fault gated =>
      exact hPlaces _ fun surplus hClosing =>
        Phrase.noConfusion (hSaid.symm.trans hClosing)
  | opening header =>
      rw [hSaid] at hPhrase
      cases header with
      | loop _ | method _ => cases hPhrase
      | conditional condition =>
          obtain ⟨hOther, hWord, -⟩ := Phrase.keyword_of_opening hSaid
          exact Or.inr (hPaired ⟨hOther, hWord⟩)
  | closing kind surplus =>
      rw [hSaid] at hPhrase
      cases hPhrase
      exact Or.inl (frames_note_eq_nil.mpr hLeft)

end

/-- **Lines with an `endif` after every `if`** leave no block open. -/
theorem frames_of_isPaired {lines : List Line} (hFlat : ∀ line ∈ lines, line.IsFlat)
    (hPaired : IsPaired lines) : (Assembly.ofLines lines).frames = [] := by
  have hFold : ∀ assembly : Assembly, assembly.IsShallow →
      (assembly.frames = [] ∨ ∃ closer ∈ lines, closer.StartsWith "endif") →
      (lines.foldl Assembly.feed assembly).frames = [] := by
    induction lines with
    | nil =>
        rintro assembly - (hNone | ⟨closer, hMem, -⟩)
        · exact hNone
        · exact absurd hMem List.not_mem_nil
    | cons line rest ih =>
        intro assembly hShallow hCloses
        obtain ⟨hLine, hRest⟩ := List.forall_mem_cons.mp hFlat
        exact ih hRest hPaired.2 (assembly.feed line) (hShallow.feed hLine)
          (Assembly.closes_feed hShallow hLine hPaired.1 hCloses)
  exact hFold {} (Or.inl rfl) (Or.inl rfl)

/-! ## Inside and outside of a loop -/

/-- Whether one assembly has a block around what another has at top level: the same
blocks are open inside, and the items of the other are the statements of its body. -/
def Assembly.Encloses (frame : Frame) (around inner : Assembly) : Prop :=
  ∃ stmts : Array Stmt, inner.items = stmts.map Item.ofStmt ∧ around.items = #[] ∧
    around.frames = inner.frames ++ [{ frame with body := stmts }]

namespace Assembly

variable {frame : Frame} {around inner : Assembly}

theorem Encloses.place (hEncloses : Encloses frame around inner) (stmt : Stmt) :
    Encloses frame (around.place stmt) (inner.place stmt) := by
  obtain ⟨stmts, hItems, hNone, hFrames⟩ := hEncloses
  cases hInner : inner.frames with
  | nil =>
      rw [hInner, List.nil_append] at hFrames
      rw [place_of_nil hInner, place_of_cons hFrames]
      refine ⟨stmts.push stmt, ?_, hNone, ?_⟩
      · rw [Array.map_push, ← hItems]
      · rw [hInner]
        rfl
  | cons first outer =>
      rw [hInner, List.cons_append] at hFrames
      rw [place_of_cons hInner, place_of_cons hFrames]
      exact ⟨stmts, hItems, hNone, rfl⟩

theorem Encloses.note (hEncloses : Encloses frame around inner) (fault : Option Fault)
    (site : Site) :
    Encloses frame (around.note fault site) (inner.note fault site) := by
  cases fault with
  | none => exact hEncloses
  | some fault => exact hEncloses.place _

theorem Encloses.leaveConditional (hEncloses : Encloses frame around inner)
    (hKind : frame.kind ≠ .conditional) :
    Encloses frame around.leaveConditional inner.leaveConditional := by
  obtain ⟨stmts, hItems, hNone, hFrames⟩ := hEncloses
  cases hInner : inner.frames with
  | nil =>
      have hStill : ¬around.innermost? = some .conditional := by
        rw [innermost?, surroundings, hFrames, hInner]
        exact fun hSame => hKind (Option.some.inj hSame)
      rw [leaveConditional_of_nil hInner, Assembly.leaveConditional, if_neg hStill]
      exact ⟨stmts, hItems, hNone, hFrames⟩
  | cons first outer =>
      have hSame : around.innermost? = inner.innermost? := by
        rw [innermost?, surroundings, hFrames, innermost?, surroundings, hInner]
        rfl
      rw [hInner, List.cons_append] at hFrames
      unfold Assembly.leaveConditional
      rw [hSame]
      split
      · unfold pop
        rw [hInner, hFrames]
        refine Encloses.place ?_ _
        exact ⟨stmts, hItems, hNone, rfl⟩
      · exact ⟨stmts, hItems, hNone, by rw [hFrames, hInner, List.cons_append]⟩

theorem Encloses.enter (hEncloses : Encloses frame around inner)
    (condition : Except Fault Condition) (site : Site) :
    Encloses frame (around.enter (.conditional condition) site)
      (inner.enter (.conditional condition) site) := by
  obtain ⟨stmts, hItems, hNone, hFrames⟩ := hEncloses
  refine ⟨stmts, hItems, hNone, ?_⟩
  rw [Assembly.enter, Assembly.enter, hFrames]
  rfl

theorem Encloses.feed (hEncloses : Encloses frame around inner)
    (hKind : frame.kind ≠ .conditional)
    {line : Line} (hFlat : line.IsFlat) :
    Encloses frame (around.feed line) (inner.feed line) := by
  have hPhrase := hFlat.phrase
  unfold Assembly.feed
  cases hSaid : Phrase.ofLine line with
  | simple stmt | faulty fault gated => exact hEncloses.place _
  | opening header =>
      rw [hSaid] at hPhrase
      cases header with
      | loop _ | method _ => cases hPhrase
      | conditional condition =>
          exact (hEncloses.leaveConditional hKind).enter condition _
  | closing kind surplus =>
      rw [hSaid] at hPhrase
      cases hPhrase
      exact (hEncloses.leaveConditional hKind).note surplus _

/-- **Lines inside a block and on their own.** -/
theorem encloses_feedAll (hKind : frame.kind ≠ .conditional) {lines : List Line}
    (hFlat : ∀ line ∈ lines, line.IsFlat) : ∀ {around inner : Assembly},
    Encloses frame around inner →
    Encloses frame (lines.foldl feed around) (lines.foldl feed inner) := by
  induction lines with
  | nil => exact id
  | cons line rest ih =>
      obtain ⟨hLine, hRest⟩ := List.forall_mem_cons.mp hFlat
      exact fun hEncloses => ih hRest (hEncloses.feed hKind hLine)

end Assembly

/-- An `endloop` ends a loop that no block is open in. -/
theorem Assembly.leave_of_singleton {assembly : Assembly} {frame : Frame}
    (hOpen : assembly.frames = [frame]) (hKind : frame.kind = .loop) (site : Site) :
    assembly.leave .loop none site = assembly.pop Frame.close := by
  have hInnermost : assembly.innermost? = some .loop := by
    rw [innermost?, surroundings, hOpen, List.map_singleton, hKind]
    rfl
  have hStill : assembly.leaveConditional = assembly := by
    rw [leaveConditional, hInnermost, if_neg (by decide)]
  rw [leave, hStill, ite_self]
  exact if_pos hInnermost

/-- Lines that leave no block open are read as what they have led to. -/
theorem items_of_frames {lines : List Line}
    (hClosed : (Assembly.ofLines lines).frames = [])
    (ending : Ending) :
    (read ending lines).items = (Assembly.ofLines lines).items.toList := by
  rw [read, Assembly.finish, Assembly.finishFrames, hClosed]
  rfl

/-- **A loop is read as one statement**, whose body are the statements its
lines are read as. -/
theorem items_of_loop {first last : Line} {count : Term} {lines : List Line}
    (hFirst : Phrase.ofLine first = .opening (.loop (.ok count)))
    (hLast : Phrase.ofLine last = .closing .loop none)
    (hFlat : ∀ line ∈ lines, line.IsFlat)
    (hPaired : IsPaired lines) :
    ∃ body : List Stmt, (read .complete lines).items = body.map Item.ofStmt ∧
      (read .complete (first :: (lines ++ [last]))).items =
        [.ok (.loop count body first.toSite)] := by
  let frame : Frame := { header := .loop (.ok count), site := first.toSite }
  have hClosed := frames_of_isPaired hFlat hPaired
  have hStart : Assembly.Encloses frame (Assembly.feed {} first) {} := by
    rw [Assembly.feed, hFirst]
    exact ⟨#[], Array.map_empty.symm, rfl, rfl⟩
  have hKind : frame.kind ≠ .conditional := BlockKind.noConfusion
  obtain ⟨stmts, hItems, hNone, hFrames⟩ := Assembly.encloses_feedAll hKind hFlat hStart
  have hInner : (lines.foldl Assembly.feed {}).frames = [] := hClosed
  rw [hInner, List.nil_append] at hFrames
  have hWhole : Assembly.ofLines (first :: (lines ++ [last])) =
      (lines.foldl Assembly.feed (Assembly.feed {} first)).feed last := by
    rw [Assembly.ofLines, List.foldl_cons, List.foldl_append]
    rfl
  have hDone : Assembly.ofLines (first :: (lines ++ [last])) =
      (lines.foldl Assembly.feed (Assembly.feed {} first)).pop Frame.close := by
    rw [hWhole, Assembly.feed, hLast]
    exact Assembly.leave_of_singleton hFrames rfl _
  rw [Assembly.pop, hFrames] at hDone
  dsimp only at hDone
  rw [Assembly.place_of_nil rfl, hNone] at hDone
  refine ⟨stmts.toList, ?_, ?_⟩
  · rw [items_of_frames hClosed, Assembly.ofLines, hItems, Array.toList_map]
  · rw [items_of_frames (by rw [hDone]), hDone]
    rfl

end PenScript
