import PenScript.Proofs.CheckedAccess
import PenScript.Proofs.LaterLines

/-!
# Cutting lines off a text

The lines of a script are found elsewhere by making all breaks alike and splitting the
text at them. Here they are cut off the text one after another: the next break is
looked for, what is in front of it is a line, and the text behind it is what is left.
A carriage return and a line feed right behind it are one break and are skipped
together. Every cut is checked, and so is the number of cuts.

Either way the lines are the same, and only those are kept that have words. That is what
everything that reads lines by position relies on.

## Main results

* `Line.ofText_eq`: the first line of a text is what is in front of the first break;
* `Row.cut_eq`: one step for each character, and one more, suffice;
* `Row.ofSource_eq`: the lines of a script are found without a mishap.
-/

namespace PenScript

open Text

namespace Row

/-- One text as the line of that number, unless it has no words. -/
def ofPiece? (number : Nat) (piece : List Char) : Option Row :=
  let tokens := Line.words piece
  if tokens.isEmpty then none
    else some { number, raw := String.ofList (trim piece), tokens }

/-- Whether a character ends a line. -/
def isBreak (c : Char) : Bool := c == '\r' || c == '\n'

/-- The length of the break that a text starts with, if any. -/
def breakWidth : List Char → Nat
  | '\r' :: '\n' :: _ => 2
  | [] => 0
  | _ => 1

/-- Cuts lines off a text, one a step, and keeps those that have words. -/
def cut : Nat → Nat → List Char → Checked (List Row)
  | 0, _, _ => .error .endless
  | steps + 1, number, rest => do
      if rest.isEmpty then return []
      let stop := rest.findIdx isBreak
      let text ← Checked.taking rest stop
      let width := breakWidth (← Checked.dropping rest stop)
      let later ← cut steps (number + 1) (← Checked.dropping rest (stop + width))
      return (ofPiece? number text).toList ++ later

/-- The lines of a script that have words, each with its number among all lines. -/
def ofSource (source : String) : Checked (List Row) :=
  cut (source.length + 1) 1 source.toList

/-! ## Breaks -/

theorem ofPiece?_eq (number : Nat) (piece : List Char) :
    ofPiece? number piece = (Line.ofPiece? number piece).map Line.toRow := by
  unfold ofPiece? Line.ofPiece?
  cases Line.words piece <;> rfl

/-- Text without breaks stays as it is in front of any other. -/
theorem unifyBreaks_append {text : List Char} (hText : ∀ c ∈ text, isBreak c = false)
    (behind : List Char) :
    Line.unifyBreaks (text ++ behind) = text ++ Line.unifyBreaks behind := by
  induction text with
  | nil => rfl
  | cons c text ih =>
      have hHead : c ≠ '\r' := by
        rintro rfl
        exact absurd (hText _ List.mem_cons_self) (by decide)
      have hTail := ih fun d hMem => hText d (List.mem_cons_of_mem c hMem)
      rw [List.cons_append, Line.unifyBreaks, if_neg hHead, hTail, List.cons_append]
      exact fun _ hReturn => absurd hReturn hHead

theorem isFeed_eq_false {text : List Char} (hText : ∀ c ∈ text, isBreak c = false) :
    ∀ c ∈ text, (c == '\n') = false := by
  intro c hMem
  have hBreak := hText c hMem
  rw [isBreak, Bool.or_eq_false_iff] at hBreak
  exact hBreak.2

/-- A text without breaks is one piece. -/
theorem pieces_text {text : List Char} (hText : ∀ c ∈ text, isBreak c = false) :
    (Line.unifyBreaks text).splitOnP (· == '\n') = [text] := by
  have hSame := unifyBreaks_append hText []
  rw [List.append_nil] at hSame
  rw [hSame, Line.unifyBreaks, List.append_nil,
    List.splitOnP_eq_singleton (isFeed_eq_false hText)]

/-- A text without breaks in front of a break is the first piece. -/
theorem pieces_append {text behind later : List Char}
    (hText : ∀ c ∈ text, isBreak c = false)
    (hBehind : Line.unifyBreaks behind = '\n' :: later) :
    (Line.unifyBreaks (text ++ behind)).splitOnP (· == '\n') =
      text :: later.splitOnP (· == '\n') := by
  rw [unifyBreaks_append hText, hBehind, List.splitOnP_append_cons text later rfl,
    List.splitOnP_eq_singleton (isFeed_eq_false hText), List.singleton_append]

theorem isBreak_take (rest : List Char) :
    ∀ c ∈ rest.take (rest.findIdx isBreak), isBreak c = false := by
  intro c hMem
  have hTake : rest.takeWhile (fun c => !isBreak c) =
      rest.take (rest.findIdx isBreak) := by
    simp [List.takeWhile_eq_take_findIdx_not]
  rw [← hTake] at hMem
  simpa using List.mem_takeWhile_imp hMem

theorem isBreak_drop {rest : List Char} {c : Char} {later : List Char}
    (hDrop : rest.drop (rest.findIdx isBreak) = c :: later) : isBreak c = true := by
  have hWhile : rest.dropWhile (fun c => !isBreak c) = c :: later := by
    simpa [List.dropWhile_eq_drop_findIdx_not] using hDrop
  have hHead := List.head?_dropWhile_not (fun c => !isBreak c) rest
  rw [hWhile] at hHead
  simpa using hHead

/-- A break counts as one line feed, however wide it is. -/
theorem unifyBreaks_break {c : Char} (hBreak : isBreak c = true) (later : List Char) :
    Line.unifyBreaks (c :: later) =
        '\n' :: Line.unifyBreaks ((c :: later).drop (breakWidth (c :: later))) ∧
      0 < breakWidth (c :: later) ∧ breakWidth (c :: later) ≤ (c :: later).length := by
  by_cases hPair : c = '\r' ∧ ∃ others, later = '\n' :: others
  · obtain ⟨rfl, others, rfl⟩ := hPair
    simp [Line.unifyBreaks, breakWidth]
  · have hSingle : ∀ others, c = '\r' → later ≠ '\n' :: others :=
      fun others hReturn hLater => hPair ⟨hReturn, others, hLater⟩
    have hWidth : breakWidth (c :: later) = 1 := by
      rw [breakWidth]
      · intro others hEq
        obtain ⟨hReturn, hLater⟩ := List.cons.inj hEq
        exact hSingle others hReturn hLater
      · exact List.cons_ne_nil c later
    have hFeed : (if c = '\r' then '\n' else c) = '\n' := by
      rcases Bool.or_eq_true_iff.mp hBreak with hReturn | hFeed
      · rw [if_pos (eq_of_beq hReturn)]
      · rw [eq_of_beq hFeed]
        rfl
    have hLeast : breakWidth (c :: later) ≤ (c :: later).length := by
      rw [hWidth]
      exact Nat.le_add_left 1 _
    refine ⟨?_, by rw [hWidth]; exact Nat.one_pos, hLeast⟩
    rw [hWidth, Line.unifyBreaks, hFeed, List.drop_one, List.tail_cons]
    exact hSingle

/-- The length of the first line of a text together with the break behind it. -/
def lineWidth (rest : List Char) : Nat :=
  rest.findIdx isBreak + breakWidth (rest.drop (rest.findIdx isBreak))

theorem drop_lineWidth (rest : List Char) :
    rest.drop (lineWidth rest) =
      (rest.drop (rest.findIdx isBreak)).drop
        (breakWidth (rest.drop (rest.findIdx isBreak))) :=
  List.drop_drop.symm

theorem lineWidth_le_length (rest : List Char) : lineWidth rest ≤ rest.length := by
  have hStop : rest.findIdx isBreak ≤ rest.length := List.findIdx_le_length
  have hLength : (rest.drop (rest.findIdx isBreak)).length =
      rest.length - rest.findIdx isBreak :=
    List.length_drop
  unfold lineWidth
  cases hDrop : rest.drop (rest.findIdx isBreak) with
  | nil => exact hStop
  | cons c later =>
      obtain ⟨-, -, hWidth⟩ := unifyBreaks_break (isBreak_drop hDrop) later
      rw [hDrop] at hLength
      omega

/-- Unless nothing is left, the first line takes something away. -/
theorem lineWidth_pos {rest : List Char} (hSome : rest ≠ []) : 0 < lineWidth rest := by
  unfold lineWidth
  cases hDrop : rest.drop (rest.findIdx isBreak) with
  | nil =>
      have hLength := List.drop_eq_nil_iff.mp hDrop
      have hPos := List.length_pos_of_ne_nil hSome
      omega
  | cons c later =>
      obtain ⟨-, hPos, -⟩ := unifyBreaks_break (isBreak_drop hDrop) later
      omega

end Row

namespace Line

/-- The lines of a text, the first of which has that number. -/
def ofText (number : Nat) (text : List Char) : List Line :=
  ofPieces number ((unifyBreaks text).splitOnP (· == '\n'))

theorem ofPieces_cons (number : Nat) (piece : List Char) (later : List (List Char)) :
    ofPieces number (piece :: later) =
      (ofPiece? number piece).toList ++ ofPieces (number + 1) later := by
  simp only [ofPieces, List.zipIdx_cons, List.filterMap_cons]
  cases ofPiece? number piece <;> rfl

theorem ofText_nil (number : Nat) : ofText number [] = [] := rfl

/-- The first line of a text is what is in front of the first break,
if that has words. -/
theorem ofText_eq (number : Nat) (rest : List Char) :
    ofText number rest =
      (ofPiece? number (rest.take (rest.findIdx Row.isBreak))).toList ++
        ofText (number + 1) (rest.drop (Row.lineWidth rest)) := by
  have hText := Row.isBreak_take rest
  have hWhole := List.take_append_drop (rest.findIdx Row.isBreak) rest
  rw [ofText, Row.drop_lineWidth]
  cases hDrop : rest.drop (rest.findIdx Row.isBreak) with
  | nil =>
      rw [hDrop, List.append_nil] at hWhole
      rw [hWhole] at hText ⊢
      rw [Row.pieces_text hText, ofPieces_cons, Row.breakWidth, List.drop_zero,
        ofText_nil]
      rfl
  | cons c later =>
      obtain ⟨hUnify, -⟩ := Row.unifyBreaks_break (Row.isBreak_drop hDrop) later
      rw [hDrop] at hWhole
      conv_lhs => rw [← hWhole]
      rw [Row.pieces_append hText hUnify, ofPieces_cons]
      rfl

end Line

namespace Row

/-- As many steps as there are characters left, and one to find that
none are, suffice. -/
theorem cut_eq (steps : Nat) :
    ∀ (number : Nat) (rest : List Char), rest.length < steps →
    cut steps number rest = .ok ((Line.ofText number rest).map Line.toRow) := by
  induction steps with
  | zero => exact fun _ rest hSteps => absurd hSteps (Nat.not_lt_zero rest.length)
  | succ steps ih =>
      intro number rest hSteps
      by_cases hNil : rest = []
      · rw [hNil]
        rfl
      have hStop : rest.findIdx isBreak ≤ rest.length := List.findIdx_le_length
      have hWidth := lineWidth_le_length rest
      have hShorter : (rest.drop (lineWidth rest)).length < steps := by
        have hPos := lineWidth_pos hNil
        rw [List.length_drop]
        omega
      have hBehind := Checked.dropping_of_le hWidth
      rw [cut, if_neg (by simpa using hNil)]
      simp only [Checked.taking_of_le hStop, Checked.dropping_of_le hStop, bind,
        Except.bind]
      rw [← lineWidth, hBehind]
      simp only [ih _ _ hShorter]
      rw [Line.ofText_eq number rest, ofPiece?_eq, List.map_append, Option.toList_map]
      rfl

theorem ofSource_eq (source : String) :
    ofSource source = .ok ((Line.ofSource source).map Line.toRow) :=
  cut_eq (source.length + 1) 1 source.toList (by rw [String.length_toList]; omega)

end Row

end PenScript
