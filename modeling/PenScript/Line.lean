import PenScript.Text.Blank
import PenScript.Text.Lowercase

/-!
# Lines and words

A script is read line by line. Lines end at a carriage return, at a line feed
or at the pair of them, which counts once; they are numbered from one. Within a
line, blanks and commas separate words and are otherwise ignored, so a line
without words says nothing: it keeps its number and is dropped.

Breaks are made uniform before the text is cut. Which style of break a script
was written with is thereby forgotten at the very first step, and everything
after it may assume line feeds.

A line that is kept has at least one word. The type says so: the first word has
a field of its own, and only the others form a list.

## Main results

* `unifyBreaks_noReturn`: no carriage return survives the first step;
* `unifyBreaks_idempotent`: uniform text stays as it is;
* `tokens_ne_nil`: a line has a first word.
-/

namespace PenScript

open Text

/-- Where something stands in a script: the number of its line, counted from
one, and the text of that line without the blanks around it. -/
structure Site where
  number : Nat
  raw : String
deriving DecidableEq, Repr, Inhabited

/-- A line with at least one word. -/
structure Line extends Site where
  /-- The first word, as written. -/
  word : String
  /-- The words after the first. -/
  args : List String
deriving DecidableEq, Repr

namespace Line

/-- All words of a line. -/
def tokens (line : Line) : List String := line.word :: line.args

/-- The first word in lower case, which decides what the line is about. -/
def keyword (line : Line) : String := lowercase line.word

/-- Whether the line gives a value to a variable: its second word is an equals sign. -/
def isAssignment (line : Line) : Bool := line.args.head? == some "="

/-! ## From text to lines -/

/-- Whether a character stands between words. -/
def isSeparator (c : Char) : Bool := isBlank c || c == ','

/-- The words of a text. -/
def words (cs : List Char) : List String :=
  ((cs.splitOnP isSeparator).filter fun piece => !piece.isEmpty).map String.ofList

/-- Turns every line break into a single line feed. -/
def unifyBreaks : List Char → List Char
  | [] => []
  | '\r' :: '\n' :: rest => '\n' :: unifyBreaks rest
  | c :: rest => (if c = '\r' then '\n' else c) :: unifyBreaks rest

/-- The texts between line breaks, in order. -/
def pieces (source : String) : List (List Char) :=
  (unifyBreaks source.toList).splitOnP (· == '\n')

/-- One text as the line of that number, unless it has no words. -/
def ofPiece? (number : Nat) (piece : List Char) : Option Line :=
  match words piece with
  | [] => none
  | word :: args => some { number, raw := String.ofList (trim piece), word, args }

/-- The lines of a script that have words, each with its number among all lines. -/
def ofSource (source : String) : List Line :=
  ((pieces source).zipIdx 1).filterMap fun (piece, number) => ofPiece? number piece

/-! ## Small laws -/

theorem tokens_ne_nil (line : Line) : line.tokens ≠ [] := List.cons_ne_nil _ _

/-- Uniform text has no carriage return. -/
theorem unifyBreaks_noReturn (cs : List Char) : '\r' ∉ unifyBreaks cs := by
  fun_induction unifyBreaks cs with
  | case1 => exact List.not_mem_nil
  | case2 rest ih =>
      intro hMem
      rcases List.mem_cons.mp hMem with hHead | hTail
      · exact absurd hHead (by decide)
      · exact ih hTail
  | case3 c rest _ ih =>
      intro hMem
      rcases List.mem_cons.mp hMem with hHead | hTail
      · split at hHead
        · exact absurd hHead (by decide)
        · rename_i hOther
          exact hOther hHead.symm
      · exact ih hTail

/-- Text without carriage returns is uniform. -/
theorem unifyBreaks_of_noReturn {cs : List Char} (hNone : '\r' ∉ cs) :
    unifyBreaks cs = cs := by
  fun_induction unifyBreaks cs with
  | case1 => rfl
  | case2 rest ih => exact absurd List.mem_cons_self hNone
  | case3 c rest _ ih =>
      have hHead : c ≠ '\r' := fun hEq => hNone (hEq ▸ List.mem_cons_self)
      rw [if_neg hHead, ih fun hMem => hNone (List.mem_cons_of_mem c hMem)]

theorem unifyBreaks_idempotent (cs : List Char) :
    unifyBreaks (unifyBreaks cs) = unifyBreaks cs :=
  unifyBreaks_of_noReturn (unifyBreaks_noReturn cs)

end Line

end PenScript
