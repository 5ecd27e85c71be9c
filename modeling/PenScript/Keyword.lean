/-!
# Keywords

The first word of a line, in lower case, says what the line does. Ten words
draw; the other seven control what is executed: three kinds of block have a word
that opens and a word that closes them, and one word calls a method. The type
has exactly this shape, so "is it a control word" is a matter of its constructor
and a closing word carries the kind of block it closes.

## Main results

* `ofWord?_text`: a keyword is found under its own word, so no two share one.
-/

namespace PenScript

/-- What a drawing line can do. -/
inductive Verb where
  | moveTo | drawTo | pen | fill | clear | reset
  | circle | rectangle | triangle | drawShape
deriving DecidableEq, Repr

/-- The kinds of block. -/
inductive BlockKind where
  | conditional | loop | method
deriving DecidableEq, Repr

/-- The words a line can start with. -/
inductive Keyword where
  | draw (verb : Verb)
  | opens (kind : BlockKind)
  | closes (kind : BlockKind)
  | call
deriving DecidableEq, Repr

namespace Verb

/-- The word for a verb. -/
def text : Verb → String
  | moveTo => "moveto"
  | drawTo => "drawto"
  | pen => "pen"
  | fill => "fill"
  | clear => "clear"
  | reset => "reset"
  | circle => "circle"
  | rectangle => "rectangle"
  | triangle => "triangle"
  | drawShape => "drawshape"

/-- What may follow the word, as shown to users. -/
def usage : Verb → String
  | moveTo => "usage: moveto <x> <y>"
  | drawTo => "usage: drawto <x> <y>"
  | pen => "usage: pen <red|green|black>"
  | fill => "usage: fill <on|off>"
  | clear => "usage: clear"
  | reset => "usage: reset"
  | circle => "usage: circle <radius>"
  | rectangle => "usage: rectangle <width> <height>"
  | triangle => "usage: triangle <adj> <base> <hyp>"
  | drawShape => "usage: drawshape <p1> [p2 ...]"

end Verb

namespace BlockKind

/-- The word that opens a block. -/
def opener : BlockKind → String
  | conditional => "if"
  | loop => "loop"
  | method => "method"

/-- The word that closes a block. -/
def closer : BlockKind → String
  | conditional => "endif"
  | loop => "endloop"
  | method => "endmethod"

end BlockKind

namespace Keyword

/-- The word for a keyword. -/
def text : Keyword → String
  | draw verb => verb.text
  | opens kind => kind.opener
  | closes kind => kind.closer
  | call => "call"

/-- What may follow the word, as shown to users. -/
def usage : Keyword → String
  | draw verb => verb.usage
  | opens .conditional => "usage: if <term> <op> <term>  (op: < > = >= <= !=)"
  | opens .loop => "usage: loop <count>"
  | opens .method => "usage: method <name>"
  | closes .conditional => "usage: endif"
  | closes .loop => "usage: endloop"
  | closes .method => "usage: endmethod"
  | call => "usage: call <name>"

/-- Whether the word controls execution. The other words draw. -/
def isControl : Keyword → Bool
  | draw _ => false
  | _ => true

/-- Every keyword, in the order in which they are shown to users. -/
def all : List Keyword :=
  [draw .moveTo, draw .drawTo, draw .pen, draw .fill, draw .clear, draw .reset,
   draw .circle, draw .rectangle, draw .triangle, draw .drawShape, opens .conditional,
   closes .conditional, opens .loop, closes .loop, opens .method, closes .method, call]

/-- The words of all keywords, with commas between them. -/
def listing : String := String.intercalate ", " (all.map text)

/-- The keyword that a word in lower case stands for. -/
def ofWord? (word : String) : Option Keyword := all.find? (·.text == word)

/-! ## Small laws -/

/-- What is found under a word has that word. -/
theorem text_of_ofWord? {word : String} {keyword : Keyword}
    (hFound : ofWord? word = some keyword) : keyword.text = word := by
  unfold ofWord? at hFound
  have hEq := List.find?_some hFound
  exact eq_of_beq hEq

theorem ofWord?_text (keyword : Keyword) : ofWord? keyword.text = some keyword := by
  cases keyword with
  | draw verb => cases verb <;> decide
  | opens kind => cases kind <;> decide
  | closes kind => cases kind <;> decide
  | call => decide

end Keyword

end PenScript
