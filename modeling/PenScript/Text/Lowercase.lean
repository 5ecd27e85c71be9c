import PenScript.Text.CaseRuns

/-!
# Lower case

Keywords, color words and method names are compared in lower case, and lower
case means the full Unicode mapping of a text: each character by its own small
letter, `İ` by two characters, and a capital sigma by its final form `ς` where
it ends a word.

A sigma ends a word when, looking through case-ignorable characters, there is a
cased letter before it and none after it. The definition therefore carries the
characters already passed, nearest first.
-/

namespace PenScript.Text

/-- The small letter of a character, if it has a single one; itself otherwise. -/
def smallLetter (c : Char) : Char :=
  if c.toNat < 0x80 then c.toLower
  else match lowerRuns.find? (·.covers c.toNat) with
    | some run => Char.ofNat (c.toNat + run.shift).toNat
    | none => c

/-- The lower-case form of a character that does not look at its neighbours. -/
def lowerForm (c : Char) : List Char :=
  if c = 'İ' then ['i', '\u0307'] else [smallLetter c]

/-- Whether the first character that is not case-ignorable is a cased letter. -/
def meetsCased (cs : List Char) : Bool :=
  match cs.dropWhile fun c => inRuns ignorableRuns c.toNat with
  | [] => false
  | c :: _ => inRuns casedRuns c.toNat

/-- Whether a capital between `before`, read backwards, and `after` ends a word. -/
def endsWord (before after : List Char) : Bool :=
  meetsCased before && !meetsCased after

/-- Lower-cases a text that follows `before`, which is read backwards. -/
def lowerFrom (before : List Char) : List Char → List Char
  | [] => []
  | c :: after =>
      (if c = 'Σ' then [if endsWord before after then 'ς' else 'σ'] else lowerForm c) ++
        lowerFrom (c :: before) after

/-- The text in lower case. -/
def lowercase (s : String) : String := String.ofList (lowerFrom [] s.toList)

end PenScript.Text
