/-!
# Numerals and names

The two kinds of word a script's value may be: a decimal numeral with an
optional sign, and a name. Both grammars are ASCII. A numeral is first read as
an unbounded integer and only then put into the range of its type, so "is it a
numeral" and "does it fit" stay two questions.

## Main results

* `spelled_append`: a digit at the end counts ones and lifts the rest tenfold;
* `readInt?_plus`, `readInt?_minus`: what one sign does to a reading.
-/

namespace PenScript.Text

/-- The number that decimal digits spell, most significant first. -/
def spelled (digits : List Char) : Nat :=
  digits.foldl (fun n digit => 10 * n + (digit.toNat - '0'.toNat)) 0

/-- One ASCII digit or more, and nothing else. -/
def isDigits (cs : List Char) : Bool := !cs.isEmpty && cs.all Char.isDigit

/-- The value of an unsigned numeral. Leading zeros are allowed. -/
def readNat? (cs : List Char) : Option Nat :=
  if isDigits cs then some (spelled cs) else none

/-- The value of a numeral with at most one sign before its digits. -/
def readInt? : List Char → Option Int
  | '-' :: digits => (readNat? digits).map fun n => -(n : Int)
  | '+' :: digits => (readNat? digits).map fun n => (n : Int)
  | digits => (readNat? digits).map fun n => (n : Int)

/-- The integer as a signed 32-bit word, if it fits. -/
def fitInt32? (n : Int) : Option Int32 :=
  if -2147483648 ≤ n ∧ n ≤ 2147483647 then some (Int32.ofInt n) else none

/-- A word read as a signed 32-bit numeral. -/
def readInt32? (word : String) : Option Int32 := (readInt? word.toList).bind fitInt32?

/-- A word read as an unsigned 64-bit numeral; a plus sign may stand before
it, a minus may not. -/
def readNat64? (word : String) : Option Nat :=
  let digits := match word.toList with
    | '+' :: rest => rest
    | cs => cs
  (readNat? digits).bind fun n => if n ≤ 18446744073709551615 then some n else none

/-- Whether a character is one of the two signs of a numeral. -/
def isSign (c : Char) : Bool := c == '-' || c == '+'

/-- Whether a word is digits behind any number of signs: a number to the
eye, readable or not. -/
def looksNumeric (word : String) : Bool := isDigits (word.toList.dropWhile isSign)

/-- The decimal text of a 32-bit word. -/
def decimal (n : Int32) : String := toString n.toInt

/-- What a name may start with: an ASCII letter or an underscore. -/
def isNameStart (c : Char) : Bool := c.isAlpha || c == '_'

/-- What a name may go on with: an ASCII letter, a digit or an underscore. -/
def isNamePart (c : Char) : Bool := c.isAlphanum || c == '_'

/-- Whether a word may name a variable or a method. -/
def isName (word : String) : Bool :=
  match word.toList with
  | [] => false
  | c :: rest => isNameStart c && rest.all isNamePart

/-! ## Small laws -/

theorem spelled_nil : spelled [] = 0 := rfl

theorem spelled_append (digits : List Char) (digit : Char) :
    spelled (digits ++ [digit]) = 10 * spelled digits + (digit.toNat - '0'.toNat) := by
  simp [spelled]

theorem readInt?_minus (digits : List Char) :
    readInt? ('-' :: digits) = (readNat? digits).map fun n => -(n : Int) := rfl

theorem readInt?_plus (digits : List Char) :
    readInt? ('+' :: digits) = (readNat? digits).map fun n => (n : Int) := rfl

/-- Every 32-bit word fits. -/
theorem fitInt32?_toInt (n : Int32) : fitInt32? n.toInt = some n := by
  have hLow : -2147483648 ≤ n.toInt := Int32.le_toInt n
  have hHigh : n.toInt < 2147483648 := Int32.toInt_lt n
  rw [fitInt32?, if_pos ⟨hLow, by omega⟩, Int32.ofInt_toInt]

/-- Only the 32-bit words fit. -/
theorem toInt_of_fitInt32? {n : Int} {word : Int32} (hFit : fitInt32? n = some word) :
    word.toInt = n := by
  rw [fitInt32?] at hFit
  split at hFit
  · rename_i hRange
    cases hFit
    exact Int32.toInt_ofInt_of_le hRange.1 (Int.lt_add_one_of_le hRange.2)
  · cases hFit

end PenScript.Text
