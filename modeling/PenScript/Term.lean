/-!
# Terms and conditions

A value in a script is a whole number of 32 bits. It is written as a numeral or
as the name of a variable; there is no arithmetic. Conditions compare two such
values. What a name stands for is asked of an environment, so that this module
needs to know nothing about how variables are kept.
-/

namespace PenScript

/-- A value as written. -/
inductive Term where
  | number (value : Int32)
  | var (name : String)
deriving DecidableEq, Repr

/-- The ways to compare two values. -/
inductive Comparison where
  | less | greater | equal | atLeast | atMost | differs
deriving DecidableEq, Repr

namespace Comparison

/-- The comparison a sign stands for. -/
def ofSymbol? : String → Option Comparison
  | "<" => some less
  | ">" => some greater
  | "=" => some equal
  | ">=" => some atLeast
  | "<=" => some atMost
  | "!=" => some differs
  | _ => none

/-- Whether a comparison holds between two values. -/
def holds : Comparison → Int32 → Int32 → Bool
  | less, l, r => l < r
  | greater, l, r => r < l
  | equal, l, r => l == r
  | atLeast, l, r => r ≤ l
  | atMost, l, r => l ≤ r
  | differs, l, r => l != r

end Comparison

/-- A comparison between two values as written. -/
structure Condition where
  left : Term
  comparison : Comparison
  right : Term
deriving DecidableEq, Repr

end PenScript
