import PenScript.Text.Numeral

/-!
# Limits

Every submission runs under two limits, on the number of statements executed and
on the depth of calls. The first can be set from outside by a text; a text that
is no number is as good as none.

Statements and calls are counted in natural numbers. That a counter of 64 bits
could overflow is left out.
-/

namespace PenScript

/-- The limits on one submission. -/
structure Limits where
  /-- Statements executed, counting every turn of a loop and every statement
  of a called method. -/
  maxSteps : Nat := 1000000
  /-- Calls within calls. -/
  maxCallDepth : Nat := 64
deriving DecidableEq, Repr, Inhabited

/-- The usual limits, with the step budget that a setting asks for. -/
def Limits.ofSetting (setting : Option String) : Limits :=
  match setting.bind Text.readNat64? with
  | some maxSteps => { maxSteps }
  | none => {}

end PenScript
