/-!
# Numbers with one decimal place

Coordinates are shown with exactly one digit after the point. The digit is the
correct one: the text is that of the tenth nearest to the exact binary value,
and of two equally near tenths the even one. The sign is that of the number
itself, so that a negative number which rounds to zero reads `-0.0`.

A finite double is `m · 2 ^ s / 2 ^ 1074` with whole `m` and `s`, which makes
rounding a matter of dividing natural numbers.
-/

namespace PenScript.Text

/-- The whole number nearest to `num / den`; halfway between two, the even one. -/
def roundDiv (num den : Nat) : Nat :=
  let quotient := num / den
  let rest := num % den
  if 2 * rest < den then quotient
  else if den < 2 * rest then quotient + 1
  else quotient + quotient % 2

/-- A power of two. -/
def twoPow (k : Nat) : Nat := Nat.pow 2 k

/-- The number of tenths in a finite double, given its exponent field and
its fraction field. -/
def tenthsOf (exponent fraction : Nat) : Nat :=
  let significand := if exponent = 0 then fraction else twoPow 52 + fraction
  roundDiv (10 * significand * twoPow (max exponent 1 - 1)) (twoPow 1074)

/-- A number of tenths as text. -/
def pointed (count : Nat) : String := s!"{count / 10}.{count % 10}"

/-- A double with one decimal place. -/
def tenths (x : Float) : String :=
  let bits := x.toBits.toNat
  let sign := if bits < twoPow 63 then "" else "-"
  let exponent := bits / twoPow 52 % twoPow 11
  let fraction := bits % twoPow 52
  if exponent = 2047 then
    if fraction = 0 then sign ++ "inf" else "NaN"
  else sign ++ pointed (tenthsOf exponent fraction)

end PenScript.Text
