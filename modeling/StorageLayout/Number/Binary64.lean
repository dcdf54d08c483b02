/-!
# Binary Floating Point

Numbers of the 64-bit binary format, as exact values.

A finite number is kept as the rational number it stands for, so that comparing and cutting need
no bit patterns. Only the negative zero, which has no rational of its own, is a case apart. The
rational of a finite number is always one that the format has: a multiple of a power of two with
at most 53 significant bits.

`Binary64.ofMagnitude` rounds to the nearest such number, a tie going to the even significand, and
to an infinity from half a unit above the greatest finite number on.

## Main definitions

* `Binary64`: A number of the format.
* `Binary64.ofMagnitude`: The nearest number to a rational with a sign of its own.
* `Binary64.ofDecimal`: The nearest number to a decimal with an exponent.
* `Binary64.truncate`: The integer that remains when the fraction is cut off.
-/

namespace StorageLayout

/-- A 64-bit binary floating-point number. -/
inductive Binary64 where
  /-- The result that is no number. All such results are one. -/
  | nan
  | infinity (negative : Bool)
  /-- Zero with a minus sign. -/
  | negativeZero
  /-- A finite number, by its exact value. -/
  | finite (value : Rat)
deriving DecidableEq

namespace Binary64

/-- Two to an integer power. -/
def twoPow (e : Int) : Rat :=
  if 0 ≤ e then (Nat.pow 2 e.toNat : Rat) else 1 / (Nat.pow 2 (-e).toNat : Rat)

/-- The exponent of the power of two at or below a positive rational. -/
def binaryExponent (r : Rat) : Int :=
  let guess : Int := (r.num.natAbs.log2 : Int) - r.den.log2
  if r < twoPow guess then guess - 1 else guess

/-- The exponent of the last significand bit of numbers around a positive rational: 53 bits are
kept, and no bit below the least one of the format. -/
def unitExponent (r : Rat) : Int := max (binaryExponent r - 52) (-1074)

/-- The nearest integer to a non-negative rational; halfway, the even one. -/
def roundHalfEven (r : Rat) : Nat :=
  let whole := r.floor.toNat
  let rest := r - whole
  if 2 * rest < 1 then whole
  else if 1 < 2 * rest then whole + 1
  else if whole % 2 = 0 then whole else whole + 1

/-- The nearest number to a non-negative rational, with a sign. -/
def ofMagnitude (negative : Bool) (r : Rat) : Binary64 :=
  let unit := twoPow (unitExponent r)
  let value := if r = 0 then 0 else roundHalfEven (r / unit) * unit
  if twoPow 1024 ≤ value then .infinity negative
  else if value = 0 then (if negative then .negativeZero else .finite 0)
  else .finite (if negative then -value else value)

/-- The nearest number to `digits` times ten to the power `exponent`, with a sign.

A decimal whose leading digit stands beyond the range of the format is an infinity or a zero
without its value being formed, for the exponent can be any integer. -/
def ofDecimal (negative : Bool) (digits : Nat) (exponent : Int) : Binary64 :=
  let magnitude : Int := (Nat.toDigits 10 digits).length + exponent
  if digits = 0 ∨ magnitude < -330 then ofMagnitude negative 0
  else if 330 < magnitude then .infinity negative
  else if 0 ≤ exponent then ofMagnitude negative (digits * Nat.pow 10 exponent.toNat : Nat)
  else ofMagnitude negative (digits / (Nat.pow 10 (-exponent).toNat : Nat))

/-- The exact value of a number that is finite. -/
def toRat? : Binary64 → Option Rat
  | .finite r => some r
  | .negativeZero => some 0
  | _ => none

/-- The integer nearest to zero's side: the fraction is cut off. -/
def truncate (r : Rat) : Int := if r < 0 then r.ceil else r.floor

/-- Whether a number is below zero. The negative zero is not. -/
def isNegative : Binary64 → Bool
  | .infinity negative => negative
  | .finite r => r < 0
  | _ => false

end Binary64

end StorageLayout
