import StorageLayout.Number.Binary64

/-!
# Shortest Decimals

Writing a floating-point number with as few digits as identify it.

The reals that round to a number form an interval around it: it reaches halfway to the
neighbours, and its ends belong to it when the significand is even. Among the decimals in that
interval the one with the fewest digits is written, and among those the nearest. The search goes
through the decimal grids from coarse to fine; if a point of a grid lies in the interval then so
does one of the two points next to the number, so only these are tested.

The digits are then laid out as `Notation` decides.

## Main definitions

* `RoundingInterval`: The reals that round to a number.
* `Decimal`: Digits times a power of ten.
* `shortest`: The shortest decimal of a positive finite number.
* `Layout`: Where positional writing ends.
* `Binary64.text`: A number as it is written.
-/

namespace StorageLayout

namespace Binary64

/-- The reals that round to a positive number. -/
structure RoundingInterval where
  low : Rat
  high : Rat
  /-- Whether the ends round to the number, too. -/
  closed : Bool

/-- The reals that round to a positive number: halfway to each neighbour. Below a power of two the
neighbour is nearer, except where the units end. -/
def roundingInterval (r : Rat) : RoundingInterval :=
  let unit := twoPow (unitExponent r)
  let significand := (r / unit).floor.toNat
  let below := if significand = Nat.pow 2 52 ∧ -1074 < unitExponent r then unit / 4 else unit / 2
  { low := r - below, high := r + unit / 2, closed := significand % 2 == 0 }

/-- Whether a real rounds to the number of the interval. -/
def RoundingInterval.holds (i : RoundingInterval) (r : Rat) : Bool :=
  if i.closed then i.low ≤ r && r ≤ i.high else i.low < r && r < i.high

/-- The number `digits` times ten to the power `exponent`. -/
structure Decimal where
  digits : Nat
  exponent : Int
deriving Repr, DecidableEq

/-- Ten to an integer power. -/
def tenPow (e : Int) : Rat :=
  if 0 ≤ e then (Nat.pow 10 e.toNat : Rat) else 1 / (Nat.pow 10 (-e).toNat : Rat)

/-- The least exponent whose power of ten exceeds a positive number of the format. The least such
number is above ten to the power -340, so that all of its digits stand before the point once it is
multiplied by ten to the power 340. -/
def decimalExponent (r : Rat) : Int :=
  ((Nat.toDigits 10 (r * tenPow 340).floor.toNat).length : Int) - 340

/-- The point nearest to a number on the grid of multiples of ten to the power `exponent`, if it
rounds to the number. Of the two neighbours the nearer is tried first, halfway the even one. -/
def onGrid? (r : Rat) (exponent : Int) : Option Decimal :=
  let interval := roundingInterval r
  let grid := tenPow exponent
  let below := (r / grid).floor.toNat
  let nearest := roundHalfEven (r / grid)
  let other := if nearest = below then below + 1 else below
  let found := [nearest, other].find? fun (n : Nat) => n != 0 && interval.holds (n * grid)
  found.map (⟨·, exponent⟩)

/-- Moves trailing zeros of the digits into the exponent; `fuel` bounds how many. -/
def Decimal.normalize : (fuel : Nat) → Decimal → Decimal
  | 0, d => d
  | fuel + 1, d =>
    if d.digits % 10 = 0 then normalize fuel ⟨d.digits / 10, d.exponent + 1⟩ else d

/-- The shortest decimal that rounds to a positive number. Seventeen digits always suffice; the
value given when they do not is the exact one cut to that grid. -/
def shortest (r : Rat) : Decimal :=
  let scale := decimalExponent r
  let found := (List.range 17).findSome? fun (n : Nat) => onGrid? r (scale - (n + 1))
  (found.getD ⟨roundHalfEven (r / tenPow (scale - 17)), scale - 17⟩).normalize 17

/-- Decimals are written positionally while the first digit stands from four places after the
point to sixteen before it, otherwise with one digit before the point and a signed exponent of two
digits or more. A positional number always has a digit after the point. -/
def Decimal.text (d : Decimal) : String :=
  let digits := Nat.toDigits 10 d.digits
  let point : Int := digits.length + d.exponent
  let written :=
    if point ≤ 0 ∧ -4 < point then
      '0' :: '.' :: List.replicate (-point).toNat '0' ++ digits
    else if 0 < point ∧ point ≤ 16 then
      let padded := digits ++ List.replicate (point.toNat - digits.length) '0'
      let fraction := padded.drop point.toNat
      padded.take point.toNat ++ '.' :: (if fraction = [] then ['0'] else fraction)
    else
      let exponent := point - 1
      let places := Nat.toDigits 10 exponent.natAbs
      let sign := if exponent < 0 then '-' else '+'
      digits.take 1 ++ (if digits.length = 1 then [] else '.' :: digits.drop 1)
        ++ 'e' :: sign :: List.replicate (2 - places.length) '0' ++ places
  String.ofList written

/-- A number as it is written: `nan`, `inf`, or the fewest digits that identify it. -/
def text : Binary64 → String
  | .nan => "nan"
  | .infinity negative => if negative then "-inf" else "inf"
  | .negativeZero => "-0.0"
  | .finite r =>
    if r = 0 then "0.0"
    else if r < 0 then "-" ++ (shortest (-r)).text
    else (shortest r).text

end Binary64

end StorageLayout
