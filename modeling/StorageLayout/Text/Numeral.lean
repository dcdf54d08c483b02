import StorageLayout.Text.Blank
import StorageLayout.Text.DecimalDigit
import StorageLayout.Text.Hex

/-!
# Integer Numerals

Reading an integer from text.

A numeral is an optional sign and digits of any script, with blanks around it and single
underscores between digits. `decimal` reads it in base ten, where leading zeros do not matter.
`prefixed` also knows `0x`, `0o` and `0b` (an underscore may follow them), and there a base-ten
numeral starts with a zero only when it is zero.

Base ten has a limit: a numeral of more than `maxDigits` digits is refused, because reading it
takes time quadratic in its length. The limit is checked as soon as the digits end, before what
follows them is looked at. The same limit holds for writing: an integer that was read in another
base may be too long for base ten.

## Main definitions

* `NumeralFault`: Why a text is refused.
* `scanDigits`: The digits at the start of a text, with what follows them.
* `decimal`: An integer in base ten.
* `prefixed`: An integer whose base is told by its first characters.
* `digitsValue`: The value of a text that holds digits only.
* `isWritable`: Whether an integer may be written in base ten.
-/

namespace StorageLayout.Text

/-- The most digits that a base-ten numeral may have. -/
def maxDigits : Nat := 4300

/-- Why a text is no readable integer. -/
inductive NumeralFault where
  /-- It does not have the form of a numeral. -/
  | malformed
  /-- It has more than `maxDigits` digits. -/
  | tooLong (digits : Nat)
deriving Repr, DecidableEq

/-- The value of a digit in a base: the decimal digits of every script, and for base sixteen the
ASCII letters. -/
def digitIn? (base : Nat) (c : Char) : Option Nat :=
  (digitValue? c <|> hexValue? c).filter (· < base)

/-- Reads digits as long as they last: their value (on top of `value`), their number (on top of
`count`) and the rest of the text.

`open_` says that a digit must come next, as at the start and after an underscore; digits that
end there are none. -/
def scanDigits (base : Nat) : (open_ : Bool) → (value count : Nat) → List Char →
    Option (Nat × Nat × List Char)
  | open_, value, count, [] => if open_ then none else some (value, count, [])
  | open_, value, count, c :: rest =>
    if c = '_' then
      if open_ then none else scanDigits base true value count rest
    else match digitIn? base c with
      | some d => scanDigits base false (base * value + d) (count + 1) rest
      | none => if open_ then none else some (value, count, c :: rest)

/-- An unsigned numeral in a base, up to the end of the text and blanks before it. -/
def magnitude (base : Nat) (cs : List Char) : Except NumeralFault Nat :=
  match scanDigits base true 0 0 cs with
  | none => .error .malformed
  | some (value, count, rest) =>
    if base = 10 ∧ maxDigits < count then .error (.tooLong count)
    else if rest.all isNumeralBlank then .ok value
    else .error .malformed

/-- Splits a sign from what follows: whether it is a minus, and the rest. -/
def splitSign : List Char → Bool × List Char
  | '-' :: rest => (true, rest)
  | '+' :: rest => (false, rest)
  | cs => (false, cs)

/-- A magnitude with its sign. -/
def withSign (negative : Bool) (n : Nat) : Int := if negative then -n else n

/-- An integer in base ten. -/
def decimal (cs : List Char) : Except NumeralFault Int :=
  let (negative, body) := splitSign (cs.dropWhile isNumeralBlank)
  (magnitude 10 body).map (withSign negative)

/-- The base that the letter after a leading zero announces. -/
def radix? (c : Char) : Option Nat :=
  if c = 'x' ∨ c = 'X' then some 16
  else if c = 'o' ∨ c = 'O' then some 8
  else if c = 'b' ∨ c = 'B' then some 2
  else none

/-- Drops one underscore from the front. -/
def dropUnderscore : List Char → List Char
  | '_' :: rest => rest
  | cs => cs

/-- An unsigned numeral that tells its base. -/
def prefixedMagnitude (cs : List Char) : Except NumeralFault Nat :=
  match cs with
  | [] => .error .malformed
  | first :: rest =>
    if digitValue? first = some 0 then
      match rest.head?.bind radix? with
      | some base => magnitude base (dropUnderscore rest.tail)
      | none => do
        let n ← magnitude 10 cs
        if n = 0 then .ok 0 else .error .malformed
    else magnitude 10 cs

/-- An integer in base ten, or in base sixteen, eight or two after `0x`, `0o` or `0b`. -/
def prefixed (cs : List Char) : Except NumeralFault Int :=
  let (negative, body) := splitSign (cs.dropWhile isNumeralBlank)
  (prefixedMagnitude body).map (withSign negative)

/-- The value of decimal digits, most significant first; other characters count as zero. -/
def digitsValue (cs : List Char) : Nat :=
  cs.foldl (fun value c => 10 * value + (digitValue? c).getD 0) 0

/-- The value of a run of digits, unless it is too long to be read. -/
def boundedDigits (cs : List Char) : Except NumeralFault Nat :=
  if maxDigits < cs.length then .error (.tooLong cs.length) else .ok (digitsValue cs)

/-- The least number that has more than `maxDigits` digits. -/
def leastTooLong : Nat := Nat.pow 10 maxDigits

theorem leastTooLong_pos : 0 < leastTooLong := by
  delta leastTooLong
  -- The power is not to be computed.
  generalize maxDigits = digits
  exact Nat.pow_pos (by omega)

/-- Whether an integer may be written in base ten: it has at most `maxDigits` digits. -/
def isWritable (n : Int) : Bool := n.natAbs < leastTooLong

end StorageLayout.Text
