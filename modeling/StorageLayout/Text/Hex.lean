/-!
# Hexadecimal Digits

Lower-case hexadecimal text of numbers and bytes.

A number is written at a fixed width, most significant digit first; bytes are written two digits
each. Reading is the inverse on single digits and accepts both cases.

## Main definitions

* `hexDigit`: The digit of a value below sixteen.
* `hexWord`: The last digits of a number, at a given width.
* `hexBytes`: Two digits for each byte.
* `hexValue?`: The value of a digit, in either case.
* `bytesOfHex?`: The bytes that pairs of digits stand for.
-/

namespace StorageLayout.Text

/-- The lower-case digit of a value below sixteen. -/
def hexDigit (n : Nat) : Char :=
  if n < 10 then Char.ofNat (0x30 + n) else Char.ofNat (0x61 + (n - 10))

/-- The last `width` hexadecimal digits of a number, the most significant first. -/
def hexWord : (width : Nat) → Nat → List Char
  | 0, _ => []
  | width + 1, n => hexWord width (n / 16) ++ [hexDigit (n % 16)]

/-- Two digits for each byte, in order. -/
def hexBytes (bytes : List UInt8) : List Char := bytes.flatMap fun b => hexWord 2 b.toNat

/-- The value of an ASCII hexadecimal digit, upper or lower case. -/
def hexValue? (c : Char) : Option Nat :=
  if '0' ≤ c ∧ c ≤ '9' then some (c.toNat - 0x30)
  else if 'a' ≤ c ∧ c ≤ 'f' then some (c.toNat - 0x61 + 10)
  else if 'A' ≤ c ∧ c ≤ 'F' then some (c.toNat - 0x41 + 10)
  else none

/-- The bytes that pairs of digits stand for; nothing when a digit is missing or no digit. -/
def bytesOfHex? : List Char → Option (List UInt8)
  | [] => some []
  | [_] => none
  | a :: b :: rest => do
    let high ← hexValue? a
    let low ← hexValue? b
    let bytes ← bytesOfHex? rest
    return UInt8.ofNat (16 * high + low) :: bytes

@[simp]
theorem length_hexWord (width n : Nat) : (hexWord width n).length = width := by
  induction width generalizing n with
  | zero => rfl
  | succ w ih => simp [hexWord, ih]

end StorageLayout.Text
