import StorageLayout.Error
import StorageLayout.Text.Hex

/-!
# Slots as Words

A slot number as a 32-byte word, the form in which storage is queried.

The word is the number's big-endian bytes, the shortest there are (one zero byte for zero), filled
up with zeros in front to 32 bytes, in hexadecimal. A number that needs more bytes keeps them all.

## Main definitions

* `bigEndian`: The shortest bytes of a number.
* `padWord`: Bytes filled up to a word.
* `word`: The word of a slot number.
* `hexOfValue`: The word of a value that stands as a slot.
-/

namespace StorageLayout.Slot

/-- The bytes of a number without its leading zeros, most significant first; none for zero. -/
def significantBytes (n : Nat) : List UInt8 :=
  if n = 0 then [] else significantBytes (n / 256) ++ [UInt8.ofNat (n % 256)]

/-- The shortest bytes of a number, most significant first, and at least one. -/
def bigEndian (n : Nat) : List UInt8 := if n = 0 then [0] else significantBytes n

/-- Bytes with zeros in front, up to 32 of them. -/
def padWord (bytes : List UInt8) : List UInt8 :=
  List.replicate (32 - bytes.length) 0 ++ bytes

/-- The word of a slot number. -/
def word (n : Nat) : String := "0x" ++ String.ofList (Text.hexBytes (padWord (bigEndian n)))

/-- The word of a value that stands as a slot. Truth values count as zero and one; a number with a
fraction has no bytes, and only its sign is looked at first. The complaint about a negative number
names it, so it cannot be made of an integer that is too long to be written. -/
def hexOfValue (slot : Json) : Except Error String :=
  match slot with
  | .int n => if n < 0 then (Error.negativeSlot slot).raise else .ok (word n.toNat)
  | .bool b => .ok (word (if b then 1 else 0))
  | .real x => if x.isNegative then (Error.negativeSlot slot).raise else Defect.notAnObject.fail
  | _ => Defect.wrongKind.fail

/-- A padded word has 32 bytes or more, and exactly as many as before when they were 32. -/
theorem length_padWord (bytes : List UInt8) : (padWord bytes).length = max 32 bytes.length := by
  simp only [padWord, List.length_append, List.length_replicate]
  omega

end StorageLayout.Slot
