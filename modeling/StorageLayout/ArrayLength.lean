import StorageLayout.Json.Reading

/-!
# Lengths of Fixed Arrays

Reading the length of a fixed array off the way its type is written.

A type's label ends in the bounds of an array, `uint256[3][5]`, the outermost last. The key of a
fixed array type in an emitted layout ends in the outermost bound, too:
`t_array(t_array(t_uint256)3_storage)5_storage`. So in both only the end of the text is looked at,
and what a type contains cannot be mistaken for its own bound. One line feed after the end is
allowed, and the digits may be those of any script.

## Main definitions

* `boundOfLabel?`: The digits of the last bound of a label.
* `boundOfKey?`: The digits of the bound that ends a key.
* `lengthOfDigits`: The length that digits stand for.
-/

namespace StorageLayout

/-- A text without one line feed at its end. -/
def dropFinalNewline (cs : List Char) : List Char :=
  if cs.getLast? = some '\n' then cs.dropLast else cs

/-- The digits between the last `opening` and `closing`, which must end the text. -/
def digitsBefore? (opening : Char) (closing : List Char) (cs : List Char) : Option (List Char) :=
  let reversed := (dropFinalNewline cs).reverse
  if closing.reverse.isPrefixOf reversed then
    let rest := reversed.drop closing.length
    let digits := rest.takeWhile Text.isDecimalDigit
    if digits ≠ [] ∧ (rest.dropWhile Text.isDecimalDigit).head? = some opening then
      some digits.reverse
    else none
  else none

/-- The digits of the last bound of a label. -/
def boundOfLabel? (label : String) : Option (List Char) := digitsBefore? '[' [']'] label.toList

/-- The digits of the bound that ends the key of a fixed array type. -/
def boundOfKey? (key : String) : Option (List Char) :=
  digitsBefore? ')' "_storage".toList key.toList

/-- The length that digits stand for, unless they are too many to be read. -/
def lengthOfDigits (digits : List Char) : Except Error Json :=
  match Text.boundedDigits digits with
  | .ok n => .ok (.int n)
  | .error _ => Defect.badContent.fail

end StorageLayout
