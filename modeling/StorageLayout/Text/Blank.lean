/-!
# Blank Characters

Which characters count as white space around a number or a setting.

Two rules are in use, and they differ on the separators U+001C to U+001F. A setting from the
environment is trimmed of every character that Unicode calls a space or a separator of text; a
number is trimmed of the same characters except those four, which no numeral may touch.

## Main definitions

* `isBlank`: A character that trimming a text removes.
* `isNumeralBlank`: A character that may stand around a numeral.
* `trim`: A text without the blanks at its two ends.
-/

namespace StorageLayout.Text

/-- White space in the wide sense: the tab to carriage return block, the four information
separators, the space, and the spaces and line separators beyond ASCII. -/
def isBlank (c : Char) : Bool :=
  let n := c.toNat
  (9 ≤ n && n ≤ 13) || (28 ≤ n && n ≤ 32) || n == 0x85 || n == 0xa0 || n == 0x1680
    || (0x2000 ≤ n && n ≤ 0x200a) || n == 0x2028 || n == 0x2029 || n == 0x202f || n == 0x205f
    || n == 0x3000

/-- The blanks that may surround a numeral: all but the information separators. -/
def isNumeralBlank (c : Char) : Bool :=
  isBlank c && !(28 ≤ c.toNat && c.toNat ≤ 31)

/-- Drops the leading and the trailing characters that satisfy `p`. -/
def trimBy (p : Char → Bool) (cs : List Char) : List Char :=
  ((cs.dropWhile p).reverse.dropWhile p).reverse

/-- A text without the blanks at its two ends. -/
def trim (cs : List Char) : List Char := trimBy isBlank cs

end StorageLayout.Text
