import StorageLayout.Number.Shortest
import StorageLayout.Shell.Arithmetic
import StorageLayout.Shell.Escape

/-!
# Formats

Texts with places for values.

A format is read into pieces: characters, and places that say which value is put there and how. It
is used again as long as there are values left. A value that is no number where one is needed
counts as the number it begins with, which is worth a warning.

## Main definitions

* `FormatPiece`: A piece of a format.
* `FormatPiece.ofText`: The pieces of a format.
* `Formatted`: What a format and values make.
* `formatAll`: Puts values into a format.
-/

namespace StorageLayout.Shell

/-- How wide or exact a value is written. -/
inductive Extent where
  | fixed (n : Nat)
  /-- As a value says. -/
  | given
deriving Repr, DecidableEq

/-- A place for a value. -/
structure Place where
  flags : List Char := []
  width : Option Extent := none
  precision : Option Extent := none
  letter : Char
  /-- The place as it is written. -/
  text : String
deriving Repr, DecidableEq

/-- A piece of a format. -/
inductive FormatPiece where
  | literal (c : Char)
  | place (p : Place)
  /-- A place without a letter. -/
  | unfinished
deriving Repr, DecidableEq

/-- The letters that places can have. -/
def placeLetters : List Char :=
  ['b', 'c', 's', 'd', 'i', 'o', 'u', 'x', 'X', 'e', 'E', 'f', 'F', 'g', 'G']

/-- The number at the start of characters, if they begin with a digit, and what follows it. -/
def extentAt (cs : List Char) : Option Extent × List Char :=
  match cs with
  | '*' :: rest => (some .given, rest)
  | cs =>
    let (n, rest) := digitsOf 10 cs
    (if rest.length < cs.length then some (.fixed n) else none, rest)

/-- The place that stands after a percent sign, and what follows it. -/
def placeAt (cs : List Char) : Option (Place × List Char) :=
  let isFlag (c : Char) : Bool := c = '#' || c = '-' || c = '+' || c = ' ' || c = '0'
  let flags := cs.takeWhile isFlag
  let (width, rest) := extentAt (cs.dropWhile isFlag)
  let (precision, rest) := match rest with
    | '.' :: rest =>
      let (p, rest) := extentAt rest
      (some (p.getD (.fixed 0)), rest)
    | rest => (none, rest)
  match rest with
  | [] => none
  | letter :: rest =>
    let text := String.ofList ('%' :: cs.take (cs.length - rest.length))
    some ({ flags, width, precision, letter, text }, rest)

/-- The pieces of a format, at most `fuel` of them. -/
def formatPieces : (fuel : Nat) → List Char → List FormatPiece
  | 0, _ => []
  | _, [] => []
  | fuel + 1, '\\' :: rest =>
    let (c, rest) := escape rest
    .literal c :: formatPieces fuel rest
  | fuel + 1, '%' :: '%' :: rest => .literal '%' :: formatPieces fuel rest
  | fuel + 1, '%' :: rest =>
    match placeAt rest with
    | some (p, rest) => .place p :: formatPieces fuel rest
    | none => [.unfinished]
  | fuel + 1, c :: rest => .literal c :: formatPieces fuel rest

/-- The pieces of a format. -/
def FormatPiece.ofText (s : String) : List FormatPiece :=
  formatPieces (s.toList.length + 1) s.toList

/-! ## Values -/

/-- What a value turns out to be as a number, with a warning if it is none in full. -/
structure Converted (α : Type) where
  value : α
  warning : Option String := none

/-- The warning for what is left of a value after the number in it. -/
def leftOver (s : String) (rest : Option (List Char)) (outOfRange : Bool) : Option String :=
  match rest with
  | none => if s = "" then none else some s!"{s}: expected numeric value"
  | some [] => if outOfRange then some s!"{s}: Numerical result out of range" else none
  | some _ => some s!"{s}: not completely converted"

/-- The whole number that a value is: after a quote, its first octet. -/
def wholeNumber (signed : Bool) (s : String) : Converted Int :=
  match s.toList with
  | '"' :: rest | '\x27' :: rest => { value := (rest.headD '\x00').toNat }
  | cs =>
    match integerAt? true cs with
    | none => { value := 0, warning := leftOver s none false }
    | some (n, rest) =>
      let top : Int := if signed then greatest else 2 * greatest + 1
      let low : Int := if signed then least else -top
      let value := max low (min n top)
      { value := if n < low && !signed then top else value
        warning := leftOver s (some rest) (value ≠ n) }

/-- A decimal number at the start of characters: digits, exponent, and what follows. -/
def decimalAt? (cs : List Char) : Option (Nat × Int × List Char) :=
  let whole := cs.takeWhile Char.isDigit
  let rest := cs.dropWhile Char.isDigit
  let (fraction, rest) := match rest with
    | '.' :: more => (more.takeWhile Char.isDigit, more.dropWhile Char.isDigit)
    | rest => ([], rest)
  if whole.isEmpty && fraction.isEmpty then none
  else
    let digits := (digitsOf 10 (whole ++ fraction)).1
    let exponent : Int × List Char := match rest with
      | e :: more =>
        if e = 'e' || e = 'E' then
          let (negative, unsigned) := match more with
            | '-' :: more => (true, more)
            | '+' :: more => (false, more)
            | more => (false, more)
          match unsigned with
          | d :: _ =>
            if d.isDigit then
              let (n, after) := digitsOf 10 unsigned
              (if negative then -(n : Int) else n, after)
            else (0, rest)
          | [] => (0, rest)
        else (0, rest)
      | [] => (0, rest)
    some (digits, exponent.1 - fraction.length, exponent.2)

/-- The real number that a value is. -/
def realNumber (s : String) : Converted Binary64 :=
  let body := s.toList.dropWhile isBlankByte
  let (negative, unsigned) := match body with
    | '-' :: rest => (true, rest)
    | '+' :: rest => (false, rest)
    | rest => (false, rest)
  let named (name : String) : Bool := String.ofList (unsigned.map Char.toLower) = name
  match s.toList with
  | '"' :: rest | '\x27' :: rest =>
    { value := .ofMagnitude false ((rest.headD '\x00').toNat : Rat) }
  | _ =>
    if named "inf" || named "infinity" then { value := .infinity negative }
    else if named "nan" then { value := .nan }
    else
      let hex := match unsigned with
        | '0' :: x :: d :: rest =>
          if (x = 'x' || x = 'X') && digitValue d < 16 then some (digitsOf 16 (d :: rest)) else none
        | _ => none
      match hex with
      | some (n, rest) =>
        { value := .ofMagnitude negative (n : Rat), warning := leftOver s (some rest) false }
      | none =>
        match decimalAt? unsigned with
        | none => { value := .finite 0, warning := leftOver s none false }
        | some (digits, exponent, rest) =>
          let value := Binary64.ofDecimal negative digits exponent
          let outOfRange := match value with
            | .infinity _ => true
            | .finite r => r = 0 && digits ≠ 0
            | .negativeZero => digits ≠ 0
            | .nan => false
          { value, warning := leftOver s (some rest) outOfRange }

/-! ## Writing values -/

/-- How a value is written, once it is known how wide and how exact. -/
structure Written where
  flags : List Char
  width : Nat
  precision : Option Nat

/-- A text at its width: what is missing is filled with blanks, or with zeros after the sign. -/
def Written.pad (s : Written) (zeros : Bool) (sign body : List Char) : List Char :=
  let missing := s.width - (sign.length + body.length)
  if s.flags.contains '-' then sign ++ body ++ List.replicate missing ' '
  else if zeros && s.flags.contains '0' then sign ++ List.replicate missing '0' ++ body
  else List.replicate missing ' ' ++ sign ++ body

/-- The sign of a number, as flags want it. -/
def Written.sign (s : Written) (negative : Bool) : List Char :=
  if negative then ['-']
  else if s.flags.contains '+' then ['+']
  else if s.flags.contains ' ' then [' ']
  else []

/-- Characters in capital letters if the letter of a place is one. -/
def inCaseOf (letter : Char) (cs : List Char) : List Char :=
  if letter.isUpper then cs.map Char.toUpper else cs

/-- A whole number as a place wants it. -/
def Written.whole (s : Written) (letter : Char) (n : Int) : List Char :=
  let signed := letter = 'd' || letter = 'i'
  let base := if letter = 'o' then 8 else if letter = 'x' || letter = 'X' then 16 else 10
  let size : Nat := if signed then n.natAbs else (n % (2 * greatest + 2)).toNat
  let plain := if size = 0 && s.precision = some 0 then [] else Nat.toDigits base size
  let digits := List.replicate (s.precision.getD 1 - plain.length) '0' ++ plain
  let alternative := s.flags.contains '#'
  let digits := if alternative && base = 8 && digits.head? ≠ some '0' then '0' :: digits else digits
  let mark := if alternative && base = 16 && size ≠ 0 then ['0', 'x'] else []
  let sign := if signed then s.sign (n < 0) else []
  s.pad s.precision.isNone (sign ++ inCaseOf letter mark) (inCaseOf letter digits)

/-- Digits with a point before the last `places` of them. -/
def withPoint (alternative : Bool) (places : Nat) (digits : List Char) : List Char :=
  let padded := List.replicate (places + 1 - digits.length) '0' ++ digits
  let cut := padded.length - places
  let fraction := padded.drop cut
  padded.take cut ++ (if fraction.isEmpty && !alternative then [] else '.' :: fraction)

/-- A positive number with a number of places after the point. -/
def positional (alternative : Bool) (places : Nat) (r : Rat) : List Char :=
  withPoint alternative places
    (Nat.toDigits 10 (Binary64.roundHalfEven (r * Binary64.tenPow places)))

/-- The digits of a number, with `places` of them after the first, and the exponent of the first. -/
def scientificDigits (places : Nat) (r : Rat) : Nat × Int :=
  if r = 0 then (0, 0)
  else
    let exponent := Binary64.decimalExponent r - 1
    let digits := Binary64.roundHalfEven (r / Binary64.tenPow (exponent - places))
    if digits = Nat.pow 10 (places + 1) then (Nat.pow 10 places, exponent + 1)
    else (digits, exponent)

/-- A number with one digit before the point, and an exponent. -/
def scientific (alternative : Bool) (places : Nat) (r : Rat) : List Char :=
  let (digits, exponent) := scientificDigits places r
  let exponentDigits := Nat.toDigits 10 exponent.natAbs
  withPoint alternative places (Nat.toDigits 10 digits)
    ++ 'e' :: (if exponent < 0 then '-' else '+')
      :: List.replicate (2 - exponentDigits.length) '0' ++ exponentDigits

/-- A number without the zeros at its end, and without the point after which nothing is left. -/
def withoutZeros (cs : List Char) : List Char :=
  let mantissa := cs.takeWhile (· ≠ 'e')
  let exponent := cs.dropWhile (· ≠ 'e')
  if mantissa.contains '.' then
    let cut := (mantissa.reverse.dropWhile (· = '0'))
    let cut := if cut.head? = some '.' then cut.tail else cut
    cut.reverse ++ exponent
  else cs

/-- A number in whichever way is shorter. -/
def general (alternative : Bool) (precision : Nat) (r : Rat) : List Char :=
  let significant := max precision 1
  let (_, exponent) := scientificDigits (significant - 1) r
  let written :=
    if -4 ≤ exponent && exponent < significant then
      positional alternative ((significant : Int) - 1 - exponent).toNat r
    else scientific alternative (significant - 1) r
  if alternative then written else withoutZeros written

/-- A real number as a place wants it. -/
def Written.real (s : Written) (letter : Char) (x : Binary64) : List Char :=
  let alternative := s.flags.contains '#'
  let precision := s.precision.getD 6
  let write (negative : Bool) (r : Rat) : List Char :=
    let body := match letter.toLower with
      | 'e' => scientific alternative precision r
      | 'f' => positional alternative precision r
      | _ => general alternative precision r
    s.pad true (s.sign negative) (inCaseOf letter body)
  match x with
  | .nan => s.pad false (s.sign false) (inCaseOf letter ['n', 'a', 'n'])
  | .infinity negative => s.pad false (s.sign negative) (inCaseOf letter ['i', 'n', 'f'])
  | .negativeZero => write true 0
  | .finite r => if r < 0 then write true (-r) else write false r

/-- A text as a place wants it. -/
def Written.text (s : Written) (cs : List Char) : List Char :=
  s.pad false [] (match s.precision with
    | some n => cs.take n
    | none => cs)

/-! ## Formatting -/

/-- What has been made of a format and values. -/
structure Formatted where
  output : List Char := []
  warnings : List String := []
  /-- Why nothing more can be written. -/
  failure : Option String := none
  /-- Whether a value has ended all output. -/
  ended : Bool := false
  values : List String

namespace Formatted

/-- Takes the next value. -/
def next (f : Formatted) : Option String × Formatted :=
  (f.values.head?, { f with values := f.values.tail })

/-- Notes a warning. -/
def noting (f : Formatted) (warning : Option String) : Formatted :=
  { f with warnings := f.warnings ++ warning.toList }

/-- Writes characters. -/
def writing (f : Formatted) (cs : List Char) : Formatted := { f with output := f.output ++ cs }

/-- Takes the next value as a whole number. -/
def nextWhole (f : Formatted) (signed : Bool) : Int × Formatted :=
  match f.next with
  | (none, f) => (0, f)
  | (some s, f) =>
    let converted := wholeNumber signed s
    (converted.value, f.noting converted.warning)

/-- How wide or exact a value is to be written. -/
def extent (f : Formatted) : Option Extent → Option Int × Formatted
  | none => (none, f)
  | some (.fixed n) => (some n, f)
  | some .given =>
    let (n, f) := f.nextWhole true
    (some n, f)

/-- Fills a place. -/
def fill (f : Formatted) (p : Place) : Formatted :=
  let (width, f) := f.extent p.width
  let (precision, f) := f.extent p.precision
  let width := width.getD 0
  let shape : Written :=
    { flags := if width < 0 then '-' :: p.flags else p.flags
      width := width.natAbs
      precision := precision.bind fun n => if n < 0 then none else some n.toNat }
  match p.letter with
  | 'b' =>
    let (s, f) := f.next
    let (text, ended) := unescape (s.getD "")
    { (f.writing (shape.text text.toList)) with ended }
  | 'c' =>
    let (s, f) := f.next
    f.writing (shape.pad false [] [(s.getD "").toList.headD '\x00'])
  | 's' =>
    let (s, f) := f.next
    f.writing (shape.text (s.getD "").toList)
  | 'd' | 'i' =>
    let (n, f) := f.nextWhole true
    f.writing (shape.whole p.letter n)
  | 'o' | 'u' | 'x' | 'X' =>
    let (n, f) := f.nextWhole false
    f.writing (shape.whole p.letter n)
  | letter =>
    if placeLetters.contains letter then
      match f.next with
      | (none, f) => f.writing (shape.real letter (.finite 0))
      | (some s, f) =>
        let converted := realNumber s
        (f.noting converted.warning).writing (shape.real letter converted.value)
    else { f with failure := some s!"{p.text}: invalid directive" }

/-- Goes on with a piece. -/
def step (f : Formatted) (piece : FormatPiece) : Formatted :=
  if f.ended || f.failure.isSome then f
  else match piece with
    | .literal c => f.writing [c]
    | .place p => f.fill p
    | .unfinished => { f with failure := some "missing format character" }

end Formatted

/-- Uses a format as long as it takes values and there are some left. -/
def formatFrom (pieces : List FormatPiece) : (fuel : Nat) → Formatted → Formatted
  | 0, f => f
  | fuel + 1, f =>
    let after := pieces.foldl Formatted.step f
    if after.ended || after.failure.isSome || after.values.isEmpty
        || after.values.length = f.values.length then after
    else formatFrom pieces fuel after

/-- Puts values into a format. -/
def formatAll (format : String) (values : List String) : Formatted :=
  formatFrom (FormatPiece.ofText format) (values.length + 1) { values }

end StorageLayout.Shell
