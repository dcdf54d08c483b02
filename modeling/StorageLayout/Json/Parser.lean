import StorageLayout.Json.Basic
import StorageLayout.Text.Numeral

/-!
# Reading JSON

A reader for JSON text that says where and why it stops.

Three values beyond the standard are accepted: `NaN`, `Infinity` and `-Infinity`. A number with
a point or an exponent is rounded to binary floating point, one too great becoming an infinity.
A repeated member keeps the place of the first and the value of the last. Half of a surrogate
pair stands for the replacement character, since it is no character of its own.

A fault records how many characters were left at the point it complains about; `placeOf` finds
line and column from that and the text.

## Main definitions

* `Complaint`: What is wrong at a place.
* `Fault`: A complaint and its place.
* `value`: The value at the start of a text, with what follows.
* `Place`, `placeOf`: Where in a text a complaint points to.
* `Json.parse`: The value that a whole text stands for.
-/

namespace StorageLayout

namespace Json.Parser

/-- What is wrong at a place in a text. -/
inductive Complaint where
  | byteOrderMark
  | expectedValue
  | expectedName
  | expectedColon
  | expectedComma
  | trailingData
  | unterminatedString
  | controlCharacter
  | badEscape
  | badUnicodeEscape
deriving Repr, DecidableEq

/-- A complaint in words. -/
def Complaint.text : Complaint → String
  | .byteOrderMark => "Unexpected UTF-8 BOM (decode using utf-8-sig)"
  | .expectedValue => "Expecting value"
  | .expectedName => "Expecting property name enclosed in double quotes"
  | .expectedColon => "Expecting ':' delimiter"
  | .expectedComma => "Expecting ',' delimiter"
  | .trailingData => "Extra data"
  | .unterminatedString => "Unterminated string starting at"
  | .controlCharacter => "Invalid control character at"
  | .badEscape => "Invalid \\escape"
  | .badUnicodeEscape => "Invalid \\uXXXX escape"

/-- Why reading stops. -/
inductive Fault where
  /-- The text is no JSON; `remaining` characters were left at the place complained about. -/
  | complaint (what : Complaint) (remaining : Nat)
  /-- A whole number has more digits than are read. -/
  | hugeInteger
deriving Repr, DecidableEq

/-- Stops with a complaint about the place where `at_` begins. -/
def complain {α : Type} (what : Complaint) (at_ : List Char) : Except Fault α :=
  .error (.complaint what at_.length)

/-- The four characters that may stand between tokens. -/
def isSpace (c : Char) : Bool := c == ' ' || c == '\t' || c == '\n' || c == '\r'

/-- A text from its first character that is no space. -/
def skipSpaces (cs : List Char) : List Char := cs.dropWhile isSpace

/-! ## Strings -/

/-- The character that a single letter means after a backslash. -/
def simpleEscape? : Char → Option Char
  | '"' => some '"'
  | '\\' => some '\\'
  | '/' => some '/'
  | 'b' => some '\x08'
  | 'f' => some '\x0c'
  | 'n' => some '\n'
  | 'r' => some '\r'
  | 't' => some '\t'
  | _ => none

/-- The value of four hexadecimal digits. -/
def codeUnit? (a b c d : Char) : Option Nat := do
  let a ← Text.hexValue? a
  let b ← Text.hexValue? b
  let c ← Text.hexValue? c
  let d ← Text.hexValue? d
  return ((a * 16 + b) * 16 + c) * 16 + d

/-- The first half of a surrogate pair. -/
def isHighSurrogate (n : Nat) : Bool := 0xd800 ≤ n && n < 0xdc00

/-- The second half of a surrogate pair. -/
def isLowSurrogate (n : Nat) : Bool := 0xdc00 ≤ n && n < 0xe000

/-- The character of a surrogate pair. -/
def joinSurrogates (high low : Nat) : Char :=
  Char.ofNat (0x10000 + (high - 0xd800) * 0x400 + (low - 0xdc00))

/-- The character of a single code unit. -/
def unitChar (n : Nat) : Char :=
  if isHighSurrogate n || isLowSurrogate n then '\ufffd' else Char.ofNat n

/-- The rest of a string; `start` is the text from its opening quote on, and `done` holds its
characters so far, last first. A code unit is only read when something follows it, if only the
closing quote. -/
def stringBody (start : List Char) : (done : List Char) → List Char →
    Except Fault (String × List Char)
  | _, [] => complain .unterminatedString start
  | done, '"' :: rest => .ok (String.ofList done.reverse, rest)
  | _, ['\\'] => complain .unterminatedString start
  | done, '\\' :: 'u' :: a :: b :: c :: d :: next :: rest =>
    match codeUnit? a b c d with
    | none => .error (.complaint .badUnicodeEscape (rest.length + 6))
    | some unit =>
      match next, rest with
      | '\\', 'u' :: p :: q :: r :: s :: after :: rest' =>
        if isHighSurrogate unit then
          match codeUnit? p q r s with
          | none => .error (.complaint .badUnicodeEscape (rest'.length + 6))
          | some low =>
            if isLowSurrogate low then
              stringBody start (joinSurrogates unit low :: done) (after :: rest')
            else stringBody start (unitChar unit :: done)
              ('\\' :: 'u' :: p :: q :: r :: s :: after :: rest')
        else stringBody start (unitChar unit :: done)
          ('\\' :: 'u' :: p :: q :: r :: s :: after :: rest')
      | next, rest => stringBody start (unitChar unit :: done) (next :: rest)
  | _, '\\' :: 'u' :: rest => .error (.complaint .badUnicodeEscape (rest.length + 1))
  | done, '\\' :: c :: rest =>
    match simpleEscape? c with
    | some e => stringBody start (e :: done) rest
    | none => .error (.complaint .badEscape (rest.length + 2))
  | done, c :: rest =>
    if c.toNat < 32 then .error (.complaint .controlCharacter (rest.length + 1))
    else stringBody start (c :: done) rest

/-! ## Numbers -/

/-- An ASCII digit. -/
def isDigit (c : Char) : Bool := '0' ≤ c && c ≤ '9'

/-- Splits the ASCII digits off the front of a text. -/
def digits (cs : List Char) : List Char × List Char := (cs.takeWhile isDigit, cs.dropWhile isDigit)

/-- The whole part of a number: a zero, or digits that do not begin with one. -/
def wholePart? : List Char → Option (List Char × List Char)
  | [] => none
  | c :: rest =>
    if c = '0' then some (['0'], rest)
    else if isDigit c then some (digits (c :: rest))
    else none

/-- The digits after a point; none, and nothing read, when no digit follows. -/
def fractionPart : List Char → List Char × List Char
  | '.' :: rest =>
    match digits rest with
    | ([], _) => ([], '.' :: rest)
    | found => found
  | cs => ([], cs)

/-- An exponent, if a complete one is next. -/
def exponentPart? (cs : List Char) : Option (Int × List Char) :=
  match cs with
  | [] => none
  | c :: rest =>
    if c = 'e' ∨ c = 'E' then
      let (negative, body) := Text.splitSign rest
      match digits body with
      | ([], _) => none
      | (ds, after) => some (Text.withSign negative (Text.digitsValue ds), after)
    else none

/-- The number at the start of a text. Whole numbers longer than `limit` digits are refused. -/
def number (limit : Option Nat) (cs : List Char) : Except Fault (Json × List Char) :=
  let negative := cs.head? = some '-'
  match wholePart? (if negative then cs.tail else cs) with
  | none => complain .expectedValue cs
  | some (whole, rest) =>
    match fractionPart rest, exponentPart? (fractionPart rest).2 with
    | ([], _), none =>
      if limit.any (· < whole.length) then .error .hugeInteger
      else .ok (.int (Text.withSign negative (Text.digitsValue whole)), rest)
    | (fraction, after), exponent =>
      let (e, after) := exponent.getD (0, after)
      .ok (.real (Binary64.ofDecimal negative (Text.digitsValue (whole ++ fraction))
        (e - fraction.length)), after)

/-! ## Values -/

/-- The words that stand for values. -/
def words : List (List Char × Json) :=
  [("null".toList, .null), ("true".toList, .bool true), ("false".toList, .bool false),
    ("NaN".toList, .real .nan), ("Infinity".toList, .real (.infinity false)),
    ("-Infinity".toList, .real (.infinity true))]

/-- The word at the start of a text. -/
def word? (cs : List Char) : Option (Json × List Char) :=
  words.findSome? fun (w, v) =>
    if w.isPrefixOf cs then some (v, cs.drop w.length) else none

mutual

/-- The value at the start of a text. Each call works on a shorter text or is followed by one that
does, so twice the length of the text is `fuel` enough. -/
def value (limit : Option Nat) : (fuel : Nat) → List Char → Except Fault (Json × List Char)
  | 0, cs => complain .expectedValue cs
  | fuel + 1, cs =>
    match cs with
    | '"' :: rest => do
      let (s, after) ← stringBody cs [] rest
      return (.str s, after)
    | '[' :: rest =>
      match skipSpaces rest with
      | ']' :: after => .ok (.arr [], after)
      | inside => do
        let (items, after) ← items limit fuel inside
        return (.arr items, after)
    | '\x7b' :: rest =>
      match skipSpaces rest with
      | '\x7d' :: after => .ok (.obj [], after)
      | inside => do
        let (members, after) ← members limit fuel inside
        return (.obj (Assoc.ofList members), after)
    | cs =>
      match word? cs with
      | some found => .ok found
      | none => number limit cs

/-- The items of a list from one of them on, to the closing bracket. -/
def items (limit : Option Nat) : (fuel : Nat) → List Char → Except Fault (List Json × List Char)
  | 0, cs => complain .expectedValue cs
  | fuel + 1, cs => do
    let (item, after) ← value limit fuel cs
    match skipSpaces after with
    | ']' :: rest => return ([item], rest)
    | ',' :: rest =>
      let (others, after) ← items limit fuel (skipSpaces rest)
      return (item :: others, after)
    | rest => complain .expectedComma rest

/-- The members of an object from one of them on, to the closing brace. -/
def members (limit : Option Nat) : (fuel : Nat) → List Char →
    Except Fault (List (String × Json) × List Char)
  | 0, cs => complain .expectedValue cs
  | fuel + 1, cs => do
    match cs with
    | '"' :: rest =>
      let (name, after) ← stringBody cs [] rest
      match skipSpaces after with
      | ':' :: rest =>
        let (v, after) ← value limit fuel (skipSpaces rest)
        match skipSpaces after with
        | '\x7d' :: rest => return ([(name, v)], rest)
        | ',' :: rest =>
          let (others, after) ← members limit fuel (skipSpaces rest)
          return ((name, v) :: others, after)
        | rest => complain .expectedComma rest
      | rest => complain .expectedColon rest
    | cs => complain .expectedName cs

end

/-- A place in a text: characters before it, and the line and column it falls in, from one. -/
structure Place where
  line : Nat
  column : Nat
  offset : Nat
deriving Repr, DecidableEq

/-- The place in a text from which `remaining` characters are left. -/
def placeOf (text : List Char) (remaining : Nat) : Place :=
  let offset := text.length - remaining
  let before := text.take offset
  { line := before.count '\n' + 1
    column := (before.reverse.takeWhile (· ≠ '\n')).length + 1
    offset := offset }

/-- A complaint with its place. -/
def Complaint.message (what : Complaint) (place : Place) : String :=
  s!"{what.text}: line {place.line} column {place.column} (char {place.offset})"

end Json.Parser

open Json.Parser in
/-- The value that a whole text stands for. Whole numbers longer than `limit` digits are refused. -/
def Json.parse (limit : Option Nat) (cs : List Char) : Except Fault Json := do
  if cs.head? = some '\ufeff' then complain .byteOrderMark cs
  let (v, after) ← value limit (2 * cs.length + 2) (skipSpaces cs)
  match skipSpaces after with
  | [] => return v
  | rest => complain .trailingData rest

end StorageLayout
