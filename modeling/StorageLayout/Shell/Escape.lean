/-!
# Escapes

Characters that are written with a backslash.

## Main definitions

* `escape`: The character that stands after a backslash.
* `unescape`: A text with its escapes replaced.
* `singleQuoted`: A text in quotes, as a shell reads it.
-/

namespace StorageLayout.Shell

/-- Whether a character is a digit of base eight. -/
def isOctal (c : Char) : Bool := '0' ≤ c && c ≤ '7'

/-- The value of digits of base eight. -/
def octalValue (cs : List Char) : Nat := cs.foldl (fun n c => n * 8 + (c.toNat - 48)) 0

/-- The character that stands after a backslash, as up to three octal digits or by a letter, and
what follows it. Before anything else the backslash is ordinary. -/
def escape (cs : List Char) : Char × List Char :=
  match cs with
  | [] => ('\\', [])
  | c :: rest =>
    match c with
    | '\\' => ('\\', rest)
    | 'a' => ('\x07', rest)
    | 'b' => ('\x08', rest)
    | 'e' => ('\x1b', rest)
    | 'f' => ('\x0c', rest)
    | 'n' => ('\n', rest)
    | 'r' => ('\r', rest)
    | 't' => ('\t', rest)
    | 'v' => ('\x0b', rest)
    | _ =>
      let digits := (cs.take 3).takeWhile isOctal
      if digits.isEmpty then ('\\', cs)
      else (Char.ofNat (octalValue digits % 256), cs.drop digits.length)

/-- A text with its escapes replaced, and whether one of them ends all output. Octal digits may have
a zero before them. -/
def unescapeFrom : (fuel : Nat) → List Char → List Char × Bool
  | 0, _ => ([], false)
  | _, [] => ([], false)
  | _, '\\' :: 'c' :: _ => ([], true)
  | fuel + 1, '\\' :: rest =>
    let digits := match rest with
      | '0' :: d :: more => if isOctal d then d :: more else rest
      | rest => rest
    let (c, after) := escape digits
    let (cs, ended) := unescapeFrom fuel after
    (c :: cs, ended)
  | fuel + 1, c :: rest =>
    let (cs, ended) := unescapeFrom fuel rest
    (c :: cs, ended)

/-- A text with its escapes replaced, and whether one of them ends all output. -/
def unescape (s : String) : String × Bool :=
  let (cs, ended) := unescapeFrom (s.toList.length + 1) s.toList
  (String.ofList cs, ended)

/-- Characters in quotes. Apostrophes stand between double quotes. -/
def singleQuotedChars : (fuel : Nat) → List Char → List Char
  | 0, _ => []
  | fuel + 1, cs =>
    let plain := cs.takeWhile (· ≠ '\x27')
    let rest := cs.dropWhile (· ≠ '\x27')
    let marks := rest.takeWhile (· = '\x27')
    let quoted := '\x27' :: plain ++ ['\x27']
    if rest.isEmpty then quoted
    else
      let after := rest.drop marks.length
      quoted ++ '"' :: marks ++ '"' ::
        (if after.isEmpty then [] else singleQuotedChars fuel after)

/-- A text in quotes, as a shell reads it. -/
def singleQuoted (s : String) : String :=
  String.ofList (singleQuotedChars (s.toList.length + 1) s.toList)

end StorageLayout.Shell
