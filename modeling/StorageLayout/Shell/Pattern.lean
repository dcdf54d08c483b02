/-!
# Patterns

Which texts a pattern stands for.

A pattern is a text in which some characters are not ordinary: a star stands for any characters, a
question mark for one, and brackets for one of those they list. A character that was quoted is
ordinary, whichever it is. Brackets that are not closed are ordinary, too.

## Main definitions

* `Pattern`: What a text has to be, piece by piece.
* `Pattern.ofMarked`: The pattern that characters make, some of them quoted.
* `Pattern.accepts`: Whether a text is one that a pattern stands for.
* `Pattern.trim`: A text without the part at one end that a pattern stands for.
-/

namespace StorageLayout.Shell

/-- A kind of characters, by its name. -/
inductive CharClass where
  | alnum | alpha | blank | cntrl | digit | graph | lower | print | punct | space | upper | xdigit
deriving Repr, DecidableEq

namespace CharClass

/-- Every kind with its name. -/
def named : List (String × CharClass) :=
  [("alnum", .alnum), ("alpha", .alpha), ("blank", .blank), ("cntrl", .cntrl), ("digit", .digit),
    ("graph", .graph), ("lower", .lower), ("print", .print), ("punct", .punct), ("space", .space),
    ("upper", .upper), ("xdigit", .xdigit)]

/-- The kind with a name. -/
def ofName? (name : String) : Option CharClass := (named.find? (·.1 = name)).map (·.2)

/-- Whether a character is visible. -/
def isGraph (c : Char) : Bool := '!' ≤ c && c ≤ '~'

/-- Whether a character is of a kind. Only characters of seven bits are of any. -/
def contains (k : CharClass) (c : Char) : Bool :=
  match k with
  | .alnum => c.isAlphanum
  | .alpha => c.isAlpha
  | .blank => c == ' ' || c == '\t'
  | .cntrl => c.toNat < 32 || c.toNat == 127
  | .digit => c.isDigit
  | .graph => isGraph c
  | .lower => c.isLower
  | .print => c == ' ' || isGraph c
  | .punct => isGraph c && !c.isAlphanum
  | .space => c == ' ' || (9 ≤ c.toNat && c.toNat ≤ 13)
  | .upper => c.isUpper
  | .xdigit => c.isDigit || ('a' ≤ c && c ≤ 'f') || ('A' ≤ c && c ≤ 'F')

end CharClass

/-- What brackets list. -/
inductive BracketItem where
  | range (low high : Char)
  | kind (k : CharClass)
deriving Repr, DecidableEq

/-- Whether a character is one of those that an item lists. -/
def BracketItem.contains (c : Char) : BracketItem → Bool
  | .range low high => low ≤ c && c ≤ high
  | .kind k => k.contains c

/-- A piece of a pattern. -/
inductive Glyph where
  | literal (c : Char)
  | any
  | many
  | oneOf (negated : Bool) (items : List BracketItem)
deriving Repr, DecidableEq

/-- Whether a single character is what a piece asks for. -/
def Glyph.accepts (c : Char) : Glyph → Bool
  | .literal d => c == d
  | .any => true
  | .many => true
  | .oneOf negated items => items.any (·.contains c) != negated

/-- What a text has to be, piece by piece. -/
abbrev Pattern := List Glyph

namespace Pattern

/-- A character, and whether it was quoted. -/
abbrev Marked := Char × Bool

/-- The name of a kind of characters, up to the colon and the bracket after it. -/
def className : List Marked → Option (String × List Marked)
  | (':', false) :: (']', false) :: rest => some ("", rest)
  | (c, _) :: rest =>
    if c.isAlpha then (className rest).map fun (name, after) => (c.toString ++ name, after)
    else none
  | [] => none

/-- What brackets list, and what follows them. The first character is never the bracket that closes
them. -/
def bracketItems : (fuel : Nat) → (first : Bool) → List Marked →
    Option (List BracketItem × List Marked)
  | 0, _, _ => none
  | _, _, [] => none
  | fuel + 1, first, (c, quoted) :: rest =>
    if c = ']' && !quoted && !first then some ([], rest)
    else
      let single (c : Char) (rest : List Marked) :=
        match rest with
        | ('-', false) :: (']', false) :: _ =>
          (bracketItems fuel false rest).map fun (items, after) => (.range c c :: items, after)
        | ('-', false) :: ('\\', false) :: (d, _) :: rest | ('-', false) :: (d, _) :: rest =>
          (bracketItems fuel false rest).map fun (items, after) => (.range c d :: items, after)
        | rest =>
          (bracketItems fuel false rest).map fun (items, after) => (.range c c :: items, after)
      if c = '[' && !quoted then
        match rest with
        | (':', false) :: named =>
          match (className named).bind fun (n, after) =>
            (CharClass.ofName? n).map fun k => (k, after) with
          | some (k, after) =>
            (bracketItems fuel false after).map fun (items, rest) => (.kind k :: items, rest)
          | none => single c rest
        | rest => single c rest
      else if c = '\\' && !quoted then
        match rest with
        | (d, _) :: rest => single d rest
        | [] => none
      else single c rest

/-- What follows an opening bracket, as a piece of a pattern; nothing if the bracket is ordinary. -/
def bracket (cs : List Marked) : Option (Glyph × List Marked) :=
  let (negated, body) := match cs with
    | ('!', false) :: rest | ('^', false) :: rest => (true, rest)
    | cs => (false, cs)
  (bracketItems (body.length + 1) true body).map fun (items, rest) => (.oneOf negated items, rest)

/-- The pattern of characters, of which there are at most `fuel`. -/
def ofMarkedFrom : (fuel : Nat) → List Marked → Pattern
  | 0, _ => []
  | _, [] => []
  | fuel + 1, (c, true) :: rest => .literal c :: ofMarkedFrom fuel rest
  | fuel + 1, (c, false) :: rest =>
    match c with
    | '*' => .many :: ofMarkedFrom fuel rest
    | '?' => .any :: ofMarkedFrom fuel rest
    | '[' =>
      match bracket rest with
      | some (piece, after) => piece :: ofMarkedFrom fuel after
      | none => .literal '[' :: ofMarkedFrom fuel rest
    | '\\' =>
      match rest with
      | (d, _) :: rest => .literal d :: ofMarkedFrom fuel rest
      | [] => [.literal '\\']
    | c => .literal c :: ofMarkedFrom fuel rest

/-- The pattern that characters make. A backslash that was not quoted quotes what follows it. -/
def ofMarked (cs : List Marked) : Pattern := ofMarkedFrom cs.length cs

/-- Whether a text is one that a pattern stands for. -/
def accepts : Pattern → List Char → Bool
  | [], cs => cs.isEmpty
  | .many :: rest, [] => accepts rest []
  | .many :: rest, c :: cs => accepts rest (c :: cs) || accepts (.many :: rest) cs
  | _ :: _, [] => false
  | piece :: rest, c :: cs => piece.accepts c && accepts rest cs
termination_by p cs => p.length + cs.length

/-- Whether a pattern is a text and no more. -/
def isLiteral (p : Pattern) : Bool := p.all fun g => match g with
  | .literal _ => true
  | _ => false

/-- The text of a pattern that is no more than a text. -/
def literalText (p : Pattern) : String := String.ofList (p.filterMap fun g => match g with
  | .literal c => some c
  | _ => none)

/-- A text without the part at its start, or at its end, that a pattern stands for: the shortest
such part, or the longest. A text without one stays as it is. -/
def trim (p : Pattern) (atEnd longest : Bool) (cs : List Char) : List Char :=
  let lengths := List.range (cs.length + 1)
  let ordered := if longest then lengths.reverse else lengths
  let part (n : Nat) := if atEnd then cs.drop (cs.length - n) else cs.take n
  match ordered.find? fun n => p.accepts (part n) with
  | some n => if atEnd then cs.take (cs.length - n) else cs.drop n
  | none => cs

end Pattern

end StorageLayout.Shell
