/-!
# Colour Escapes

Colours in terminal text, and their removal.

A colour is switched on and off by a control sequence: the escape character, an opening bracket,
parameters from `0` to `?`, intermediates from the space to `/`, and a final character from `@` to
`~`. Text that goes to something other than a terminal has all such sequences removed, whether the
program or its data put them there.

## Main definitions

* `Colour`: The colours in use.
* `paint`: A text in a colour.
* `stripEscapes`: A text without escape sequences.
-/

namespace StorageLayout.Text

/-- The colours in use. -/
inductive Colour where
  | yellow
  | brightGreen
  | brightMagenta
deriving Repr, DecidableEq

/-- The parameter that switches a colour on. -/
def Colour.code : Colour → String
  | .yellow => "33"
  | .brightGreen => "92"
  | .brightMagenta => "95"

/-- A text in a colour, which ends with the text. -/
def paint (colour : Colour) (s : String) : String :=
  "\x1b[" ++ colour.code ++ "m" ++ s ++ "\x1b[0m"

/-- A character that may follow the bracket of an escape sequence. -/
def isEscapeParameter (c : Char) : Bool := '0' ≤ c && c ≤ '?'

/-- A character that may follow the parameters of an escape sequence. -/
def isEscapeIntermediate (c : Char) : Bool := ' ' ≤ c && c ≤ '/'

/-- A character that ends an escape sequence. -/
def isEscapeFinal (c : Char) : Bool := '@' ≤ c && c ≤ '~'

/-- Whether an escape sequence, held last character first, goes on with a character. No parameter
follows an intermediate. -/
def continuesEscape (held : List Char) (c : Char) : Bool :=
  isEscapeIntermediate c || (isEscapeParameter c && !held.head?.any isEscapeIntermediate)

/-- Removes escape sequences from a text, where `held` is the beginning of a sequence that has been
read already, last character first. What turns out to be no sequence is given back. -/
def stripHeld : (held : List Char) → List Char → List Char
  | held, [] => held.reverse
  | held, c :: rest =>
    if c = '\x1b' then held.reverse ++ stripHeld [c] rest
    else match held with
      | [] => c :: stripHeld [] rest
      | [escape] => if c = '[' then stripHeld [c, escape] rest else escape :: c :: stripHeld [] rest
      | held =>
        if continuesEscape held c then stripHeld (c :: held) rest
        else if isEscapeFinal c then stripHeld [] rest
        else held.reverse ++ c :: stripHeld [] rest

/-- A text without escape sequences; an escape character that starts none stays. -/
def stripEscapes (s : String) : String := String.ofList (stripHeld [] s.toList)

end StorageLayout.Text
