import StorageLayout.Text.Hex
import StorageLayout.Text.Printable

/-!
# Quoted Text

A text between quotes, as messages show it.

The quote is an apostrophe, unless the text holds an apostrophe and no double quote. The quote
itself and the backslash are escaped with a backslash; line feed, carriage return and tab have
letters; any other character that is not printable is written by its code point, in two, four or
eight hexadecimal digits, whichever is the first to hold it.

## Main definitions

* `quoteFor`: The quote a text is put between.
* `escapeIn`: One character between given quotes.
* `quoted`: The whole text.
-/

namespace StorageLayout.Text

/-- The apostrophe, the usual quote. -/
def apostrophe : Char := '\x27'

/-- The quote for a text: the one that needs no escaping, the apostrophe when both do or neither. -/
def quoteFor (cs : List Char) : Char :=
  if apostrophe ∈ cs ∧ '"' ∉ cs then '"' else apostrophe

/-- One character of a text between the quotes `quote`. -/
def escapeIn (quote c : Char) : List Char :=
  if c = quote ∨ c = '\\' then ['\\', c]
  else if c = '\n' then ['\\', 'n']
  else if c = '\r' then ['\\', 'r']
  else if c = '\t' then ['\\', 't']
  else if isPrintable c then [c]
  else if c.toNat < 0x100 then '\\' :: 'x' :: hexWord 2 c.toNat
  else if c.toNat < 0x10000 then '\\' :: 'u' :: hexWord 4 c.toNat
  else '\\' :: 'U' :: hexWord 8 c.toNat

/-- A text between quotes, with everything escaped that would not show. -/
def quotedChars (cs : List Char) : List Char :=
  let quote := quoteFor cs
  quote :: cs.flatMap (escapeIn quote) ++ [quote]

/-- A text between quotes, with everything escaped that would not show. -/
def quoted (s : String) : String := String.ofList (quotedChars s.toList)

end StorageLayout.Text
