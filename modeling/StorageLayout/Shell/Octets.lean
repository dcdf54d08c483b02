/-!
# Octets

Text as the shell sees it: a character for every byte.

A shell cuts, counts and compares bytes, and what passes through it need not be text at all. So
inside the shell every string is made of characters below 256, one for each byte. Text from
outside is brought into this form by its UTF-8 bytes, and names of files are brought back.

## Main definitions

* `octets`: The bytes of a text, each as a character.
* `ofOctets`: The text that such characters stand for.
* `octetsOfBytes`, `bytesOfOctets`: The same for bytes.
-/

namespace StorageLayout.Shell

/-- Bytes, each as a character. -/
def octetsOfBytes (bytes : List UInt8) : String :=
  String.ofList (bytes.map fun b => Char.ofNat b.toNat)

/-- The bytes that characters below 256 stand for. -/
def bytesOfOctets (s : String) : List UInt8 := s.toList.map fun c => UInt8.ofNat c.toNat

/-- The bytes of a text, each as a character. -/
def octets (s : String) : String := octetsOfBytes s.toUTF8.toList

/-- The text that characters for bytes stand for. What is no text stays as it is. -/
def ofOctets (s : String) : String :=
  (String.fromUTF8? ⟨(bytesOfOctets s).toArray⟩).getD s

end StorageLayout.Shell
