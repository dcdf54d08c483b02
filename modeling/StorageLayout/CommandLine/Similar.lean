/-!
# Similar Words

Words that somebody may have meant who mistyped one.

Two words are compared by what they share: the longest block of characters that stands in both,
then in the same way what is left of it and what is right of it on either side. The likeness of
two words is twice the number of shared characters over the number of all.

## Main definitions

* `shared`: The number of shared characters.
* `likeness`: How alike two words are.
* `similar`: The words most alike to a given one.
-/

namespace StorageLayout.CommandLine

/-- The length of the longest common beginning of two lists. -/
def commonStart : List Char → List Char → Nat
  | a :: as, b :: bs => if a = b then commonStart as bs + 1 else 0
  | _, _ => 0

/-- A block that stands in two lists: its start in each, and its length. -/
structure Block where
  left : Nat
  right : Nat
  length : Nat
deriving Repr, DecidableEq

/-- The longest block of two lists; of several the one that starts first in the left list, and of
those the first in the right one. -/
def longestBlock (as bs : List Char) : Block :=
  let starts := (List.range as.length).flatMap fun i =>
    (List.range bs.length).map fun j => Block.mk i j (commonStart (as.drop i) (bs.drop j))
  starts.foldl (fun best b => if best.length < b.length then b else best) ⟨0, 0, 0⟩

/-- The number of characters in shared blocks. A block that is found is not empty, so that the
length of the left word is `fuel` enough. -/
def sharedWithin : (fuel : Nat) → List Char → List Char → Nat
  | 0, _, _ => 0
  | fuel + 1, as, bs =>
    let b := longestBlock as bs
    if b.length = 0 then 0
    else sharedWithin fuel (as.take b.left) (bs.take b.right) + b.length
      + sharedWithin fuel (as.drop (b.left + b.length)) (bs.drop (b.right + b.length))

/-- The number of characters that two words share. -/
def shared (a b : List Char) : Nat := sharedWithin (a.length + 1) a b

/-- How alike two words are, from zero to one. -/
def likeness (a b : String) : Rat :=
  let total := a.length + b.length
  if total = 0 then 1 else (2 * shared a.toList b.toList : Nat) / (total : Nat)

/-- Up to three candidates that are alike to a word by six tenths at least, the most alike first; of
two that are equally so, the later in the alphabet. -/
def similar (word : String) (candidates : List String) : List String :=
  let close := (candidates.map fun c => (likeness c word, c)).filter fun s => 6 / 10 ≤ s.1
  ((close.mergeSort fun a b => b.1 < a.1 || (a.1 == b.1 && b.2 ≤ a.2)).take 3).map (·.2)

end StorageLayout.CommandLine
