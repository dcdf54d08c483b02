import Mathlib.Data.List.TakeWhile
import Mathlib.Tactic.Common
import StorageLayout.ArrayLength

/-!
# Bounds at the End of a Text

Which texts end in the bound of an array, and which number it is.

A label ends in a bound when it is anything at all, followed by an opening bracket, a numeral and a
closing bracket; a key does when the same holds with its own characters around the numeral. The
reader starts at the end and takes digits for as long as there are any, so it never comes to what
stands before the bound, and bounds in there cannot be mistaken for it. This is why a text has one
bound at most, and why it is the outermost one.

The reader also knows the digits of other scripts and lets a line feed follow the bound. In a
printable text there is neither, and then it finds a bound exactly where there is one
(`digitsBefore?_eq_some_iff`).

## Main definitions

* `IsNumeral`, `numeralValue`: A numeral in base ten, and its value.
* `EndsInBound`: A text ends in a bound.
* `IsPrintable`: A text of printable ASCII characters.

## Theorems

* `lengthOfDigits_eq`: The length that a numeral stands for.
* `digitsBefore?_of_ends`: A bound at the end of a text is found, whatever stands before it.
* `digitsBefore?_eq_some_iff`, `digitsBefore?_eq_none_iff`: The bounds of printable texts.
* `boundOfLabel?_of_ends`, `boundOfKey?_of_ends`: The bounds of labels and of keys.
-/

namespace StorageLayout

/-- A numeral in base ten: one digit or more, and nothing else. -/
def IsNumeral (digits : List Char) : Prop := digits ≠ [] ∧ ∀ c ∈ digits, c.isDigit = true

instance (digits : List Char) : Decidable (IsNumeral digits) :=
  decidable_of_iff (digits.isEmpty = false ∧ digits.all Char.isDigit = true)
    (and_congr List.isEmpty_eq_false_iff List.all_eq_true)

/-- The value of a numeral. -/
def numeralValue (digits : List Char) : Nat := Nat.ofDigitChars 10 digits 0

/-- A text ends in a bound: a numeral between the character that opens a bound and those that close
it. -/
def EndsInBound (opening : Char) (closing digits cs : List Char) : Prop :=
  IsNumeral digits ∧ ∃ before, cs = before ++ opening :: digits ++ closing

/-- A text holds printable ASCII characters only. -/
def IsPrintable (cs : List Char) : Prop := ∀ c ∈ cs, 32 ≤ c.toNat ∧ c.toNat < 127

instance (cs : List Char) : Decidable (IsPrintable cs) :=
  decidable_of_iff (cs.all (fun c => decide (32 ≤ c.toNat ∧ c.toNat < 127)) = true) (by
    simp only [List.all_eq_true, decide_eq_true_eq, IsPrintable])

namespace Text

/-- An ASCII digit has its distance from zero as its value. -/
theorem digitValue?_of_isDigit (c : Char) (h : c.isDigit = true) :
    digitValue? c = some (c.toNat - '0'.toNat) := by
  have hrange := Char.isDigit_iff_toNat.mp h
  -- The zero of ASCII comes first in the table.
  have hfound : (zeros.find? fun z => z ≤ c.toNat && c.toNat ≤ z + 9) = some 0x30 := by
    refine List.find?_cons_of_pos ?_
    rw [Bool.and_eq_true, decide_eq_true_eq, decide_eq_true_eq]
    exact hrange
  rw [digitValue?, hfound]
  rfl

theorem isDecimalDigit_of_isDigit (c : Char) (h : c.isDigit = true) : isDecimalDigit c = true := by
  rw [isDecimalDigit, digitValue?_of_isDigit c h]
  rfl

/-- Among the characters of ASCII there are no other digits. -/
theorem isDigit_of_isDecimalDigit (c : Char) (hc : c.toNat < 127) (h : isDecimalDigit c = true) :
    c.isDigit = true := by
  rw [isDecimalDigit, digitValue?, Option.isSome_map, List.find?_isSome] at h
  rcases h with ⟨z, hz, hrange⟩
  rw [Bool.and_eq_true, decide_eq_true_eq, decide_eq_true_eq] at hrange
  -- All other zeros of the table lie beyond ASCII.
  have hzero : z = 0x30 ∨ 127 ≤ z := by
    have hall : ∀ z ∈ zeros, z = 0x30 ∨ 127 ≤ z := by decide
    exact hall z hz
  have hlower : '0'.toNat = 0x30 := rfl
  have hupper : '9'.toNat = 0x39 := rfl
  refine Char.isDigit_iff_toNat.mpr ?_
  omega

/-- The value of ASCII digits, on top of what has been read before them. -/
theorem foldl_digitValue (digits : List Char) (h : ∀ c ∈ digits, c.isDigit = true) (n : Nat) :
    digits.foldl (fun value c => 10 * value + (digitValue? c).getD 0) n
      = Nat.ofDigitChars 10 digits n := by
  unfold Nat.ofDigitChars
  induction digits generalizing n with
  | nil => rfl
  | cons c rest ih =>
      rw [List.foldl_cons, List.foldl_cons, digitValue?_of_isDigit c (h c List.mem_cons_self)]
      exact ih (fun d hd => h d (List.mem_cons_of_mem c hd)) _

theorem digitsValue_eq (digits : List Char) (h : IsNumeral digits) :
    digitsValue digits = numeralValue digits :=
  foldl_digitValue digits h.2 0

end Text

/-- The length that a numeral stands for is its value, unless it has too many digits. -/
theorem lengthOfDigits_eq (digits : List Char) (h : IsNumeral digits) :
    lengthOfDigits digits =
      if digits.length ≤ Text.maxDigits then .ok (.int (numeralValue digits))
      else Defect.badContent.fail := by
  unfold lengthOfDigits Text.boundedDigits
  by_cases hlength : digits.length ≤ Text.maxDigits
  · rw [if_neg (Nat.not_lt.mpr hlength), if_pos hlength, Text.digitsValue_eq digits h]
  · rw [if_pos (Nat.lt_of_not_le hlength), if_neg hlength]

section Bounds

variable (opening : Char) (closing digits cs : List Char)

theorem dropFinalNewline_eq (h : cs.getLast? ≠ some '\n') : dropFinalNewline cs = cs := if_neg h

/-- A bound at the end of a text is found, whatever stands before it. -/
theorem digitsBefore?_of_ends (hopening : Text.isDecimalDigit opening = false) (last : Char)
    (hclosing : closing.getLast? = some last) (hlast : last ≠ '\n')
    (h : EndsInBound opening closing digits cs) :
    digitsBefore? opening closing cs = some digits := by
  rcases h with ⟨⟨hne, hdigits⟩, before, hcs⟩
  have hend : cs.getLast? ≠ some '\n' := by
    rw [hcs, List.getLast?_append, hclosing, Option.some_or]
    exact fun heq => hlast (Option.some.inj heq)
  -- Read from the end: what closes the bound, its digits, and the character that opens it.
  have hreverse : cs.reverse
      = closing.reverse ++ (digits.reverse ++ opening :: before.reverse) := by
    rw [hcs, List.reverse_append, List.reverse_append, List.reverse_cons, List.append_assoc,
      List.singleton_append]
  have hall : ∀ c ∈ digits.reverse, Text.isDecimalDigit c = true := by
    intro c hc
    exact Text.isDecimalDigit_of_isDigit c (hdigits c (List.mem_reverse.mp hc))
  have hstop : ¬ Text.isDecimalDigit opening = true := by
    rw [hopening]
    exact Bool.false_ne_true
  have hprefix : closing.reverse.isPrefixOf
      (closing.reverse ++ (digits.reverse ++ opening :: before.reverse)) = true :=
    List.isPrefixOf_iff_prefix.mpr (List.prefix_append _ _)
  have htake : (digits.reverse ++ opening :: before.reverse).takeWhile Text.isDecimalDigit
      = digits.reverse := by
    rw [List.takeWhile_append_of_pos hall, List.takeWhile_cons_of_neg hstop, List.append_nil]
  have hrest : (digits.reverse ++ opening :: before.reverse).dropWhile Text.isDecimalDigit
      = opening :: before.reverse := by
    rw [List.dropWhile_append_of_pos hall, List.dropWhile_cons_of_neg hstop]
  have hne' : digits.reverse ≠ [] := fun hnil => hne (List.reverse_eq_nil_iff.mp hnil)
  unfold digitsBefore?
  rw [dropFinalNewline_eq cs hend]
  simp only [hreverse]
  rw [if_pos hprefix, List.drop_left' List.length_reverse, htake, hrest,
    if_pos ⟨hne', rfl⟩, List.reverse_reverse]

/-- Where digits are found, they stand in a bound at the end of the text. -/
theorem ends_of_digitsBefore? (h : digitsBefore? opening closing cs = some digits) :
    digits ≠ [] ∧ (∀ c ∈ digits, Text.isDecimalDigit c = true) ∧
      ∃ before, dropFinalNewline cs = before ++ opening :: digits ++ closing := by
  unfold digitsBefore? at h
  simp only at h
  generalize dropFinalNewline cs = text at h ⊢
  split at h
  · rename_i hprefix
    split at h
    · rename_i hfound
      injection h with h
      rcases List.isPrefixOf_iff_prefix.mp hprefix with ⟨rest, hrest⟩
      rw [← hrest, List.drop_left' List.length_reverse] at hfound h
      rcases hfound with ⟨hne, hhead⟩
      refine ⟨?_, ?_, ?_⟩
      · rw [← h]
        exact fun hnil => hne (List.reverse_eq_nil_iff.mp hnil)
      · intro c hc
        rw [← h, List.mem_reverse] at hc
        exact List.mem_takeWhile_imp hc
      · -- What is left after the digits begins with the character that opens the bound.
        rcases List.head?_eq_some_iff.mp hhead with ⟨before, hbefore⟩
        have hsplit := List.takeWhile_append_dropWhile (p := Text.isDecimalDigit) (l := rest)
        rw [hbefore] at hsplit
        refine ⟨before.reverse, ?_⟩
        rw [← List.reverse_inj, ← hrest, ← h]
        simp only [List.reverse_append, List.reverse_cons, List.reverse_reverse, List.append_assoc,
          List.singleton_append, hsplit]
    · exact absurd h (by simp only [reduceCtorEq, not_false_eq_true])
  · exact absurd h (by simp only [reduceCtorEq, not_false_eq_true])

/-- In a printable text, digits are found exactly if they are the bound at its end. -/
theorem digitsBefore?_eq_some_iff (hopening : Text.isDecimalDigit opening = false) (last : Char)
    (hclosing : closing.getLast? = some last) (hlast : last ≠ '\n') (hcs : IsPrintable cs) :
    digitsBefore? opening closing cs = some digits ↔ EndsInBound opening closing digits cs := by
  constructor
  · intro h
    rcases ends_of_digitsBefore? opening closing digits cs h with ⟨hne, hdigits, before, htext⟩
    -- The pattern would pass over a line break at the end, but nothing that is printable is one.
    have hend : cs.getLast? ≠ some '\n' := by
      intro heq
      have hprintable := hcs '\n' (List.mem_of_getLast? heq)
      have hcode : '\n'.toNat = 10 := rfl
      omega
    rw [dropFinalNewline_eq cs hend] at htext
    refine ⟨⟨hne, fun c hc => ?_⟩, before, htext⟩
    have hmem : c ∈ cs := by
      rw [htext]
      exact List.mem_append_left _ (List.mem_append_right _ (List.mem_cons_of_mem _ hc))
    exact Text.isDigit_of_isDecimalDigit c (hcs c hmem).2 (hdigits c hc)
  · exact digitsBefore?_of_ends opening closing digits cs hopening last hclosing hlast

/-- In a printable text without a bound at its end, none is found. -/
theorem digitsBefore?_eq_none_iff (hopening : Text.isDecimalDigit opening = false) (last : Char)
    (hclosing : closing.getLast? = some last) (hlast : last ≠ '\n') (hcs : IsPrintable cs) :
    digitsBefore? opening closing cs = none ↔ ∀ ds, ¬ EndsInBound opening closing ds cs := by
  rw [Option.eq_none_iff_forall_ne_some]
  refine forall_congr' fun ds => not_congr ?_
  exact digitsBefore?_eq_some_iff opening closing ds cs hopening last hclosing hlast hcs

end Bounds

/-- A label ends in a bound. -/
def LabelEndsIn (label : String) (digits : List Char) : Prop :=
  EndsInBound '[' [']'] digits label.toList

/-- A key ends in a bound. -/
def KeyEndsIn (key : String) (digits : List Char) : Prop :=
  EndsInBound ')' "_storage".toList digits key.toList

theorem boundOfLabel?_of_ends (label : String) (digits : List Char) (h : LabelEndsIn label digits) :
    boundOfLabel? label = some digits :=
  digitsBefore?_of_ends '[' [']'] digits _ (by decide) ']' rfl (by decide) h

theorem boundOfKey?_of_ends (key : String) (digits : List Char) (h : KeyEndsIn key digits) :
    boundOfKey? key = some digits :=
  digitsBefore?_of_ends ')' "_storage".toList digits _ (by decide) 'e' rfl (by decide) h

theorem boundOfLabel?_eq_none_iff (label : String) (h : IsPrintable label.toList) :
    boundOfLabel? label = none ↔ ∀ digits, ¬ LabelEndsIn label digits :=
  digitsBefore?_eq_none_iff '[' [']'] _ (by decide) ']' rfl (by decide) h

theorem boundOfKey?_eq_none_iff (key : String) (h : IsPrintable key.toList) :
    boundOfKey? key = none ↔ ∀ digits, ¬ KeyEndsIn key digits :=
  digitsBefore?_eq_none_iff ')' "_storage".toList _ (by decide) 'e' rfl (by decide) h

/-- A label that is made of anything and a bound. -/
theorem labelEndsIn_append (before : String) (digits : List Char) (h : IsNumeral digits) :
    LabelEndsIn (before ++ "[" ++ String.ofList digits ++ "]") digits := by
  refine ⟨h, before.toList, ?_⟩
  simp only [String.toList_append, String.toList_ofList, List.append_assoc]
  rfl

/-- The key of an array type ends in the bound of the array, whatever its elements are. -/
theorem keyEndsIn_append (element : String) (digits : List Char) (h : IsNumeral digits) :
    KeyEndsIn ("t_array(" ++ element ++ ")" ++ String.ofList digits ++ "_storage") digits := by
  refine ⟨h, ("t_array(" ++ element).toList, ?_⟩
  simp only [String.toList_append, String.toList_ofList, List.append_assoc]
  rfl

end StorageLayout
