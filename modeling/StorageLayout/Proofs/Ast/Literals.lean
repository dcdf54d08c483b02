import Mathlib.Data.Rat.Defs
import Mathlib.Tactic.Common
import StorageLayout.Proofs.Outcome
import StorageLayout.Text.Numeral

/-!
# Number Literals

The numbers that a source can write, and which of them are read as they are written.

A literal is a decimal or a hexadecimal number. A decimal one can have a point and an exponent, the
digits of either can be grouped by underscores, and a unit can follow it. Its value is a rational
number: `0.5e1` is five.

The reader of integers knows another language. It knows hexadecimal literals and plain decimal ones,
but it takes no leading zeros, no more digits than it likes, and neither a point nor an exponent. So
it reads some of the literals and refuses the others, and the question is whether it ever reads
something else than what was written. It does not (`prefixed_text`, `value_of_integer?`): it goes
through a numeral to its end, and what follows the numeral in a literal makes it refuse the whole.

## Main definitions

* `Digit`, `Numeral`: Digits with the case of their letters, and digits grouped by underscores.
* `NumberLiteral`: The number literals, with their texts and their values.
* `NumberLiteral.integer?`: What a literal is read as, if it is read.
* `Denomination`: The units.

## Theorems

* `magnitude_numeral`: A numeral is read to its end.
* `prefixed_text`: A literal is read as `integer?` says.
* `value_of_integer?`: A literal that is read is read as its value.
-/

namespace StorageLayout.Ast

/-- A digit of a base, and whether its letter is a capital one if it is written as a letter. -/
structure Digit (base : Nat) where
  value : Fin base
  capital : Bool
deriving DecidableEq

/-- The character of a digit. -/
def digitChar (value : Nat) (capital : Bool) : Char :=
  if capital then (Nat.digitChar value).toUpper else Nat.digitChar value

def Digit.char {base : Nat} (d : Digit base) : Char := digitChar d.value d.capital

/-- A numeral: its first digit, and the others with whether an underscore stands before them. -/
structure Numeral (base : Nat) where
  first : Digit base
  rest : List (Bool × Digit base)
deriving DecidableEq

/-- A digit after the first, with its underscore. -/
def groupedChars {base : Nat} (d : Bool × Digit base) : List Char :=
  if d.1 then ['_', d.2.char] else [d.2.char]

/-- The value of further digits, on top of what stands before them. -/
def valueFrom {base : Nat} (value : Nat) (rest : List (Bool × Digit base)) : Nat :=
  rest.foldl (fun v d => base * v + d.2.value) value

namespace Numeral

variable {base : Nat} (n : Numeral base)

def text : List Char := n.first.char :: n.rest.flatMap groupedChars

def value : Nat := valueFrom n.first.value n.rest

/-- How many digits a numeral has. -/
def digits : Nat := n.rest.length + 1

end Numeral

/-- The digits of a decimal number before its exponent. -/
inductive Mantissa where
  | whole (n : Numeral 10)
  | point (before : Option (Numeral 10)) (fraction : Numeral 10)
deriving DecidableEq

namespace Mantissa

def text : Mantissa → List Char
  | .whole n => n.text
  | .point before fraction => before.elim [] Numeral.text ++ '.' :: fraction.text

def value : Mantissa → Rat
  | .whole n => n.value
  | .point before fraction =>
      before.elim 0 (fun n => (n.value : Rat)) + fraction.value / 10 ^ fraction.digits

end Mantissa

/-- The power of ten that a decimal number is multiplied by. -/
structure Exponent where
  capital : Bool
  negative : Bool
  magnitude : Numeral 10
deriving DecidableEq

namespace Exponent

def letter (e : Exponent) : Char := if e.capital then 'E' else 'e'

def text (e : Exponent) : List Char :=
  e.letter :: ((if e.negative then ['-'] else []) ++ e.magnitude.text)

def value (e : Exponent) : Rat :=
  if e.negative then 1 / 10 ^ e.magnitude.value else 10 ^ e.magnitude.value

end Exponent

/-- The number literals. -/
inductive NumberLiteral where
  | hexadecimal (n : Numeral 16)
  | decimal (mantissa : Mantissa) (exponent : Option Exponent)
deriving DecidableEq

/-- A decimal numeral that is read: it does not have too many digits, and it begins with a zero only
if it is zero. -/
def Numeral.IsPlain (n : Numeral 10) : Prop :=
  n.digits ≤ Text.maxDigits ∧ (n.first.value = 0 → n.value = 0)

instance (n : Numeral 10) : Decidable n.IsPlain :=
  inferInstanceAs (Decidable (n.digits ≤ Text.maxDigits ∧ (n.first.value = 0 → n.value = 0)))

namespace NumberLiteral

def text : NumberLiteral → List Char
  | .hexadecimal n => '0' :: 'x' :: n.text
  | .decimal mantissa exponent => mantissa.text ++ exponent.elim [] Exponent.text

def value : NumberLiteral → Rat
  | .hexadecimal n => n.value
  | .decimal mantissa exponent => mantissa.value * exponent.elim 1 Exponent.value

/-- The integer that a literal is read as: a hexadecimal literal and a plain decimal numeral are
read, and all others are refused. -/
def integer? : NumberLiteral → Option Nat
  | .hexadecimal n => some n.value
  | .decimal (.whole n) none => if n.IsPlain then some n.value else none
  | .decimal _ _ => none

/-- A literal that is read is read as its value. -/
theorem value_of_integer? (literal : NumberLiteral) (n : Nat) (h : literal.integer? = some n) :
    literal.value = n := by
  cases literal with
  | hexadecimal numeral =>
      injection h with h
      rw [value, h]
  | decimal mantissa exponent =>
      -- A point or an exponent makes the literal one that the reader of integers refuses.
      cases mantissa with
      | point before fraction =>
          exact absurd h (by simp only [integer?, reduceCtorEq, not_false_eq_true])
      | whole numeral =>
          cases exponent with
          | some e => exact absurd h (by simp only [integer?, reduceCtorEq, not_false_eq_true])
          | none =>
              rw [integer?, Option.ite_none_right_eq_some] at h
              injection h.2 with h
              rw [value, Mantissa.value, Option.elim_none, mul_one, h]

end NumberLiteral

/-- The units that can follow a number. -/
inductive Denomination where
  | wei | gwei | szabo | finney | ether
  | seconds | minutes | hours | days | weeks | years
deriving DecidableEq

namespace Denomination

def name : Denomination → String
  | .wei => "wei"
  | .gwei => "gwei"
  | .szabo => "szabo"
  | .finney => "finney"
  | .ether => "ether"
  | .seconds => "seconds"
  | .minutes => "minutes"
  | .hours => "hours"
  | .days => "days"
  | .weeks => "weeks"
  | .years => "years"

/-- What a number with the unit is multiplied by. -/
def factor : Denomination → Nat
  | .wei => 1
  | .gwei => Nat.pow 10 9
  | .szabo => Nat.pow 10 12
  | .finney => Nat.pow 10 15
  | .ether => Nat.pow 10 18
  | .seconds => 1
  | .minutes => 60
  | .hours => 60 * 60
  | .days => 24 * (60 * 60)
  | .weeks => 7 * (24 * (60 * 60))
  | .years => 365 * (24 * (60 * 60))

end Denomination

section Reading

open Text

/-- The characters of digits: they have the values of the digits, and none of them is a blank, a
sign or an underscore. -/
theorem digitChar_spec (v : Fin 16) (capital : Bool) :
    (digitValue? (digitChar v capital) <|> hexValue? (digitChar v capital)) = some v.val ∧
      digitChar v capital ∉ ['_', '-', '+'] ∧ isNumeralBlank (digitChar v capital) = false := by
  revert v capital
  decide

/-- The characters of decimal digits tell no base. -/
theorem digitChar_decimal (v : Fin 10) (capital : Bool) :
    digitValue? (digitChar v capital) = some v.val ∧ radix? (digitChar v capital) = none := by
  revert v capital
  decide

variable {base : Nat}

theorem Digit.digitIn?_char (hbase : base ≤ 16) (d : Digit base) :
    digitIn? base d.char = some d.value.val := by
  have hvalue := (digitChar_spec (d.value.castLE hbase) d.capital).1
  rw [Fin.val_castLE] at hvalue
  rw [digitIn?, Digit.char, hvalue, Option.filter_some, if_pos (decide_eq_true d.value.isLt)]

theorem Digit.char_ne (hbase : base ≤ 16) (d : Digit base) :
    d.char ≠ '_' ∧ d.char ≠ '-' ∧ d.char ≠ '+' ∧ isNumeralBlank d.char = false := by
  rcases digitChar_spec (d.value.castLE hbase) d.capital with ⟨_, hmem, hblank⟩
  rw [Fin.val_castLE] at hmem hblank
  simp only [List.mem_cons, List.not_mem_nil, or_false, not_or] at hmem
  exact ⟨hmem.1, hmem.2.1, hmem.2.2, hblank⟩

/-- What stands after a numeral: nothing, or a character that does not go on with it. -/
def EndsNumeral (base : Nat) : List Char → Prop
  | [] => True
  | c :: _ => c ≠ '_' ∧ digitIn? base c = none

/-- The digits after the first are read to the last. -/
theorem scanDigits_rest (hbase : base ≤ 16) (rest : List (Bool × Digit base)) (value count : Nat)
    (tail : List Char) (htail : EndsNumeral base tail) :
    scanDigits base false value count (rest.flatMap groupedChars ++ tail)
      = some (valueFrom value rest, count + rest.length, tail) := by
  induction rest generalizing value count with
  | nil =>
      cases tail with
      | nil => rfl
      | cons c cs =>
          rw [List.flatMap_nil, List.nil_append, scanDigits, if_neg htail.1, htail.2]
          rfl
  | cons d rest ih =>
      rcases d with ⟨grouped, d⟩
      have hdigit : ∀ open_, scanDigits base open_ value count
          (d.char :: (rest.flatMap groupedChars ++ tail))
          = some (valueFrom (base * value + d.value) rest, count + 1 + rest.length, tail) := by
        intro open_
        rw [scanDigits, if_neg (d.char_ne hbase).1, d.digitIn?_char hbase]
        exact ih _ _
      have hcount : count + (rest.length + 1) = count + 1 + rest.length := by omega
      rw [List.flatMap_cons, List.append_assoc, List.length_cons, hcount]
      cases grouped with
      | false => exact hdigit false
      | true =>
          -- After the underscore a digit has to come, and it does.
          change scanDigits base false value count ('_' :: d.char :: _) = _
          rw [scanDigits, if_pos rfl]
          exact hdigit true

/-- A numeral is read to its end. It counts if nothing but blanks follows it and if it does not have
too many digits for its base. -/
theorem magnitude_numeral (hbase : base ≤ 16) (n : Numeral base) (tail : List Char)
    (htail : EndsNumeral base tail) :
    magnitude base (n.text ++ tail) =
      if base = 10 ∧ maxDigits < n.digits then .error (.tooLong n.digits)
      else if tail.all isNumeralBlank then .ok n.value else .error .malformed := by
  have hscan : scanDigits base true 0 0 (n.text ++ tail) = some (n.value, n.digits, tail) := by
    change scanDigits base true 0 0 (n.first.char :: (n.rest.flatMap groupedChars ++ tail)) = _
    rw [scanDigits, if_neg (n.first.char_ne hbase).1, n.first.digitIn?_char hbase]
    simp only [scanDigits_rest hbase _ _ _ tail htail, Nat.mul_zero, Nat.zero_add]
    rw [Numeral.value, Numeral.digits, Nat.add_comm]
  unfold magnitude
  rw [hscan]

/-- A text that begins with neither a blank nor a sign is read as a magnitude. -/
theorem prefixed_cons (c : Char) (rest : List Char) (hminus : c ≠ '-') (hplus : c ≠ '+')
    (hblank : isNumeralBlank c = false) :
    prefixed (c :: rest) = (prefixedMagnitude (c :: rest)).map (withSign false) := by
  -- Neither a blank nor a sign is taken off, so the text arrives as it is.
  have hdrop : (c :: rest).dropWhile isNumeralBlank = c :: rest :=
    List.dropWhile_cons_of_neg (by rw [hblank]; exact Bool.false_ne_true)
  have hsign : splitSign (c :: rest) = (false, c :: rest) := by
    unfold splitSign
    split
    · rename_i heq
      exact absurd (List.cons.inj heq).1 hminus
    · rename_i heq
      exact absurd (List.cons.inj heq).1 hplus
    · rfl
  unfold prefixed
  rw [hdrop, hsign]

/-- A decimal numeral that begins with a zero has to be zero. -/
theorem prefixedMagnitude_decimal (n : Numeral 10) (tail : List Char)
    (hradix : tail.head?.bind radix? = none) :
    prefixedMagnitude (n.text ++ tail) =
      if n.first.value = 0 then
        magnitude 10 (n.text ++ tail) >>= fun v => if v = 0 then .ok 0 else .error .malformed
      else magnitude 10 (n.text ++ tail) := by
  -- A letter for a base can only stand behind the first digit: after it comes another digit, an
  -- underscore or the tail.
  have hhead : (n.rest.flatMap groupedChars ++ tail).head?.bind radix? = none := by
    rcases hrest : n.rest with _ | ⟨⟨grouped, d⟩, rest⟩
    · exact hradix
    · cases grouped with
      | false => exact (digitChar_decimal d.value d.capital).2
      | true => rfl
  have hzero : digitValue? n.first.char = some 0 ↔ n.first.value = 0 := by
    rw [Digit.char, (digitChar_decimal n.first.value n.first.capital).1, Option.some_inj,
      Fin.ext_iff, Fin.val_zero]
  change prefixedMagnitude (n.first.char :: (n.rest.flatMap groupedChars ++ tail)) = _
  rw [prefixedMagnitude, hhead]
  -- A leading zero is allowed in zero alone.
  by_cases hfirst : n.first.value = 0
  · rw [if_pos (hzero.mpr hfirst), if_pos hfirst]
    rfl
  · rw [if_neg (fun h => hfirst (hzero.mp h)), if_neg hfirst]
    rfl

/-- What a decimal numeral, and whatever follows it, is read as. -/
theorem prefixed_decimal (n : Numeral 10) (tail : List Char) (htail : EndsNumeral 10 tail)
    (hradix : tail.head?.bind radix? = none) :
    (prefixed (n.text ++ tail)).toOption =
      if tail.all isNumeralBlank ∧ n.IsPlain then some (n.value : Int) else none := by
  have hten : 10 ≤ 16 := by omega
  rcases n.first.char_ne hten with ⟨_, hminus, hplus, hblank⟩
  have hread := magnitude_numeral hten n tail htail
  have hprefixed : prefixed (n.text ++ tail)
      = (prefixedMagnitude (n.text ++ tail)).map (withSign false) :=
    prefixed_cons n.first.char (n.rest.flatMap groupedChars ++ tail) hminus hplus hblank
  rw [hprefixed, prefixedMagnitude_decimal n tail hradix]
  by_cases hlong : maxDigits < n.digits
  · -- The digits are counted before anything else is looked at.
    have hnot : ¬ (tail.all isNumeralBlank = true ∧ n.IsPlain) :=
      fun h => absurd h.2.1 (Nat.not_le.mpr hlong)
    rw [if_pos ⟨rfl, hlong⟩] at hread
    rw [hread, if_neg hnot]
    split <;> rfl
  rw [if_neg (fun h => hlong h.2)] at hread
  by_cases htailBlank : tail.all isNumeralBlank = true
  · rw [if_pos htailBlank] at hread
    rw [hread, ok_bind]
    by_cases hvalue : n.first.value = 0 → n.value = 0
    · have hplain : tail.all isNumeralBlank = true ∧ n.IsPlain :=
        ⟨htailBlank, Nat.le_of_not_lt hlong, hvalue⟩
      rw [if_pos hplain]
      split
      · rename_i hfirst
        rw [if_pos (hvalue hfirst), hvalue hfirst]
        rfl
      · rfl
    · have hnot : ¬ (tail.all isNumeralBlank = true ∧ n.IsPlain) := fun h => hvalue h.2.2
      rw [Classical.not_imp] at hvalue
      rw [if_neg hnot, if_pos hvalue.1, if_neg hvalue.2]
      rfl
  · have hnot : ¬ (tail.all isNumeralBlank = true ∧ n.IsPlain) := fun h => htailBlank h.1
    rw [if_neg htailBlank] at hread
    rw [hread, if_neg hnot]
    split <;> rfl

/-- What follows a numeral in a literal does not go on with it, and it tells no base. -/
theorem endsNumeral_of_mem (c : Char) (rest : List Char) (h : c ∈ ['.', 'e', 'E']) :
    EndsNumeral 10 (c :: rest) ∧ radix? c = none ∧ isNumeralBlank c = false := by
  simp only [List.mem_cons, List.not_mem_nil, or_false] at h
  rcases h with h | h | h <;> rw [h] <;> exact ⟨⟨by decide, by decide⟩, by decide, by decide⟩

/-- A decimal numeral with a point or an exponent after it is refused. -/
theorem prefixed_decimal_cons (n : Numeral 10) (c : Char) (rest : List Char)
    (h : c ∈ ['.', 'e', 'E']) : (prefixed (n.text ++ c :: rest)).toOption = none := by
  rcases endsNumeral_of_mem c rest h with ⟨hends, hradix, hblank⟩
  rw [prefixed_decimal n (c :: rest) hends hradix, List.all_cons, hblank, Bool.false_and]
  exact if_neg (fun hfalse => Bool.false_ne_true hfalse.1)

/-- A numeral that begins with a point is refused. -/
theorem prefixed_point (rest : List Char) : (prefixed ('.' :: rest)).toOption = none := by
  rw [prefixed_cons '.' rest (by decide) (by decide) (by decide)]
  have hmagnitude : prefixedMagnitude ('.' :: rest) = .error .malformed := by
    rw [prefixedMagnitude, if_neg (by decide), magnitude, scanDigits, if_neg (by decide)]
    have hdigit : digitIn? 10 '.' = none := by decide
    rw [hdigit]
    rfl
  rw [hmagnitude]
  rfl

theorem prefixed_hexadecimal (n : Numeral 16) :
    prefixed ('0' :: 'x' :: n.text) = .ok n.value := by
  have hread := magnitude_numeral (Nat.le_refl 16) n [] trivial
  rw [List.append_nil, if_neg (by omega), List.all_nil, if_pos rfl] at hread
  -- The first digit is no underscore that could be dropped.
  have hdrop : dropUnderscore n.text = n.text := by
    unfold dropUnderscore Numeral.text
    split
    · rename_i heq
      exact absurd (List.cons.inj heq).1 (n.first.char_ne (Nat.le_refl 16)).1
    · rfl
  have hmagnitude : prefixedMagnitude ('0' :: 'x' :: n.text) = .ok n.value := by
    rw [prefixedMagnitude, if_pos (by decide)]
    change magnitude 16 (dropUnderscore n.text) = _
    rw [hdrop, hread]
  rw [prefixed_cons '0' _ (by decide) (by decide) (by decide), hmagnitude]
  rfl

/-- A literal is read as `integer?` says. -/
theorem prefixed_text (literal : NumberLiteral) :
    (prefixed literal.text).toOption = literal.integer?.map Int.ofNat := by
  -- What stands behind the digits here is no digit, and ends the reading.
  have hexponent : ∀ (n : Numeral 10) (e : Exponent),
      (prefixed (n.text ++ e.text)).toOption = none := by
    intro n e
    refine prefixed_decimal_cons n e.letter _ ?_
    unfold Exponent.letter
    cases e.capital <;> decide
  cases literal with
  | hexadecimal n =>
      rw [NumberLiteral.text, prefixed_hexadecimal]
      rfl
  | decimal mantissa exponent =>
      cases mantissa with
      | point before fraction =>
          change (prefixed ((before.elim [] Numeral.text ++ '.' :: fraction.text)
            ++ exponent.elim [] Exponent.text)).toOption = none
          rw [List.append_assoc, List.cons_append]
          cases before with
          | none => exact prefixed_point _
          | some n => exact prefixed_decimal_cons n '.' _ (by decide)
      | whole n =>
          cases exponent with
          | some e => exact hexponent n e
          | none =>
              change (prefixed (n.text ++ [])).toOption = _
              rw [prefixed_decimal n [] trivial rfl, NumberLiteral.integer?]
              simp only [List.all_nil, true_and]
              split <;> rfl

end Reading

end StorageLayout.Ast
