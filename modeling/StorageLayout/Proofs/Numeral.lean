import Mathlib.Data.List.TakeWhile
import Mathlib.Tactic.Common
import StorageLayout.Proofs.ArrayLength
import StorageLayout.Proofs.Outcome
import StorageLayout.Text.Numeral

/-!
# Decimal Numerals

Which texts are read as integers, and as which.

The reader of integers goes through a text once, from left to right, and keeps a value and a count
while it does so. What it accepts is said here without it: blanks, a sign or none, digits of any
script with single underscores between them, and blanks again. Such a text has one value, that of
its digits, and the reader returns that value or, if there are too many digits, refuses the text for
that reason. It accepts nothing else (`decimal_eq_ok_iff`).

The two directions meet in the scanner. It reads digits to the last one (`scanDigits_of_digits`),
and what it has read are digits (`digits_of_scanDigits`). The invariant of the second is what may
stand between two digits, so it has to speak of a text that begins with an underscore, too.

## Main definitions

* `Digits`, `valueOfDigits`: Digits with their underscores, and their value.
* `IsDecimal`: A text is a decimal numeral.

## Theorems

* `not_blank_of_digit`: No digit of any script is a blank.
* `scanDigits_of_digits`, `digits_of_scanDigits`: What the scanner reads.
* `magnitude_of_digits`, `digits_of_magnitude`: The same for a text up to its end.
* `decimal_of_isDecimal`: What a numeral is read as.
* `decimal_eq_ok_iff`: The texts that are read.
-/

namespace StorageLayout.Text

/-- Digits of any script with single underscores between them, and their values, the most
significant first. -/
inductive Digits : List Char → List Nat → Prop
  | one {c : Char} {d : Nat} (hc : digitValue? c = some d) : Digits [c] [d]
  | cons {c : Char} {d : Nat} {cs : List Char} {ds : List Nat} (hc : digitValue? c = some d)
      (hrest : Digits cs ds) : Digits (c :: cs) (d :: ds)
  | grouped {c : Char} {d : Nat} {cs : List Char} {ds : List Nat} (hc : digitValue? c = some d)
      (hrest : Digits cs ds) : Digits (c :: '_' :: cs) (d :: ds)

/-- The value of further digits, on top of that of the digits before them. -/
def valueOnTop (value : Nat) (ds : List Nat) : Nat := ds.foldl (fun v d => 10 * v + d) value

/-- The value of digits, the most significant first. -/
def valueOfDigits (ds : List Nat) : Nat := valueOnTop 0 ds

/-- A sign that may stand before digits, and whether it is a minus. -/
inductive IsSign : List Char → Bool → Prop
  | none : IsSign [] false
  | plus : IsSign ['+'] false
  | minus : IsSign ['-'] true

/-- Characters that are blanks throughout. -/
def IsBlankText (cs : List Char) : Prop := ∀ c ∈ cs, isNumeralBlank c = true

/-- A text is a decimal numeral, with a minus or without one, of the given digits. -/
inductive IsDecimal : List Char → Bool → List Nat → Prop
  | numeral {before sign body after : List Char} {negative : Bool} {ds : List Nat}
      (hbefore : IsBlankText before) (hsign : IsSign sign negative) (hbody : Digits body ds)
      (hafter : IsBlankText after) : IsDecimal (before ++ (sign ++ (body ++ after))) negative ds

/-! ## Characters -/

/-- A digit stands among the ten that begin with the zero of its script. -/
theorem range_of_digit (c : Char) (d : Nat) (h : digitValue? c = some d) :
    ∃ z ∈ zeros, z ≤ c.toNat ∧ c.toNat ≤ z + 9 := by
  rw [digitValue?] at h
  rcases Option.map_eq_some_iff.mp h with ⟨z, hz, _⟩
  have hrange := List.find?_some hz
  rw [Bool.and_eq_true, decide_eq_true_eq, decide_eq_true_eq] at hrange
  exact ⟨z, List.mem_of_find?_eq_some hz, hrange⟩

/-- No digit of any script is a blank. -/
theorem not_blank_of_digit (c : Char) (d : Nat) (h : digitValue? c = some d) :
    isNumeralBlank c = false := by
  rcases range_of_digit c d h with ⟨z, hz, hrange⟩
  -- The ten digits of each script are looked at one by one.
  have hall : ∀ z ∈ zeros, ∀ i ∈ List.range 10, isNumeralBlank (Char.ofNat (z + i)) = false := by
    decide +kernel
  have hdigit := hall z hz (c.toNat - z) (List.mem_range.mpr (by omega))
  rw [Nat.add_sub_cancel' hrange.1, Char.ofNat_toNat] at hdigit
  exact hdigit

/-- A digit is neither an underscore nor a sign. -/
theorem ne_of_digit (c : Char) (d : Nat) (h : digitValue? c = some d) :
    c ≠ '_' ∧ c ≠ '-' ∧ c ≠ '+' := by
  rcases range_of_digit c d h with ⟨z, hz, hrange⟩
  -- The other scripts are far behind the signs.
  have hscripts : ∀ z ∈ zeros, z = 48 ∨ 1000 < z := by decide +kernel
  have hsigns : '_'.toNat = 95 ∧ '-'.toNat = 45 ∧ '+'.toNat = 43 := ⟨rfl, rfl, rfl⟩
  have hscript := hscripts z hz
  refine ⟨?_, ?_, ?_⟩ <;>
  · intro heq
    rw [heq] at hrange
    omega

/-- In base ten the letters are no digits. -/
theorem digitIn?_ten (c : Char) : digitIn? 10 c = digitValue? c := by
  rw [digitIn?]
  cases hvalue : digitValue? c with
  | some d =>
      -- A decimal digit is less than ten as it is.
      have hlt := digitValue?_lt hvalue
      rw [Option.orElse_eq_orElse, Option.orElse_eq_or, Option.some_or, Option.filter_some,
        if_pos (decide_eq_true hlt)]
  | none =>
      rw [Option.orElse_eq_orElse, Option.orElse_eq_or, Option.none_or]
      unfold hexValue?
      by_cases hdigit : '0' ≤ c ∧ c ≤ '9'
      · have hascii : c.isDigit = true := by
          rw [Char.isDigit_iff_toNat]
          exact ⟨Char.le_def.mp hdigit.1, Char.le_def.mp hdigit.2⟩
        rw [digitValue?_of_isDigit c hascii] at hvalue
        exact absurd hvalue (by simp only [reduceCtorEq, not_false_eq_true])
      · rw [if_neg hdigit]
        -- A letter stands for ten or more, so in base ten it is no digit.
        have hletter : ∀ n, ¬ n + 10 < 10 := by omega
        split
        · rw [Option.filter_some, if_neg (by rw [decide_eq_true_eq]; exact hletter _)]
        · split
          · rw [Option.filter_some, if_neg (by rw [decide_eq_true_eq]; exact hletter _)]
          · rfl

/-! ## The scanner -/

/-- What stands after digits: nothing, or a character that does not go on with them. -/
def EndsDigits : List Char → Prop
  | [] => True
  | c :: _ => c ≠ '_' ∧ digitValue? c = none

/-- A digit is read, whether one has to come or not. -/
theorem scanDigits_digit (open_ : Bool) (value count : Nat) (c : Char) (d : Nat)
    (rest : List Char) (hc : digitValue? c = some d) :
    scanDigits 10 open_ value count (c :: rest)
      = scanDigits 10 false (10 * value + d) (count + 1) rest := by
  rw [scanDigits, if_neg (ne_of_digit c d hc).1, digitIn?_ten, hc]

theorem scanDigits_end (value count : Nat) (rest : List Char) (h : EndsDigits rest) :
    scanDigits 10 false value count rest = some (value, count, rest) := by
  cases rest with
  | nil => rfl
  | cons c rest =>
      rw [scanDigits, if_neg h.1, digitIn?_ten, h.2]
      rfl

/-- Digits are read to the last one. -/
theorem scanDigits_of_digits (body rest : List Char) (ds : List Nat) (h : Digits body ds)
    (hrest : EndsDigits rest) (open_ : Bool) (value count : Nat) :
    scanDigits 10 open_ value count (body ++ rest)
      = some (valueOnTop value ds, count + ds.length, rest) := by
  induction h generalizing open_ value count with
  | @one c d hc =>
      rw [List.singleton_append, scanDigits_digit open_ value count c d rest hc,
        scanDigits_end _ _ rest hrest]
      rfl
  | @cons c d cs ds hc _ ih =>
      rw [List.cons_append, scanDigits_digit open_ value count c d _ hc, ih, List.length_cons,
        Nat.add_assoc, Nat.add_comm 1]
      rfl
  | @grouped c d cs ds hc _ ih =>
      -- After the underscore a digit has to come, and it does.
      rw [List.cons_append, scanDigits_digit open_ value count c d _ hc, List.cons_append,
        scanDigits, if_pos rfl, if_neg Bool.false_ne_true, ih, List.length_cons, Nat.add_assoc,
        Nat.add_comm 1]
      rfl

/-- What may follow a digit: nothing, digits, or an underscore and digits. -/
inductive Continues : List Char → List Nat → Prop
  | stop : Continues [] []
  | digits {cs : List Char} {ds : List Nat} (h : Digits cs ds) : Continues cs ds
  | grouped {cs : List Char} {ds : List Nat} (h : Digits cs ds) : Continues ('_' :: cs) ds

theorem Continues.digits_cons {cs : List Char} {ds : List Nat} (h : Continues cs ds) (c : Char)
    (d : Nat) (hc : digitValue? c = some d) : Digits (c :: cs) (d :: ds) := by
  cases h with
  | stop => exact .one hc
  | digits h => exact .cons hc h
  | grouped h => exact .grouped hc h

/-- What the scanner has read are digits, or what may follow a digit if none had to come. -/
theorem continues_of_scanDigits (cs rest : List Char) (open_ : Bool) (value count v n : Nat)
    (h : scanDigits 10 open_ value count cs = some (v, n, rest)) :
    ∃ body ds, cs = body ++ rest ∧ (if open_ then Digits body ds else Continues body ds) ∧
      v = valueOnTop value ds ∧ n = count + ds.length := by
  induction cs generalizing open_ value count with
  | nil =>
      cases open_ with
      -- After an underscore a digit is due, so the scan does not end here.
      | true => exact absurd h (by simp [scanDigits])
      | false =>
          injection h with h
          injection h with hv h
          injection h with hn hrest
          exact ⟨[], [], hrest, .stop, hv.symm, hn.symm⟩
  | cons c cs ih =>
      by_cases hunderscore : c = '_'
      · rw [scanDigits, if_pos hunderscore] at h
        cases open_ with
        | true => exact absurd h (by simp)
        | false =>
            rw [if_neg Bool.false_ne_true] at h
            -- An underscore opens a group, which must begin with a digit.
            rcases ih true value count h with ⟨body, ds, hcs, hbody, hv, hn⟩
            rw [if_pos rfl] at hbody
            refine ⟨'_' :: body, ds, by rw [hcs, hunderscore]; rfl, ?_, hv, hn⟩
            rw [if_neg Bool.false_ne_true]
            exact .grouped hbody
      · cases hc : digitValue? c with
        | some d =>
            rw [scanDigits_digit open_ value count c d cs hc] at h
            rcases ih false _ _ h with ⟨body, ds, hcs, hbody, hv, hn⟩
            rw [if_neg Bool.false_ne_true] at hbody
            -- A digit closes what an underscore may have opened, and the scan can end after it.
            have hdigits := hbody.digits_cons c d hc
            refine ⟨c :: body, d :: ds, by rw [hcs]; rfl, ?_, hv, ?_⟩
            · cases open_ with
              | true => exact hdigits
              | false => exact .digits hdigits
            · rw [hn, List.length_cons]
              omega
        | none =>
            -- Any other character ends the scan, and belongs to the rest.
            rw [scanDigits, if_neg hunderscore, digitIn?_ten, hc] at h
            cases open_ with
            | true => exact absurd h (by simp)
            | false =>
                injection h with h
                injection h with hv h
                injection h with hn hrest
                exact ⟨[], [], by rw [hrest]; rfl, .stop, hv.symm, hn.symm⟩

/-! ## Whole texts -/

/-- A blank does not go on with digits. -/
theorem endsDigits_of_blanks (after : List Char) (h : IsBlankText after) : EndsDigits after := by
  cases after with
  | nil => trivial
  | cons c rest =>
      -- No blank is an underscore or a digit.
      have hblank := h c List.mem_cons_self
      refine ⟨?_, ?_⟩
      · intro heq
        rw [heq] at hblank
        exact absurd hblank (by decide)
      · cases hc : digitValue? c with
        | none => rfl
        | some d =>
            rw [not_blank_of_digit c d hc] at hblank
            exact absurd hblank Bool.false_ne_true

theorem magnitude_of_digits (body after : List Char) (ds : List Nat) (hbody : Digits body ds)
    (hafter : IsBlankText after) :
    magnitude 10 (body ++ after) =
      if maxDigits < ds.length then .error (.tooLong ds.length) else .ok (valueOfDigits ds) := by
  have hends := endsDigits_of_blanks after hafter
  have hscan := scanDigits_of_digits body after ds hbody hends true 0 0
  rw [Nat.zero_add] at hscan
  unfold magnitude
  rw [hscan]
  by_cases hlong : maxDigits < ds.length
  · simp only [hlong, and_self, if_true]
  · simp only [hlong, and_false, if_false, List.all_eq_true.mpr hafter, if_true]
    rfl

/-- A text that is read to its end is made of digits and of blanks after them. -/
theorem digits_of_magnitude (cs : List Char) (n : Nat) (h : magnitude 10 cs = .ok n) :
    ∃ body after ds, cs = body ++ after ∧ Digits body ds ∧ IsBlankText after ∧
      ds.length ≤ maxDigits ∧ n = valueOfDigits ds := by
  unfold magnitude at h
  split at h
  · exact absurd h (by simp only [reduceCtorEq, not_false_eq_true])
  · rename_i value count rest hscan
    split at h
    · exact absurd h (by simp only [reduceCtorEq, not_false_eq_true])
    · rename_i hshort
      split at h
      · rename_i hblank
        injection h with h
        -- A magnitude is a scan that begins with a digit, has not too many of them, and leaves
        -- blanks.
        rcases continues_of_scanDigits cs rest true 0 0 value count hscan with
          ⟨body, ds, hcs, hbody, hv, hn⟩
        refine ⟨body, rest, ds, hcs, hbody, List.all_eq_true.mp hblank, ?_, ?_⟩
        · omega
        · rw [← h, hv]
          rfl
      · exact absurd h (by simp only [reduceCtorEq, not_false_eq_true])

/-- The sign is told from the digits after it. -/
theorem splitSign_of_isSign (sign body after : List Char) (negative : Bool) (ds : List Nat)
    (hsign : IsSign sign negative) (hbody : Digits body ds) :
    splitSign (sign ++ (body ++ after)) = (negative, body ++ after) := by
  cases hsign with
  | plus => rfl
  | minus => rfl
  | none =>
      obtain ⟨c, d, rest, hcs, hc⟩ : ∃ c d rest, body = c :: rest ∧ digitValue? c = some d := by
        cases hbody with
        | one hc => exact ⟨_, _, _, rfl, hc⟩
        | cons hc _ => exact ⟨_, _, _, rfl, hc⟩
        | grouped hc _ => exact ⟨_, _, _, rfl, hc⟩
      -- A body begins with a digit, so that no sign can be taken from it.
      have hne := ne_of_digit c d hc
      rw [hcs, List.nil_append, List.cons_append]
      unfold splitSign
      split
      · rename_i heq
        exact absurd (List.cons.inj heq).1 hne.2.1
      · rename_i heq
        exact absurd (List.cons.inj heq).1 hne.2.2
      · rfl

/-- The blanks before a numeral end where its sign or its digits begin. -/
theorem dropWhile_blank (before sign body after : List Char) (negative : Bool) (ds : List Nat)
    (hbefore : IsBlankText before) (hsign : IsSign sign negative) (hbody : Digits body ds) :
    (before ++ (sign ++ (body ++ after))).dropWhile isNumeralBlank = sign ++ (body ++ after) := by
  rw [List.dropWhile_append_of_pos hbefore]
  cases hsign with
  -- What comes after the blanks is a sign or a digit, and neither is blank.
  | plus => exact List.dropWhile_cons_of_neg (by decide)
  | minus => exact List.dropWhile_cons_of_neg (by decide)
  | none =>
      cases hbody with
      | one hc | cons hc _ | grouped hc _ =>
          refine List.dropWhile_cons_of_neg ?_
          rw [not_blank_of_digit _ _ hc]
          exact Bool.false_ne_true

/-- What a numeral is read as. -/
theorem decimal_of_isDecimal (cs : List Char) (negative : Bool) (ds : List Nat)
    (h : IsDecimal cs negative ds) :
    decimal cs =
      if maxDigits < ds.length then .error (.tooLong ds.length)
      else .ok (withSign negative (valueOfDigits ds)) := by
  cases h with
  | @numeral before sign body after _ _ hbefore hsign hbody hafter =>
      unfold decimal
      rw [dropWhile_blank before sign body after negative ds hbefore hsign hbody,
        splitSign_of_isSign sign body after negative ds hsign hbody]
      simp only [magnitude_of_digits body after ds hbody hafter]
      split <;> rfl

/-- A sign that has been split off stood there. -/
theorem isSign_of_splitSign (cs rest : List Char) (negative : Bool)
    (h : splitSign cs = (negative, rest)) : ∃ sign, cs = sign ++ rest ∧ IsSign sign negative := by
  unfold splitSign at h
  split at h
  · injection h with hnegative hrest
    rw [← hnegative, ← hrest]
    exact ⟨['-'], rfl, .minus⟩
  · injection h with hnegative hrest
    rw [← hnegative, ← hrest]
    exact ⟨['+'], rfl, .plus⟩
  · injection h with hnegative hrest
    rw [← hnegative, ← hrest]
    exact ⟨[], rfl, .none⟩

/-- The texts that are read are the numerals that do not have too many digits, and they are read as
their values. -/
theorem decimal_eq_ok_iff (cs : List Char) (n : Int) :
    decimal cs = .ok n ↔
      ∃ negative ds, IsDecimal cs negative ds ∧ ds.length ≤ maxDigits ∧
        n = withSign negative (valueOfDigits ds) := by
  constructor
  · intro h
    unfold decimal at h
    cases hsplit : splitSign (cs.dropWhile isNumeralBlank) with
    | mk negative rest =>
        rw [hsplit] at h
        obtain ⟨m, hm, hn⟩ : ∃ m, magnitude 10 rest = .ok m ∧ withSign negative m = n := by
          cases hm : magnitude 10 rest with
          | ok m =>
              simp only [hm] at h
              injection h with h
              exact ⟨m, rfl, h⟩
          | error fault =>
              simp only [hm] at h
              exact absurd h (by simp only [Except.map, reduceCtorEq, not_false_eq_true])
        -- The text is taken apart as it was read: blanks, a sign, digits and blanks.
        rcases digits_of_magnitude rest m hm with
          ⟨body, after, ds, hrest, hbody, hafter, hshort, hvalue⟩
        rcases isSign_of_splitSign _ _ _ hsplit with ⟨sign, hsigned, hsign⟩
        have hcs : cs = cs.takeWhile isNumeralBlank ++ (sign ++ (body ++ after)) := by
          rw [← hrest, ← hsigned, List.takeWhile_append_dropWhile]
        refine ⟨negative, ds, ?_, hshort, ?_⟩
        · rw [hcs]
          exact .numeral (fun c hc => List.mem_takeWhile_imp hc) hsign hbody hafter
        · rw [← hn, hvalue]
  · rintro ⟨negative, ds, hnumeral, hshort, hn⟩
    rw [decimal_of_isDecimal cs negative ds hnumeral, if_neg (Nat.not_lt.mpr hshort), hn]

end StorageLayout.Text
