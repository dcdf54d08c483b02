import Mathlib.Data.List.TakeWhile
import Mathlib.Tactic.Common
import StorageLayout.Json.Parser
import StorageLayout.Proofs.Numeral

/-!
# Reading a Token

What the reader takes off the front of a text for a string, a word or a number.

The reader never looks back, and it hardly looks ahead. A string ends at its closing quote and a
word at its last letter, so the same is read whatever follows. A number ends where it does not go
on, and for this the next character has to be looked at: what follows must not begin with a digit, a
point or the letter of an exponent. With this proviso a token is read in the same way in every text
that begins with it (`IsFront`), in particular in one that is cut off somewhere behind it.

Each token has faults of its own. Those of a string are told from all others, while a missing value
and an integer of too many digits are faults that only the reader of numbers finds. It finds the
latter exactly where there is such an integer (`number_eq_hugeInteger_iff`), so one that goes on
with a fraction or an exponent may have any number of digits.

## Main definitions

* `EndsNumber`: A text that does not go on with a number.
* `IsFront`: What is read from the front of a text, whatever follows.
* `LongInteger`: A text begins with an integer that has too many digits.
* `scalar`: The word or the number at the start of a text.

## Theorems

* `stringBody_front`, `word?_front`, `number_front`: Tokens are read from the front.
* `stringBody_error`: The faults of strings.
* `number_eq_hugeInteger_iff`: The integers that are not read.
* `scalar_front`, `scalar_eq_error`: The same for the tokens that do not open a string, a list or an
  object.
-/

namespace StorageLayout.Json.Parser

/-- A text does not go on with the digits before it. -/
def EndsDigits (cs : List Char) : Prop := ∀ c ∈ cs.head?, isDigit c = false

/-- A text does not go on with the number before it. -/
def EndsNumber (cs : List Char) : Prop :=
  ∀ c ∈ cs.head?, isDigit c = false ∧ c ≠ '.' ∧ c ≠ 'e' ∧ c ≠ 'E'

/-- A front is read as a result, and nothing of what follows is, as long as that does not go on with
a number. -/
def IsFront {α : Type} (run : List Char → Except Fault (α × List Char)) (front : List Char)
    (a : α) : Prop :=
  ∀ other, EndsNumber other → run (front ++ other) = .ok (a, other)

theorem EndsNumber.endsDigits {cs : List Char} (h : EndsNumber cs) : EndsDigits cs :=
  fun c hc => (h c hc).1

/-! ## Strings -/

/-- A code unit is only read if there are four digits and something behind them. -/
theorem codeUnit_of_stringBody (start done cs rest : List Char) (s : String)
    (h : stringBody start done ('\\' :: 'u' :: cs) = .ok (s, rest)) :
    ∃ a b c d next after, cs = a :: b :: c :: d :: next :: after := by
  match cs with
  | a :: b :: c :: d :: next :: after => exact ⟨a, b, c, d, next, after, rfl⟩
  | [] | [_] | [_, _] | [_, _, _] | [_, _, _, _] =>
      exact absurd h (by simp [stringBody])

/-- If what is read begins with the escape of a code unit, then this escape is in the front. -/
theorem escape_of_front (done front rest cs : List Char) (s : String) (hne : front ≠ [])
    (hread : stringBody [] done front = .ok (s, [])) (hcs : '\\' :: 'u' :: cs = front ++ rest) :
    ∃ a b c d next after, front = '\\' :: 'u' :: a :: b :: c :: d :: next :: after := by
  -- The four digits may not lie beyond `front`: it was read to its closing quote, so with one
  -- character it would be a lone backslash.
  match front with
  | [] => exact absurd rfl hne
  | [_] =>
      rw [← (List.cons.inj hcs).1] at hread
      exact absurd hread (by simp [stringBody, complain])
  | x :: y :: front =>
      rw [List.cons_append, List.cons_append] at hcs
      injection hcs with hx hcs
      injection hcs with hy _
      rw [← hx, ← hy] at hread ⊢
      rcases codeUnit_of_stringBody [] done front [] s hread with ⟨a, b, c, d, next, after, hfront⟩
      exact ⟨a, b, c, d, next, after, by rw [hfront]⟩

/-- A string is read up to its closing quote. -/
theorem stringBody_front (start done cs rest : List Char) (s : String)
    (h : stringBody start done cs = .ok (s, rest)) :
    ∃ front, cs = front ++ rest ∧ front ≠ [] ∧
      ∀ start' other, stringBody start' done (front ++ other) = .ok (s, other) := by
  induction done, cs using stringBody.induct_unfolding start generalizing s with
  | case1 done => cases h
  | case2 done body =>
    cases h
    exact ⟨['"'], rfl, List.cons_ne_nil _ _, fun _ _ => rfl⟩
  | case3 done => cases h
  | case4 | case5 | case10 | case12 | case13 => cases h
  -- two escapes that are the halves of one character
  | case6 done a b c d unit hunit p q r s' after rest' hhigh low hlow hlow' ih =>
    rcases ih _ h with ⟨front, hfront, hne, hread⟩
    rcases List.exists_cons_of_ne_nil hne with ⟨x, t, hx⟩
    refine ⟨'\\' :: 'u' :: a :: b :: c :: d :: '\\' :: 'u' :: p :: q :: r :: s' :: front,
      by rw [hfront]; rfl, List.cons_ne_nil _ _, fun start' other => ?_⟩
    rw [hx] at hread ⊢
    simp only [List.cons_append] at hread ⊢
    rw [stringBody, hunit]
    simp only [hhigh, hlow, hlow', if_true]
    exact hread start' other
  -- a first half before an escape that is no second half: it stands for itself, and the escape
  -- behind it is still in the front, as there is a character to be read after it
  | case7 done a b c d unit hunit p q r s' after rest' hhigh low hlow hlow' ih =>
    rcases ih _ h with ⟨front, hfront, hne, hread⟩
    have hnil := hread [] []
    rw [List.append_nil] at hnil
    rcases escape_of_front _ front rest _ s hne hnil hfront with
      ⟨p', q', r', s'', after', t, hescape⟩
    refine ⟨'\\' :: 'u' :: a :: b :: c :: d :: front,
      by rw [hfront]; rfl, List.cons_ne_nil _ _, fun start' other => ?_⟩
    rw [hescape] at hfront hread ⊢
    simp only [List.cons_append, List.cons.injEq, true_and] at hfront hread ⊢
    rcases hfront with ⟨hp, hq, hr, hs, _, _⟩
    rw [hp, hq, hr, hs] at hlow
    rw [stringBody, hunit]
    simp only [hhigh, hlow, hlow', if_true, Bool.false_eq_true, if_false]
    exact hread start' other
  -- an escape that is no first half, before another one
  | case8 done a b c d unit hunit p q r s' after rest' hhigh ih =>
    rcases ih _ h with ⟨front, hfront, hne, hread⟩
    have hnil := hread [] []
    rw [List.append_nil] at hnil
    rcases escape_of_front _ front rest _ s hne hnil hfront with
      ⟨p', q', r', s'', after', t, hescape⟩
    refine ⟨'\\' :: 'u' :: a :: b :: c :: d :: front,
      by rw [hfront]; rfl, List.cons_ne_nil _ _, fun start' other => ?_⟩
    rw [hescape] at hread ⊢
    simp only [List.cons_append] at hread ⊢
    rw [stringBody, hunit]
    simp only [hhigh, Bool.false_eq_true, if_false]
    exact hread start' other
  -- an escape before something else
  | case9 done a b c d unit hunit next rest' hother ih =>
    rcases ih _ h with ⟨front, hfront, hne, hread⟩
    rcases List.exists_cons_of_ne_nil hne with ⟨x, t, hx⟩
    rw [hx, List.cons_append] at hfront
    injection hfront with hnext hrest
    subst hnext
    refine ⟨'\\' :: 'u' :: a :: b :: c :: d :: next :: t,
      by rw [hrest]; rfl, List.cons_ne_nil _ _, fun start' other => ?_⟩
    simp only [List.cons_append]
    rw [stringBody, hunit]
    dsimp only
    split
    · -- a second half that is there now was there before, but the text had none
      rename_i p q r s' after tail hpair
      have hnil := hread [] []
      rw [List.append_nil] at hnil
      rcases escape_of_front _ front other _ s hne hnil (by rw [hx, List.cons_append, hpair]) with
        ⟨p', q', r', s'', after', tail', hescape⟩
      rw [hx] at hescape
      injection hescape with _ ht
      exact absurd (by rw [hrest, ht]; rfl) (hother p' q' r' s'' after' (tail' ++ rest) rfl)
    · rw [← List.cons_append, ← hx]
      exact hread start' other
  -- an escape of one letter
  | case11 done c rest' _ hc e he ih =>
    rcases ih _ h with ⟨front, hfront, _, hread⟩
    refine ⟨'\\' :: c :: front, by rw [hfront]; rfl, List.cons_ne_nil _ _, fun start' other => ?_⟩
    simp only [List.cons_append]
    rw [stringBody]
    · simp only [he]
      exact hread start' other
    · exact fun _ _ _ _ _ _ hu => absurd hu hc
    · exact hc
  -- a character that stands for itself
  | case14 done c rest' hquote hend hunit hshort hescape hcontrol ih =>
    rcases ih _ h with ⟨front, hfront, hne, hread⟩
    refine ⟨c :: front, by rw [hfront]; rfl, List.cons_ne_nil _ _, fun start' other => ?_⟩
    have hslash : c ≠ '\\' := fun hc => by
      rcases List.exists_cons_of_ne_nil hne with ⟨x, t, hx⟩
      exact hescape x (t ++ rest) hc (by rw [hfront, hx]; rfl)
    simp only [List.cons_append]
    rw [stringBody]
    · rw [if_neg hcontrol]
      exact hread start' other
    · exact hquote
    · exact fun hc _ => hslash hc
    · exact fun _ _ _ _ _ _ hc _ => hslash hc
    · exact fun _ hc _ => hslash hc
    · exact fun _ _ hc _ => hslash hc

/-- What is wrong with a string is neither a missing value nor a long integer. -/
theorem stringBody_error (start done cs : List Char) (fault : Fault)
    (h : stringBody start done cs = .error fault) :
    ∃ what remaining, fault = .complaint what remaining ∧ what ≠ .expectedValue := by
  -- Either the reader complains on the spot, or it hands on the complaint about the rest of the
  -- text.
  fun_induction stringBody start done cs with
  | case1 | case3 | case4 | case5 | case10 | case12 | case13 =>
      cases h
      exact ⟨_, _, rfl, by decide⟩
  | case2 => cases h
  | case6 _ _ _ _ _ _ _ _ _ _ _ _ _ _ _ _ _ ih => exact ih h
  | case7 _ _ _ _ _ _ _ _ _ _ _ _ _ _ _ _ _ ih => exact ih h
  | case8 _ _ _ _ _ _ _ _ _ _ _ _ _ _ ih => exact ih h
  | case9 _ _ _ _ _ _ _ _ _ _ ih => exact ih h
  | case11 _ _ _ _ _ _ _ ih => exact ih h
  | case14 _ _ _ _ _ _ _ _ _ ih => exact ih h

/-! ## Words -/

/-- A word is read up to its last letter. -/
theorem word?_append (w other : List Char) (v : Json) (h : (w, v) ∈ words) :
    word? (w ++ other) = some (v, other) := by
  simp only [words, List.mem_cons, Prod.mk.injEq, List.not_mem_nil, or_false] at h
  rcases h with ⟨rfl, rfl⟩ | ⟨rfl, rfl⟩ | ⟨rfl, rfl⟩ | ⟨rfl, rfl⟩ | ⟨rfl, rfl⟩ | ⟨rfl, rfl⟩ <;> rfl

theorem word?_front (cs rest : List Char) (v : Json) (h : word? cs = some (v, rest)) :
    ∃ front, cs = front ++ rest ∧ front ≠ [] ∧
      ∀ other, word? (front ++ other) = some (v, other) := by
  rcases List.exists_of_findSome?_eq_some h with ⟨⟨w, v'⟩, hmem, hw⟩
  simp only [Option.ite_none_right_eq_some, Option.some.injEq, Prod.mk.injEq] at hw
  rcases hw with ⟨hstarts, rfl, hrest⟩
  refine ⟨w, ?_, ?_, fun other => word?_append w other v' hmem⟩
  · rcases List.isPrefixOf_iff_prefix.mp hstarts with ⟨t, ht⟩
    rw [← ht, List.drop_left] at hrest
    rw [← ht, hrest]
  · rintro rfl
    exact absurd hmem (by simp [words])

/-- The sign of a number: none, or a minus. -/
def IsMinus (sign : List Char) : Prop := sign = [] ∨ sign = ['-']

/-- A text begins with a digit, or with a minus and a digit. -/
def StartsNumber (cs : List Char) : Prop :=
  ∃ sign c rest, IsMinus sign ∧ isDigit c = true ∧ cs = sign ++ c :: rest

/-- No word begins like a number. -/
theorem word?_of_startsNumber (cs : List Char) (h : StartsNumber cs) : word? cs = none := by
  rcases h with ⟨sign, c, rest, hsign, hc, rfl⟩
  refine List.findSome?_eq_none_iff.mpr fun ⟨w, v⟩ hmem => ?_
  simp only [words, List.mem_cons, Prod.mk.injEq, List.not_mem_nil, or_false] at hmem
  refine if_neg fun hstarts => ?_
  -- a word has a letter where the digit would be
  rcases hsign with rfl | rfl <;>
    rcases hmem with ⟨rfl, -⟩ | ⟨rfl, -⟩ | ⟨rfl, -⟩ | ⟨rfl, -⟩ | ⟨rfl, -⟩ | ⟨rfl, -⟩ <;>
    simp [List.isPrefixOf] at hstarts <;>
    exact absurd (hstarts.1 ▸ hc) (by decide)

/-! ## Numbers -/

/-- Digits are split off where they end. -/
theorem digits_append (ds rest : List Char) (hds : ∀ c ∈ ds, isDigit c = true)
    (hrest : EndsDigits rest) : digits (ds ++ rest) = (ds, rest) := by
  rw [digits, List.takeWhile_append_of_pos hds, List.dropWhile_append_of_pos hds]
  rcases rest with _ | ⟨c, rest⟩
  · simp
  · have hc : ¬ isDigit c = true := by simp [hrest c rfl]
    rw [List.takeWhile_cons_of_neg hc, List.dropWhile_cons_of_neg hc, List.append_nil]

/-- What is split off are digits, and all of them. -/
theorem digits_eq (cs ds rest : List Char) (h : digits cs = (ds, rest)) :
    cs = ds ++ rest ∧ (∀ c ∈ ds, isDigit c = true) ∧ EndsDigits rest := by
  injection h with hds hrest
  subst hds hrest
  refine ⟨List.takeWhile_append_dropWhile.symm, fun c hc => List.mem_takeWhile_imp hc,
    fun c hc => ?_⟩
  have hnot := List.head?_dropWhile_not isDigit cs
  rw [Option.mem_def.mp hc] at hnot
  exact Bool.eq_false_iff.mpr fun hdigit => by simp [hdigit] at hnot

/-- The whole part of a number: a zero, or digits that do not begin with one. -/
def IsWhole (ds : List Char) : Prop :=
  ds = ['0'] ∨ ds ≠ [] ∧ ds.head? ≠ some '0' ∧ ∀ c ∈ ds, isDigit c = true

theorem IsWhole.exists_cons {ds : List Char} (h : IsWhole ds) :
    ∃ c t, ds = c :: t ∧ isDigit c = true := by
  rcases h with rfl | ⟨hne, _, hdigits⟩
  · exact ⟨'0', [], rfl, by decide⟩
  · rcases List.exists_cons_of_ne_nil hne with ⟨c, t, rfl⟩
    exact ⟨c, t, rfl, hdigits c List.mem_cons_self⟩

/-- A whole part is read where it ends. -/
theorem wholePart?_append (ds rest : List Char) (hds : IsWhole ds) (hrest : EndsDigits rest) :
    wholePart? (ds ++ rest) = some (ds, rest) := by
  rcases hds with rfl | ⟨hne, hzero, hdigits⟩
  · rfl
  · rcases List.exists_cons_of_ne_nil hne with ⟨c, t, rfl⟩
    have hc : c ≠ '0' := fun hc => hzero (by rw [hc]; rfl)
    rw [List.cons_append, wholePart?, if_neg hc, if_pos (hdigits c List.mem_cons_self),
      ← List.cons_append, digits_append _ rest hdigits hrest]

/-- What is read as a whole part is one, and it stood there. All of its digits are read, but those
behind a zero. -/
theorem isWhole_of_wholePart? (cs ds rest : List Char) (h : wholePart? cs = some (ds, rest)) :
    cs = ds ++ rest ∧ IsWhole ds ∧ (ds = ['0'] ∨ EndsDigits rest) := by
  rcases cs with _ | ⟨c, t⟩
  · cases h
  · rw [wholePart?] at h
    -- A leading zero ends the number at once, whatever follows it. Only other numbers extend to the
    -- first character that is no digit.
    split at h
    · rename_i hc
      cases h
      exact ⟨by rw [hc]; rfl, .inl rfl, .inl rfl⟩
    · rename_i hzero
      split at h
      · rename_i hc
        rcases digits_eq _ ds rest (Option.some.inj h) with ⟨hcs, hdigits, hrest⟩
        rcases ds with _ | ⟨d, ds⟩
        · rw [List.nil_append] at hcs
          exact absurd (hrest c (by rw [← hcs]; rfl)) (by rw [hc]; exact Bool.noConfusion)
        · rw [List.cons_append] at hcs
          injection hcs with hd hcs
          refine ⟨by rw [hd, hcs]; rfl, .inr ⟨List.cons_ne_nil _ _, ?_, hdigits⟩, .inr hrest⟩
          rw [← hd]
          exact fun hhead => hzero (Option.some.inj hhead)
      · cases h

/-- The point and the digits of a fraction, if there are digits. -/
def pointed (fraction : List Char) : List Char :=
  if fraction = [] then [] else '.' :: fraction

/-- A fraction is read where it ends. -/
theorem fractionPart_append (fraction rest : List Char) (h : ∀ c ∈ fraction, isDigit c = true)
    (hdigits : EndsDigits rest) (hpoint : rest.head? ≠ some '.') :
    fractionPart (pointed fraction ++ rest) = (fraction, rest) := by
  rw [pointed]
  -- Without a fraction there is no point either, and `rest` must not supply one.
  split
  · rename_i hnil
    rw [hnil, List.nil_append]
    unfold fractionPart
    split
    · exact absurd rfl hpoint
    · rfl
  · rename_i hne
    rw [List.cons_append, fractionPart, digits_append fraction rest h hdigits]
    split
    · rename_i heq
      exact absurd (Prod.mk.inj heq).1 hne
    · rfl

/-- What is read as a fraction stood there. -/
theorem fractionPart_eq (cs fraction rest : List Char) (h : fractionPart cs = (fraction, rest)) :
    cs = pointed fraction ++ rest ∧ ∀ c ∈ fraction, isDigit c = true := by
  unfold fractionPart at h
  -- A point with no digit behind it belongs to the rest, not to the number.
  split at h
  · split at h
    · cases h
      exact ⟨rfl, fun c hc => absurd hc List.not_mem_nil⟩
    · rename_i rest' _ hne
      rcases digits_eq rest' fraction rest h with ⟨hrest, hdigits, _⟩
      refine ⟨?_, hdigits⟩
      rw [pointed, if_neg fun hnil => hne rest (by rw [h, hnil]), hrest]
      rfl
  · cases h
    exact ⟨rfl, fun c hc => absurd hc List.not_mem_nil⟩

/-- There is no exponent where its letter is missing. -/
theorem exponentPart?_of_endsNumber (cs : List Char) (h : EndsNumber cs) :
    exponentPart? cs = none := by
  rcases cs with _ | ⟨c, cs⟩
  · rfl
  · rw [exponentPart?, if_neg fun hc => ?_]
    rcases h c rfl with ⟨_, _, he, hE⟩
    exact hc.elim he hE

/-- An exponent is read up to its last digit. -/
theorem exponentPart?_some_front (cs rest : List Char) (e : Int)
    (h : exponentPart? cs = some (e, rest)) :
    ∃ letter front, (letter = 'e' ∨ letter = 'E') ∧ cs = letter :: (front ++ rest) ∧
      ∀ other, EndsDigits other → exponentPart? (letter :: (front ++ other)) = some (e, other) := by
  rcases cs with _ | ⟨letter, cs⟩
  · cases h
  · rw [exponentPart?] at h
    split at h
    · rename_i hletter
      dsimp only at h
      rcases hsplit : Text.splitSign cs with ⟨negative, body⟩
      rcases hbody : digits body with ⟨ds, after⟩
      rw [hsplit] at h
      dsimp only at h
      rw [hbody] at h
      rcases ds with _ | ⟨d, ds⟩
      · cases h
      · cases h
        rcases Text.isSign_of_splitSign cs body negative hsplit with ⟨sign, hcs, hsign⟩
        rcases digits_eq body _ _ hbody with ⟨hbody', hdigits, _⟩
        refine ⟨letter, sign ++ d :: ds, hletter, by rw [hcs, hbody', List.append_assoc],
          fun other hother => ?_⟩
        -- That the sign is read the same with another text behind it hangs on the digit after the
        -- sign.
        have hd : d.isDigit = true := hdigits d List.mem_cons_self
        have hsigned : Text.splitSign (sign ++ (d :: ds ++ other)) = (negative, d :: ds ++ other) :=
          Text.splitSign_of_isSign sign [d] (ds ++ other) negative _ hsign
            (.one (Text.digitValue?_of_isDigit d hd))
        rw [exponentPart?, if_pos hletter, List.append_assoc, hsigned]
        dsimp only
        rw [digits_append _ other hdigits hother]
    · cases h

/-- An exponent is read from the front, and so is a missing one. -/
theorem exponentPart?_front (cs : List Char) :
    ∃ found front after, exponentPart? cs = found.map (·, after) ∧ cs = front ++ after ∧
      (found = none → front = []) ∧ ∀ other, EndsNumber other →
        EndsDigits (front ++ other) ∧ (front ++ other).head? ≠ some '.' ∧
          exponentPart? (front ++ other) = found.map (·, other) := by
  -- Without an exponent nothing is taken, and `other` has to be a text in which none begins.
  rcases h : exponentPart? cs with _ | ⟨e, rest⟩
  · refine ⟨none, [], cs, rfl, rfl, fun _ => rfl, fun other hother => ?_⟩
    exact ⟨hother.endsDigits, fun hpoint => (hother '.' hpoint).2.1 rfl,
      exponentPart?_of_endsNumber other hother⟩
  · rcases exponentPart?_some_front cs rest e h with ⟨letter, front, hletter, hcs, hread⟩
    refine ⟨some e, letter :: front, rest, rfl, hcs, nofun, fun other hother => ?_⟩
    refine ⟨fun c hc => ?_, fun hpoint => ?_, hread other hother.endsDigits⟩
    · cases Option.some.inj hc
      rcases hletter with rfl | rfl <;> decide
    · cases Option.some.inj hpoint
      exact absurd hletter (by decide)

/-- What a whole part becomes, by what follows it. -/
def afterWhole (limit : Option Nat) (negative : Bool) (whole rest : List Char) :
    Except Fault (Json × List Char) :=
  match fractionPart rest, exponentPart? (fractionPart rest).2 with
  | ([], _), none =>
    if limit.any (· < whole.length) then .error .hugeInteger
    else .ok (.int (Text.withSign negative (Text.digitsValue whole)), rest)
  | (fraction, after), exponent =>
    let (e, after) := exponent.getD (0, after)
    .ok (.real (Binary64.ofDecimal negative (Text.digitsValue (whole ++ fraction))
      (e - fraction.length)), after)

/-- A number is read from its whole part on. -/
theorem number_append (limit : Option Nat) (sign whole rest : List Char) (hsign : IsMinus sign)
    (hwhole : IsWhole whole) (hrest : EndsDigits rest) :
    number limit (sign ++ (whole ++ rest)) =
      afterWhole limit (decide (sign = ['-'])) whole rest := by
  have hread := wholePart?_append whole rest hwhole hrest
  rcases hsign with rfl | rfl
  · -- A whole part begins with a digit, which is not mistaken for the sign.
    have hhead : (whole ++ rest).head? ≠ some '-' := by
      rcases hwhole.exists_cons with ⟨c, t, rfl, hc⟩
      exact fun hminus => absurd (Option.some.inj hminus ▸ hc) (by decide)
    rw [List.nil_append, number]
    simp only [hhead, if_false, hread]
    rfl
  · rw [number]
    simp only [List.cons_append, List.nil_append, List.head?_cons, if_true, List.tail_cons, hread]
    rfl

/-- Where there is no whole part, a value is missed. Every other text has a number at its start. -/
theorem number_cases (limit : Option Nat) (cs : List Char) :
    number limit cs = complain .expectedValue cs ∨
      ∃ sign whole rest, IsMinus sign ∧ IsWhole whole ∧ (whole = ['0'] ∨ EndsDigits rest) ∧
        cs = sign ++ (whole ++ rest) ∧
        number limit cs = afterWhole limit (decide (sign = ['-'])) whole rest := by
  -- With a sign and without one the whole part is looked for in different places, and the rest is
  -- the same.
  by_cases hminus : cs.head? = some '-'
  · rcases cs with _ | ⟨c, t⟩
    · cases hminus
    · cases Option.some.inj hminus
      rcases hwhole : wholePart? t with _ | ⟨whole, rest⟩
      · left
        rw [number]
        simp only [List.head?_cons, if_true, List.tail_cons, hwhole]
      · right
        rcases isWhole_of_wholePart? t whole rest hwhole with ⟨ht, hw, hrest⟩
        refine ⟨['-'], whole, rest, .inr rfl, hw, hrest, by rw [ht]; rfl, ?_⟩
        rw [number]
        simp only [List.head?_cons, if_true, List.tail_cons, hwhole]
        rfl
  · rcases hwhole : wholePart? cs with _ | ⟨whole, rest⟩
    · left
      rw [number]
      simp only [hminus, if_false, hwhole]
    · right
      rcases isWhole_of_wholePart? cs whole rest hwhole with ⟨ht, hw, hrest⟩
      refine ⟨[], whole, rest, .inl rfl, hw, hrest, ht, ?_⟩
      rw [number]
      simp only [hminus, if_false, hwhole]
      rfl

/-- The value of a number by its parts. -/
def numberOf (limit : Option Nat) (negative : Bool) (whole fraction : List Char)
    (exponent : Option Int) : Except Fault Json :=
  if fraction = [] ∧ exponent = none then
    if limit.any (· < whole.length) then .error .hugeInteger
    else .ok (.int (Text.withSign negative (Text.digitsValue whole)))
  else .ok (.real (Binary64.ofDecimal negative (Text.digitsValue (whole ++ fraction))
    (exponent.getD 0 - fraction.length)))

theorem afterWhole_eq (limit : Option Nat) (negative : Bool)
    (whole rest fraction tail after : List Char) (exponent : Option Int)
    (hfraction : fractionPart rest = (fraction, tail))
    (hexponent : exponentPart? tail = exponent.map (·, after))
    (hnone : exponent = none → after = tail) :
    afterWhole limit negative whole rest =
      (numberOf limit negative whole fraction exponent).map (·, after) := by
  rw [afterWhole, numberOf, hfraction]
  dsimp only
  rw [hexponent]
  -- A number is an integer only when both parts are missing.
  rcases exponent with _ | e
  · rw [hnone rfl]
    rcases fraction with _ | ⟨c, fraction⟩
    · have hrest : rest = tail := (fractionPart_eq rest [] tail hfraction).1
      simp only [Option.map_none, and_self, if_true, hrest]
      split <;> rfl
    · rfl
  · simp only [reduceCtorEq, and_false, if_false]
    rcases fraction with _ | ⟨c, fraction⟩ <;> rfl

/-- A point does not go on with the digits before it. -/
theorem endsDigits_pointed (fraction rest : List Char) (h : EndsDigits rest) :
    EndsDigits (pointed fraction ++ rest) := by
  rw [pointed]
  split
  · exact h
  · intro c hc
    cases Option.some.inj hc
    decide

/-- What follows a whole part is read from the front. -/
theorem afterWhole_front (limit : Option Nat) (negative : Bool) (whole rest : List Char) :
    ∃ fraction exponent front after, rest = front ++ after ∧
      afterWhole limit negative whole rest =
        (numberOf limit negative whole fraction exponent).map (·, after) ∧
      ∀ other, EndsNumber other →
        EndsDigits (front ++ other) ∧
          afterWhole limit negative whole (front ++ other) =
            (numberOf limit negative whole fraction exponent).map (·, other) := by
  rcases hfraction : fractionPart rest with ⟨fraction, tail⟩
  rcases fractionPart_eq rest fraction tail hfraction with ⟨hrest, hdigits⟩
  rcases exponentPart?_front tail with ⟨exponent, front, after, hexponent, htail, hnone, hread⟩
  refine ⟨fraction, exponent, pointed fraction ++ front, after,
    by rw [hrest, htail, List.append_assoc],
    afterWhole_eq limit negative whole rest fraction tail after exponent hfraction hexponent
      fun h => by rw [htail, hnone h, List.nil_append], fun other hother => ?_⟩
  -- What `other` may begin with is passed from the exponent, over the fraction, to the whole part.
  rcases hread other hother with ⟨hends, hpoint, hexponent'⟩
  rw [List.append_assoc]
  exact ⟨endsDigits_pointed fraction _ hends,
    afterWhole_eq limit negative whole _ fraction (front ++ other) other exponent
      (fractionPart_append fraction (front ++ other) hdigits hends hpoint) hexponent'
      fun h => by rw [hnone h, List.nil_append]⟩

/-- A number is read up to where it does not go on. -/
theorem number_front (limit : Option Nat) (cs rest : List Char) (v : Json)
    (h : number limit cs = .ok (v, rest)) :
    ∃ front, cs = front ++ rest ∧ StartsNumber front ∧ IsFront (number limit) front v := by
  rcases number_cases limit cs with hmissing | ⟨sign, whole, tail, hsign, hwhole, _, hcs, hnumber⟩
  · rw [hmissing] at h
    cases h
  · -- The front is the sign, the whole part, and what was taken after it.
    rcases afterWhole_front limit (decide (sign = ['-'])) whole tail with
      ⟨fraction, exponent, front, after, htail, hafter, hread⟩
    rw [hnumber, hafter] at h
    rcases hvalue : numberOf limit (decide (sign = ['-'])) whole fraction exponent with e | v'
    · rw [hvalue] at h
      cases h
    · rw [hvalue] at h hread
      cases h
      refine ⟨sign ++ (whole ++ front), by rw [hcs, htail]; simp only [List.append_assoc], ?_,
        fun other hother => ?_⟩
      · rcases hwhole.exists_cons with ⟨c, t, rfl, hc⟩
        exact ⟨sign, c, t ++ front, hsign, hc, rfl⟩
      · rcases hread other hother with ⟨hends, hafter'⟩
        rw [List.append_assoc, List.append_assoc,
          number_append limit sign whole _ hsign hwhole hends, hafter']
        rfl

/-- The digits before a text end an integer: neither another digit nor a complete fraction or a
complete exponent follows them. -/
structure EndsInteger (cs : List Char) : Prop where
  digits : EndsDigits cs
  fraction : ∀ c rest, cs = '.' :: c :: rest → isDigit c = false
  exponent : ∀ letter sign negative c rest, letter = 'e' ∨ letter = 'E' →
    Text.IsSign sign negative → cs = letter :: (sign ++ c :: rest) → isDigit c = false

/-- A text begins with an integer of more digits than are read. -/
def LongInteger (cs : List Char) : Prop :=
  ∃ sign ds rest, IsMinus sign ∧ (∀ c ∈ ds, isDigit c = true) ∧ ds.head? ≠ some '0' ∧
    Text.maxDigits < ds.length ∧ EndsInteger rest ∧ cs = sign ++ (ds ++ rest)

theorem fractionPart_eq_nil_iff (cs : List Char) :
    fractionPart cs = ([], cs) ↔ ∀ c rest, cs = '.' :: c :: rest → isDigit c = false := by
  constructor
  · rintro h c rest rfl
    rw [fractionPart] at h
    -- Had the character after the point been a digit, it would be in the fraction.
    by_contra hc
    rw [Bool.not_eq_false] at hc
    rw [digits, List.takeWhile_cons_of_pos hc] at h
    exact absurd (Prod.mk.inj h).1 (List.cons_ne_nil _ _)
  · intro h
    unfold fractionPart
    split
    · rename_i rest
      rcases rest with _ | ⟨c, rest⟩
      · rfl
      · have hc : ¬ isDigit c = true := by simp [h c rest rfl]
        rw [digits, List.takeWhile_cons_of_neg hc]
    · rfl

theorem exponentPart?_eq_none_iff (cs : List Char) :
    exponentPart? cs = none ↔ ∀ letter sign negative c rest, letter = 'e' ∨ letter = 'E' →
      Text.IsSign sign negative → cs = letter :: (sign ++ c :: rest) → isDigit c = false := by
  constructor
  · rintro h letter sign negative c rest hletter hsign rfl
    by_contra hc
    rw [Bool.not_eq_false] at hc
    -- The sign is taken off before the digits are looked for.
    have hsigned : Text.splitSign (sign ++ c :: rest) = (negative, c :: rest) :=
      Text.splitSign_of_isSign sign [c] rest negative _ hsign
        (.one (Text.digitValue?_of_isDigit c hc))
    rw [exponentPart?, if_pos hletter, hsigned] at h
    dsimp only at h
    rw [digits, List.takeWhile_cons_of_pos hc] at h
    cases h
  · intro h
    rcases cs with _ | ⟨letter, cs⟩
    · rfl
    · rw [exponentPart?]
      split
      · rename_i hletter
        rcases hsplit : Text.splitSign cs with ⟨negative, body⟩
        rcases Text.isSign_of_splitSign cs body negative hsplit with ⟨sign, hcs, hsign⟩
        dsimp only
        rcases body with _ | ⟨c, body⟩
        · rfl
        · have hc : ¬ isDigit c = true := by
            simp [h letter sign negative c body hletter hsign (by rw [hcs])]
          rw [digits, List.takeWhile_cons_of_neg hc]
      · rfl

/-- A whole part is refused if it is too long and what follows it makes it an integer. -/
theorem afterWhole_eq_error_iff (limit : Nat) (negative : Bool) (whole rest : List Char)
    (fault : Fault) :
    afterWhole (some limit) negative whole rest = .error fault ↔
      fractionPart rest = ([], rest) ∧ exponentPart? rest = none ∧ limit < whole.length ∧
        fault = .hugeInteger := by
  rcases hfraction : fractionPart rest with ⟨_ | ⟨c, fraction⟩, tail⟩
  · have hrest : rest = tail := (fractionPart_eq rest [] tail hfraction).1
    subst hrest
    rw [afterWhole, hfraction]
    rcases hexponent : exponentPart? rest with _ | found
    · -- Only an integer is held against the limit.
      by_cases hlong : limit < whole.length
      · simp [hlong, eq_comm]
      · simp [hlong]
    · simp
  · rw [afterWhole, hfraction]
    simp

/-- The faults of numbers are missing whole parts and integers of too many digits. -/
theorem number_eq_error (cs : List Char) (fault : Fault)
    (h : number (some Text.maxDigits) cs = .error fault) :
    fault = .complaint .expectedValue cs.length ∨ fault = .hugeInteger := by
  rcases number_cases (some Text.maxDigits) cs with
    hmissing | ⟨sign, whole, rest, _, _, _, _, hnumber⟩
  · rw [hmissing] at h
    cases h
    exact .inl rfl
  · rw [hnumber, afterWhole_eq_error_iff] at h
    exact .inr h.2.2.2

/-- The integers that are not read are those of too many digits. -/
theorem number_eq_hugeInteger_iff (cs : List Char) :
    number (some Text.maxDigits) cs = .error .hugeInteger ↔ LongInteger cs := by
  constructor
  · intro h
    rcases number_cases (some Text.maxDigits) cs with
      hmissing | ⟨sign, whole, rest, hsign, hwhole, hrest, hcs, hnumber⟩
    · rw [hmissing] at h
      cases h
    · rw [hnumber, afterWhole_eq_error_iff] at h
      rcases h with ⟨hfraction, hexponent, hlong, _⟩
      -- A zero is one digit long, so it is not a number that is too long.
      have hzero : whole ≠ ['0'] := by
        rintro rfl
        exact absurd hlong (by decide)
      rcases hwhole.resolve_left hzero with ⟨_, hhead, hdigits⟩
      exact ⟨sign, whole, rest, hsign, hdigits, hhead, hlong,
        ⟨hrest.resolve_left hzero, (fractionPart_eq_nil_iff rest).mp hfraction,
          (exponentPart?_eq_none_iff rest).mp hexponent⟩, hcs⟩
  · rintro ⟨sign, ds, rest, hsign, hdigits, hhead, hlong, hends, rfl⟩
    have hwhole : IsWhole ds := .inr ⟨List.ne_nil_of_length_pos (by omega), hhead, hdigits⟩
    rw [number_append _ sign ds rest hsign hwhole hends.digits, afterWhole_eq_error_iff]
    exact ⟨(fractionPart_eq_nil_iff rest).mpr hends.fraction,
      (exponentPart?_eq_none_iff rest).mpr hends.exponent, hlong, rfl⟩

theorem LongInteger.startsNumber {cs : List Char} (h : LongInteger cs) : StartsNumber cs := by
  rcases h with ⟨sign, ds, rest, hsign, hdigits, _, hlong, _, rfl⟩
  rcases List.exists_cons_of_length_pos (Nat.zero_lt_of_lt hlong) with ⟨c, t, rfl⟩
  exact ⟨sign, c, t ++ rest, hsign, hdigits c List.mem_cons_self, rfl⟩

/-! ## Words and numbers -/

/-- The word or the number at the start of a text. -/
def scalar (limit : Option Nat) (cs : List Char) : Except Fault (Json × List Char) :=
  match word? cs with
  | some found => .ok found
  | none => number limit cs

/-- A word or a number is read from the front. -/
theorem scalar_front (limit : Option Nat) (cs rest : List Char) (v : Json)
    (h : scalar limit cs = .ok (v, rest)) :
    ∃ front, cs = front ++ rest ∧ front ≠ [] ∧ IsFront (scalar limit) front v := by
  unfold scalar at h
  split at h
  · -- The words `null`, `true` and `false`, and the names of what is no number, are tried before a
    -- number.
    rename_i found hword
    cases h
    rcases word?_front cs rest v hword with ⟨front, hcs, hne, hread⟩
    exact ⟨front, hcs, hne, fun other _ => by rw [scalar, hread other]⟩
  · rcases number_front limit cs rest v h with ⟨front, hcs, ⟨sign, c, t, hsign, hc, rfl⟩, hread⟩
    refine ⟨sign ++ c :: t, hcs, by simp, fun other hother => ?_⟩
    rw [scalar, word?_of_startsNumber _ ⟨sign, c, t ++ other, hsign, hc, by simp⟩]
    exact hread other hother

/-- The faults of words and numbers are missing values and integers of too many digits. -/
theorem scalar_eq_error (cs : List Char) (fault : Fault)
    (h : scalar (some Text.maxDigits) cs = .error fault) :
    fault = .complaint .expectedValue cs.length ∨ fault = .hugeInteger ∧ LongInteger cs := by
  unfold scalar at h
  split at h
  · cases h
  · rcases number_eq_error cs fault h with rfl | rfl
    · exact .inl rfl
    · exact .inr ⟨rfl, (number_eq_hugeInteger_iff cs).mp h⟩

/-- An integer of too many digits is refused. -/
theorem scalar_of_longInteger (cs : List Char) (h : LongInteger cs) :
    scalar (some Text.maxDigits) cs = .error .hugeInteger := by
  rw [scalar, word?_of_startsNumber cs h.startsNumber]
  exact (number_eq_hugeInteger_iff cs).mpr h

end StorageLayout.Json.Parser
