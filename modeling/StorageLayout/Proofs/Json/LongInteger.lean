import Mathlib.Tactic.Common
import StorageLayout.Proofs.Json.Token
import StorageLayout.Proofs.Outcome

/-!
# Integers of Too Many Digits

The texts whose reading ends at an integer that has too many digits.

Nothing is read of a text behind such an integer, and whatever stands there, the text is refused for
the integer. What stands before it is read in the same way as when the text ends there, and then the
end is where a value is missed. So these texts are the ones that can be cut in two such that the
second part begins with a long integer and the first part, read by itself, ends where a value is
expected (`parse_eq_hugeInteger_iff`).

The reader of values, that of items and that of members call one another, and all three go on in one
way: something at the front of a text decides which of them reads the rest and what becomes of its
result (`Continues`). What is to be shown of each text (`SteadyAt`) is kept when something is put in
front of it that continues (`SteadyAt.lead`). So it is shown once for an opening bracket, for a
comma with the item before it and for a name with its colon, and the run lemma is an induction on
the fuel that only says which of these a text begins with.

## Main definitions

* `cutOff`: The fault of a text that ends where a value is expected.
* `SteadyAt`: How a reader behaves on a text, and on other texts that begin like it.
* `Continues`: A front decides how reading goes on.
* `member`, `sequence`, `enclosed`: What lists and objects have in common.
* `MeetsLongInteger`: A text ends in a long integer, as far as it is read.

## Theorems

* `SteadyAt.lead`: What is put in front of a text and continues keeps it steady.
* `steady`: All three readers are steady on every text.
* `parse_eq_hugeInteger_iff`: The texts that are refused for an integer.
-/

namespace StorageLayout.Json.Parser

variable {α β : Type}

/-! ## Spaces -/

/-- The first character of a text, if there is one, has a property. -/
def HeadIs (p : Char → Bool) (cs : List Char) : Prop := ∀ c ∈ cs.head?, p c = true

theorem headIs_cons {p : Char → Bool} {c : Char} {cs : List Char} (hc : p c = true) :
    HeadIs p (c :: cs) := by
  intro d hd
  cases Option.some.inj hd
  exact hc

theorem HeadIs.left {p : Char → Bool} {front rest : List Char} (h : HeadIs p (front ++ rest)) :
    HeadIs p front := by
  rcases front with _ | ⟨c, front⟩
  · exact fun c hc => absurd hc (by simp)
  · exact h

theorem HeadIs.append {p : Char → Bool} {front other : List Char} (h : HeadIs p front)
    (hother : front = [] → HeadIs p other) : HeadIs p (front ++ other) := by
  rcases front with _ | ⟨c, front⟩
  · exact hother rfl
  · exact h

/-- A character that may not stand between tokens. -/
def noSpace (c : Char) : Bool := !isSpace c

/-- Spaces between tokens. -/
def IsGap (gap : List Char) : Prop := ∀ c ∈ gap, isSpace c = true

/-- A text without the spaces at its front begins with no space. -/
theorem skipSpaces_spec (cs : List Char) :
    ∃ gap, IsGap gap ∧ cs = gap ++ skipSpaces cs ∧ HeadIs noSpace (skipSpaces cs) := by
  refine ⟨cs.takeWhile isSpace, fun c hc => List.mem_takeWhile_imp hc,
    List.takeWhile_append_dropWhile.symm, fun c hc => ?_⟩
  have hnot := List.head?_dropWhile_not isSpace cs
  rw [skipSpaces, Option.mem_def] at hc
  rw [hc] at hnot
  simpa [noSpace] using hnot

/-- Spaces are skipped up to where they end. -/
theorem skipSpaces_append (gap cs : List Char) (hgap : IsGap gap) (hcs : HeadIs noSpace cs) :
    skipSpaces (gap ++ cs) = cs := by
  rw [skipSpaces, List.dropWhile_append_of_pos hgap]
  rcases cs with _ | ⟨c, cs⟩
  · rfl
  · have hc : ¬ isSpace c = true := by simpa [noSpace] using hcs c rfl
    exact List.dropWhile_cons_of_neg hc

/-- No number goes on with a space, or with what does not go on with one. -/
theorem endsNumber_gap (gap cs : List Char) (hgap : IsGap gap) (hcs : EndsNumber cs) :
    EndsNumber (gap ++ cs) := by
  rcases gap with _ | ⟨c, gap⟩
  · exact hcs
  · intro d hd
    cases Option.some.inj hd
    have hc : isSpace c = true := hgap c List.mem_cons_self
    simp only [isSpace, Bool.or_eq_true, beq_iff_eq] at hc
    rcases hc with ((rfl | rfl) | rfl) | rfl <;> decide

/-- Digits and a minus are among these characters. -/
def HoldsNumbers (p : Char → Bool) : Prop := ∀ c, isDigit c = true ∨ c = '-' → p c = true

theorem StartsNumber.headIs {p : Char → Bool} {cs : List Char} (h : StartsNumber cs)
    (hp : HoldsNumbers p) : HeadIs p cs := by
  rcases h with ⟨sign, c, rest, rfl | rfl, hc, rfl⟩
  · exact headIs_cons (hp c (.inl hc))
  · exact headIs_cons (hp '-' (.inr rfl))

theorem holdsNumbers_ne (d : Char) (hdigit : isDigit d = false) (hminus : d ≠ '-') :
    HoldsNumbers (· != d) := by
  rintro c hc
  rw [bne_iff_ne]
  rintro rfl
  rcases hc with hc | hc
  · exact absurd hc (by rw [hdigit]; exact Bool.false_ne_true)
  · exact hminus hc

theorem HoldsNumbers.and {p q : Char → Bool} (hp : HoldsNumbers p) (hq : HoldsNumbers q) :
    HoldsNumbers fun c => p c && q c :=
  fun c hc => Bool.and_eq_true_iff.mpr ⟨hp c hc, hq c hc⟩

theorem holdsNumbers_noSpace : HoldsNumbers noSpace := by
  rintro c (hc | rfl)
  · rw [noSpace, Bool.not_eq_true', ← Bool.not_eq_true]
    intro hspace
    simp only [isSpace, Bool.or_eq_true, beq_iff_eq] at hspace
    rcases hspace with ((rfl | rfl) | rfl) | rfl <;> exact absurd hc (by decide)
  · decide

/-! ## Steady readers -/

/-- The fault of a text that ends where a value is expected. -/
def cutOff : Fault := .complaint .expectedValue 0

/-- A reader that is given fuel. -/
abbrev Reader (α : Type) := Nat → List Char → Except Fault (α × List Char)

/-- How a reader with some fuel behaves on a text, and with enough of it on the texts that begin
with what it reads there. Every character of a text may cost two calls, and `extra` is how many more
the reader needs to miss a value at the end. -/
structure SteadyAt (run : Reader α) (extra fuel : Nat) (cs : List Char) : Prop where
  /-- A result is read from the front. -/
  front : ∀ a rest, run fuel cs = .ok (a, rest) →
    ∃ front, cs = front ++ rest ∧ front ≠ [] ∧
      ∀ fuel', front.length ≤ fuel' → IsFront (run fuel') front a
  /-- Before an integer that is refused a value is missed. -/
  before : run fuel cs = .error .hugeInteger →
    ∃ before after, cs = before ++ after ∧ LongInteger after ∧
      ∀ fuel', 2 * before.length + extra ≤ fuel' → run fuel' before = .error cutOff
  /-- Where a value is missed at the end, a long integer is refused. -/
  refused : run fuel cs = .error cutOff → 2 * cs.length + extra ≤ fuel →
    ∀ after, LongInteger after → ∀ fuel', 2 * cs.length + extra ≤ fuel' →
      run fuel' (cs ++ after) = .error .hugeInteger

/-- A result that is read from the front without another reader. -/
theorem SteadyAt.of_front {run : Reader α} {extra fuel : Nat} {front rest : List Char} {a : α}
    (hrun : run fuel (front ++ rest) = .ok (a, rest)) (hne : front ≠ [])
    (hread : ∀ fuel', front.length ≤ fuel' → IsFront (run fuel') front a) :
    SteadyAt run extra fuel (front ++ rest) where
  front a' rest' h := by
    rw [hrun] at h
    cases h
    exact ⟨front, rfl, hne, hread⟩
  before h := by
    rw [hrun] at h
    cases h
  refused h := by
    rw [hrun] at h
    cases h

/-- A complaint about something else than a value. -/
theorem SteadyAt.of_complaint {run : Reader α} {extra fuel : Nat} {cs : List Char}
    (h : ∃ what remaining, run fuel cs = .error (.complaint what remaining) ∧
      what ≠ .expectedValue) : SteadyAt run extra fuel cs := by
  rcases h with ⟨what, remaining, hrun, hwhat⟩
  refine ⟨fun a rest h => ?_, fun h => ?_, fun h => ?_⟩
  · rw [hrun] at h
    cases h
  · rw [hrun] at h
    cases h
  · rw [hrun] at h
    cases h
    exact absurd rfl hwhat

/-- Without fuel nothing is read. -/
theorem steadyAt_zero {run : Reader α} {extra : Nat} {cs : List Char}
    (hrun : run 0 cs = complain .expectedValue cs) (hextra : 0 < extra) :
    SteadyAt run extra 0 cs := by
  refine ⟨fun a rest h => ?_, fun h => ?_, fun _ hfuel => absurd hfuel (by omega)⟩
  · rw [hrun] at h
    cases h
  · rw [hrun] at h
    cases h

/-- Behind a front, one reader goes on as another one does. -/
def Continues (p : Char → Bool) (run : Reader α) (run' : Reader β) (cost : Nat)
    (lead : List Char) (g : α → β) : Prop :=
  ∀ fuel cs, HeadIs p cs → lead.length ≤ fuel + cost →
    run' (fuel + cost) (lead ++ cs) = (run fuel cs).map fun found => (g found.1, found.2)

/-- What is put in front of a text and continues keeps it steady. -/
theorem SteadyAt.lead {p : Char → Bool} {run : Reader α} {run' : Reader β}
    {extra extra' cost fuel : Nat} {lead cs : List Char} {g : α → β}
    (h : SteadyAt run extra fuel cs) (hp : HoldsNumbers p) (hcs : HeadIs p cs)
    (hcontinues : Continues p run run' cost lead g) (hlead : lead ≠ []) (hcost : cost ≤ 1)
    (hextra : cost + extra ≤ extra' + 2)
    (hrun : run' (fuel + cost) (lead ++ cs) =
      (run fuel cs).map fun found => (g found.1, found.2)) :
    SteadyAt run' extra' (fuel + cost) (lead ++ cs) := by
  -- A front has a character, which pays for the call that it costs.
  have hlength : 0 < lead.length := List.length_pos_of_ne_nil hlead
  refine ⟨fun b rest hok => ?_, fun herror => ?_, fun herror hfuel after hlong fuel' hfuel' => ?_⟩
  · rw [hrun] at hok
    rcases hread : run fuel cs with fault | ⟨a, rest'⟩
    · rw [hread] at hok
      cases hok
    · rw [hread] at hok
      cases hok
      rcases h.front a rest' hread with ⟨front, rfl, hne, hfront⟩
      refine ⟨lead ++ front, (List.append_assoc _ _ _).symm, by simp [hlead],
        fun fuel' hfuel' other hother => ?_⟩
      rw [List.length_append] at hfuel'
      obtain ⟨n, rfl⟩ : ∃ n, fuel' = n + cost := ⟨fuel' - cost, by omega⟩
      rw [List.append_assoc, hcontinues n (front ++ other)
        (hcs.left.append fun hnil => absurd hnil hne) (by omega), hfront n (by omega) other hother]
      rfl
  · rw [hrun] at herror
    rcases hread : run fuel cs with fault | found
    · rw [hread] at herror
      cases herror
      rcases h.before hread with ⟨before, after, rfl, hlong, hbefore⟩
      refine ⟨lead ++ before, after, (List.append_assoc _ _ _).symm, hlong,
        fun fuel' hfuel' => ?_⟩
      rw [List.length_append] at hfuel'
      obtain ⟨n, rfl⟩ : ∃ n, fuel' = n + cost := ⟨fuel' - cost, by omega⟩
      rw [hcontinues n before hcs.left (by omega), hbefore n (by omega)]
      rfl
    · rw [hread] at herror
      cases herror
  · rw [List.length_append] at hfuel hfuel'
    rw [hrun] at herror
    rcases hread : run fuel cs with fault | found
    · rw [hread] at herror
      cases herror
      obtain ⟨n, rfl⟩ : ∃ n, fuel' = n + cost := ⟨fuel' - cost, by omega⟩
      rw [List.append_assoc, hcontinues n (cs ++ after)
        (hcs.append fun _ => hlong.startsNumber.headIs hp) (by omega),
        h.refused hread (by omega) after hlong n (by omega)]
      rfl
    · rw [hread] at herror
      cases herror

/-! ## Names, items and members -/

/-- A member of an object: its name, a colon and its value. -/
def member (limit : Option Nat) : Reader (String × Json)
  | fuel, cs => do
    match cs with
    | '"' :: rest =>
      let (name, after) ← stringBody cs [] rest
      match skipSpaces after with
      | ':' :: rest =>
        let (v, after) ← value limit fuel (skipSpaces rest)
        return ((name, v), after)
      | rest => complain .expectedColon rest
    | cs => complain .expectedName cs

/-- What follows an element: the end of the elements, or a comma and others. -/
def further (close : Char) (others : List Char → Except Fault (List α × List Char)) (item : α)
    (after : List Char) : Except Fault (List α × List Char) :=
  match skipSpaces after with
  | [] => complain .expectedComma []
  | c :: rest =>
    if c = close then .ok ([item], rest)
    else if c = ',' then (others (skipSpaces rest)).map fun found => (item :: found.1, found.2)
    else complain .expectedComma (c :: rest)

/-- Elements with commas between them, up to what closes them. -/
def sequence (close : Char) (element : Reader α) : Reader (List α)
  | 0, cs => complain .expectedValue cs
  | fuel + 1, cs =>
    element fuel cs >>= fun found => further close (sequence close element fuel) found.1 found.2

/-- Nothing, or elements, up to what closes them. -/
def enclosed (close : Char) (run : List Char → Except Fault (List α × List Char))
    (cs : List Char) : Except Fault (List α × List Char) :=
  match skipSpaces cs with
  | c :: after => if c = close then .ok ([], after) else run (c :: after)
  | [] => run []

/-- A reader of elements is known from its steps. -/
theorem eq_sequence (close : Char) (element : Reader α) (run : Reader (List α))
    (hzero : ∀ cs, run 0 cs = complain .expectedValue cs)
    (hsucc : ∀ fuel cs, run (fuel + 1) cs =
      element fuel cs >>= fun found => further close (run fuel) found.1 found.2) :
    run = sequence close element := by
  funext fuel
  induction fuel with
  | zero => exact funext hzero
  | succ fuel ih =>
      funext cs
      rw [hsucc, ih, sequence]

theorem items_eq_sequence (limit : Option Nat) : items limit = sequence ']' (value limit) := by
  refine eq_sequence _ _ _ (fun _ => rfl) fun fuel cs => ?_
  rw [items]
  refine congrArg (value limit fuel cs >>= ·) (funext fun ⟨item, after⟩ => ?_)
  rw [further]
  dsimp only
  rcases skipSpaces after with _ | ⟨c, rest⟩
  · rfl
  · -- The definition matches on the character, `sequence` compares it.
    by_cases hclose : c = ']'
    · rw [hclose]
      rfl
    · by_cases hcomma : c = ','
      · rw [hcomma]
        rfl
      · simp [hclose, hcomma]

theorem members_succ (limit : Option Nat) (fuel : Nat) (cs : List Char) :
    members limit (fuel + 1) cs = member limit fuel cs >>= fun found =>
      match skipSpaces found.2 with
      | '\x7d' :: rest => .ok ([found.1], rest)
      | ',' :: rest => members limit fuel (skipSpaces rest) >>= fun others =>
        .ok (found.1 :: others.1, others.2)
      | rest => complain .expectedComma rest := by
  -- The reader of an object looks for the quote itself, so its absence is a case of its own here.
  by_cases hname : cs.head? = some '"'
  · rcases cs with _ | ⟨c, rest⟩
    · cases hname
    · cases Option.some.inj hname
      rw [members, member]
      rcases stringBody ('"' :: rest) [] rest with fault | ⟨name, after⟩
      · rfl
      · simp only [ok_bind]
        rcases skipSpaces after with _ | ⟨c, inside⟩
        · rfl
        · by_cases hc : c = ':'
          · subst hc
            change (value limit fuel (skipSpaces inside) >>= _) =
              (value limit fuel (skipSpaces inside) >>= _) >>= _
            rcases value limit fuel (skipSpaces inside) with fault | ⟨v, after⟩ <;> rfl
          · simp [hc, complain]
            rfl
  · have hquote : ∀ rest, cs = '"' :: rest → False := fun rest hcs => hname (by rw [hcs]; rfl)
    rw [members, member]
    · rfl
    · exact hquote
    · exact hquote

theorem members_eq_sequence (limit : Option Nat) :
    members limit = sequence '\x7d' (member limit) := by
  refine eq_sequence _ _ _ (fun _ => rfl) fun fuel cs => ?_
  rw [members_succ]
  refine congrArg (member limit fuel cs >>= ·) (funext fun ⟨found, after⟩ => ?_)
  rw [further]
  dsimp only
  rcases skipSpaces after with _ | ⟨c, rest⟩
  · rfl
  · -- The same as for items, with the other closing bracket.
    by_cases hclose : c = '\x7d'
    · rw [hclose]
      rfl
    · by_cases hcomma : c = ','
      · rw [hcomma]
        rfl
      · simp [hclose, hcomma]

/-- A result is changed and what follows it is kept. -/
theorem bind_found (run : Except Fault (α × List Char)) (g : α → β) :
    (do
      let (a, after) ← run
      return (g a, after)) = run.map fun found => (g found.1, found.2) := by
  rcases run with fault | found <;> rfl

theorem value_list (limit : Option Nat) (fuel : Nat) (cs : List Char) :
    value limit (fuel + 1) ('[' :: cs) =
      (enclosed ']' (items limit fuel) cs).map fun found => (.arr found.1, found.2) := by
  rw [value, enclosed]
  rcases skipSpaces cs with _ | ⟨c, rest⟩
  · exact bind_found _ _
  · by_cases hclose : c = ']'
    · rw [hclose]
      rfl
    · simp only [hclose, if_false]
      -- The bracket that closes at once was excluded, so the match goes on to the items.
      split
      · rename_i heq
        exact absurd (List.cons.inj heq).1 hclose
      · exact bind_found _ _

theorem value_object (limit : Option Nat) (fuel : Nat) (cs : List Char) :
    value limit (fuel + 1) ('\x7b' :: cs) =
      (enclosed '\x7d' (members limit fuel) cs).map
        fun found => (.obj (Assoc.ofList found.1), found.2) := by
  rw [value, enclosed]
  rcases skipSpaces cs with _ | ⟨c, rest⟩
  · exact bind_found _ fun found => Json.obj (Assoc.ofList found)
  · by_cases hclose : c = '\x7d'
    · rw [hclose]
      rfl
    · simp only [hclose, if_false]
      split
      · rename_i heq
        exact absurd (List.cons.inj heq).1 hclose
      · exact bind_found _ fun found => Json.obj (Assoc.ofList found)

theorem value_string (limit : Option Nat) (fuel : Nat) (cs : List Char) :
    value limit (fuel + 1) ('"' :: cs) =
      (stringBody ('"' :: cs) [] cs).map fun found => (.str found.1, found.2) := by
  rw [value]
  rcases stringBody ('"' :: cs) [] cs with fault | ⟨s, after⟩ <;> rfl

/-- Neither a quote nor an opening bracket. -/
def noOpening (c : Char) : Bool := c != '"' && c != '[' && c != '\x7b'

theorem holdsNumbers_noOpening : HoldsNumbers noOpening :=
  ((holdsNumbers_ne '"' rfl (by decide)).and (holdsNumbers_ne '[' rfl (by decide))).and
    (holdsNumbers_ne '\x7b' rfl (by decide))

/-- A text that begins with no quote and no bracket has a word or a number at its start, if
anything. -/
theorem value_scalar (limit : Option Nat) (fuel : Nat) (cs : List Char) (h : HeadIs noOpening cs) :
    value limit (fuel + 1) cs = scalar limit cs := by
  rw [value]
  · rfl
  · rintro rest rfl
    exact absurd (h _ rfl) (by decide)
  · rintro rest rfl
    exact absurd (h _ rfl) (by decide)
  · rintro rest rfl
    exact absurd (h _ rfl) (by decide)

/-! ## The readers are steady -/

theorem endsNumber_cons (c : Char) (rest : List Char)
    (hc : c = ',' ∨ c = ':' ∨ c = ']' ∨ c = '\x7d') : EndsNumber (c :: rest) := by
  intro d hd
  cases Option.some.inj hd
  rcases hc with rfl | rfl | rfl | rfl <;> decide

/-- Behind a name and its colon a value is read. -/
theorem member_of_name (limit : Option Nat) (fuel : Nat) (rest after inside : List Char)
    (name : String) (hname : stringBody ('"' :: rest) [] rest = .ok (name, after))
    (hcolon : skipSpaces after = ':' :: inside) :
    member limit fuel ('"' :: rest) =
      (value limit fuel (skipSpaces inside)).map fun found => ((name, found.1), found.2) := by
  rw [member, hname, ok_bind]
  dsimp only
  rw [hcolon]
  exact bind_found _ _

theorem continues_member (limit : Option Nat) (front gap gap' : List Char) (name : String)
    (hfront : ∀ start other, stringBody start [] (front ++ other) = .ok (name, other))
    (hgap : IsGap gap) (hgap' : IsGap gap') :
    Continues noSpace (value limit) (member limit) 0
      ('"' :: (front ++ (gap ++ ':' :: gap'))) (name, ·) := by
  intro fuel cs hcs _
  have hlead : '"' :: (front ++ (gap ++ ':' :: gap')) ++ cs =
      '"' :: (front ++ (gap ++ ':' :: (gap' ++ cs))) := by
    simp only [List.append_assoc, List.cons_append]
  rw [hlead, Nat.add_zero, member_of_name limit fuel _ _ (gap' ++ cs) name (hfront _ _)
    (skipSpaces_append gap _ hgap (headIs_cons rfl)), skipSpaces_append gap' cs hgap' hcs]

/-- A member is steady if the value behind its colon is. -/
theorem steadyAt_member (limit : Option Nat) (fuel : Nat) (cs : List Char)
    (hvalue : ∀ cs, SteadyAt (value limit) 1 fuel cs) : SteadyAt (member limit) 1 fuel cs := by
  by_cases hquote : cs.head? = some '"'
  · rcases cs with _ | ⟨c, rest⟩
    · cases hquote
    · cases Option.some.inj hquote
      rcases hname : stringBody ('"' :: rest) [] rest with fault | ⟨name, after⟩
      · -- A fault in the name is a complaint that is not about a missing value, so nothing has to
        -- be shown of it.
        rcases stringBody_error _ _ _ fault hname with ⟨what, remaining, rfl, hwhat⟩
        exact .of_complaint ⟨what, remaining, by rw [member, hname]; rfl, hwhat⟩
      · rcases stringBody_front _ _ _ _ _ hname with ⟨front, rfl, _, hfront⟩
        rcases skipSpaces_spec after with ⟨gap, hgap, hafter, _⟩
        by_cases hcolon : (skipSpaces after).head? = some ':'
        · obtain ⟨inside, hinside⟩ := List.head?_eq_some_iff.mp hcolon
          rcases skipSpaces_spec inside with ⟨gap', hgap', hinside', hhead⟩
          -- Everything up to the value is a fixed front, and what holds of the value holds of the
          -- member behind that front.
          have hcs : '"' :: (front ++ after) =
              '"' :: (front ++ (gap ++ ':' :: gap')) ++ skipSpaces inside := by
            simp only [List.append_assoc, List.cons_append]
            rw [← hinside', ← hinside, ← hafter]
          have hrun := member_of_name limit fuel _ after inside name hname hinside
          rw [hcs] at hrun ⊢
          exact (hvalue _).lead holdsNumbers_noSpace hhead
            (continues_member limit front gap gap' name hfront hgap hgap') (List.cons_ne_nil _ _)
            (Nat.zero_le 1) (by omega) hrun
        · refine .of_complaint ⟨.expectedColon, (skipSpaces after).length, ?_, by decide⟩
          rw [member, hname, ok_bind]
          dsimp only
          split
          · rename_i heq
            exact absurd (by rw [heq]; rfl) hcolon
          · rfl
  · refine .of_complaint ⟨.expectedName, cs.length, ?_, by decide⟩
    rw [member]
    · rfl
    · exact fun rest hcs => hquote (by rw [hcs]; rfl)

/-- Behind an element and a comma the others are read. -/
theorem sequence_of_comma (close : Char) (element : Reader α) (fuel : Nat)
    (cs after rest : List Char) (item : α) (hclose : close ≠ ',')
    (hitem : element fuel cs = .ok (item, after)) (hcomma : skipSpaces after = ',' :: rest) :
    sequence close element (fuel + 1) cs =
      (sequence close element fuel (skipSpaces rest)).map
        fun found => (item :: found.1, found.2) := by
  rw [sequence, hitem, ok_bind, further, hcomma]
  dsimp only
  rw [if_neg hclose.symm, if_pos rfl]

/-- Behind the last element nothing is read but what closes them. -/
theorem sequence_of_close (close : Char) (element : Reader α) (fuel : Nat)
    (cs after rest : List Char) (item : α) (hitem : element fuel cs = .ok (item, after))
    (hclose : skipSpaces after = close :: rest) :
    sequence close element (fuel + 1) cs = .ok ([item], rest) := by
  rw [sequence, hitem, ok_bind, further, hclose]
  dsimp only
  rw [if_pos rfl]

/-- Where an element is missed, the others are, too. -/
theorem sequence_of_error (close : Char) (element : Reader α) (fuel : Nat) (cs : List Char)
    (fault : Fault) (h : element fuel cs = .error fault) :
    sequence close element (fuel + 1) cs = .error fault := by
  rw [sequence, h]
  rfl

theorem continues_sequence (close : Char) (element : Reader α) (front gap gap' : List Char)
    (item : α) (hclose : close ≠ ',')
    (hfront : ∀ fuel, front.length ≤ fuel → IsFront (element fuel) front item)
    (hgap : IsGap gap) (hgap' : IsGap gap') :
    Continues noSpace (sequence close element) (sequence close element) 1
      (front ++ (gap ++ ',' :: gap')) (item :: ·) := by
  intro fuel cs hcs hfuel
  have hlead : front ++ (gap ++ ',' :: gap') ++ cs = front ++ (gap ++ ',' :: (gap' ++ cs)) := by
    simp only [List.append_assoc, List.cons_append]
  rw [List.length_append, List.length_append, List.length_cons] at hfuel
  rw [hlead, sequence_of_comma close element fuel _ _ (gap' ++ cs) item hclose
    (hfront fuel (by omega) _ (endsNumber_gap gap _ hgap (endsNumber_cons ',' _ (.inl rfl))))
    (skipSpaces_append gap _ hgap (headIs_cons rfl)), skipSpaces_append gap' cs hgap' hcs]

/-- What closes the elements is found behind spaces. -/
theorem skipSpaces_close (close : Char) (gap other : List Char)
    (hclose : close = ']' ∨ close = '\x7d') (hgap : IsGap gap) :
    skipSpaces (gap ++ close :: other) = close :: other :=
  skipSpaces_append gap _ hgap (headIs_cons (by rcases hclose with rfl | rfl <;> rfl))

/-- Elements are steady where the first one is missed. -/
theorem steadyAt_sequence_of_error (close : Char) (element : Reader α) (fuel : Nat)
    (cs : List Char) (fault : Fault) (helement : SteadyAt element 1 fuel cs)
    (hitem : element fuel cs = .error fault) :
    SteadyAt (sequence close element) 2 (fuel + 1) cs := by
  have hrun := sequence_of_error close element fuel cs fault hitem
  -- The fault of the first element is that of the sequence, at any larger budget as well.
  refine ⟨fun a rest h => ?_, fun h => ?_, fun h hfuel after hlong fuel' hfuel' => ?_⟩
  · rw [hrun] at h
    cases h
  · rw [hrun] at h
    cases h
    rcases helement.before hitem with ⟨before, after, hcs, hlong, hbefore⟩
    refine ⟨before, after, hcs, hlong, fun fuel' hfuel' => ?_⟩
    obtain ⟨n, rfl⟩ : ∃ n, fuel' = n + 1 := ⟨fuel' - 1, by omega⟩
    exact sequence_of_error close element n before _ (hbefore n (by omega))
  · rw [hrun] at h
    cases h
    obtain ⟨n, rfl⟩ : ∃ n, fuel' = n + 1 := ⟨fuel' - 1, by omega⟩
    exact sequence_of_error close element n _ _
      (helement.refused hitem (by omega) after hlong n (by omega))

/-- The last element is steady with what closes it. -/
theorem steadyAt_sequence_of_close (close : Char) (element : Reader α) (fuel : Nat)
    (front gap rest : List Char) (item : α) (hclose : close = ']' ∨ close = '\x7d')
    (hitem : element fuel (front ++ (gap ++ close :: rest)) = .ok (item, gap ++ close :: rest))
    (hfront : ∀ fuel', front.length ≤ fuel' → IsFront (element fuel') front item)
    (hgap : IsGap gap) :
    SteadyAt (sequence close element) 2 (fuel + 1) (front ++ (gap ++ close :: rest)) := by
  have hsplit : ∀ other, front ++ (gap ++ close :: other) = front ++ (gap ++ [close]) ++ other := by
    intro other
    simp only [List.append_assoc, List.cons_append, List.nil_append]
  have hrun := sequence_of_close close element fuel _ _ rest item hitem
    (skipSpaces_close close gap rest hclose hgap)
  rw [hsplit] at hrun ⊢
  refine .of_front hrun (by simp) fun fuel' hfuel' other _ => ?_
  rw [List.length_append, List.length_append, List.length_singleton] at hfuel'
  obtain ⟨n, rfl⟩ : ∃ n, fuel' = n + 1 := ⟨fuel' - 1, by omega⟩
  -- Before the closing bracket may come spaces. Neither they nor the bracket can continue a number.
  have hends : EndsNumber (gap ++ close :: other) :=
    endsNumber_gap gap _ hgap (endsNumber_cons close other (.inr (.inr hclose)))
  rw [← hsplit]
  exact sequence_of_close close element n _ _ other item (hfront n (by omega) _ hends)
    (skipSpaces_close close gap other hclose hgap)

/-- Elements are steady if each of them is, and those that follow are. -/
theorem steadyAt_sequence (close : Char) (element : Reader α) (fuel : Nat) (cs : List Char)
    (hclose : close = ']' ∨ close = '\x7d') (helement : SteadyAt element 1 fuel cs)
    (hothers : ∀ cs, SteadyAt (sequence close element) 2 fuel cs) :
    SteadyAt (sequence close element) 2 (fuel + 1) cs := by
  -- The cases are those of one round: no element, the end, an element with a comma, anything else.
  rcases hitem : element fuel cs with fault | ⟨item, after⟩
  · exact steadyAt_sequence_of_error close element fuel cs fault helement hitem
  · rcases helement.front item after hitem with ⟨front, rfl, _, hfront⟩
    rcases skipSpaces_spec after with ⟨gap, hgap, hafter, _⟩
    rcases hnext : skipSpaces after with _ | ⟨c, rest⟩
    · refine .of_complaint ⟨.expectedComma, 0, ?_, by decide⟩
      rw [sequence, hitem, ok_bind, further, hnext]
      rfl
    · rw [hnext] at hafter
      by_cases hc : c = close
      · subst hc
        rw [hafter] at hitem ⊢
        exact steadyAt_sequence_of_close c element fuel front gap rest item hclose hitem hfront hgap
      · by_cases hcomma : c = ','
        · subst hcomma
          rcases skipSpaces_spec rest with ⟨gap', hgap', hrest, hhead⟩
          -- The first element, the comma and the spaces are a fixed front of the others.
          have hcs : front ++ after = front ++ (gap ++ ',' :: gap') ++ skipSpaces rest := by
            simp only [List.append_assoc, List.cons_append]
            rw [← hrest, ← hafter]
          have hrun := sequence_of_comma close element fuel _ after rest item (Ne.symm hc) hitem
            hnext
          rw [hcs] at hrun ⊢
          exact (hothers _).lead holdsNumbers_noSpace hhead
            (continues_sequence close element front gap gap' item (Ne.symm hc) hfront hgap hgap')
            (by simp) (Nat.le_refl 1) (by omega) hrun
        · refine .of_complaint ⟨.expectedComma, (c :: rest).length, ?_, by decide⟩
          rw [sequence, hitem, ok_bind, further, hnext]
          dsimp only
          rw [if_neg hc, if_neg hcomma]
          rfl

/-- A character that opens what stands in brackets: no space, and not what closes them. -/
def opens (close c : Char) : Bool := noSpace c && c != close

theorem holdsNumbers_opens (close : Char) (hclose : close = ']' ∨ close = '\x7d') :
    HoldsNumbers (opens close) :=
  holdsNumbers_noSpace.and
    (holdsNumbers_ne close (by rcases hclose with rfl | rfl <;> rfl)
      (by rcases hclose with rfl | rfl <;> decide))

theorem enclosed_of_headIs (close : Char) (run : List Char → Except Fault (List α × List Char))
    (cs : List Char) (h : HeadIs (opens close) (skipSpaces cs)) :
    enclosed close run cs = run (skipSpaces cs) := by
  rw [enclosed]
  rcases hskip : skipSpaces cs with _ | ⟨c, after⟩
  · rfl
  · rw [hskip] at h
    have hc := h c rfl
    rw [opens, Bool.and_eq_true, bne_iff_ne] at hc
    dsimp only
    rw [if_neg hc.2]

section Brackets

variable (limit : Option Nat) (opening close : Char) (run : Reader (List α))
  (wrap : List α → Json)
  (hclose : close = ']' ∨ close = '\x7d')
  (hvalue : ∀ fuel cs, value limit (fuel + 1) (opening :: cs) =
    (enclosed close (run fuel) cs).map fun found => (wrap found.1, found.2))

include hvalue

theorem continues_enclosed (gap : List Char) (hgap : IsGap gap) :
    Continues (opens close) run (value limit) 1 (opening :: gap) wrap := by
  intro fuel cs hcs _
  have hskip : skipSpaces (gap ++ cs) = cs := skipSpaces_append gap cs hgap fun c hc => by
    have := hcs c hc
    rw [opens, Bool.and_eq_true] at this
    exact this.1
  rw [List.cons_append, hvalue, enclosed_of_headIs close _ _ (by rw [hskip]; exact hcs), hskip]

include hclose

/-- Brackets are steady if what stands in them is. -/
theorem steadyAt_enclosed (fuel : Nat) (cs : List Char)
    (hrun : SteadyAt run 2 fuel (skipSpaces cs)) :
    SteadyAt (value limit) 1 (fuel + 1) (opening :: cs) := by
  rcases skipSpaces_spec cs with ⟨gap, hgap, hcs, hhead⟩
  by_cases hempty : (skipSpaces cs).head? = some close
  · obtain ⟨rest, hrest⟩ := List.head?_eq_some_iff.mp hempty
    -- Empty brackets are read the same with any text behind them.
    have hnow : ∀ fuel' other, value limit (fuel' + 1) (opening :: (gap ++ [close]) ++ other) =
        .ok (wrap [], other) := fun fuel' other => by
      rw [List.cons_append, List.append_assoc, List.singleton_append, hvalue, enclosed,
        skipSpaces_close close gap other hclose hgap]
      dsimp only
      rw [if_pos rfl]
      rfl
    have hlead : opening :: cs = opening :: (gap ++ [close]) ++ rest := by
      rw [List.cons_append, List.append_assoc, List.singleton_append, ← hrest, ← hcs]
    rw [hlead]
    refine .of_front (hnow fuel rest) (List.cons_ne_nil _ _) fun fuel' hfuel' other _ => ?_
    rw [List.length_cons] at hfuel'
    obtain ⟨n, rfl⟩ : ∃ n, fuel' = n + 1 := ⟨fuel' - 1, by omega⟩
    exact hnow n other
  · have hopens : HeadIs (opens close) (skipSpaces cs) := by
      intro c hc
      rw [opens, hhead c hc, Bool.true_and, bne_iff_ne]
      rintro rfl
      exact hempty hc
    have hnow := hvalue fuel cs
    rw [enclosed_of_headIs close _ _ hopens] at hnow
    have hlead : opening :: cs = opening :: gap ++ skipSpaces cs := by
      rw [List.cons_append, ← hcs]
    rw [hlead] at hnow ⊢
    exact hrun.lead (holdsNumbers_opens close hclose) hopens
      (continues_enclosed limit opening close run wrap hvalue gap hgap) (List.cons_ne_nil _ _)
      (Nat.le_refl 1) (by omega) hnow

end Brackets

/-- Words and numbers are steady. -/
theorem steadyAt_scalar (fuel : Nat) (cs : List Char) (h : HeadIs noOpening cs) :
    SteadyAt (value (some Text.maxDigits)) 1 (fuel + 1) cs := by
  have hrun := value_scalar (some Text.maxDigits) fuel cs h
  refine ⟨fun a rest hok => ?_, fun herror => ?_, fun herror _ after hlong fuel' hfuel' => ?_⟩
  · rw [hrun] at hok
    rcases scalar_front _ cs rest a hok with ⟨front, rfl, hne, hread⟩
    refine ⟨front, rfl, hne, fun fuel' hfuel' other hother => ?_⟩
    have hpos : 0 < front.length := List.length_pos_of_ne_nil hne
    obtain ⟨n, rfl⟩ : ∃ n, fuel' = n + 1 := ⟨fuel' - 1, by omega⟩
    rw [value_scalar _ n _ (h.left.append fun hnil => absurd hnil hne)]
    exact hread other hother
  · rw [hrun] at herror
    rcases scalar_eq_error cs _ herror with hwhat | ⟨_, hlong⟩
    · cases hwhat
    · refine ⟨[], cs, rfl, hlong, fun fuel' hfuel' => ?_⟩
      obtain ⟨n, rfl⟩ : ∃ n, fuel' = n + 1 := ⟨fuel' - 1, by omega⟩
      rfl
  · rw [hrun] at herror
    rcases scalar_eq_error cs _ herror with hwhat | ⟨hwhat, _⟩
    · -- A missing value is reported at the very end, where any number that is too long can stand
      -- instead.
      cases cs with
      | cons c cs => cases hwhat
      | nil =>
          obtain ⟨n, rfl⟩ : ∃ n, fuel' = n + 1 := ⟨fuel' - 1, by omega⟩
          rw [List.nil_append, value_scalar _ n after
            (hlong.startsNumber.headIs holdsNumbers_noOpening)]
          exact scalar_of_longInteger after hlong
    · cases hwhat

/-- Strings are steady. -/
theorem steadyAt_string (limit : Option Nat) (fuel : Nat) (cs : List Char) :
    SteadyAt (value limit) 1 (fuel + 1) ('"' :: cs) := by
  -- A text holds no number, so only the case that it is read asks for a proof.
  rcases hread : stringBody ('"' :: cs) [] cs with fault | ⟨s, rest⟩
  · rcases stringBody_error _ _ _ fault hread with ⟨what, remaining, rfl, hwhat⟩
    exact .of_complaint ⟨what, remaining, by rw [value_string, hread]; rfl, hwhat⟩
  · rcases stringBody_front _ _ _ _ _ hread with ⟨front, rfl, _, hfront⟩
    rw [← List.cons_append]
    refine .of_front (a := .str s) ?_ (List.cons_ne_nil _ _) fun fuel' hfuel' other _ => ?_
    · rw [List.cons_append, value_string, hread]
      rfl
    · rw [List.length_cons] at hfuel'
      obtain ⟨n, rfl⟩ : ∃ n, fuel' = n + 1 := ⟨fuel' - 1, by omega⟩
      rw [List.cons_append, value_string, hfront]
      rfl

/-- All three readers are steady on every text. -/
theorem steady (fuel : Nat) :
    (∀ cs, SteadyAt (value (some Text.maxDigits)) 1 fuel cs) ∧
      (∀ cs, SteadyAt (items (some Text.maxDigits)) 2 fuel cs) ∧
        ∀ cs, SteadyAt (members (some Text.maxDigits)) 2 fuel cs := by
  induction fuel with
  | zero =>
      exact ⟨fun _ => steadyAt_zero rfl Nat.one_pos, fun _ => steadyAt_zero rfl Nat.two_pos,
        fun _ => steadyAt_zero rfl Nat.two_pos⟩
  | succ fuel ih =>
      rcases ih with ⟨hvalue, hitems, hmembers⟩
      refine ⟨fun cs => ?_, fun cs => ?_, fun cs => ?_⟩
      -- What the first character opens is read by one of the others, with one call less.
      · rcases cs with _ | ⟨c, cs⟩
        · exact steadyAt_scalar fuel [] fun c hc => absurd hc (by simp)
        · by_cases hquote : c = '"'
          · rw [hquote]
            exact steadyAt_string _ fuel cs
          · by_cases hlist : c = '['
            · rw [hlist]
              exact steadyAt_enclosed _ '[' ']' _ .arr (.inl rfl) (value_list _) fuel cs (hitems _)
            · by_cases hobject : c = '\x7b'
              · rw [hobject]
                exact steadyAt_enclosed _ '\x7b' '\x7d' _ (fun found => .obj (Assoc.ofList found))
                  (.inr rfl) (value_object _) fuel cs (hmembers _)
              · exact steadyAt_scalar fuel _
                  (headIs_cons (by simp [noOpening, hquote, hlist, hobject]))
      · rw [items_eq_sequence] at hitems ⊢
        exact steadyAt_sequence _ _ fuel cs (.inl rfl) (hvalue cs) hitems
      · rw [members_eq_sequence] at hmembers ⊢
        exact steadyAt_sequence _ _ fuel cs (.inr rfl) (steadyAt_member _ fuel cs hvalue) hmembers

/-! ## Whole texts -/

/-- A text can be cut in two such that the second part begins with a long integer and the first
part, read by itself, ends where a value is expected. -/
def MeetsLongInteger (text : List Char) : Prop :=
  ∃ before after, text = before ++ after ∧ LongInteger after ∧
    Json.parse (some Text.maxDigits) before = .error cutOff

/-- A text is refused for its value if it has no byte order mark and no value. What follows a value
gives rise to another complaint. -/
theorem parse_eq_error_iff (limit : Option Nat) (cs : List Char) (fault : Fault)
    (hfault : ∀ what remaining, fault = .complaint what remaining → what = .expectedValue) :
    Json.parse limit cs = .error fault ↔
      cs.head? ≠ some '\ufeff' ∧
        value limit (2 * cs.length + 2) (skipSpaces cs) = .error fault := by
  rw [Json.parse]
  -- The mark at the beginning and the text after the value are complaints of another kind.
  by_cases hmark : cs.head? = some '\ufeff'
  · rw [if_pos hmark]
    refine ⟨fun h => ?_, fun h => absurd hmark h.1⟩
    cases h
    cases hfault _ _ rfl
  · rw [if_neg hmark]
    rcases value limit (2 * cs.length + 2) (skipSpaces cs) with fault' | ⟨v, after⟩
    · exact ⟨fun h => ⟨hmark, by cases h; rfl⟩, fun h => by cases h.2; rfl⟩
    · refine ⟨fun h => ?_, fun h => absurd h.2 nofun⟩
      simp only [ok_bind] at h
      split at h
      · cases h
      · cases h
        cases hfault _ _ rfl

/-- The texts that are refused for an integer are those that meet a long one. -/
theorem parse_eq_hugeInteger_iff (text : List Char) :
    Json.parse (some Text.maxDigits) text = .error .hugeInteger ↔ MeetsLongInteger text := by
  have hcut : ∀ what remaining, cutOff = .complaint what remaining → what = .expectedValue :=
    fun _ _ h => by cases h; rfl
  have hhuge : ∀ what remaining, Fault.hugeInteger = .complaint what remaining →
      what = .expectedValue := fun _ _ h => by cases h
  rw [parse_eq_error_iff _ text _ hhuge]
  constructor
  · rintro ⟨hmark, hvalue⟩
    rcases skipSpaces_spec text with ⟨gap, hgap, htext, hhead⟩
    rcases ((steady _).1 _).before hvalue with ⟨before, after, hsplit, hlong, hbefore⟩
    rw [hsplit] at htext hhead
    have hskip : skipSpaces (gap ++ before) = before := skipSpaces_append gap before hgap hhead.left
    -- The spaces that are skipped belong to the first part.
    refine ⟨gap ++ before, after, by rw [htext, List.append_assoc], hlong, ?_⟩
    rw [parse_eq_error_iff _ _ _ hcut, hskip]
    refine ⟨fun hbom => hmark ?_, hbefore _ (by rw [List.length_append]; omega)⟩
    rw [htext, ← List.append_assoc, List.head?_append, hbom]
    rfl
  · rintro ⟨before, after, rfl, hlong, hbefore⟩
    rw [parse_eq_error_iff _ before _ hcut] at hbefore
    rcases hbefore with ⟨hmark, hvalue⟩
    rcases skipSpaces_spec before with ⟨gap, hgap, hbefore, hhead⟩
    -- A long integer begins with no space, so no more is skipped than before.
    have hskip : skipSpaces (before ++ after) = skipSpaces before ++ after := by
      conv_lhs => rw [hbefore, List.append_assoc]
      exact skipSpaces_append gap _ hgap
        (hhead.append fun _ => hlong.startsNumber.headIs holdsNumbers_noSpace)
    have hlength : (skipSpaces before).length ≤ before.length := by
      conv_rhs => rw [hbefore, List.length_append]
      exact Nat.le_add_left _ _
    rw [hskip, List.length_append]
    refine ⟨fun hbom => ?_, ((steady _).1 _).refused hvalue (by omega) after hlong _ (by omega)⟩
    rcases before with _ | ⟨c, before⟩
    · have hne := hlong.startsNumber.headIs (holdsNumbers_ne '\ufeff' rfl (by decide)) _ hbom
      exact absurd hne (by decide)
    · exact hmark hbom

/-- A text of too many digits is refused for them. -/
theorem meetsLongInteger_of_digits (ds : List Char) (hdigits : ∀ c ∈ ds, isDigit c = true)
    (hzero : ds.head? ≠ some '0') (hlong : Text.maxDigits < ds.length) : MeetsLongInteger ds := by
  have hends : EndsInteger [] := ⟨nofun, nofun, nofun⟩
  exact ⟨[], ds, rfl,
    ⟨[], ds, [], .inl rfl, hdigits, hzero, hlong, hends, (List.append_nil ds).symm⟩, rfl⟩

end StorageLayout.Json.Parser
