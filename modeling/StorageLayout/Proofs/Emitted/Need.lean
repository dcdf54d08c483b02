import Mathlib
import StorageLayout.Proofs.Emitted.Types

/-!
# How Many Levels a Type Needs

The need of a type is the number of levels that its definition takes, and it is infinite when the
definition does not bottom out.

A struct needs one more than its neediest member. An array or a mapping needs what its element
needs if that is a struct, whose members come directly below it; one level more if the element is
an array or a mapping itself, which gets a node of its own; and none if the element is elementary.

`Within` says that a number of levels is enough, by one rule for each of these cases, and `need` is
the least such number. `isNeed` shows that it satisfies the equations above, and `eq_need` that
they leave no choice. `within_struct_iff` and `within_element_iff` take the rules back: a type is
described by one record, so only one rule can have been used for it.

On a way from a type back to itself the need falls. It may stay the same in one step, from an array
to the struct that is its element, but a struct needs more than its members, so it falls in the
next one. That is `cycle_falls`, and an induction on the number of levels rules such types out.

## Main definitions

* `Within`: A number of levels is enough for a type.
* `need`: The least number of levels that is enough.
* `IsNeed`: The equations for the need of types.
* `Refers`: A type names another as a member, element or value.

## Theorems

* `within_mono`: More levels are enough, too.
* `need_le_iff`: The need is the least number that is enough.
* `within_struct_iff`, `within_ofStruct_iff`, `within_ofComposite_iff`: The rules, taken back.
* `isNeed`: The need satisfies its equations.
* `eq_need`: In a well-formed table, nothing else does.
* `within_of_refers`: What is enough for a type is enough for all that it refers to.
* `cycle_falls`: On a way back to a type the need falls.
* `need_eq_top_of_cycle`: What reaches itself has no finite need.
-/

namespace StorageLayout.Emitted.Index

/-- So many levels are enough for the type with a key. -/
inductive Within (index : Index) : Nat → Json → Prop
  | elementary {n : Nat} {key : Json} (h : index.Describes key .elementary) : Within index n key
  | struct {n : Nat} {key : Json} {es : List Json} (h : index.Describes key (.struct es))
      (members : ∀ e ∈ es, Within index n (entryType e)) : Within index (n + 1) key
  /-- An array or a mapping of an elementary type. -/
  | ofElementary {n : Nat} {key element : Json} {form : TypeForm}
      (h : index.Describes key form) (he : form.element? = some element)
      (h' : index.Describes element .elementary) : Within index n key
  /-- An array or a mapping of a struct. -/
  | ofStruct {n : Nat} {key element : Json} {form : TypeForm} {es : List Json}
      (h : index.Describes key form) (he : form.element? = some element)
      (h' : index.Describes element (.struct es)) (hn : Within index n element) :
      Within index n key
  /-- An array or a mapping of arrays or mappings. -/
  | ofComposite {n : Nat} {key element inner : Json} {form form' : TypeForm}
      (h : index.Describes key form) (he : form.element? = some element)
      (h' : index.Describes element form') (he' : form'.element? = some inner)
      (hn : Within index n element) : Within index (n + 1) key

/-- The least number of levels that is enough for a type. -/
noncomputable def need (index : Index) (key : Json) : ℕ∞ :=
  ⨅ n : { n : Nat // index.Within n key }, ((n : Nat) : ℕ∞)

/-- A type names another one as a member, element or value. -/
def Refers (index : Index) (key other : Json) : Prop :=
  ∃ form, index.Describes key form ∧ other ∈ form.named

/-- The equations for the need of types, one for each case of a type and its element. -/
structure IsNeed (index : Index) (need : Json → ℕ∞) : Prop where
  elementary : ∀ key, index.Describes key .elementary → need key = 0
  struct : ∀ key es, index.Describes key (.struct es) →
    need key = 1 + ⨆ e ∈ es, need (entryType e)
  ofElementary : ∀ key form e, index.Describes key form → form.element? = some e →
    index.Describes e .elementary → need key = 0
  ofStruct : ∀ key form e es, index.Describes key form → form.element? = some e →
    index.Describes e (.struct es) → need key = need e
  ofComposite : ∀ key form e form' e', index.Describes key form → form.element? = some e →
    index.Describes e form' → form'.element? = some e' → need key = 1 + need e

/-- A level more is enough, too. -/
theorem within_succ (index : Index) (n : Nat) (key : Json) (h : index.Within n key) :
    index.Within (n + 1) key := by
  induction h with
  | elementary h => exact .elementary h
  | struct h _ ih => exact .struct h ih
  | ofElementary h he h' => exact .ofElementary h he h'
  | ofStruct h he h' _ ih => exact .ofStruct h he h' ih
  | ofComposite h he h' he' _ ih => exact .ofComposite h he h' he' ih

theorem within_mono (index : Index) (m n : Nat) (key : Json) (hmn : m ≤ n)
    (h : index.Within m key) : index.Within n key := by
  induction hmn with
  | refl => exact h
  | step _ ih => exact index.within_succ _ key ih

/-- The need of a type is the least number of levels that is enough for it. -/
theorem need_le_iff (index : Index) (key : Json) (n : Nat) :
    index.need key ≤ n ↔ index.Within n key := by
  constructor
  · intro h
    have hne : Nonempty { n : Nat // index.Within n key } := by
      by_contra hc
      rw [not_nonempty_iff] at hc
      rw [need, iInf_of_empty] at h
      exact absurd h (by simp only [top_le_iff, ENat.natCast_ne_top, not_false_eq_true])
    -- The least number is one of those that are enough.
    rcases ENat.exists_eq_iInf (fun n : { n : Nat // index.Within n key } => ((n : Nat) : ℕ∞))
      with ⟨⟨m, hm⟩, hmin⟩
    rw [need, ← hmin] at h
    exact index.within_mono m n key (ENat.natCast_le_natCast.mp h) hm
  · intro h
    exact iInf_le (fun n : { n : Nat // index.Within n key } => ((n : Nat) : ℕ∞)) ⟨n, h⟩

/-- A struct or an elementary type has no element. -/
theorem no_element (index : Index) (key e : Json) (form form' : TypeForm)
    (h : index.Describes key form) (h' : index.Describes key form') (hnone : form.element? = none)
    (he : form'.element? = some e) : False := by
  rw [← h.unique h', hnone] at he
  exact absurd he (by simp only [reduceCtorEq, not_false_eq_true])

/-- A type has one element. -/
theorem element_unique (index : Index) (key e e' : Json) (form form' : TypeForm)
    (h : index.Describes key form) (h' : index.Describes key form') (he : form.element? = some e)
    (he' : form'.element? = some e') : e = e' := by
  rw [← h.unique h', he] at he'
  injection he'

/-- What is enough for a struct: a level more than is enough for each of its members. -/
theorem within_struct_iff (index : Index) (n : Nat) (key : Json) (es : List Json)
    (h : index.Describes key (.struct es)) :
    index.Within n key ↔ ∃ m, n = m + 1 ∧ ∀ e ∈ es, index.Within m (entryType e) := by
  constructor
  · intro hw
    -- A key has one form, so only the rule for structs can have been used.
    cases hw with
    | elementary h' => exact absurd (h.unique h') (by simp only [reduceCtorEq, not_false_eq_true])
    | struct h' members =>
        have heq := h.unique h'
        injection heq with heq
        exact ⟨_, rfl, heq ▸ members⟩
    | ofElementary h' he _ => exact False.elim (index.no_element key _ _ _ h h' rfl he)
    | ofStruct h' he _ _ => exact False.elim (index.no_element key _ _ _ h h' rfl he)
    | ofComposite h' he _ _ _ => exact False.elim (index.no_element key _ _ _ h h' rfl he)
  · rintro ⟨m, hm, hes⟩
    rw [hm]
    exact .struct h hes

section Element

variable (index : Index) (n : Nat) (key e : Json) (form : TypeForm)
variable (h : index.Describes key form) (he : form.element? = some e)

include h he

/-- What is enough for an array or a mapping, in the terms of its element. -/
theorem within_element_iff :
    index.Within n key ↔ index.Describes e .elementary ∨
      (∃ es, index.Describes e (.struct es) ∧ index.Within n e) ∨
      (∃ form' e' m, index.Describes e form' ∧ form'.element? = some e' ∧ n = m + 1 ∧
        index.Within m e) := by
  constructor
  · intro hw
    -- The element decides: a rule for elementary elements, one for structs, and one for what has an
    -- element again.
    cases hw with
    | elementary h' => exact False.elim (index.no_element key _ _ _ h' h rfl he)
    | struct h' _ => exact False.elim (index.no_element key _ _ _ h' h rfl he)
    | ofElementary h' he' hel =>
        rw [index.element_unique key e _ _ _ h h' he he']
        exact Or.inl hel
    | ofStruct h' he' hes hn =>
        rw [index.element_unique key e _ _ _ h h' he he']
        exact Or.inr (Or.inl ⟨_, hes, hn⟩)
    | ofComposite h' he' hform hinner hn =>
        rw [index.element_unique key e _ _ _ h h' he he']
        exact Or.inr (Or.inr ⟨_, _, _, hform, hinner, rfl, hn⟩)
  · rintro (hel | ⟨es, hes, hn⟩ | ⟨form', e', m, hform, hinner, hm, hn⟩)
    · exact .ofElementary h he hel
    · exact .ofStruct h he hes hn
    · rw [hm]
      exact .ofComposite h he hform hinner hn

/-- An array or a mapping of a struct needs what the struct needs. -/
theorem within_ofStruct_iff (es : List Json) (hes : index.Describes e (.struct es)) :
    index.Within n key ↔ index.Within n e := by
  rw [within_element_iff index n key e form h he]
  constructor
  · rintro (hel | ⟨_, _, hn⟩ | ⟨form', e', m, hform, hinner, _, _⟩)
    · exact absurd (hes.unique hel) (by simp only [reduceCtorEq, not_false_eq_true])
    · exact hn
    · exact False.elim (index.no_element e _ _ _ hes hform rfl hinner)
  · exact fun hn => Or.inr (Or.inl ⟨es, hes, hn⟩)

/-- An array or a mapping of arrays or mappings needs a level more than those. -/
theorem within_ofComposite_iff (form' : TypeForm) (e' : Json) (hform : index.Describes e form')
    (hinner : form'.element? = some e') :
    index.Within n key ↔ ∃ m, n = m + 1 ∧ index.Within m e := by
  rw [within_element_iff index n key e form h he]
  constructor
  · rintro (hel | ⟨es, hes, _⟩ | ⟨_, _, m, _, _, hm, hn⟩)
    · exact False.elim (index.no_element e _ _ _ hel hform rfl hinner)
    · exact False.elim (index.no_element e _ _ _ hes hform rfl hinner)
    · exact ⟨m, hm, hn⟩
  · rintro ⟨m, hm, hn⟩
    exact Or.inr (Or.inr ⟨form', e', m, hform, hinner, hm, hn⟩)

end Element

/-- Two needs are equal if the same numbers of levels are enough for both. -/
theorem eq_of_le_iff (a b : ℕ∞) (h : ∀ n : Nat, a ≤ n ↔ b ≤ n) : a = b := by
  refine le_antisymm ?_ ?_
  · cases b with
    | top => exact le_top
    | coe n => exact (h n).mpr le_rfl
  · cases a with
    | top => exact le_top
    | coe n => exact (h n).mp le_rfl

/-- One more than a need is at most a number if the need is at most the number before it. -/
theorem one_add_le_iff (a : ℕ∞) (n : Nat) : 1 + a ≤ n ↔ ∃ m : Nat, n = m + 1 ∧ a ≤ m := by
  -- Nothing is below zero once one is added, be it finite or not.
  cases n with
  | zero =>
      constructor
      · intro h
        simp at h
      · rintro ⟨m, hm, _⟩
        omega
  | succ k =>
      rw [Nat.cast_succ, add_comm, ENat.add_le_add_iff_right ENat.one_ne_top]
      constructor
      · exact fun h => ⟨k, rfl, h⟩
      · rintro ⟨m, hm, h⟩
        rw [Nat.succ_injective hm]
        exact h

/-- The need satisfies its equations. -/
theorem isNeed (index : Index) : index.IsNeed index.need where
  elementary key h := by
    have hw : index.need key ≤ (0 : Nat) := (index.need_le_iff key 0).mpr (.elementary h)
    exact le_antisymm hw zero_le
  -- Both sides are compared by the budgets they fit in, which is how the need is defined.
  struct key es h := by
    refine eq_of_le_iff _ _ (fun n => ?_)
    rw [need_le_iff, index.within_struct_iff n key es h, one_add_le_iff]
    refine exists_congr (fun m => and_congr_right (fun _ => ?_))
    rw [iSup₂_le_iff]
    exact forall₂_congr (fun e _ => (index.need_le_iff (entryType e) m).symm)
  ofElementary key form e h he h' := by
    have hw : index.need key ≤ (0 : Nat) := (index.need_le_iff key 0).mpr (.ofElementary h he h')
    exact le_antisymm hw zero_le
  ofStruct key form e es h he h' := by
    refine eq_of_le_iff _ _ (fun n => ?_)
    rw [need_le_iff, need_le_iff]
    exact index.within_ofStruct_iff n key e form h he es h'
  ofComposite key form e form' e' h he h' he' := by
    refine eq_of_le_iff _ _ (fun n => ?_)
    rw [need_le_iff, index.within_ofComposite_iff n key e form h he form' e' h' he',
      one_add_le_iff]
    exact exists_congr (fun m => and_congr_right (fun _ => (index.need_le_iff e m).symm))

section Solution

variable (index : Index) (f : Json → ℕ∞) (hf : index.IsNeed f)

include hf

/-- What is enough for a type is at least as much as any solution of the equations says. -/
theorem le_of_within (n : Nat) (key : Json) (h : index.Within n key) : f key ≤ n := by
  -- One case for each equation that characterises `f`.
  induction h with
  | elementary h =>
      rw [hf.elementary _ h]
      exact zero_le
  | struct h _ ih =>
      rw [hf.struct _ _ h, one_add_le_iff]
      exact ⟨_, rfl, iSup₂_le ih⟩
  | ofElementary h he h' =>
      rw [hf.ofElementary _ _ _ h he h']
      exact zero_le
  | ofStruct h he h' _ ih =>
      rw [hf.ofStruct _ _ _ _ h he h']
      exact ih
  | ofComposite h he h' he' _ ih =>
      rw [hf.ofComposite _ _ _ _ _ h he h' he', one_add_le_iff]
      exact ⟨_, rfl, ih⟩

variable (wf : index.WellFormed)

include wf

/-- So many levels are enough for a struct, if fewer are for all types that need fewer. -/
theorem within_struct_of_le (n : Nat) (key : Json) (es : List Json)
    (h : index.Describes key (.struct es)) (hle : f key ≤ n)
    (ih : ∀ m < n, ∀ other, index.Has other → f other ≤ m → index.Within m other) :
    index.Within n key := by
  rw [hf.struct key es h, one_add_le_iff] at hle
  rcases hle with ⟨m, hm, hsup⟩
  rw [hm]
  refine .struct h (fun e he => ih m (by omega) (entryType e) ?_ ?_)
  · exact (wf.closed index key _ h).1 _ (List.mem_map_of_mem he)
  · exact (iSup₂_le_iff.mp hsup) e he

/-- As many levels as a solution says are enough. The levels fall from a struct to its members and
from an array to the arrays in it; where they stay the same, the element is a struct. -/
theorem within_of_le (n : Nat) (key : Json) (hhas : index.Has key) (hle : f key ≤ n) :
    index.Within n key := by
  -- On the budget, not on the types: in a cycle the types have no order. An element of an element
  -- takes one from it, and so does a struct.
  induction n using Nat.strong_induction_on generalizing key with
  | _ n ih =>
    rcases wf.describes index key hhas with ⟨form, hform, hclosed⟩
    cases he : form.element? with
    | some e =>
        have hhas' : index.Has e :=
          hclosed.1 e (by rw [form.named_of_element e he]; exact List.mem_singleton_self e)
        rcases wf.describes index e hhas' with ⟨form', hform', _⟩
        cases he' : form'.element? with
        | some e' =>
            rw [hf.ofComposite key form e form' e' hform he hform' he', one_add_le_iff] at hle
            rcases hle with ⟨m, hm, hle⟩
            rw [hm]
            exact .ofComposite hform he hform' he' (ih m (by omega) e hhas' hle)
        | none =>
            cases form' with
            | elementary => exact .ofElementary hform he hform'
            | struct es =>
                rw [hf.ofStruct key form e es hform he hform'] at hle
                exact .ofStruct hform he hform'
                  (index.within_struct_of_le f hf wf n e es hform' hle ih)
            | _ => exact absurd he' (by simp only [TypeForm.element?, reduceCtorEq,
                not_false_eq_true])
    | none =>
        cases form with
        | elementary => exact .elementary hform
        | struct es => exact index.within_struct_of_le f hf wf n key es hform hle ih
        | _ => exact absurd he (by simp only [TypeForm.element?, reduceCtorEq,
            not_false_eq_true])

/-- In a well-formed table, the equations have one solution. -/
theorem eq_need (key : Json) (hhas : index.Has key) : f key = index.need key := by
  refine eq_of_le_iff _ _ (fun n => ?_)
  rw [need_le_iff]
  exact ⟨index.within_of_le f hf wf n key hhas, index.le_of_within f hf n key⟩

end Solution

/-- Whatever a form names is a member's type or the element. -/
theorem mem_named_iff (form : TypeForm) (k : Json) :
    k ∈ form.named ↔ form.element? = some k ∨ ∃ e ∈ form.entries, entryType e = k := by
  rw [TypeForm.named, List.mem_append, Option.mem_toList, List.mem_map]

/-- A struct needs a level more than what it refers to. -/
theorem within_of_struct_refers (index : Index) (n : Nat) (key other : Json) (es : List Json)
    (h : index.Describes key (.struct es)) (hr : index.Refers key other)
    (hw : index.Within n key) : ∃ m, n = m + 1 ∧ index.Within m other := by
  rcases (index.within_struct_iff n key es h).mp hw with ⟨m, hm, hes⟩
  rcases hr with ⟨form, hform, hmem⟩
  rw [← h.unique hform, mem_named_iff] at hmem
  rcases hmem with helement | ⟨e, he, hek⟩
  · exact absurd helement (by simp only [TypeForm.element?, reduceCtorEq, not_false_eq_true])
  · exact ⟨m, hm, hek ▸ hes e he⟩

/-- What is enough for a type is enough for all that it refers to. -/
theorem within_of_refers (index : Index) (n : Nat) (key other : Json)
    (hr : index.Refers key other) (hw : index.Within n key) : index.Within n other := by
  rcases hr with ⟨form, hform, hmem⟩
  cases helement : form.element? with
  | some e =>
      rw [form.named_of_element e helement, List.mem_singleton] at hmem
      rw [hmem]
      -- An element may need as much as the key itself, or one less.
      rcases (index.within_element_iff n key e form hform helement).mp hw with
        hel | ⟨_, _, hn⟩ | ⟨_, _, m, _, _, hm, hn⟩
      · exact .elementary hel
      · exact hn
      · exact index.within_mono m n e (by omega) hn
  | none =>
      cases form with
      | struct es =>
          rcases index.within_of_struct_refers n key other es hform ⟨_, hform, hmem⟩ hw with
            ⟨m, hm, hn⟩
          exact index.within_mono m n other (by omega) hn
      | elementary => exact absurd hmem List.not_mem_nil
      | _ => exact absurd helement (by simp only [TypeForm.element?, reduceCtorEq,
          not_false_eq_true])

theorem within_of_reaches (index : Index) (n : Nat) (key other : Json)
    (h : Relation.ReflTransGen index.Refers key other) (hw : index.Within n key) :
    index.Within n other := by
  induction h with
  | refl => exact hw
  | tail _ hr ih => exact index.within_of_refers n _ _ hr ih

/-- A type that reaches itself refers to another one that does. -/
theorem cycle_next (index : Index) (key : Json)
    (h : Relation.TransGen index.Refers key key) :
    ∃ other, index.Refers key other ∧ Relation.TransGen index.Refers other other := by
  rcases Relation.TransGen.head'_iff.mp h with ⟨other, hr, hback⟩
  exact ⟨other, hr, Relation.TransGen.tail' hback hr⟩

/-- On a way back to a type the need falls: at once, or after the struct that is the element. -/
theorem cycle_falls (index : Index) (n : Nat) (key : Json)
    (h : Relation.TransGen index.Refers key key) (hw : index.Within n key) :
    ∃ m other, m < n ∧ Relation.TransGen index.Refers other other ∧ index.Within m other := by
  rcases index.cycle_next key h with ⟨other, hr, hcycle⟩
  have hstruct : ∀ (k : Json) (es : List Json), index.Describes k (.struct es) →
      Relation.TransGen index.Refers k k → index.Within n k →
      ∃ m other, m < n ∧ Relation.TransGen index.Refers other other ∧ index.Within m other := by
    intro k es hes hk hwk
    rcases index.cycle_next k hk with ⟨next, hrn, hnext⟩
    rcases index.within_of_struct_refers n k next es hes hrn hwk with ⟨m, hm, hn⟩
    exact ⟨m, next, by omega, hnext, hn⟩
  rcases hr with ⟨form, hform, hmem⟩
  rcases (mem_named_iff form other).mp hmem with helement | ⟨e, he, _⟩
  · rcases (index.within_element_iff n key other form hform helement).mp hw with
      hel | ⟨es, hes, hn⟩ | ⟨_, _, m, _, _, hm, hn⟩
    · -- An elementary type refers to nothing, so it is on no way back.
      rcases index.cycle_next other hcycle with ⟨_, ⟨form', hform', hmem'⟩, _⟩
      rw [← hel.unique hform'] at hmem'
      exact absurd hmem' List.not_mem_nil
    · exact hstruct other es hes hcycle hn
    · exact ⟨m, other, by omega, hcycle, hn⟩
  · cases form with
    | struct es => exact hstruct key es hform h hw
    | _ => exact absurd he List.not_mem_nil

/-- No number of levels is enough for a type that reaches itself. -/
theorem not_within_of_cycle (index : Index) (n : Nat) (key : Json)
    (h : Relation.TransGen index.Refers key key) : ¬ index.Within n key := by
  induction n using Nat.strong_induction_on generalizing key with
  | _ n ih =>
    intro hw
    rcases index.cycle_falls n key h hw with ⟨m, other, hm, hcycle, hn⟩
    exact ih m hm other hcycle hn

/-- What reaches a type that reaches itself has no finite need. -/
theorem need_eq_top_of_cycle (index : Index) (key other : Json)
    (hreach : Relation.ReflTransGen index.Refers key other)
    (hcycle : Relation.TransGen index.Refers other other) : index.need key = ⊤ := by
  have hnot : ∀ n, ¬ index.Within n key := by
    intro n hw
    exact index.not_within_of_cycle n other hcycle
      (index.within_of_reaches n key other hreach hw)
  by_contra hne
  rcases ENat.ne_top_iff_exists.mp hne with ⟨n, hn⟩
  exact hnot n ((index.need_le_iff key n).mp (le_of_eq hn.symm))

end StorageLayout.Emitted.Index
