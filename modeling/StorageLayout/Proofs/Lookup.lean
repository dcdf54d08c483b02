import Mathlib.Tactic.Common
import StorageLayout.Proofs.Outcome
import StorageLayout.Json.Reading

/-!
# Looking Things Up

What a successful look-up says about the key and the map.

Everything that compiler output refers to is found by key in an association list, and a value
serves as a key by its content: `1` and `1.0` are one key. Two directions matter. A value that is
found as a text is that text, because no other value has the same key, while a number may have been
written in another way. And what is found stands in the list.

## Theorems

* `asKey_eq_ok_iff`: A value that serves as a key.
* `eq_str_of_key?`: A text is the only value that is its key.
* `eq_str_of_isText`, `isText_unique`: A value is one text only.
* `Record.member_eq_ok`, `asRecord_eq_ok`: What a reader that asks for a member, or for an object,
  has found.
* `find?_mem`: What is found under a key stands in the list.
* `find?_ofList_mem`: What the map of a list of pairs holds is one of them.
* `not_mem_of_find?_ofList`: Nothing stands in a list under a key that its map does not have.
* `find?_ofList_append`, `find?_ofList_flatMap`: A map that is made of several lists of pairs.
* `find?_ofList_of_unique`, `find?_of_mem`: Where a key occurs once, its value is found.
* `eq_of_mem`: Where no key is repeated, one value stands at each.
* `find?_append`, `find?_filter`: Lists that are put together, or of which a part is left out.
* `find?_ofList_forall₂`: Maps of related pairs hold related values.
* `mem_keys_iff`: The keys are those under which something is found.
* `isOk_iff`: A run that succeeds has a result.
-/

namespace StorageLayout

theorem isOk_iff {ε α : Type} (x : Except ε α) : x.isOk = true ↔ ∃ a, x = .ok a := by
  cases x with
  | ok a => exact ⟨fun _ => ⟨a, rfl⟩, fun _ => rfl⟩
  | error e =>
      refine ⟨fun h => absurd h Bool.false_ne_true, ?_⟩
      rintro ⟨a, ha⟩
      exact absurd ha (by simp only [reduceCtorEq, not_false_eq_true])

namespace Json

/-- A value serves as a key exactly if it is one. -/
theorem asKey_eq_ok_iff (v : Json) (k : Key) : v.asKey = .ok k ↔ v.key? = some k := by
  unfold asKey
  cases v.key? with
  | none => simp only [Defect.fail, reduceCtorEq]
  | some l => simp only [Except.ok.injEq, Option.some.injEq]

/-- A text is the only value that is its key. -/
theorem eq_str_of_key? (v : Json) (s : String) (h : v.key? = some (.text s)) : v = .str s := by
  cases v with
  | str t =>
      simp only [key?, Option.some.injEq, Key.text.injEq] at h
      rw [h]
  -- Numbers with a fraction have keys of several kinds.
  | real x => cases x <;> simp only [key?, Option.some.injEq, reduceCtorEq] at h
  | _ => simp only [key?, Option.some.injEq, reduceCtorEq] at h

/-- A value that is a given text. -/
theorem eq_str_of_isText {v : Json} {s : String} (h : v.isText s = true) : v = .str s := by
  cases v with
  | str t =>
      rw [isText, decide_eq_true_eq] at h
      rw [h]
  | _ => exact absurd h Bool.false_ne_true

/-- A value is one text only. -/
theorem isText_unique {v : Json} {s t : String} (h : v.isText s = true) (hst : s ≠ t) :
    v.isText t = false := by
  rw [eq_str_of_isText h, isText, decide_eq_false_iff_not]
  exact hst

end Json

/-- A member that must be there and is. -/
theorem Record.member_eq_ok (r : Record) (name : String) (v : Json) (h : r.member name = .ok v) :
    r.find? name = some v := by
  unfold Record.member at h
  cases hfind : r.find? name with
  | none =>
      rw [hfind] at h
      exact absurd h (by simp only [Defect.fail, reduceCtorEq, not_false_eq_true])
  | some w =>
      rw [hfind] at h
      injection h with h
      rw [h]

/-- The members of a value that is an object. -/
theorem Json.asRecord_eq_ok (v : Json) (r : Record) (h : v.asRecord = .ok r) : v = .obj r := by
  cases v with
  | obj members =>
      injection h with h
      rw [h]
  | _ => exact absurd h (by simp only [asRecord, Defect.fail, reduceCtorEq, not_false_eq_true])

theorem Json.members?_eq_some (v : Json) (r : Record) (h : v.members? = some r) : v = .obj r := by
  cases v with
  | obj members =>
      injection h with h
      rw [h]
  | _ => exact absurd h (by simp only [members?, reduceCtorEq, not_false_eq_true])

namespace Assoc

/-- What is found under a key stands in the list. -/
theorem find?_mem {κ α : Type} [DecidableEq κ] (k : κ) (v : α) (m : Assoc κ α)
    (h : m.find? k = some v) : (k, v) ∈ m := by
  induction m with
  | nil => exact absurd h (by simp only [find?, reduceCtorEq, not_false_eq_true])
  | cons p rest ih =>
      rcases p with ⟨l, w⟩
      by_cases hl : l = k
      · rw [find?, if_pos hl] at h
        injection h with h
        rw [hl, h]
        exact List.mem_cons_self
      · rw [find?, if_neg hl] at h
        exact List.mem_cons_of_mem _ (ih h)

/-- What is found after pairs have been put was put there, or was found before. -/
theorem find?_foldl_put {κ α : Type} [DecidableEq κ] (k : κ) (v : α) (pairs : List (κ × α))
    (m : Assoc κ α) (h : (pairs.foldl (fun m p => m.put p.1 p.2) m).find? k = some v) :
    (k, v) ∈ pairs ∨ m.find? k = some v := by
  induction pairs generalizing m with
  | nil => exact Or.inr h
  | cons p rest ih =>
      rcases p with ⟨l, w⟩
      rcases ih (m.put l w) h with hrest | hput
      -- Put later on, put just now, or there before.
      · exact Or.inl (List.mem_cons_of_mem _ hrest)
      · by_cases hl : l = k
        · rw [hl, find?_put_self] at hput
          injection hput with hput
          rw [hl, hput]
          exact Or.inl List.mem_cons_self
        · rw [find?_put_other hl] at hput
          exact Or.inr hput

/-- What the map of a list of pairs holds is one of the pairs. -/
theorem find?_ofList_mem {κ α : Type} [DecidableEq κ] (k : κ) (v : α) (pairs : List (κ × α))
    (h : (ofList pairs).find? k = some v) : (k, v) ∈ pairs := by
  rcases find?_foldl_put k v pairs [] h with hmem | hnil
  · exact hmem
  · exact absurd hnil (by simp only [find?, reduceCtorEq, not_false_eq_true])

variable {κ α : Type} [DecidableEq κ]

/-- What is put later hides what is there. -/
theorem find?_foldl_put_eq (k : κ) (pairs : List (κ × α)) (m : Assoc κ α) :
    (pairs.foldl (fun m p => m.put p.1 p.2) m).find? k
      = ((ofList pairs).find? k).or (m.find? k) := by
  induction pairs generalizing m with
  | nil => rfl
  | cons p rest ih =>
      rcases p with ⟨l, w⟩
      have hempty : (ofList ((l, w) :: rest)).find? k
          = ((ofList rest).find? k).or ((put l w []).find? k) := ih (put l w [])
      rw [List.foldl_cons, ih, hempty, Option.or_assoc]
      -- Only the pair itself is left to compare, over an empty map and over `m`.
      by_cases hl : l = k
      · rw [hl, find?_put_self, find?_put_self, Option.some_or]
      · rw [find?_put_other hl, find?_put_other hl]
        rfl

theorem find?_ofList_append (k : κ) (xs ys : List (κ × α)) :
    (ofList (xs ++ ys)).find? k = ((ofList ys).find? k).or ((ofList xs).find? k) := by
  rw [ofList, List.foldl_append, find?_foldl_put_eq]
  rfl

/-- What a map made of several lists holds is held by the map of one of them. -/
theorem find?_ofList_flatMap {ι : Type} (k : κ) (f : ι → List (κ × α)) (xs : List ι) :
    (∃ x ∈ xs, ∃ v, (ofList (f x)).find? k = some v ∧ (ofList (xs.flatMap f)).find? k = some v) ∨
      ((∀ x ∈ xs, (ofList (f x)).find? k = none) ∧ (ofList (xs.flatMap f)).find? k = none) := by
  induction xs with
  | nil => exact Or.inr ⟨fun x hx => absurd hx List.not_mem_nil, rfl⟩
  | cons x rest ih =>
      -- What is put in later wins, so the lists after the first one are asked before it.
      rw [List.flatMap_cons, find?_ofList_append]
      rcases ih with ⟨y, hy, v, hv, hrest⟩ | ⟨hnone, hrest⟩
      · rw [hrest, Option.some_or]
        exact Or.inl ⟨y, List.mem_cons_of_mem x hy, v, hv, rfl⟩
      · rw [hrest, Option.none_or]
        cases hx : (ofList (f x)).find? k with
        | none => exact Or.inr ⟨List.forall_mem_cons.mpr ⟨hx, hnone⟩, rfl⟩
        | some v => exact Or.inl ⟨x, List.mem_cons_self, v, hx, rfl⟩

/-- Where a key occurs with one value only, that value is found. -/
theorem find?_ofList_of_unique (k : κ) (v : α) (pairs : List (κ × α)) (h : (k, v) ∈ pairs)
    (hunique : ∀ w, (k, w) ∈ pairs → w = v) : (ofList pairs).find? k = some v := by
  cases hfind : (ofList pairs).find? k with
  | some w => rw [hunique w (find?_ofList_mem k w pairs hfind)]
  | none =>
      -- The list of the pairs is the list of the lists of one pair each.
      have hflat : pairs = pairs.flatMap fun p => [p] := (List.flatMap_singleton' pairs).symm
      rcases find?_ofList_flatMap k (fun p => [p]) pairs with ⟨_, _, w, _, hw⟩ | ⟨hnone, _⟩
      · rw [← hflat, hfind] at hw
        exact absurd hw (by simp only [reduceCtorEq, not_false_eq_true])
      · have hone := hnone (k, v) h
        rw [show ofList [(k, v)] = put k v [] from rfl, find?_put_self] at hone
        exact absurd hone (by simp only [reduceCtorEq, not_false_eq_true])

/-- Where nothing is found, nothing stands in the list. -/
theorem not_mem_of_find?_ofList (k : κ) (pairs : List (κ × α)) (h : (ofList pairs).find? k = none)
    (v : α) : (k, v) ∉ pairs := by
  induction pairs with
  | nil => exact List.not_mem_nil
  | cons p rest ih =>
      rcases p with ⟨l, w⟩
      -- A later pair can hide this one, but then the key is found after all.
      rw [← List.singleton_append, find?_ofList_append, Option.or_eq_none_iff] at h
      intro hmem
      rcases List.mem_cons.mp hmem with heq | hrest
      · injection heq with hl _
        have hone := h.2
        rw [← hl, show ofList [(k, w)] = put k w [] from rfl, find?_put_self] at hone
        exact absurd hone (by simp only [reduceCtorEq, not_false_eq_true])
      · exact ih h.1 hrest

/-- In a map without repeated keys, what stands in the list is found. -/
theorem find?_of_mem (k : κ) (v : α) (m : Assoc κ α) (hm : m.keys.Nodup) (h : (k, v) ∈ m) :
    m.find? k = some v := by
  induction m with
  | nil => exact absurd h List.not_mem_nil
  | cons p rest ih =>
      rcases p with ⟨l, w⟩
      rw [keys, List.map_cons, List.nodup_cons] at hm
      rcases List.mem_cons.mp h with heq | hrest
      · injection heq with hk hv
        rw [find?, if_pos hk.symm, hv]
      · -- The keys are distinct, so the entry stands behind those of other keys only.
        have hne : l ≠ k := by
          intro hl
          exact hm.1 (List.mem_map.mpr ⟨(k, v), hrest, hl.symm⟩)
        rw [find?, if_neg hne]
        exact ih hm.2 hrest

/-- In a map without repeated keys, one value stands at a key. -/
theorem eq_of_mem (k : κ) (v w : α) (m : Assoc κ α) (hm : m.keys.Nodup) (hv : (k, v) ∈ m)
    (hw : (k, w) ∈ m) : v = w := by
  have hfound := find?_of_mem k v m hm hv
  rw [find?_of_mem k w m hm hw] at hfound
  injection hfound with hfound
  exact hfound.symm

theorem mem_keys_iff (k : κ) (m : Assoc κ α) : k ∈ m.keys ↔ ∃ v, m.find? k = some v := by
  constructor
  · intro h
    induction m with
    | nil => exact absurd h List.not_mem_nil
    | cons p rest ih =>
        rcases p with ⟨l, w⟩
        by_cases hl : l = k
        · exact ⟨w, by rw [find?, if_pos hl]⟩
        · rw [find?, if_neg hl]
          rw [keys, List.map_cons, List.mem_cons] at h
          exact ih (h.resolve_left fun hk => hl hk.symm)
  · rintro ⟨v, hv⟩
    exact List.mem_map.mpr ⟨(k, v), find?_mem k v m hv, rfl⟩

theorem find?_append (k : κ) (xs ys : Assoc κ α) :
    find? k (xs ++ ys) = (xs.find? k).or (ys.find? k) := by
  induction xs with
  | nil => rfl
  | cons p rest ih =>
      rcases p with ⟨l, v⟩
      by_cases hl : l = k
      · simp [find?, hl]
      · simp only [List.cons_append, find?, if_neg hl, ih]

/-- Where no key is repeated, a pair that is kept is found, and one that is left out is not. -/
theorem find?_filter (k : κ) (p : α → Bool) (m : Assoc κ α) (hm : m.keys.Nodup) :
    find? k (m.filter fun e => p e.2) = (m.find? k).filter p := by
  induction m with
  | nil => rfl
  | cons e rest ih =>
      rcases e with ⟨l, v⟩
      rw [keys, List.map_cons, List.nodup_cons] at hm
      have hrest := ih hm.2
      by_cases hl : l = k
      · -- The key does not occur again, so nothing can take the place of a pair that is left out.
        have hnone : find? k rest = none := by
          cases hfind : find? k rest with
          | none => rfl
          | some w =>
              have hmem := (mem_keys_iff k rest).mpr ⟨w, hfind⟩
              exact absurd (hl ▸ hmem) hm.1
        rw [hnone] at hrest
        by_cases hv : p v = true
        · simp [List.filter, find?, hl, hv, Option.filter]
        · rw [Bool.not_eq_true] at hv
          simp only [List.filter, hv, find?, hl, if_true, Option.filter_some, Bool.false_eq_true,
            if_false]
          exact hrest
      · by_cases hv : p v = true
        · simp only [List.filter, hv, find?, if_neg hl]
          exact hrest
        · rw [Bool.not_eq_true] at hv
          simp only [List.filter, hv, find?, if_neg hl]
          exact hrest

/-- Maps of pairs that are related, key by key, hold related values. -/
theorem find?_ofList_forall₂ {β : Type} {R : α → β → Prop} (xs : List (κ × α))
    (ys : List (κ × β)) (h : List.Forall₂ (fun p q => p.1 = q.1 ∧ R p.2 q.2) xs ys) (k : κ) :
    Option.Rel R ((ofList xs).find? k) ((ofList ys).find? k) := by
  induction h with
  | nil => exact .none
  | @cons p q xs ys hpq _ ih =>
      rcases p with ⟨l, v⟩
      rcases q with ⟨l', w⟩
      rcases hpq with ⟨hl, hvw⟩
      rw [← List.singleton_append, ← List.singleton_append (l := ys), find?_ofList_append,
        find?_ofList_append]
      -- A later pair hides this one on both sides.
      generalize (ofList xs).find? k = a at ih
      generalize (ofList ys).find? k = b at ih
      cases ih with
      | some hab => exact .some hab
      | none =>
          change l = l' at hl
          change Option.Rel R ((put l v []).find? k) ((put l' w []).find? k)
          rw [← hl]
          by_cases hk : l = k
          · rw [hk, find?_put_self, find?_put_self]
            exact .some hvw
          · rw [find?_put_other hk, find?_put_other hk]
            exact .none

end Assoc

end StorageLayout
