import Mathlib.Data.List.Forall2
import Mathlib.Data.List.Perm.Basic
import StorageLayout.Ast.Index
import StorageLayout.Proofs.Lookup

/-!
# Values Up to the Order of Members

Two documents that differ only in the order in which the members of their objects are written.

An object is a map, and what compilers write down for one build can list its members in any order.
Items of a list keep their places, and members keep their names, at every depth. Almost nothing can
tell two such values apart: a member is found by its name, whether a value is empty or is a text is
the same for both, and only values that are equal can serve as keys.

What can tell them apart is anything that goes through the members in order. An object that is gone
through yields its names, and an object that is shown lists them. For the few places where readers
do that, `kept` has the names of members whose values have to be equal and not just rearranged. A
shown object has a colon in it, so a text without one shows equal values (`eq_of_noColon`).

## Main definitions

* `Rearranged`: Two values are equal up to the order of members.
* `RearrangedRecord`: The same for two objects.

## Theorems

* `rearranged_of_perm`, `rearranged_of_values`: Members in another order, and values below them.
* `rearranged_at`, `rearranged_item`: One value in another one.
* `get?_rearranged`, `find?_rearranged`: A member is found in both or in neither.
* `members?_rearranged`, `objects_rearranged`: Objects, and those among the items of a value.
* `isNull_eq`, `isEmpty_eq`, `isText_eq`: What cannot tell two such values apart.
* `eq_of_key?`: Values that serve as keys are equal.
* `children_rearranged`: What is inside one is inside the other.
* `eq_of_noColon`: Values that are shown without a colon are equal.
-/

namespace StorageLayout

/-- Two values are equal up to the order of members. The values of members that are named in `kept`
are equal. -/
inductive Rearranged (kept : List String) : Json → Json → Prop
  | same (v : Json) : Rearranged kept v v
  | arr {xs ys : List Json} (hlength : xs.length = ys.length)
      (hitems : ∀ (i : Nat) (hx : i < xs.length) (hy : i < ys.length),
        Rearranged kept (xs.get ⟨i, hx⟩) (ys.get ⟨i, hy⟩)) : Rearranged kept (.arr xs) (.arr ys)
  | obj {xs ys : Record} (hnames : xs.keys.Perm ys.keys)
      (hvalues : ∀ name v w, (name, v) ∈ xs → (name, w) ∈ ys → Rearranged kept v w)
      (hkept : ∀ name v w, name ∈ kept → (name, v) ∈ xs → (name, w) ∈ ys → v = w) :
      Rearranged kept (.obj xs) (.obj ys)

/-- Two objects are equal up to the order of members. -/
def RearrangedRecord (kept : List String) (xs ys : Record) : Prop :=
  Rearranged kept (.obj xs) (.obj ys)

variable {kept : List String}

/-- Members of two objects are found in both or in neither. -/
theorem find?_rearranged {xs ys : Record} (h : RearrangedRecord kept xs ys) (name : String) :
    (xs.find? name = none ∧ ys.find? name = none) ∨
      ∃ v w, xs.find? name = some v ∧ ys.find? name = some w ∧ Rearranged kept v w ∧
        (name ∈ kept → v = w) := by
  cases h with
  | same =>
      cases hfind : xs.find? name with
      | none => exact Or.inl ⟨rfl, rfl⟩
      | some v => exact Or.inr ⟨v, v, rfl, rfl, .same v, fun _ => rfl⟩
  | obj hnames hvalues hkept =>
      cases hx : xs.find? name with
      | none =>
          cases hy : ys.find? name with
          | none => exact Or.inl ⟨rfl, rfl⟩
          | some w =>
              -- The names are the same, so the first record would have the member too.
              have hmem := hnames.mem_iff.mpr ((Assoc.mem_keys_iff name ys).mpr ⟨w, hy⟩)
              rcases (Assoc.mem_keys_iff name xs).mp hmem with ⟨v, hv⟩
              rw [hx] at hv
              exact absurd hv (by simp only [reduceCtorEq, not_false_eq_true])
      | some v =>
          have hmem := hnames.mem_iff.mp ((Assoc.mem_keys_iff name xs).mpr ⟨v, hx⟩)
          rcases (Assoc.mem_keys_iff name ys).mp hmem with ⟨w, hw⟩
          have hxmem := Assoc.find?_mem name v xs hx
          have hymem := Assoc.find?_mem name w ys hw
          exact Or.inr ⟨v, w, rfl, hw, hvalues name v w hxmem hymem,
            fun hname => hkept name v w hname hxmem hymem⟩

/-- A member, or what stands for a missing one. -/
theorem getD_rearranged {xs ys : Record} (h : RearrangedRecord kept xs ys) (name : String)
    (fallback : Json) :
    Rearranged kept ((xs.find? name).getD fallback) ((ys.find? name).getD fallback) := by
  rcases find?_rearranged h name with ⟨hx, hy⟩ | ⟨v, w, hx, hy, hvw, _⟩
  · rw [hx, hy]
    exact .same _
  · rw [hx, hy]
    exact hvw

theorem get_rearranged {xs ys : Record} (h : RearrangedRecord kept xs ys) (name : String) :
    Rearranged kept (xs.get name) (ys.get name) := getD_rearranged h name .null

theorem getText_rearranged {xs ys : Record} (h : RearrangedRecord kept xs ys) (name : String) :
    Rearranged kept (xs.getText name) (ys.getText name) := getD_rearranged h name (.str "")

theorem getList_rearranged {xs ys : Record} (h : RearrangedRecord kept xs ys) (name : String) :
    Rearranged kept (xs.getList name) (ys.getList name) := getD_rearranged h name (.arr [])

/-- A member whose value is kept, or what stands for a missing one. -/
theorem getD_kept {xs ys : Record} (h : RearrangedRecord kept xs ys) (name : String)
    (hname : name ∈ kept) (fallback : Json) :
    (xs.find? name).getD fallback = (ys.find? name).getD fallback := by
  rcases find?_rearranged h name with ⟨hx, hy⟩ | ⟨v, w, hx, hy, _, hvw⟩
  · rw [hx, hy]
  · rw [hx, hy, hvw hname]

namespace Rearranged

variable {v w : Json} (h : Rearranged kept v w)

include h

theorem isNull_eq : v.isNull = w.isNull := by
  cases h <;> rfl

theorem isText_eq (s : String) : v.isText s = w.isText s := by
  cases h <;> rfl

theorem isEmpty_eq : v.isEmpty = w.isEmpty := by
  cases h with
  | same => rfl
  -- Lists and records are empty by their lengths, and these are equal.
  | @arr xs ys hlength _ =>
      cases xs with
      | nil => rw [List.length_eq_zero_iff.mp hlength.symm]
      | cons _ _ =>
          cases ys with
          | nil => exact absurd hlength (Nat.succ_ne_zero _)
          | cons _ _ => rfl
  | @obj xs ys hnames _ _ =>
      have hlength := hnames.length_eq
      cases xs with
      | nil =>
          cases ys with
          | nil => rfl
          | cons _ _ => exact absurd hlength.symm (Nat.succ_ne_zero _)
      | cons _ _ =>
          cases ys with
          | nil => exact absurd hlength (Nat.succ_ne_zero _)
          | cons _ _ => rfl

/-- A member is found in both or in neither. -/
theorem get?_rearranged (name : String) : (v.get? name = none ∧ w.get? name = none) ∨
    ∃ a b, v.get? name = some a ∧ w.get? name = some b ∧ Rearranged kept a b ∧
      (name ∈ kept → a = b) := by
  cases h with
  | same v =>
      cases hfind : v.get? name with
      | none => exact Or.inl ⟨rfl, rfl⟩
      | some a => exact Or.inr ⟨a, a, rfl, rfl, .same a, fun _ => rfl⟩
  | arr _ _ => exact Or.inl ⟨rfl, rfl⟩
  | obj hnames hvalues hkept => exact find?_rearranged (.obj hnames hvalues hkept) name

/-- A value that is an object. -/
theorem members?_rearranged : (v.members? = none ∧ w.members? = none) ∨
    ∃ xs ys, v = .obj xs ∧ w = .obj ys ∧ RearrangedRecord kept xs ys := by
  cases h with
  | same v =>
      cases v with
      | obj xs => exact Or.inr ⟨xs, xs, rfl, rfl, .same _⟩
      | _ => exact Or.inl ⟨rfl, rfl⟩
  | arr _ _ => exact Or.inl ⟨rfl, rfl⟩
  | obj hnames hvalues hkept => exact Or.inr ⟨_, _, rfl, rfl, .obj hnames hvalues hkept⟩

/-- A text is not rearranged. -/
theorem eq_of_str (s : String) (hv : v = .str s) : v = w := by
  cases h with
  | same => rfl
  | _ => exact absurd hv (by simp only [reduceCtorEq, not_false_eq_true])

/-- Values that serve as keys are equal. -/
theorem eq_of_key? (k : Key) (hk : v.key? = some k) : v = w := by
  cases h with
  | same => rfl
  | _ => exact absurd hk (by simp only [Json.key?, reduceCtorEq, not_false_eq_true])

/-- What is inside a value is inside one that is rearranged. -/
theorem children_rearranged (c : Json) (hc : c ∈ Ast.children v) :
    ∃ c' ∈ Ast.children w, Rearranged kept c c' := by
  cases h with
  | same => exact ⟨c, hc, .same c⟩
  -- An item has its place, and its partner stands at the same one.
  | @arr xs ys hlength hitems =>
      rcases List.mem_iff_get.mp hc with ⟨⟨i, hi⟩, hget⟩
      rw [← hget]
      exact ⟨_, List.get_mem ys ⟨i, hlength ▸ hi⟩, hitems i hi (hlength ▸ hi)⟩
  | @obj xs ys hnames hvalues _ =>
      rcases List.mem_map.mp hc with ⟨⟨name, value⟩, hmem, hvalue⟩
      rw [← hvalue]
      -- A member has its name, and its partner may stand anywhere.
      have hname : name ∈ ys.keys := hnames.mem_iff.mp (List.mem_map.mpr ⟨_, hmem, rfl⟩)
      rcases List.mem_map.mp hname with ⟨⟨name', value'⟩, hmem', hsame⟩
      rw [show name' = name from hsame] at hmem'
      exact ⟨value', List.mem_map.mpr ⟨_, hmem', rfl⟩, hvalues name value value' hmem hmem'⟩

end Rearranged

/-- Members that are written down in another order. -/
theorem rearranged_of_perm {xs ys : Record} (h : xs.Perm ys) (hdistinct : xs.keys.Nodup) :
    RearrangedRecord kept xs ys := by
  have hsame : ∀ name v w, (name, v) ∈ xs → (name, w) ∈ ys → v = w :=
    fun name v w hv hw => Assoc.eq_of_mem name v w xs hdistinct hv (h.mem_iff.mpr hw)
  refine .obj (h.map _) (fun name v w hv hw => ?_) (fun name v w _ => hsame name v w)
  rw [hsame name v w hv hw]
  exact .same w

/-- Members in one order, with values that are rearranged. -/
theorem rearranged_of_values {xs ys : Record} (hdistinct : xs.keys.Nodup)
    (h : List.Forall₂ (fun p q => p.1 = q.1 ∧ Rearranged kept p.2 q.2 ∧ (p.1 ∈ kept → p.2 = q.2))
      xs ys) : RearrangedRecord kept xs ys := by
  have hkeys : xs.keys = ys.keys := by
    clear hdistinct
    induction h with
    | nil => rfl
    | cons hpq _ ih =>
        rw [Assoc.keys, Assoc.keys, List.map_cons, List.map_cons, hpq.1]
        exact congrArg _ ih
  -- Both sides have each name once, so the values at one name stand at one position.
  have hpair : ∀ name v w, (name, v) ∈ xs → (name, w) ∈ ys →
      Rearranged kept v w ∧ (name ∈ kept → v = w) := by
    intro name v w hv hw
    rcases List.mem_iff_get.mp hv with ⟨⟨i, hi⟩, hget⟩
    have hlength := h.length_eq
    have hpq := h.get hi (hlength ▸ hi)
    rw [hget] at hpq
    have hmem := List.get_mem ys ⟨i, hlength ▸ hi⟩
    generalize List.get ys ⟨i, hlength ▸ hi⟩ = q at hpq hmem
    rcases q with ⟨name', w'⟩
    rw [← show name = name' from hpq.1] at hmem
    rw [Assoc.eq_of_mem name w w' ys (hkeys ▸ hdistinct) hw hmem]
    exact hpq.2
  exact .obj (hkeys ▸ List.Perm.refl _) (fun name v w hv hw => (hpair name v w hv hw).1)
    fun name v w hname hv hw => (hpair name v w hv hw).2 hname

/-- One member with another value. -/
theorem rearranged_at (before after : Record) (name : String) {v w : Json}
    (h : Rearranged kept v w) (hname : name ∉ kept)
    (hdistinct : Assoc.keys (before ++ (name, v) :: after) |>.Nodup) :
    RearrangedRecord kept (before ++ (name, v) :: after) (before ++ (name, w) :: after) := by
  have hequal : ∀ r : Record, List.Forall₂ (fun p q => p.1 = q.1 ∧ Rearranged kept p.2 q.2 ∧
      (p.1 ∈ kept → p.2 = q.2)) r r :=
    fun r => List.forall₂_same.mpr fun p _ => ⟨rfl, .same _, fun _ => rfl⟩
  exact rearranged_of_values hdistinct (List.rel_append (hequal before)
    (List.Forall₂.cons ⟨rfl, h, fun hmem => absurd hmem hname⟩ (hequal after)))

/-- One item in a list with another value. -/
theorem rearranged_item (before after : List Json) {v w : Json} (h : Rearranged kept v w) :
    Rearranged kept (.arr (before ++ v :: after)) (.arr (before ++ w :: after)) := by
  have hequal : ∀ items : List Json, List.Forall₂ (Rearranged kept) items items :=
    fun items => List.forall₂_same.mpr fun v _ => .same v
  rcases List.forall₂_iff_get.mp (List.rel_append (hequal before)
    (List.Forall₂.cons h (hequal after))) with ⟨hlength, hitems⟩
  exact .arr hlength hitems

/-- The items of two lists. -/
theorem items_rearranged {xs ys : List Json} (h : Rearranged kept (.arr xs) (.arr ys)) :
    List.Forall₂ (Rearranged kept) xs ys := by
  cases h with
  | same => exact List.forall₂_same.mpr fun v _ => .same v
  | arr hlength hitems => exact List.forall₂_iff_get.mpr ⟨hlength, hitems⟩

/-- The objects among what going through two values yields. The order in which the names of an
object are yielded makes no difference, for they are texts. -/
theorem objects_rearranged {v w : Json} {items : List Json} (h : Rearranged kept v w)
    (hitems : v.elements = .ok items) (p : Json → Bool)
    (hp : ∀ a b, Rearranged kept a b → p a = p b) (hobject : ∀ s, p (.str s) = false) :
    ∃ items', w.elements = .ok items' ∧
      List.Forall₂ (Rearranged kept) (items.filter p) (items'.filter p) := by
  have hfilter : ∀ as bs : List Json, List.Forall₂ (Rearranged kept) as bs →
      List.Forall₂ (Rearranged kept) (as.filter p) (bs.filter p) := by
    intro as bs hab
    refine List.rel_filter (fun a b hab => ?_) hab
    change p a = true ↔ p b = true
    rw [hp a b hab]
  cases h with
  | same => exact ⟨items, hitems, hfilter _ _ (List.forall₂_same.mpr fun v _ => .same v)⟩
  | @arr xs ys hlength hvalues =>
      injection hitems with hitems
      rw [← hitems]
      exact ⟨ys, rfl, hfilter _ _ (items_rearranged (.arr hlength hvalues))⟩
  | @obj xs ys _ _ _ =>
      -- The names come in another order, and none of them is an object.
      have hnone : ∀ r : Record, (r.map fun m => Json.str m.1).filter p = [] := by
        intro r
        rw [List.filter_eq_nil_iff]
        intro a ha
        rcases List.mem_map.mp ha with ⟨m, _, hm⟩
        rw [← hm, hobject]
        exact Bool.false_ne_true
      injection hitems with hitems
      refine ⟨_, rfl, ?_⟩
      rw [← hitems, hnone, hnone]
      exact List.Forall₂.nil

section Shown

/-- What is shown of an item is shown of the list. -/
theorem mem_inspectItems (c : Char) (v : Json) (items : List Json) (hv : v ∈ items)
    (hc : c ∈ v.inspect.toList) : c ∈ (Json.inspectItems items).toList := by
  induction items with
  | nil => exact absurd hv List.not_mem_nil
  | cons item rest ih =>
      -- Only before a further item is there a comma.
      cases rest with
      | nil =>
          rw [← List.mem_singleton.mp hv, Json.inspectItems]
          exact hc
      | cons next rest =>
          rw [Json.inspectItems]
          · simp only [String.toList_append, List.mem_append]
            rcases List.mem_cons.mp hv with heq | hrest
            · rw [← heq]
              exact Or.inl (Or.inl hc)
            · exact Or.inr (ih hrest)
          · simp

/-- A colon follows the name of each member. -/
theorem colon_mem_inspectMembers (m : String × Json) (rest : List (String × Json)) :
    ':' ∈ (Json.inspectMembers (m :: rest)).toList := by
  rcases m with ⟨name, value⟩
  cases rest with
  | nil =>
      rw [Json.inspectMembers]
      simp [String.toList_append]
  | cons _ _ =>
      rw [Json.inspectMembers]
      · simp [String.toList_append]
      · simp

/-- Values that are shown without a colon are equal. -/
theorem Rearranged.eq_of_noColon {v w : Json} (h : Rearranged kept v w)
    (hw : ':' ∉ w.inspect.toList) : v = w := by
  induction h with
  | same v => rfl
  | @arr xs ys hlength _ ih =>
      refine congrArg Json.arr (List.ext_get hlength fun i hx hy => ih i hx hy fun hc => hw ?_)
      rw [Json.inspect, String.toList_append, String.toList_append]
      exact List.mem_append_left _ (List.mem_append_right _
        (mem_inspectItems ':' _ ys (List.get_mem ys ⟨i, hy⟩) hc))
  | @obj xs ys hnames _ _ _ =>
      -- An object with a member is shown with a colon, so there is none.
      cases ys with
      | nil =>
          have hempty : xs.map (·.1) = [] := List.Perm.eq_nil hnames
          rw [List.map_eq_nil_iff.mp hempty]
      | cons m rest =>
          refine absurd ?_ hw
          rw [Json.inspect, String.toList_append, String.toList_append]
          exact List.mem_append_left _ (List.mem_append_right _ (colon_mem_inspectMembers m rest))

/-- The same for values that are shown as part of a line. -/
theorem Rearranged.eq_of_display {v w : Json} (h : Rearranged kept v w)
    (hw : ':' ∉ w.display.toList) : v = w := by
  cases w with
  | str s => cases h with | same => rfl
  | _ => exact h.eq_of_noColon hw

end Shown

end StorageLayout
