/-!
# Association Lists

Finite maps that remember the order in which their keys arrived.

The order of members is part of what compiler output says: it decides which candidates are listed
first, which record replaces which, and which fault is met first. So a map is a list of pairs. A
key that is put again keeps its place and takes the new value; a new key goes to the end.

## Main definitions

* `Assoc`: A list of keys with values.
* `Assoc.find?`: The value at a key.
* `Assoc.change`: Puts a value that may depend on the one before it.
* `Assoc.put`: Puts a value, whatever was there.

## Theorems

* `find?_change_self`: The changed key has the new value.
* `find?_change_other`: Every other key keeps its value.
* `keys_change`: The keys stay in place, and a new one goes to the end.
-/

namespace StorageLayout

/-- Keys with values, in the order of arrival. -/
abbrev Assoc (κ α : Type) := List (κ × α)

namespace Assoc

variable {κ α : Type} [DecidableEq κ]

/-- The value at a key. -/
def find? (k : κ) : Assoc κ α → Option α
  | [] => none
  | (l, v) :: rest => if l = k then some v else find? k rest

/-- Whether a key is present. -/
def contains (k : κ) (m : Assoc κ α) : Bool := (m.find? k).isSome

/-- Puts at `k` the value that `f` makes of the present one. -/
def change (k : κ) (f : Option α → α) : Assoc κ α → Assoc κ α
  | [] => [(k, f none)]
  | (l, v) :: rest => if l = k then (l, f (some v)) :: rest else (l, v) :: change k f rest

/-- Puts a value at a key. -/
def put (k : κ) (v : α) (m : Assoc κ α) : Assoc κ α := m.change k fun _ => v

/-- The keys, in order. -/
def keys (m : Assoc κ α) : List κ := m.map (·.1)

/-- The map of all pairs of a list, later pairs replacing earlier ones. -/
def ofList (pairs : List (κ × α)) : Assoc κ α := pairs.foldl (fun m p => m.put p.1 p.2) []

@[simp]
theorem find?_change_self (k : κ) (f : Option α → α) (m : Assoc κ α) :
    (m.change k f).find? k = some (f (m.find? k)) := by
  induction m with
  | nil => simp [change, find?]
  | cons p rest ih =>
    obtain ⟨l, v⟩ := p
    by_cases h : l = k <;> simp [change, find?, h, ih]

theorem find?_change_other {k l : κ} (h : k ≠ l) (f : Option α → α) (m : Assoc κ α) :
    (m.change k f).find? l = m.find? l := by
  induction m with
  | nil => simp [change, find?, h]
  | cons p rest ih =>
    obtain ⟨a, v⟩ := p
    by_cases ha : a = k
    · subst ha
      simp [change, find?, h]
    · simp only [change, ha, if_false, find?, ih]

/-- A key that is there keeps its place; a new one goes to the end. -/
theorem keys_change (k : κ) (f : Option α → α) (m : Assoc κ α) :
    (m.change k f).keys = if k ∈ m.keys then m.keys else m.keys ++ [k] := by
  induction m with
  | nil => simp [change, keys]
  | cons p rest ih =>
    obtain ⟨l, v⟩ := p
    by_cases h : l = k
    · subst h
      simp [change, keys]
    · simp only [keys] at ih
      simp only [change, h, if_false, keys, List.map_cons, List.mem_cons, ih, Ne.symm h, false_or]
      split <;> simp_all

@[simp]
theorem find?_put_self (k : κ) (v : α) (m : Assoc κ α) : (m.put k v).find? k = some v := by
  simp [put]

theorem find?_put_other {k l : κ} (h : k ≠ l) (v : α) (m : Assoc κ α) :
    (m.put k v).find? l = m.find? l := find?_change_other h _ m

end Assoc

end StorageLayout
