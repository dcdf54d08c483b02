import Mathlib.Data.List.Basic
import Mathlib.Tactic.Common
import StorageLayout.ContractName

/-!
# Qualified Names

A qualified name says where its contract stands.

The tables of contracts are keyed by one text for the path and the name. A path may hold colons, so
this text can be taken apart in several ways, and two contracts might go by one key. They do not if
their names are free of colons: the name is then what follows the last one.

## Theorems

* `isQualified_qualified`: A path and a name make a qualified name.
* `bareName_qualified`: The name is what follows the last colon.
* `splitQualified_qualified`: A qualified name is taken apart into what it was made of.
* `qualified_left_cancel`, `qualified_right_cancel`: Keys of one name, or under one path.
* `qualified_inj`: Path and name can be told from the qualified name.
-/

namespace StorageLayout.ContractName

/-- The characters of a qualified name. -/
theorem toList_qualified (path name : String) :
    (s!"{path}:{name}").toList = path.toList ++ ':' :: name.toList := by
  simp only [toString, String.toList_append]
  simp

theorem isQualified_qualified (path name : String) : isQualified s!"{path}:{name}" = true := by
  rw [isQualified, toList_qualified]
  exact decide_eq_true (List.mem_append_right _ List.mem_cons_self)

/-- Read from its end, a name without a colon is passed over on the way to the last colon. -/
theorem ne_colon_of_mem (name : String) (h : ':' ∉ name.toList) :
    ∀ c ∈ name.toList.reverse, decide (c ≠ ':') = true := by
  intro c hc
  rw [decide_eq_true_eq]
  intro hcolon
  rw [hcolon, List.mem_reverse] at hc
  exact h hc

/-- A name without a colon is what follows the last colon. -/
theorem bareName_qualified (path name : String) (h : ':' ∉ name.toList) :
    bareName s!"{path}:{name}" = name := by
  rw [bareName, afterLastColon, toList_qualified, List.reverse_append, List.reverse_cons,
    List.append_assoc, List.takeWhile_append_of_pos (ne_colon_of_mem name h), List.singleton_append,
    List.takeWhile_cons_of_neg (by decide), List.append_nil, List.reverse_reverse,
    String.ofList_toList]

/-- A qualified name is taken apart into the path and the name that it was made of. -/
theorem splitQualified_qualified (path name : String) (h : ':' ∉ name.toList) :
    splitQualified s!"{path}:{name}" = some (path, name) := by
  have hdrop : (s!"{path}:{name}").toList.reverse.dropWhile (· ≠ ':')
      = ':' :: path.toList.reverse := by
    rw [toList_qualified, List.reverse_append, List.reverse_cons, List.append_assoc,
      List.dropWhile_append_of_pos (ne_colon_of_mem name h), List.singleton_append,
      List.dropWhile_cons_of_neg (by decide)]
  simp only [splitQualified, hdrop, bareName_qualified path name h, List.reverse_reverse,
    String.ofList_toList]

/-- Contracts of one name that have one key have one path. -/
theorem qualified_left_cancel {path otherPath name : String}
    (h : s!"{path}:{name}" = s!"{otherPath}:{name}") : path = otherPath := by
  have hchars := congrArg String.toList h
  rw [toList_qualified, toList_qualified] at hchars
  exact String.toList_inj.mp (List.append_cancel_right hchars)

/-- Contracts under one path that have one key have one name. -/
theorem qualified_right_cancel {path name other : String}
    (h : s!"{path}:{name}" = s!"{path}:{other}") : name = other := by
  have hchars := congrArg String.toList h
  rw [toList_qualified, toList_qualified] at hchars
  injection List.append_cancel_left hchars with _ hname
  exact String.toList_inj.mp hname

/-- Path and name can be told from the qualified name, if names have no colons. -/
theorem qualified_inj {path name otherPath other : String} (hname : ':' ∉ name.toList)
    (hother : ':' ∉ other.toList) (h : s!"{path}:{name}" = s!"{otherPath}:{other}") :
    path = otherPath ∧ name = other := by
  have heq : name = other := by
    rw [← bareName_qualified path name hname, h, bareName_qualified otherPath other hother]
  rw [heq] at h
  exact ⟨qualified_left_cancel h, heq⟩

end StorageLayout.ContractName
