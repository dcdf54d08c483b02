import Mathlib.Tactic.Common
import StorageLayout.Export
import StorageLayout.Json.Printer
import StorageLayout.Proofs.Outcome
import StorageLayout.Render

/-!
# What Has Been Written Can Be Shown

A layout that has been written as JSON can be shown as a tree.

Two things can keep a layout from being put into words. A slot can be negative and so have no word,
and an integer can have too many digits to be written. The export meets both: it makes the word of
every slot, and the text stops before an integer that is too long (`isComplete_prettyAt`). The tree
shows nothing that the export does not write: a line has the name, the type, the slot and the offset
or the id of its node, which are all among its facts. So once the whole text has been made, no line
of the tree can fail, with words for the slots or without.

## Theorems

* `isComplete_prettyAt`: A text is complete exactly if the value can be shown.
* `isShowable_int`, `isShowable_tooLong`: Integers that can be shown, and one that cannot.
* `isShowable_of_members`: The facts of a node that can be shown can be shown one by one.
* `line_of_written`: The line of a node that has been written.
* `renderNode_of_written`, `renderForest_of_written`: The lines of a layout that has been written.
-/

namespace StorageLayout

namespace Json

mutual

/-- A text over several lines is complete exactly if the value can be shown. -/
theorem isComplete_prettyAt : ∀ (depth : Nat) (v : Json),
    (prettyAt depth v).isComplete = v.isShowable
  | depth, .int n => by
    rw [prettyAt, isShowable]
    cases hn : Text.isWritable n with
    | true => rfl
    | false => rfl
  | depth, .arr [] => rfl
  | depth, .arr (item :: rest) => by
    -- The brackets are always written, so it is the items that count.
    rw [prettyAt, Written.isComplete_append, Written.isComplete_append,
      isComplete_prettyItems (depth + 1) (item :: rest), isShowable]
    · exact Bool.and_true _
    · exact fun h => absurd h (List.cons_ne_nil _ _)
  | depth, .obj [] => rfl
  | depth, .obj (m :: rest) => by
    rw [prettyAt, Written.isComplete_append, Written.isComplete_append,
      isComplete_prettyMembers (depth + 1) (m :: rest), isShowable]
    · exact Bool.and_true _
    · exact fun h => absurd h (List.cons_ne_nil _ _)
  | _, .null => rfl
  | _, .bool _ => rfl
  | _, .real _ => rfl
  | _, .str _ => rfl

theorem isComplete_prettyItems : ∀ (depth : Nat) (items : List Json),
    (prettyItems depth items).isComplete = areShowable items
  | _, [] => rfl
  | depth, [item] => by
    rw [prettyItems, isComplete_prettyAt depth item, areShowable, areShowable, Bool.and_true]
  | depth, item :: next :: rest => by
    rw [prettyItems, Written.isComplete_append, Written.isComplete_append,
      isComplete_prettyAt depth item, isComplete_prettyItems depth (next :: rest), areShowable]
    · exact congrArg (· && _) (Bool.and_true _)
    · exact fun h => absurd h (List.cons_ne_nil _ _)

theorem isComplete_prettyMembers : ∀ (depth : Nat) (members : List (String × Json)),
    (prettyMembers depth members).isComplete = valuesShowable members
  | _, [] => rfl
  | depth, [(name, v)] => by
    rw [prettyMembers, Written.isComplete_append, isComplete_prettyAt depth v, valuesShowable,
      valuesShowable, Bool.and_true]
    rfl
  | depth, (name, v) :: next :: rest => by
    -- A name is a text, and texts are always written.
    rw [prettyMembers, Written.isComplete_append, Written.isComplete_append,
      Written.isComplete_append, isComplete_prettyAt depth v,
      isComplete_prettyMembers depth (next :: rest), valuesShowable]
    · exact congrArg (· && _) (Bool.and_true _)
    · exact fun h => absurd h (List.cons_ne_nil _ _)

end

theorem valuesShowable_append (xs ys : List (String × Json)) :
    valuesShowable (xs ++ ys) = (valuesShowable xs && valuesShowable ys) := by
  induction xs with
  | nil => rfl
  | cons x rest ih => rw [List.cons_append, valuesShowable, valuesShowable, ih, Bool.and_assoc]

theorem isShowable_of_mem (members : List (String × Json)) (h : valuesShowable members = true)
    (m : String × Json) (hm : m ∈ members) : m.2.isShowable = true := by
  induction members with
  | nil => exact absurd hm List.not_mem_nil
  | cons x rest ih =>
      rw [valuesShowable, Bool.and_eq_true] at h
      rcases List.mem_cons.mp hm with heq | hrest
      · rw [heq]
        exact h.1
      · exact ih h.2 hrest

/-- An integer of few digits can be written. -/
theorem isShowable_int (n : Int) (h : n.natAbs < 1000) : (int n).isShowable = true := by
  have hleast : n.natAbs < Text.leastTooLong := by
    have hdigits : 3 ≤ Text.maxDigits := by decide
    delta Text.leastTooLong
    -- The power is not to be computed.
    revert hdigits
    generalize Text.maxDigits = digits
    intro hdigits
    exact Nat.lt_of_lt_of_le h (Nat.pow_le_pow_right (n := 10) (by omega) hdigits)
  rw [isShowable, Text.isWritable, decide_eq_true_eq]
  exact hleast

/-- An integer of too many digits cannot be written. -/
theorem isShowable_tooLong (n : Int) (h : Text.leastTooLong ≤ n.natAbs) :
    (int n).isShowable = false := by
  rw [isShowable, Text.isWritable, decide_eq_false_iff_not]
  exact Nat.not_lt.mpr h

/-- A value that can be shown is. -/
theorem shown_of_isShowable (v : Json) (h : v.isShowable = true) : v.shown = .ok v.display := by
  rw [shown, if_pos h]

end Json

namespace Render

variable (hexSlots : Bool)

/-- A fact of a node whose members can be shown. One that is not known is null, and is not among the
members. -/
theorem isShowable_of_members (facts : Facts) (h : Json.valuesShowable facts.members = true) :
    facts.name.isShowable = true ∧ facts.typeName.isShowable = true ∧
      facts.id.isShowable = true ∧ facts.slot.isShowable = true ∧
      facts.offset.isShowable = true := by
  have hfact : ∀ name v, (name, v) ∈ [("name", facts.name), ("type", facts.type),
      ("type_name", facts.typeName), ("id", facts.id), ("visibility", facts.visibility),
      ("slot", facts.slot), ("offset", facts.offset), ("length", facts.length),
      ("key_type", facts.keyType)] → v.isShowable = true := by
    intro name v hv
    -- Null can be shown anyway, and all other facts are among the members.
    cases hnull : v.isNull with
    | true =>
        cases v with
        | null => rfl
        | _ => exact absurd hnull Bool.false_ne_true
    | false =>
        refine Json.isShowable_of_mem facts.members h (name, v) (List.mem_filter.mpr ⟨hv, ?_⟩)
        rw [hnull]
        rfl
  refine ⟨hfact "name" _ ?_, hfact "type_name" _ ?_, hfact "id" _ ?_, hfact "slot" _ ?_,
    hfact "offset" _ ?_⟩ <;> simp only [List.mem_cons, true_or, or_true]

/-- The line of a node that has been written, with the word of its slot. -/
theorem line_of_written (indent : Int) (facts : Facts) (word : Record)
    (hword : slotWord facts = .ok word) (h : Json.valuesShowable facts.members = true) :
    ∃ text, line hexSlots indent facts = .ok text := by
  rcases isShowable_of_members facts h with ⟨hname, htype, hid, hslot, hoffset⟩
  have hplace : ∃ place, placeOf hexSlots facts = .ok place := by
    unfold placeOf
    split
    · rename_i hsome
      rw [Json.shown_of_isShowable _ hoffset, Json.shown_of_isShowable _ hslot]
      simp only
      split
      · -- The export has made the word of the slot.
        rw [Bool.not_eq_true'] at hsome
        rw [slotWord, hsome, if_neg Bool.false_ne_true] at hword
        rcases (bind_eq_ok _ _ _).mp hword with ⟨hex, hhex, _⟩
        rw [hhex]
        exact ⟨_, rfl⟩
      · exact ⟨_, rfl⟩
    · split
      · rw [Json.shown_of_isShowable _ hid]
        exact ⟨_, rfl⟩
      · exact ⟨_, rfl⟩
  rcases hplace with ⟨place, hp⟩
  rw [line, hp, Json.shown_of_isShowable _ hname, Json.shown_of_isShowable _ htype]
  exact ⟨_, rfl⟩

mutual

/-- The lines of a node that has been written. -/
theorem renderNode_of_written : ∀ (indent : Int) (t : TypeReference) (v : Json),
    exportNode t = .ok v → v.isShowable = true → ∃ lines, renderNode hexSlots indent t = .ok lines
  | indent, .node facts none, v, hv, hshow => by
    rw [exportNode] at hv
    rcases (bind_eq_ok _ _ _).mp hv with ⟨word, hword, hv⟩
    injection hv with hv
    rw [← hv, Json.isShowable, Json.valuesShowable_append, Bool.and_eq_true] at hshow
    rcases line_of_written hexSlots indent facts word hword hshow.1 with ⟨own, hown⟩
    rw [renderNode, hown]
    exact ⟨_, rfl⟩
  | indent, .node facts (some children), v, hv, hshow => by
    rw [exportNode] at hv
    rcases (bind_eq_ok _ _ _).mp hv with ⟨word, hword, hv⟩
    rcases (bind_eq_ok _ _ _).mp hv with ⟨exported, hexported, hv⟩
    injection hv with hv
    rw [← hv, Json.isShowable, Json.valuesShowable_append, Json.valuesShowable_append,
      Bool.and_eq_true, Bool.and_eq_true] at hshow
    -- What is below the node is written as the items of one member.
    have hbelow := Json.isShowable_of_mem _ hshow.1.2 _ List.mem_cons_self
    rw [Json.isShowable] at hbelow
    rcases line_of_written hexSlots indent facts word hword hshow.1.1 with ⟨own, hown⟩
    rcases renderForest_of_written (indent + 2) children exported hexported hbelow with
      ⟨below, hlines⟩
    rw [renderNode, hown, hlines]
    exact ⟨_, rfl⟩

/-- The lines of a layout that has been written. -/
theorem renderForest_of_written : ∀ (indent : Int) (layout : List TypeReference)
    (exported : List Json), exportForest layout = .ok exported →
    Json.areShowable exported = true → ∃ lines, renderForest hexSlots indent layout = .ok lines
  | indent, [], _, _, _ => ⟨[], rfl⟩
  | indent, t :: rest, exported, hexported, hshow => by
    rw [exportForest] at hexported
    rcases (bind_eq_ok _ _ _).mp hexported with ⟨first, hfirst, hexported⟩
    rcases (bind_eq_ok _ _ _).mp hexported with ⟨others, hothers, hexported⟩
    injection hexported with hexported
    rw [← hexported, Json.areShowable, Bool.and_eq_true] at hshow
    rcases renderNode_of_written indent t first hfirst hshow.1 with ⟨lines, hlines⟩
    rcases renderForest_of_written indent rest others hothers hshow.2 with ⟨more, hmore⟩
    -- Neither the lines of the first node fail nor those of the rest.
    rw [renderForest, hlines, hmore]
    exact ⟨_, rfl⟩

end

end Render

end StorageLayout
