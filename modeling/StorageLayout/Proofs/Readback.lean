import Mathlib.Data.List.Perm.Subperm
import StorageLayout.Proofs.Lookup
import StorageLayout.Proofs.Showing

/-!
# Reading an Export Back

The export of a layout holds everything that the layout says.

A node is exported as an object of the facts that are known, and a fact that is not known is left
out. Nothing is lost by this, because a fact that is known is never null: what is absent was null.
Children are left out in the same way, and a node without children is told from one whose list of
children is empty. The word of a slot is added to what the node says. So a layout can be read back
from its export (`forestOfJson?`), when the words are taken away again, and two layouts with one
export are one layout. This also holds when exports are compared as data, which do not tell `1` from
`1.0` and do not see the order of members.

The export fails only for want of a word. Slots are whole numbers, and of those only the negative
ones have none. The slots are visited in the order in which the tree is written, parents before
children, and the first negative one is the one that is complained about (`exportForest_meets`). The
complaint names the slot, so a slot of too many digits makes even the complaint fail.

Only nodes are given words. What stands in a field of a node is exported as it is, even if it is an
object that has a member of this name (`exportForest_exceptions`).

## Main definitions

* `IsSlot`, `IsNegativeSlot`: Slots, and those without a word.
* `forestSlots`: The slots of a layout, parents before children.
* `itemsWithoutWords`: An export without the words of slots.
* `forestOfJson?`: The layout that an export stands for.
* `Exported`: An object of an export, at any depth.
* `HasItsWord`: An object with a word exactly if it has a slot.
* `Meets`: A run that stops at the first negative slot.

## Theorems

* `find?_exported`, `keys_exported`: The members of an exported node.
* `ofMembers_exported`: The facts of an exported node.
* `exportForest_meets`: An export fails at the first negative slot, and only there.
* `hasItsWord_of_export`, `export_of_exported`: The words of an export.
* `itemsWithoutWords_export`: Without its words, an export lists the known facts.
* `forestOfJson?_forestToJson`: The known facts are read back.
* `same_of_export`: Exports that are equal as data are those of equal layouts.
* `exportForest_keeps`: The export of a layout loses nothing.
* `exportForest_exceptions`: What is not named, and what gets no word.
-/

namespace StorageLayout

/-! ## Slots -/

/-- A slot as declarations have it: none, or a whole number. A truth value counts as one. -/
def IsSlot (slot : Json) : Prop := slot = .null ∨ (∃ n, slot = .int n) ∨ ∃ b, slot = .bool b

/-- A slot that is less than zero. -/
def IsNegativeSlot (slot : Json) : Prop := ∃ n : Int, n < 0 ∧ slot = .int n

mutual

/-- The slots of a node and of all below it, parents before children. -/
def nodeSlots : TypeReference → List Json
  | .node facts none => [facts.slot]
  | .node facts (some children) => facts.slot :: forestSlots children

/-- The slots of a layout, parents before children. -/
def forestSlots : List TypeReference → List Json
  | [] => []
  | t :: rest => nodeSlots t ++ forestSlots rest

end

/-- A run that goes through slots succeeds if none of them is negative. Otherwise it stops at the
first one that is, and complains about it as far as it can be named. -/
def Meets {α : Type} (slots : List Json) (x : Except Error α) : Prop :=
  ((∀ slot ∈ slots, ¬ IsNegativeSlot slot) ∧ ∃ a, x = .ok a) ∨
    ∃ before slot after, slots = before ++ slot :: after ∧
      (∀ s ∈ before, ¬ IsNegativeSlot s) ∧ IsNegativeSlot slot ∧
      x = (Error.negativeSlot slot).raise

namespace Meets

variable {α β : Type} {slots more : List Json}

theorem pure (a : α) : Meets [] (.ok a : Except Error α) :=
  Or.inl ⟨fun _ h => absurd h List.not_mem_nil, a, rfl⟩

/-- One run after another goes through the slots of both. -/
theorem bind {x : Except Error α} {f : α → Except Error β} (h : Meets slots x)
    (hf : ∀ a, Meets more (f a)) : Meets (slots ++ more) (x >>= f) := by
  -- Either the first part has no negative slot and the second one decides, or the first of all
  -- stands in the first part already, and the second part is not reached.
  rcases h with ⟨hnone, a, ha⟩ | ⟨before, slot, after, hsplit, hbefore, hslot, herror⟩
  · rw [ha, ok_bind]
    rcases hf a with ⟨hmore, b, hb⟩ | ⟨before, slot, after, hsplit, hbefore, hslot, herror⟩
    · refine Or.inl ⟨fun s hs => ?_, b, hb⟩
      rcases List.mem_append.mp hs with h | h
      · exact hnone s h
      · exact hmore s h
    · refine Or.inr ⟨slots ++ before, slot, after, ?_, fun s hs => ?_, hslot, herror⟩
      · rw [hsplit, List.append_assoc]
      · rcases List.mem_append.mp hs with h | h
        · exact hnone s h
        · exact hbefore s h
  · refine Or.inr ⟨before, slot, after ++ more, ?_, hbefore, hslot, ?_⟩
    · rw [hsplit, List.append_assoc, List.cons_append]
    · rw [herror]
      rfl

/-- What is made of the result needs no slots. -/
theorem map {x : Except Error α} (h : Meets slots x) (f : α → β) :
    Meets slots (x >>= fun a => Pure.pure (f a)) := by
  rw [← List.append_nil slots]
  exact h.bind fun a => Meets.pure (f a)

end Meets

/-- The word of a slot: only a negative slot has none. -/
theorem slotWord_meets (facts : Facts) (h : IsSlot facts.slot) :
    Meets [facts.slot] (slotWord facts) := by
  have hsingle : ∀ {s : Json}, ¬ IsNegativeSlot s → ∀ t ∈ [s], ¬ IsNegativeSlot t := by
    intro s hs t ht
    rw [List.mem_singleton.mp ht]
    exact hs
  unfold slotWord
  -- An accepted slot is absent, a number or a truth value, and only a number can be negative.
  rcases h with hnull | ⟨n, hn⟩ | ⟨b, hb⟩
  · rw [hnull]
    refine Or.inl ⟨hsingle ?_, [], rfl⟩
    rintro ⟨m, _, hm⟩
    cases hm
  · rw [hn]
    by_cases hneg : n < 0
    · refine Or.inr ⟨[], .int n, [], rfl, fun s hs => absurd hs List.not_mem_nil, ⟨n, hneg, rfl⟩, ?_⟩
      simp only [Json.isNull, Slot.hexOfValue, if_pos hneg, Bool.false_eq_true, if_false]
      rfl
    · refine Or.inl ⟨hsingle ?_, [("slot_hex", .str (Slot.word n.toNat))], ?_⟩
      · rintro ⟨m, hm, heq⟩
        cases heq
        exact hneg hm
      · simp only [Json.isNull, Slot.hexOfValue, if_neg hneg, Bool.false_eq_true, if_false]
        rfl
  · rw [hb]
    refine Or.inl ⟨hsingle ?_, [("slot_hex", .str (Slot.word (if b then 1 else 0)))], rfl⟩
    rintro ⟨m, _, hm⟩
    cases hm

mutual

/-- The export of a node stops at the first negative slot of the node and those below it. -/
theorem exportNode_meets : ∀ t : TypeReference, (∀ slot ∈ nodeSlots t, IsSlot slot) →
    Meets (nodeSlots t) (exportNode t)
  | .node facts none, h => by
    rw [nodeSlots] at h ⊢
    rw [exportNode]
    exact (slotWord_meets facts (h _ List.mem_cons_self)).map _
  | .node facts (some children), h => by
    rw [nodeSlots] at h ⊢
    rw [exportNode, ← List.singleton_append]
    -- The slot of the node itself comes first.
    refine (slotWord_meets facts (h _ List.mem_cons_self)).bind fun word => ?_
    exact (exportForest_meets children fun slot hslot => h slot (List.mem_cons_of_mem _ hslot)).map _

/-- The export of a layout stops at its first negative slot. -/
theorem exportForest_meets : ∀ forest : List TypeReference,
    (∀ slot ∈ forestSlots forest, IsSlot slot) → Meets (forestSlots forest) (exportForest forest)
  | [], _ => Meets.pure []
  | t :: rest, h => by
    rw [forestSlots] at h ⊢
    rw [exportForest]
    refine (exportNode_meets t fun slot hslot => h slot (List.mem_append_left _ hslot)).bind
      fun first => ?_
    exact (exportForest_meets rest fun slot hslot => h slot (List.mem_append_right _ hslot)).map _

end

/-! ## The members of an exported node -/

/-- All facts of a node by name, those that are not known as well. -/
def Facts.named (f : Facts) : Record :=
  [("name", f.name), ("type", f.type), ("type_name", f.typeName), ("id", f.id),
    ("visibility", f.visibility), ("slot", f.slot), ("offset", f.offset), ("length", f.length),
    ("key_type", f.keyType)]

/-- The children of a node as a member; none when there is no list of them. -/
def childrenMember : Option (List Json) → Record
  | none => []
  | some children => [("sub_type", .arr children)]

/-- The facts of a node, its children and its word, as far as there are any. -/
def exportedMembers (facts : Facts) (children : Option (List Json)) (word : Record) : Record :=
  facts.members ++ childrenMember children ++ word

/-- An exported node has these members. -/
theorem exportNode_eq_ok (facts : Facts) (subType : Option (List TypeReference)) (v : Json)
    (h : exportNode (.node facts subType) = .ok v) :
    ∃ word children, slotWord facts = .ok word ∧ v = .obj (exportedMembers facts children word) ∧
      match subType, children with
      | none, none => True
      | some forest, some exported => exportForest forest = .ok exported
      | _, _ => False := by
  cases subType with
  | none =>
      rw [exportNode] at h
      rcases (bind_eq_ok _ _ _).mp h with ⟨word, hword, h⟩
      cases h
      refine ⟨word, none, hword, ?_, trivial⟩
      rw [exportedMembers, childrenMember, List.append_nil]
  | some forest =>
      rw [exportNode] at h
      rcases (bind_eq_ok _ _ _).mp h with ⟨word, hword, h⟩
      rcases (bind_eq_ok _ _ _).mp h with ⟨exported, hexported, h⟩
      cases h
      exact ⟨word, some exported, hword, rfl, hexported⟩

/-- A word stands under a name of its own, and it is the one of the slot. -/
theorem slotWord_eq_ok (facts : Facts) (word : Record) (h : slotWord facts = .ok word) :
    (facts.slot.isNull = true ∧ word = []) ∨
      (facts.slot.isNull = false ∧ ∃ hex, Slot.hexOfValue facts.slot = .ok hex ∧
        word = [("slot_hex", .str hex)]) := by
  unfold slotWord at h
  cases hnull : facts.slot.isNull with
  | true =>
      rw [hnull, if_pos rfl] at h
      cases h
      exact Or.inl ⟨rfl, rfl⟩
  | false =>
      rw [hnull, if_neg Bool.false_ne_true] at h
      rcases (bind_eq_ok _ _ _).mp h with ⟨hex, hhex, h⟩
      cases h
      exact Or.inr ⟨rfl, hex, hhex, rfl⟩

/-- The names of all members that an exported node can have. -/
def memberNames : List String :=
  ["name", "type", "type_name", "id", "visibility", "slot", "offset", "length", "key_type",
    "sub_type", "slot_hex"]

theorem keys_members_sublist (facts : Facts) :
    (Assoc.keys facts.members).Sublist (Assoc.keys facts.named) :=
  List.Sublist.map _ List.filter_sublist

/-- No member of an exported node is repeated. -/
theorem keys_exported (facts : Facts) (children : Option (List Json)) (word : Record)
    (hword : slotWord facts = .ok word) :
    (Assoc.keys (exportedMembers facts children word)).Nodup := by
  -- The children and the word may be missing, so the names are a part of the full list of members.
  have hchildren : (Assoc.keys (childrenMember children)).Sublist ["sub_type"] := by
    cases children with
    | none => exact List.nil_sublist _
    | some _ => exact List.Sublist.refl _
  have hhex : (Assoc.keys word).Sublist ["slot_hex"] := by
    rcases slotWord_eq_ok facts word hword with ⟨_, hnone⟩ | ⟨_, hex, _, hsome⟩
    · rw [hnone]
      exact List.nil_sublist _
    · rw [hsome]
      exact List.Sublist.refl _
  have hsublist : (Assoc.keys (exportedMembers facts children word)).Sublist memberNames := by
    unfold exportedMembers Assoc.keys
    rw [List.map_append, List.map_append]
    exact ((keys_members_sublist facts).append hchildren).append hhex
  exact hsublist.nodup (by decide)

/-- The names of the facts of a node. -/
def factNames : List String :=
  ["name", "type", "type_name", "id", "visibility", "slot", "offset", "length", "key_type"]

/-- Members that are facts have the names of facts. -/
theorem name_mem_factNames (facts : Facts) : ∀ m ∈ facts.members, m.1 ∈ factNames :=
  fun m hm => (keys_members_sublist facts).subset (List.mem_map.mpr ⟨m, hm, rfl⟩)

/-- A fact that is known is among the members, and one that is not is absent. -/
theorem find?_members (facts : Facts) (name : String) :
    Assoc.find? name facts.members = (Assoc.find? name facts.named).filter fun v => !v.isNull := by
  have hkeys : (Assoc.keys facts.named).Nodup := show factNames.Nodup by decide
  exact Assoc.find?_filter name (fun v => !v.isNull) facts.named hkeys

/-- What is not the name of a fact is not among the facts. -/
theorem find?_members_eq_none (facts : Facts) (name : String) (h : name ∉ factNames) :
    Assoc.find? name facts.members = none := by
  cases hfind : Assoc.find? name facts.members with
  | none => rfl
  | some v =>
      have hmem := (Assoc.mem_keys_iff name _).mpr ⟨v, hfind⟩
      exact absurd ((keys_members_sublist facts).subset hmem) h

/-- The members of an exported node, one part after the other. -/
theorem find?_exported (facts : Facts) (children : Option (List Json)) (word : Record)
    (name : String) :
    Assoc.find? name (exportedMembers facts children word)
      = ((Assoc.find? name facts.members).or (Assoc.find? name (childrenMember children))).or
        (Assoc.find? name word) := by
  rw [exportedMembers, Assoc.find?_append, Assoc.find?_append]

theorem find?_childrenMember (children : Option (List Json)) (name : String)
    (h : name ≠ "sub_type") : Assoc.find? name (childrenMember children) = none := by
  cases children with
  | none => rfl
  | some _ => rw [childrenMember, Assoc.find?, if_neg (Ne.symm h), Assoc.find?]

theorem find?_word (facts : Facts) (word : Record) (hword : slotWord facts = .ok word)
    (name : String) (h : name ≠ "slot_hex") : Assoc.find? name word = none := by
  rcases slotWord_eq_ok facts word hword with ⟨_, hnone⟩ | ⟨_, hex, _, hsome⟩
  · rw [hnone]
    rfl
  · rw [hsome, Assoc.find?, if_neg (Ne.symm h), Assoc.find?]

/-- A fact of an exported node is there if it is known. -/
theorem find?_exported_fact (facts : Facts) (children : Option (List Json)) (word : Record)
    (hword : slotWord facts = .ok word) (name : String) (hname : name ∈ factNames) :
    Assoc.find? name (exportedMembers facts children word)
      = (Assoc.find? name facts.named).filter fun v => !v.isNull := by
  have hsub : name ≠ "sub_type" := fun h => absurd (h ▸ hname) (by decide)
  have hhex : name ≠ "slot_hex" := fun h => absurd (h ▸ hname) (by decide)
  rw [find?_exported, find?_childrenMember children name hsub,
    find?_word facts word hword name hhex, Option.or_none, Option.or_none, find?_members]

/-- The word of an exported node. -/
theorem find?_exported_word (facts : Facts) (children : Option (List Json)) (word : Record) :
    Assoc.find? "slot_hex" (exportedMembers facts children word)
      = Assoc.find? "slot_hex" word := by
  rw [find?_exported, find?_childrenMember children _ (by decide),
    find?_members_eq_none facts _ (by decide), Option.or_none, Option.none_or]

/-! ## Words -/

/-- An object stands in an export, at its top or among the children of another one. -/
inductive Exported (roots : List Json) : Json → Prop
  | top {v : Json} (h : v ∈ roots) : Exported roots v
  | child {members : Record} {children : List Json} {v : Json}
      (hparent : Exported roots (.obj members))
      (hchildren : members.find? "sub_type" = some (.arr children)) (h : v ∈ children) :
      Exported roots v

/-- An object has a word exactly if it has a slot, and it is the word of this slot. -/
def HasItsWord (v : Json) : Prop :=
  ∃ members : Record, v = .obj members ∧
    ((members.find? "slot" = none ∧ members.find? "slot_hex" = none) ∨
      ∃ slot hex, members.find? "slot" = some slot ∧ Slot.hexOfValue slot = .ok hex ∧
        members.find? "slot_hex" = some (.str hex))

/-- An exported node has the word of its slot. -/
theorem hasItsWord_of_export (t : TypeReference) (v : Json) (h : exportNode t = .ok v) :
    HasItsWord v := by
  rcases t with ⟨facts, subType⟩
  rcases exportNode_eq_ok facts subType v h with ⟨word, children, hword, hv, _⟩
  refine ⟨_, hv, ?_⟩
  have hslot : Assoc.find? "slot" (exportedMembers facts children word)
      = (some facts.slot).filter fun v => !v.isNull :=
    find?_exported_fact facts children word hword "slot" (by decide)
  rw [hslot, find?_exported_word]
  -- The object has a `slot` exactly when the node has one that is not null, and then it has the
  -- word of this slot.
  rcases slotWord_eq_ok facts word hword with ⟨hnull, hnone⟩ | ⟨hnull, hex, hvalue, hsome⟩
  · rw [hnone, Option.filter_some, hnull]
    exact Or.inl ⟨rfl, rfl⟩
  · rw [hsome, Option.filter_some, hnull]
    exact Or.inr ⟨facts.slot, hex, rfl, hvalue, rfl⟩

/-- A layout is exported node by node. -/
theorem exportForest_eq_mapM (forest : List TypeReference) :
    exportForest forest = forest.mapM exportNode := by
  induction forest with
  | nil => rw [exportForest, List.mapM_nil]; rfl
  | cons t rest ih => rw [exportForest, List.mapM_cons, ih]

/-- Each object at the top of an export is the export of a node. -/
theorem export_of_mem (forest : List TypeReference) (exported : List Json)
    (h : exportForest forest = .ok exported) (v : Json) (hv : v ∈ exported) :
    ∃ t, exportNode t = .ok v := by
  rw [exportForest_eq_mapM] at h
  rcases exists_partner _ _ (mapM_items exportNode forest exported h).flip v hv with ⟨t, _, ht⟩
  exact ⟨t, ht⟩

/-- Every object of an export is the export of a node, at all depths. -/
theorem export_of_exported (forest : List TypeReference) (exported : List Json)
    (h : exportForest forest = .ok exported) (v : Json) (hv : Exported exported v) :
    ∃ t, exportNode t = .ok v := by
  -- The induction is on the way from the top of the export down to `v`.
  induction hv with
  | top hv => exact export_of_mem forest exported h _ hv
  | @child members children v _ hchildren hv ih =>
      rcases ih with ⟨⟨facts, subType⟩, ht⟩
      rcases exportNode_eq_ok facts subType _ ht with ⟨word, below, hword, hmembers, hbelow⟩
      cases hmembers
      -- The list the way goes on in is the one the export of the children gave: no fact and no word
      -- has its name.
      have hfound : Assoc.find? "sub_type" (childrenMember below) = some (.arr children) := by
        rw [find?_exported, find?_members_eq_none facts _ (by decide), Option.none_or,
          find?_word facts word hword _ (by decide), Option.or_none] at hchildren
        exact hchildren
      cases below with
      | none => cases hfound
      | some items =>
          injection hfound with hfound
          injection hfound with hfound
          cases subType with
          | none => exact absurd hbelow id
          | some forest => exact export_of_mem forest items hbelow v (hfound ▸ hv)

/-! ## Reading back -/

mutual

/-- An exported node without the word of its slot and of those below it. -/
def withoutWords : Json → Json
  | .obj members => .obj (membersWithoutWords members)
  | v => v

/-- The members of an exported node without its word and those below it. -/
def membersWithoutWords : List (String × Json) → List (String × Json)
  | [] => []
  | (name, v) :: rest =>
    if name = "slot_hex" then membersWithoutWords rest
    else if name = "sub_type" then (name, childrenWithoutWords v) :: membersWithoutWords rest
    else (name, v) :: membersWithoutWords rest

/-- The children of an exported node without their words. -/
def childrenWithoutWords : Json → Json
  | .arr items => .arr (itemsWithoutWords items)
  | v => v

/-- The nodes of an export without their words. -/
def itemsWithoutWords : List Json → List Json
  | [] => []
  | v :: rest => withoutWords v :: itemsWithoutWords rest

end

/-- The facts that members give; an absent one is null. -/
def Facts.ofMembers (members : Record) : Facts where
  name := members.get "name"
  type := members.get "type"
  typeName := members.get "type_name"
  id := members.get "id"
  visibility := members.get "visibility"
  slot := members.get "slot"
  offset := members.get "offset"
  length := members.get "length"
  keyType := members.get "key_type"

mutual

/-- The node that an object stands for. -/
def nodeOfJson? : Json → Option TypeReference
  | .obj members => do
    let subType ← subTypeOf? members
    return .node (Facts.ofMembers members) subType
  | _ => none

/-- The children that members give; none when there is no list of them. -/
def subTypeOf? : List (String × Json) → Option (Option (List TypeReference))
  | [] => some none
  | (name, v) :: rest =>
    if name = "sub_type" then (childrenOfJson? v).map some else subTypeOf? rest

/-- The nodes that a value stands for, which must be a list. -/
def childrenOfJson? : Json → Option (List TypeReference)
  | .arr items => forestOfJson? items
  | _ => none

/-- The nodes that a list stands for. -/
def forestOfJson? : List Json → Option (List TypeReference)
  | [] => some []
  | v :: rest => do
    let first ← nodeOfJson? v
    let others ← forestOfJson? rest
    return first :: others

end

theorem membersWithoutWords_append (xs ys : List (String × Json)) :
    membersWithoutWords (xs ++ ys) = membersWithoutWords xs ++ membersWithoutWords ys := by
  induction xs with
  | nil => rfl
  | cons m rest ih =>
      rcases m with ⟨name, v⟩
      rw [List.cons_append, membersWithoutWords, membersWithoutWords, ih]
      split_ifs <;> rfl

/-- Facts are left as they are. -/
theorem membersWithoutWords_members (facts : Facts) :
    membersWithoutWords facts.members = facts.members := by
  have hnames := name_mem_factNames facts
  -- Only the names of the members matter from here on.
  generalize facts.members = members at hnames
  induction members with
  | nil => rfl
  | cons m rest ih =>
      rcases m with ⟨name, v⟩
      have hname : name ∈ factNames := hnames _ List.mem_cons_self
      have hhex : name ≠ "slot_hex" := fun h => absurd (h ▸ hname) (by decide)
      have hsub : name ≠ "sub_type" := fun h => absurd (h ▸ hname) (by decide)
      rw [membersWithoutWords, if_neg hhex, if_neg hsub,
        ih fun m hm => hnames m (List.mem_cons_of_mem _ hm)]

theorem membersWithoutWords_word (facts : Facts) (word : Record)
    (hword : slotWord facts = .ok word) : membersWithoutWords word = [] := by
  rcases slotWord_eq_ok facts word hword with ⟨_, hnone⟩ | ⟨_, hex, _, hsome⟩
  · rw [hnone]
    rfl
  · rw [hsome, membersWithoutWords, if_pos rfl]
    rfl

mutual

/-- Without its words, an exported node lists the known facts. -/
theorem withoutWords_export : ∀ (t : TypeReference) (v : Json), exportNode t = .ok v →
    withoutWords v = t.toJson
  | .node facts none, v, h => by
    rw [exportNode] at h
    rcases (bind_eq_ok _ _ _).mp h with ⟨word, hword, h⟩
    cases h
    rw [withoutWords, membersWithoutWords_append, membersWithoutWords_members,
      membersWithoutWords_word facts word hword, List.append_nil, TypeReference.toJson]
  | .node facts (some children), v, h => by
    rw [exportNode] at h
    rcases (bind_eq_ok _ _ _).mp h with ⟨word, hword, h⟩
    rcases (bind_eq_ok _ _ _).mp h with ⟨exported, hexported, h⟩
    cases h
    -- The member with the children is the only one that changes: the words go from it as well.
    have hbelow : membersWithoutWords [("sub_type", .arr exported)]
        = [("sub_type", .arr (TypeReference.forestToJson children))] := by
      rw [membersWithoutWords, if_neg (by decide), if_pos rfl, childrenWithoutWords,
        itemsWithoutWords_export children exported hexported]
      rfl
    rw [withoutWords, membersWithoutWords_append, membersWithoutWords_append,
      membersWithoutWords_members, membersWithoutWords_word facts word hword, hbelow,
      List.append_nil, TypeReference.toJson]

/-- Without its words, an export lists the known facts of all nodes. -/
theorem itemsWithoutWords_export : ∀ (forest : List TypeReference) (exported : List Json),
    exportForest forest = .ok exported →
      itemsWithoutWords exported = TypeReference.forestToJson forest
  | [], _, h => by
    cases h
    rfl
  | t :: rest, exported, h => by
    rw [exportForest] at h
    rcases (bind_eq_ok _ _ _).mp h with ⟨first, hfirst, h⟩
    rcases (bind_eq_ok _ _ _).mp h with ⟨others, hothers, h⟩
    cases h
    rw [itemsWithoutWords, withoutWords_export t first hfirst,
      itemsWithoutWords_export rest others hothers, TypeReference.forestToJson]

end

/-- The facts of a node are read back, whatever comes after them. -/
theorem ofMembers_append (facts : Facts) (others : Record)
    (h : ∀ name ∈ factNames, others.find? name = none) :
    Facts.ofMembers (facts.members ++ others) = facts := by
  have hget : ∀ name v, name ∈ factNames → Assoc.find? name facts.named = some v →
      Record.get (facts.members ++ others) name = v := by
    intro name v hname hv
    rw [Record.get, Assoc.find?_append, h name hname, Option.or_none, find?_members, hv]
    -- A fact that is not known is left out, and what is absent is null.
    cases v <;> rfl
  unfold Facts.ofMembers
  rw [hget "name" _ (by decide) rfl, hget "type" _ (by decide) rfl,
    hget "type_name" _ (by decide) rfl, hget "id" _ (by decide) rfl,
    hget "visibility" _ (by decide) rfl, hget "slot" _ (by decide) rfl,
    hget "offset" _ (by decide) rfl, hget "length" _ (by decide) rfl,
    hget "key_type" _ (by decide) rfl]

/-- The children of a node stand after its facts. -/
theorem subTypeOf?_members (facts : Facts) (others : List (String × Json)) :
    subTypeOf? (facts.members ++ others) = subTypeOf? others := by
  have hnames := name_mem_factNames facts
  -- Which facts are present does not matter, only that none of them has the name of the children.
  generalize facts.members = members at hnames
  induction members with
  | nil => rfl
  | cons m rest ih =>
      rcases m with ⟨name, v⟩
      have hname : name ∈ factNames := hnames _ List.mem_cons_self
      have hsub : name ≠ "sub_type" := fun h => absurd (h ▸ hname) (by decide)
      rw [List.cons_append, subTypeOf?, if_neg hsub,
        ih fun m hm => hnames m (List.mem_cons_of_mem _ hm)]

mutual

/-- The known facts of a node and of those below it are enough to read the node back. -/
theorem nodeOfJson?_toJson : ∀ t : TypeReference, nodeOfJson? t.toJson = some t
  | .node facts none => by
    have hsub := subTypeOf?_members facts []
    -- The children stand behind the facts, and no fact is read from them.
    have hfacts := ofMembers_append facts [] fun _ _ => rfl
    rw [List.append_nil] at hsub hfacts
    rw [TypeReference.toJson, nodeOfJson?, hsub, hfacts]
    rfl
  | .node facts (some children) => by
    have hfacts := ofMembers_append facts
      [("sub_type", .arr (TypeReference.forestToJson children))] fun name hname =>
        find?_childrenMember (some _) name fun h => absurd (h ▸ hname) (by decide)
    rw [TypeReference.toJson, nodeOfJson?, subTypeOf?_members, subTypeOf?, if_pos rfl,
      childrenOfJson?, forestOfJson?_forestToJson children, hfacts]
    rfl

/-- The known facts of all nodes are enough to read a layout back. -/
theorem forestOfJson?_forestToJson : ∀ forest : List TypeReference,
    forestOfJson? (TypeReference.forestToJson forest) = some forest
  | [] => rfl
  | t :: rest => by
    rw [TypeReference.forestToJson, forestOfJson?, nodeOfJson?_toJson t,
      forestOfJson?_forestToJson rest]
    rfl

end

/-! ## Exports that are equal as data -/

theorem sameMembers_iff (xs : List (String × Json)) (ys : Record) :
    Json.sameMembers xs ys = true ↔
      ∀ m ∈ xs, ∃ w, ys.find? m.1 = some w ∧ m.2.same w = true := by
  induction xs with
  | nil => exact ⟨fun _ m hm => absurd hm List.not_mem_nil, fun _ => rfl⟩
  | cons m rest ih =>
      rcases m with ⟨name, v⟩
      rw [Json.sameMembers, Bool.and_eq_true, ih, List.forall_mem_cons]
      refine and_congr_left fun _ => ?_
      cases ys.find? name with
      | none => simp
      | some w => simp

/-- In objects that are equal as data, the same names lead to members that are equal as data. -/
theorem find?_of_same (xs ys : Record) (hxs : xs.keys.Nodup)
    (h : (Json.obj xs).same (.obj ys) = true) (name : String) :
    Option.Rel (fun v w => Json.same v w = true) (xs.find? name) (ys.find? name) := by
  rw [Json.same, Bool.and_eq_true, beq_iff_eq, sameMembers_iff] at h
  rcases h with ⟨hlength, hmembers⟩
  have hsubset : xs.keys ⊆ ys.keys := by
    intro k hk
    rcases List.mem_map.mp hk with ⟨m, hm, hkey⟩
    rcases hmembers m hm with ⟨w, hw, _⟩
    exact (Assoc.mem_keys_iff k ys).mpr ⟨w, hkey ▸ hw⟩
  -- There are as many names in both objects, so none is left over in the second.
  have hperm : xs.keys.Perm ys.keys := by
    refine (List.subperm_of_subset hxs hsubset).perm_of_length_le ?_
    rw [Assoc.keys, Assoc.keys, List.length_map, List.length_map]
    omega
  cases hx : xs.find? name with
  | some v =>
      rcases hmembers (name, v) (Assoc.find?_mem name v xs hx) with ⟨w, hw, hvw⟩
      rw [hw]
      exact .some hvw
  | none =>
      cases hy : ys.find? name with
      | none => exact .none
      | some w =>
          have hmem := hperm.mem_iff.mpr ((Assoc.mem_keys_iff name ys).mpr ⟨w, hy⟩)
          rcases (Assoc.mem_keys_iff name xs).mp hmem with ⟨v, hv⟩
          rw [hx] at hv
          cases hv

theorem get_of_same (xs ys : Record) (name : String)
    (h : Option.Rel (fun v w => Json.same v w = true) (xs.find? name) (ys.find? name)) :
    (xs.get name).same (ys.get name) = true := by
  unfold Record.get
  generalize xs.find? name = v at h
  generalize ys.find? name = w at h
  cases h with
  | none => rfl
  | some hvw => exact hvw

/-- The facts of a node are read back from its export. -/
theorem ofMembers_exported (facts : Facts) (children : Option (List Json)) (word : Record)
    (hword : slotWord facts = .ok word) :
    Facts.ofMembers (exportedMembers facts children word) = facts := by
  rw [exportedMembers, List.append_assoc]
  refine ofMembers_append facts _ fun name hname => ?_
  have hsub : name ≠ "sub_type" := fun h => absurd (h ▸ hname) (by decide)
  have hhex : name ≠ "slot_hex" := fun h => absurd (h ▸ hname) (by decide)
  rw [Assoc.find?_append, find?_childrenMember children name hsub,
    find?_word facts word hword name hhex]
  rfl

/-- Two exported nodes that are equal as data have facts that are equal as data, and children that
are, too. -/
theorem parts_of_same (a b : Facts) (children children' : Option (List Json)) (word word' : Record)
    (hword : slotWord a = .ok word) (hword' : slotWord b = .ok word')
    (h : (Json.obj (exportedMembers a children word)).same
      (.obj (exportedMembers b children' word')) = true) :
    a.same b = true ∧ Option.Rel (fun xs ys => Json.sameItems xs ys = true) children children' := by
  -- Equal objects may list their members in any order, hence everything goes over the look-up of a
  -- name.
  have hfound := find?_of_same _ _ (keys_exported a children word hword) h
  have hchildren : ∀ (f : Facts) (c : Option (List Json)) (w : Record), slotWord f = .ok w →
      Assoc.find? "sub_type" (exportedMembers f c w) = c.map .arr := by
    intro f c w hw
    rw [find?_exported, find?_members_eq_none f _ (by decide), find?_word f w hw _ (by decide),
      Option.none_or, Option.or_none]
    cases c <;> rfl
  constructor
  · rw [← ofMembers_exported a children word hword, ← ofMembers_exported b children' word' hword',
      Facts.same]
    simp only [Bool.and_eq_true]
    refine ⟨⟨⟨⟨⟨⟨⟨⟨?_, ?_⟩, ?_⟩, ?_⟩, ?_⟩, ?_⟩, ?_⟩, ?_⟩, ?_⟩ <;> exact get_of_same _ _ _ (hfound _)
  · have hsub := hfound "sub_type"
    rw [hchildren a children word hword, hchildren b children' word' hword'] at hsub
    cases children with
    | none =>
        cases children' with
        | none => exact .none
        | some _ => cases hsub
    | some xs =>
        cases children' with
        | none => cases hsub
        | some ys =>
            cases hsub with
            | some hxy => exact .some hxy

mutual

/-- Nodes whose exports are equal as data are equal as data. -/
theorem same_of_exportNode : ∀ (t u : TypeReference) (v w : Json), exportNode t = .ok v →
    exportNode u = .ok w → v.same w = true → t.same u = true
  | .node a none, .node b sub, v, w, hv, hw, h => by
    rcases exportNode_eq_ok a none v hv with ⟨word, children, hword, hmembers, hbelow⟩
    rcases exportNode_eq_ok b sub w hw with ⟨word', children', hword', hmembers', hbelow'⟩
    rw [hmembers, hmembers'] at h
    rcases parts_of_same a b children children' word word' hword hword' h with ⟨hfacts, hchildren⟩
    -- The export has children exactly when the node has some.
    cases hchildren with
    | some _ => exact absurd hbelow id
    | none =>
        cases sub with
        | some _ => exact absurd hbelow' id
        | none =>
            rw [TypeReference.same]
            exact hfacts
  | .node a (some xs), .node b sub, v, w, hv, hw, h => by
    rcases exportNode_eq_ok a (some xs) v hv with ⟨word, children, hword, hmembers, hbelow⟩
    rcases exportNode_eq_ok b sub w hw with ⟨word', children', hword', hmembers', hbelow'⟩
    rw [hmembers, hmembers'] at h
    rcases parts_of_same a b children children' word word' hword hword' h with ⟨hfacts, hchildren⟩
    cases hchildren with
    | none => exact absurd hbelow id
    | some hitems =>
        cases sub with
        | none => exact absurd hbelow' id
        | some ys =>
            rw [TypeReference.same, Bool.and_eq_true]
            exact ⟨hfacts, same_of_export xs ys _ _ hbelow hbelow' hitems⟩

/-- Layouts whose exports are equal as data are equal as data. -/
theorem same_of_export : ∀ (xs ys : List TypeReference) (vs ws : List Json),
    exportForest xs = .ok vs → exportForest ys = .ok ws → Json.sameItems vs ws = true →
      TypeReference.sameForest xs ys = true
  | [], ys, vs, ws, hvs, hws, h => by
    cases hvs
    cases ys with
    | nil => rfl
    | cons u rest =>
        rw [exportForest] at hws
        rcases (bind_eq_ok _ _ _).mp hws with ⟨first, _, hws⟩
        rcases (bind_eq_ok _ _ _).mp hws with ⟨others, _, hws⟩
        cases hws
        cases h
  | t :: rest, ys, vs, ws, hvs, hws, h => by
    rw [exportForest] at hvs
    rcases (bind_eq_ok _ _ _).mp hvs with ⟨first, hfirst, hvs⟩
    rcases (bind_eq_ok _ _ _).mp hvs with ⟨others, hothers, hvs⟩
    cases hvs
    -- Lists of different lengths have exports of different lengths.
    cases ys with
    | nil =>
        cases hws
        cases h
    | cons u rest' =>
        rw [exportForest] at hws
        rcases (bind_eq_ok _ _ _).mp hws with ⟨first', hfirst', hws⟩
        rcases (bind_eq_ok _ _ _).mp hws with ⟨others', hothers', hws⟩
        cases hws
        rw [Json.sameItems, Bool.and_eq_true] at h
        rw [TypeReference.sameForest, Bool.and_eq_true]
        exact ⟨same_of_exportNode t u first first' hfirst hfirst' h.1,
          same_of_export rest rest' others others' hothers hothers' h.2⟩

end

/-- The export of a layout loses nothing.

Let all slots of a layout be whole numbers, as far as there are any. If none is negative, there is an
export. At every depth it has an object with a word exactly where there is a slot, and the word is
that of the slot. Without the words the layout can be read back from it, and no other layout has
this export, even if exports are only compared as data. If there is a negative slot, there is no
export, and the first one in the order of the tree is complained about. The complaint holds this
slot, so if the slot cannot be written, then this is what has failed. -/
theorem exportForest_keeps (forest : List TypeReference)
    (hslots : ∀ slot ∈ forestSlots forest, IsSlot slot) :
    ((∀ slot ∈ forestSlots forest, ¬ IsNegativeSlot slot) →
      ∃ exported, exportForest forest = .ok exported ∧
        (∀ v, Exported exported v → HasItsWord v) ∧
        forestOfJson? (itemsWithoutWords exported) = some forest ∧
        ∀ other exported', exportForest other = .ok exported' →
          (exported = exported' → forest = other) ∧
          (Json.sameItems exported exported' = true →
            TypeReference.sameForest forest other = true)) ∧
    ((∃ slot ∈ forestSlots forest, IsNegativeSlot slot) →
      ∃ before slot after, forestSlots forest = before ++ slot :: after ∧
        (∀ s ∈ before, ¬ IsNegativeSlot s) ∧ IsNegativeSlot slot ∧
        (slot.isShowable = true → exportForest forest = .error (.negativeSlot slot)) ∧
        (slot.isShowable = false → exportForest forest = Defect.badContent.fail)) := by
  -- Nothing is lost: without the words the export is the layout in the form of JSON, and from that
  -- the nodes can be read back. All that follows for two layouts rests on it.
  have hread : ∀ layout exported, exportForest layout = .ok exported →
      forestOfJson? (itemsWithoutWords exported) = some layout := by
    intro layout exported hexported
    rw [itemsWithoutWords_export layout exported hexported, forestOfJson?_forestToJson]
  -- Either no slot is negative and there is an export, or the first negative one ends it.
  rcases exportForest_meets forest hslots with
    ⟨hnone, exported, hexported⟩ | ⟨before, slot, after, hsplit, hbefore, hslot, herror⟩
  · refine ⟨fun _ => ⟨exported, hexported, fun v hv => ?_, hread forest exported hexported,
      fun other exported' hother => ⟨fun heq => ?_, same_of_export _ _ _ _ hexported hother⟩⟩, ?_⟩
    · rcases export_of_exported forest exported hexported v hv with ⟨t, ht⟩
      exact hasItsWord_of_export t v ht
    · have hsame := hread other exported' hother
      rw [← heq, hread forest exported hexported] at hsame
      injection hsame
    · rintro ⟨slot, hmem, hneg⟩
      exact absurd hneg (hnone slot hmem)
  · refine ⟨fun hnone => ?_, fun _ => ⟨before, slot, after, hsplit, hbefore, hslot,
      fun hshown => herror.trans (Error.raise_of_isSayable _ hshown),
      fun hlong => herror.trans (Error.raise_of_not_isSayable _ hlong)⟩⟩
    -- This slot refutes the assumption of the first part.
    have hmem : slot ∈ forestSlots forest := by
      rw [hsplit]
      exact List.mem_append_right _ List.mem_cons_self
    exact absurd hslot (hnone slot hmem)

/-- A layout with a node without a name and a list of children that is empty. -/
def vaultForest : List TypeReference :=
  let count : Facts := { name := .str "count", type := .str "t_uint8", typeName := .str "uint8" }
  let bounds : Facts :=
    { name := .null, type := .str "t_array", typeName := .str "array", slot := .int 300,
      length := .int 2 }
  let owners : Facts :=
    { name := .str "owners", type := .str "t_mapping", typeName := .str "mapping", slot := .int 0,
      offset := .int 0, keyType := .str "t_address" }
  [.node owners (some [.node bounds (some []), .node count none])]

/-- A layout with two slots that have no word. -/
def sunkenForest : List TypeReference :=
  let facts (slot : Int) : Facts :=
    { name := .str "deck", type := .str "t_bool", typeName := .str "bool", slot := .int slot }
  [.node (facts 3) (some [.node (facts (-2)) none]), .node (facts (-1)) none]

/-- The first layout is read back, and the second one is not exported because of its first negative
slot. -/
theorem exportForest_keeps_vault :
    (∃ exported, exportForest vaultForest = .ok exported ∧
      forestOfJson? (itemsWithoutWords exported) = some vaultForest) ∧
    ∃ before after, forestSlots sunkenForest = before ++ .int (-2) :: after ∧
      (∀ s ∈ before, ¬ IsNegativeSlot s) ∧
      exportForest sunkenForest = .error (.negativeSlot (.int (-2))) := by
  have hvault : ∀ slot ∈ forestSlots vaultForest, IsSlot slot ∧ ¬ IsNegativeSlot slot := by
    intro slot hslot
    have hslots : slot ∈ [.int 0, .int 300, .null] := hslot
    simp only [List.mem_cons, List.not_mem_nil, or_false] at hslots
    rcases hslots with h | h | h <;> rw [h]
    · exact ⟨Or.inr (Or.inl ⟨0, rfl⟩), by rintro ⟨n, hn, heq⟩; cases heq; omega⟩
    · exact ⟨Or.inr (Or.inl ⟨300, rfl⟩), by rintro ⟨n, hn, heq⟩; cases heq; omega⟩
    · exact ⟨Or.inl rfl, by rintro ⟨n, hn, heq⟩; cases heq⟩
  have hsunken : ∀ slot ∈ forestSlots sunkenForest, IsSlot slot := by
    intro slot hslot
    have hslots : slot ∈ [.int 3, .int (-2), .int (-1)] := hslot
    simp only [List.mem_cons, List.not_mem_nil, or_false] at hslots
    rcases hslots with h | h | h <;> exact Or.inr (Or.inl ⟨_, h⟩)
  have hfails : exportForest sunkenForest = .error (.negativeSlot (.int (-2))) :=
    Error.raise_of_isSayable _ (Json.isShowable_int (-2) (by decide))
  rcases (exportForest_keeps vaultForest fun slot h => (hvault slot h).1).1
    (fun slot h => (hvault slot h).2) with ⟨exported, hexported, _, hread, _⟩
  rcases (exportForest_keeps sunkenForest hsunken).2
    ⟨.int (-1), List.mem_cons_of_mem _ (List.mem_cons_of_mem _ List.mem_cons_self), -1, by decide,
      rfl⟩ with ⟨before, slot, after, hsplit, hbefore, _, hnamed, hunnamed⟩
  -- The two parts name one error each, and the run of the program says which of them it was.
  cases hshown : slot.isShowable with
  | true =>
      have herror := hnamed hshown
      rw [hfails] at herror
      cases herror
      exact ⟨⟨exported, hexported, hread⟩, before, after, hsplit, hbefore, hfails⟩
  | false =>
      have herror := hunnamed hshown
      rw [hfails] at herror
      cases herror

/-- A layout with one node, of which the id and the slot are given. -/
def single (id slot : Json) : List TypeReference :=
  [.node { name := .str "x", type := .str "t_bool", typeName := .str "bool", id, slot } none]

/-- A node by itself is refused if its slot is negative. -/
theorem exportForest_single (n : Int) (h : n < 0) :
    exportForest (single .null (.int n)) = (Error.negativeSlot (.int n)).raise := by
  have hword : Slot.hexOfValue (.int n) = (Error.negativeSlot (.int n)).raise := by
    rw [Slot.hexOfValue, if_pos h]
  rw [single, exportForest, exportNode, slotWord,
    if_neg (show ¬ (Json.int n).isNull = true from Bool.false_ne_true), hword]
  rfl

/-- Two things that an export does not do. A negative slot of too many digits is not named, because
the complaint cannot be written. And an object that is the id of a node gets no word for a slot of
its own. -/
theorem exportForest_exceptions :
    exportForest (single .null (.int (-Text.leastTooLong))) = Defect.badContent.fail ∧
      exportForest (single (.obj [("slot", .int 5)]) .null)
        = .ok [.obj [("name", .str "x"), ("type", .str "t_bool"), ("type_name", .str "bool"),
            ("id", .obj [("slot", .int 5)])]] := by
  have hlong : (Json.int (-Text.leastTooLong)).isShowable = false :=
    Json.isShowable_tooLong _ (Nat.le_of_eq (by rw [Int.natAbs_neg, Int.natAbs_natCast]))
  have hnegative : -(Text.leastTooLong : Int) < 0 := by
    have hpos := Text.leastTooLong_pos
    omega
  exact ⟨(exportForest_single _ hnegative).trans (Error.raise_of_not_isSayable _ hlong), rfl⟩

end StorageLayout
