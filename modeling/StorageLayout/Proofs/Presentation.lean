import StorageLayout.Proofs.Readback

/-!
# The Tree and the Export of a Layout

The tree that is shown with the words of slots says what the export says, line by line.

The two are made by two recursions over the same layout. One makes lines and goes two columns to the
right for the children of a node, the other makes objects, leaves out what is not known and puts the
children into a member. Both need the words of slots, and both look at a node before what is below
it. So they complain about the same slot, if they complain at all, and otherwise there is one line
for each object, and the line can be read off the object and its depth (`textOf`): the place is the
word and the offset if the object has a word, the id if it has one, or nothing. The whole tree is
therefore a function of the export (`renderForest_eq`).

A line also needs its texts to be written, which the export leaves to the printer. An integer of too
many digits cannot be, so the nodes must not show one (`IsShown`).

## Main definitions

* `nodesOf`: The nodes of a layout with their depths, parents before children.
* `objectsOf`: The objects of an export with their depths, parents before children.
* `placeIn`, `textOf`: The place in a line, and a line, as its object tells it.
* `IsShown`: What a line shows of a node can be written.

## Theorems

* `forestSlots_eq`: The slots of a layout are those of its nodes.
* `line_exported`, `line_of_slotWord_error`: The line of a node by its export.
* `renderNode_eq`, `renderForest_eq`: The lines of a layout by its export.
* `objectsOf_export`: The objects of an export are the exports of the nodes.
-/

namespace StorageLayout

mutual

/-- A node and the nodes below it with their depths, parents before children. -/
def nodesWithin (depth : Nat) : TypeReference → List (Nat × TypeReference)
  | .node facts none => [(depth, .node facts none)]
  | .node facts (some children) =>
      (depth, .node facts (some children)) :: nodesOf (depth + 1) children

/-- The nodes of a layout with their depths, parents before children. -/
def nodesOf (depth : Nat) : List TypeReference → List (Nat × TypeReference)
  | [] => []
  | t :: rest => nodesWithin depth t ++ nodesOf depth rest

end

mutual

/-- An object and the objects below it with their depths, parents before children. -/
def objectsWithin (depth : Nat) : Json → List (Nat × Record)
  | .obj members => (depth, members) :: objectsOfMembers (depth + 1) members
  | _ => []

/-- The objects in the children of an object. -/
def objectsOfMembers (depth : Nat) : List (String × Json) → List (Nat × Record)
  | [] => []
  | (name, v) :: rest =>
      if name = "sub_type" then objectsOfChildren depth v else objectsOfMembers depth rest

def objectsOfChildren (depth : Nat) : Json → List (Nat × Record)
  | .arr items => objectsOf depth items
  | _ => []

/-- The objects of an export with their depths, parents before children. -/
def objectsOf (depth : Nat) : List Json → List (Nat × Record)
  | [] => []
  | v :: rest => objectsWithin depth v ++ objectsOf depth rest

end

/-- The place that an object tells: the word of its slot and its offset, or its id, or nothing. -/
def placeIn (object : Record) : String :=
  match object.find? "slot_hex" with
  | some word =>
      let offset := object.get "offset"
      s!"[{word.display}:{offset.display}]"
  | none =>
    match object.find? "id" with
    | some id => s!"[{id.display}]"
    | none => ""

/-- The line of an object, in a tree whose roots are indented by some columns. -/
def textOf (indent : Int) (object : Nat × Record) : String :=
  let name := (object.2.get "name").display
  let type := (object.2.get "type_name").display
  let place := placeIn object.2
  let padding := Render.padding (indent + 2 * object.1)
  s!"{padding}{Text.paint .yellow name} {place}[{Text.paint .brightMagenta type}]"

/-- What the line of a node shows besides a slot can be written: the name and the type, and the
offset of a node with a slot or the id of one without. -/
structure IsShown (facts : Facts) : Prop where
  name : facts.name.isShowable = true
  type : facts.typeName.isShowable = true
  offset : facts.slot.isNull = false → facts.offset.isShowable = true
  id : facts.slot.isNull = true → facts.id.isShowable = true

mutual

theorem nodeSlots_eq : ∀ (depth : Nat) (t : TypeReference),
    nodeSlots t = (nodesWithin depth t).map fun node => node.2.facts.slot
  | _, .node facts none => rfl
  | depth, .node facts (some children) => by
    rw [nodeSlots, nodesWithin, List.map_cons, forestSlots_eq (depth + 1) children]
    rfl

/-- The slots of a layout are those of its nodes, in the same order. -/
theorem forestSlots_eq : ∀ (depth : Nat) (forest : List TypeReference),
    forestSlots forest = (nodesOf depth forest).map fun node => node.2.facts.slot
  | _, [] => rfl
  | depth, t :: rest => by
    rw [forestSlots, nodesOf, List.map_append, nodeSlots_eq depth t, forestSlots_eq depth rest]

end

/-- An object is the export of a node, at the same depth. -/
def IsExportOf (node : Nat × TypeReference) (object : Nat × Record) : Prop :=
  node.1 = object.1 ∧ exportNode node.2 = .ok (.obj object.2)

section Line

variable (facts : Facts) (children : Option (List Json)) (word : Record)

/-- The place of a node that has been exported. -/
theorem placeOf_exported (h : IsShown facts) (hword : slotWord facts = .ok word) :
    Render.placeOf true facts = .ok (placeIn (exportedMembers facts children word)) := by
  have hid : Assoc.find? "id" (exportedMembers facts children word)
      = (some facts.id).filter fun v => !v.isNull :=
    find?_exported_fact facts children word hword "id" (by decide)
  have hoffset : Record.get (exportedMembers facts children word) "offset" = facts.offset :=
    congrArg Facts.offset (ofMembers_exported facts children word hword)
  unfold Render.placeOf placeIn
  rw [find?_exported_word, hid]
  -- Only a node with a slot has a word, so the two ways of writing a place are told apart by the
  -- one member `slot_hex`.
  rcases slotWord_eq_ok facts word hword with ⟨hnull, hnone⟩ | ⟨hnull, hex, hvalue, hsome⟩
  · rw [hnone, hnull]
    cases hidNull : facts.id.isNull with
    | true =>
        rw [Option.filter_some, hidNull]
        rfl
    | false =>
        rw [Option.filter_some, hidNull, Json.shown_of_isShowable _ (h.id hnull)]
        rfl
  · rw [hsome] at hoffset ⊢
    rw [hnull, hvalue, Json.shown_of_isShowable _ (h.offset hnull)]
    simp only [hoffset]
    rfl

/-- The line of a node that has been exported is the one of its object. -/
theorem line_exported (indent : Int) (depth : Nat) (h : IsShown facts)
    (hword : slotWord facts = .ok word) :
    Render.line true (indent + 2 * depth) facts
      = .ok (textOf indent (depth, exportedMembers facts children word)) := by
  -- The children and the word that follow the facts in the object are not among the members the
  -- line is made of.
  have hfacts := ofMembers_exported facts children word hword
  have hname : Record.get (exportedMembers facts children word) "name" = facts.name :=
    congrArg Facts.name hfacts
  have htype : Record.get (exportedMembers facts children word) "type_name" = facts.typeName :=
    congrArg Facts.typeName hfacts
  unfold Render.line textOf
  rw [placeOf_exported facts children word h hword, Json.shown_of_isShowable _ h.name,
    Json.shown_of_isShowable _ h.type]
  simp only [hname, htype]
  rfl

/-- A node whose slot has no word has no line either, and for the same reason. -/
theorem line_of_slotWord_error (indent : Int) (e : Error) (hword : slotWord facts = .error e) :
    Render.line true indent facts = .error e := by
  unfold slotWord at hword
  -- The word is computed before anything of the line is written, and it is the same word in the
  -- export.
  cases hnull : facts.slot.isNull with
  | true =>
      rw [hnull] at hword
      exact absurd hword (by simp only [if_true, reduceCtorEq, not_false_eq_true])
  | false =>
      rw [hnull] at hword
      cases hvalue : Slot.hexOfValue facts.slot with
      | ok hex =>
          rw [hvalue] at hword
          exact absurd hword (by simp only [Bool.false_eq_true, if_false]; rintro ⟨⟩)
      | error f =>
          rw [hvalue] at hword
          injection hword with hword
          unfold Render.line Render.placeOf
          rw [hnull, hvalue, hword]
          rfl

end Line

/-- Members of other names hold no objects of an export. -/
theorem objectsOfMembers_append (depth : Nat) (xs ys : List (String × Json))
    (h : ∀ m ∈ xs, m.1 ≠ "sub_type") :
    objectsOfMembers depth (xs ++ ys) = objectsOfMembers depth ys := by
  induction xs with
  | nil => rfl
  | cons m rest ih =>
      rw [List.cons_append, objectsOfMembers, if_neg (h m List.mem_cons_self)]
      exact ih fun m' hm' => h m' (List.mem_cons_of_mem m hm')

/-- Below an exported node stand the objects of its children. -/
theorem objectsOfMembers_exported (depth : Nat) (facts : Facts) (children : Option (List Json))
    (word : Record) (hword : slotWord facts = .ok word) :
    objectsOfMembers depth (exportedMembers facts children word)
      = children.elim [] (objectsOf depth) := by
  -- Of all the members only `sub_type` leads to further objects.
  have hfacts : ∀ m ∈ facts.members, m.1 ≠ "sub_type" := by
    intro m hm heq
    exact absurd (heq ▸ name_mem_factNames facts m hm) (by decide)
  have hhex : ∀ m ∈ word, m.1 ≠ "sub_type" := by
    intro m hm
    rcases slotWord_eq_ok facts word hword with ⟨_, hnone⟩ | ⟨_, hex, _, hsome⟩
    · rw [hnone] at hm
      exact absurd hm List.not_mem_nil
    · rw [hsome, List.mem_singleton] at hm
      rw [hm]
      exact (by decide : "slot_hex" ≠ "sub_type")
  rw [exportedMembers, List.append_assoc, objectsOfMembers_append depth _ _ hfacts]
  cases children with
  | none =>
      have hnil := objectsOfMembers_append depth word [] hhex
      rw [List.append_nil] at hnil
      exact hnil
  | some items =>
      change objectsOfMembers depth (("sub_type", .arr items) :: word) = _
      rw [objectsOfMembers, if_pos rfl, objectsOfChildren]
      rfl

mutual

/-- The objects of an exported node are the exports of the nodes below it, one by one. -/
theorem objectsWithin_export : ∀ (depth : Nat) (t : TypeReference) (v : Json),
    exportNode t = .ok v → List.Forall₂ IsExportOf (nodesWithin depth t) (objectsWithin depth v)
  | depth, .node facts none, v, hv => by
    rcases exportNode_eq_ok facts none v hv with ⟨word, children, hword, hmembers, hchildren⟩
    rw [hmembers] at hv ⊢
    rw [nodesWithin, objectsWithin, objectsOfMembers_exported (depth + 1) facts children word hword]
    cases children with
    | none => exact .cons ⟨rfl, hv⟩ .nil
    | some items => exact absurd hchildren id
  | depth, .node facts (some forest), v, hv => by
    rcases exportNode_eq_ok facts (some forest) v hv with
      ⟨word, children, hword, hmembers, hchildren⟩
    rw [hmembers] at hv ⊢
    rw [nodesWithin, objectsWithin, objectsOfMembers_exported (depth + 1) facts children word hword]
    cases children with
    | none => exact absurd hchildren id
    -- Node and object first, and then their children, both one level deeper.
    | some items => exact .cons ⟨rfl, hv⟩ (objectsOf_export (depth + 1) forest items hchildren)

/-- The objects of an export are the exports of the nodes of the layout, one by one. -/
theorem objectsOf_export : ∀ (depth : Nat) (forest : List TypeReference) (exported : List Json),
    exportForest forest = .ok exported →
    List.Forall₂ IsExportOf (nodesOf depth forest) (objectsOf depth exported)
  | depth, [], exported, h => by
    injection h with h
    rw [← h]
    exact .nil
  | depth, t :: rest, exported, h => by
    rw [exportForest] at h
    rcases (bind_eq_ok _ _ _).mp h with ⟨first, hfirst, h⟩
    rcases (bind_eq_ok _ _ _).mp h with ⟨others, hothers, h⟩
    injection h with h
    rw [← h, nodesOf, objectsOf]
    exact List.rel_append (objectsWithin_export depth t first hfirst)
      (objectsOf_export depth rest others hothers)

end

namespace Render

variable (indent : Int)

mutual

/-- The lines of a node are those of the objects that it is exported as, and it has none if it
cannot be exported. -/
theorem renderNode_eq : ∀ (depth : Nat) (t : TypeReference),
    (∀ node ∈ nodesWithin depth t, IsShown node.2.facts) →
    renderNode true (indent + 2 * depth) t
      = (exportNode t).map fun v => (objectsWithin depth v).map (textOf indent)
  | depth, .node facts none, h => by
    rw [nodesWithin] at h
    have hshown := h _ List.mem_cons_self
    rw [renderNode, exportNode]
    cases hword : slotWord facts with
    | error e =>
        rw [line_of_slotWord_error facts _ e hword]
        rfl
    | ok word =>
        have hbelow := objectsOfMembers_exported (depth + 1) facts none word hword
        rw [exportedMembers, childrenMember, List.append_nil] at hbelow
        have hline := line_exported facts none word indent depth hshown hword
        rw [exportedMembers, childrenMember, List.append_nil] at hline
        rw [hline, ok_bind, ok_bind]
        change _ = Except.ok
          ((objectsWithin depth (.obj (facts.members ++ word))).map (textOf indent))
        rw [objectsWithin, hbelow]
        rfl
  | depth, .node facts (some children), h => by
    rw [nodesWithin] at h
    have hshown := h _ List.mem_cons_self
    have hforest := renderForest_eq (depth + 1) children
      fun node hnode => h node (List.mem_cons_of_mem _ hnode)
    have hindent : indent + 2 * ((depth + 1 : Nat) : Int) = indent + 2 * depth + 2 := by omega
    rw [hindent] at hforest
    rw [renderNode, exportNode, hforest]
    cases hword : slotWord facts with
    | error e =>
        -- Nothing below is looked at.
        rw [line_of_slotWord_error facts _ e hword]
        rfl
    | ok word =>
        cases hexported : exportForest children with
        | error e =>
            rw [line_exported facts none word indent depth hshown hword]
            rfl
        | ok items =>
            have hbelow := objectsOfMembers_exported (depth + 1) facts (some items) word hword
            rw [line_exported facts (some items) word indent depth hshown hword]
            change Except.ok (_ :: (objectsOf (depth + 1) items).map (textOf indent))
              = Except.ok ((objectsWithin depth
                  (.obj (exportedMembers facts (some items) word))).map (textOf indent))
            rw [objectsWithin, hbelow]
            rfl

/-- The lines of a layout are those of the objects that it is exported as. -/
theorem renderForest_eq : ∀ (depth : Nat) (forest : List TypeReference),
    (∀ node ∈ nodesOf depth forest, IsShown node.2.facts) →
    renderForest true (indent + 2 * depth) forest
      = (exportForest forest).map fun vs => (objectsOf depth vs).map (textOf indent)
  | depth, [], _ => rfl
  | depth, t :: rest, h => by
    rw [nodesOf] at h
    rw [renderForest, exportForest,
      renderNode_eq depth t fun node hnode => h node (List.mem_append_left _ hnode),
      renderForest_eq depth rest fun node hnode => h node (List.mem_append_right _ hnode)]
    -- The two walks fail at the same node: the first whose word cannot be made.
    cases exportNode t with
    | error e => rfl
    | ok v =>
        cases exportForest rest with
        | error e => rfl
        | ok vs =>
            change Except.ok ((objectsWithin depth v).map (textOf indent)
              ++ (objectsOf depth vs).map (textOf indent))
              = Except.ok ((objectsWithin depth v ++ objectsOf depth vs).map (textOf indent))
            rw [List.map_append]

end

/-- The line of a node without words. -/
theorem line_of_isShown (facts : Facts) (h : IsShown facts) (hslot : facts.slot.isShowable = true) :
    ∃ text, line false indent facts = .ok text := by
  have hplace : ∃ place, placeOf false facts = .ok place := by
    unfold placeOf
    -- With the slots as they are no word is made, so that a negative slot is no failure here.
    cases hnull : facts.slot.isNull with
    | true =>
        cases hidNull : facts.id.isNull with
        | true => exact ⟨_, rfl⟩
        | false =>
            rw [Json.shown_of_isShowable _ (h.id hnull)]
            exact ⟨_, rfl⟩
    | false =>
        rw [Json.shown_of_isShowable _ hslot, Json.shown_of_isShowable _ (h.offset hnull)]
        exact ⟨_, rfl⟩
  rcases hplace with ⟨place, hplace⟩
  rw [line, hplace, Json.shown_of_isShowable _ h.name, Json.shown_of_isShowable _ h.type]
  exact ⟨_, rfl⟩

mutual

/-- A node has its lines if it and all nodes below it have one each. -/
theorem renderNode_of_lines (hexSlots : Bool) : ∀ (indent : Int) (depth : Nat) (t : TypeReference),
    (∀ node ∈ nodesWithin depth t, ∀ indent,
      ∃ text, line hexSlots indent node.2.facts = .ok text) →
    ∃ lines, renderNode hexSlots indent t = .ok lines
  | indent, depth, .node facts none, h => by
    rw [nodesWithin] at h
    -- The line of a node has to exist at any number of columns, because the children are written
    -- two further in.
    rcases h _ List.mem_cons_self indent with ⟨own, hown⟩
    change line hexSlots indent facts = .ok own at hown
    rw [renderNode, hown]
    exact ⟨_, rfl⟩
  | indent, depth, .node facts (some children), h => by
    rw [nodesWithin] at h
    rcases h _ List.mem_cons_self indent with ⟨own, hown⟩
    rcases renderForest_of_lines hexSlots (indent + 2) (depth + 1) children
      fun node hnode => h node (List.mem_cons_of_mem _ hnode) with ⟨below, hbelow⟩
    change line hexSlots indent facts = .ok own at hown
    rw [renderNode, hown, hbelow]
    exact ⟨_, rfl⟩

/-- A layout has its lines if all nodes have one each. -/
theorem renderForest_of_lines (hexSlots : Bool) : ∀ (indent : Int) (depth : Nat)
    (forest : List TypeReference),
    (∀ node ∈ nodesOf depth forest, ∀ indent,
      ∃ text, line hexSlots indent node.2.facts = .ok text) →
    ∃ lines, renderForest hexSlots indent forest = .ok lines
  | _, _, [], _ => ⟨[], rfl⟩
  | indent, depth, t :: rest, h => by
    rw [nodesOf] at h
    rcases renderNode_of_lines hexSlots indent depth t
      fun node hnode => h node (List.mem_append_left _ hnode) with ⟨lines, hlines⟩
    rcases renderForest_of_lines hexSlots indent depth rest
      fun node hnode => h node (List.mem_append_right _ hnode) with ⟨more, hmore⟩
    rw [renderForest, hlines, hmore]
    exact ⟨_, rfl⟩

end

/-- With columns that can be asked for, the tree is that of the layout. -/
theorem renderFrom_eq (hexSlots : Bool) (layout : List TypeReference)
    (h : -wordBound ≤ indent ∧ indent < wordBound) :
    renderFrom hexSlots (.int indent) layout = renderForest hexSlots indent layout := by
  unfold renderFrom
  rw [columns, if_pos h]
  cases layout with
  | nil => rfl
  | cons t rest => rfl

end Render

/-- The tree with the words of slots and the export of a layout agree.

The tree is made of the export, one line for each object: there is a tree exactly if there is an
export, and otherwise both end in the same error, the one of the first negative slot. The objects
stand for the nodes of the layout, one by one and at the same depths. Without the words, there is
always a tree if the slots can be written as they are. -/
theorem renderFrom_export (layout : List TypeReference) (indent : Int)
    (hindent : -Render.wordBound ≤ indent ∧ indent < Render.wordBound)
    (hslots : ∀ node ∈ nodesOf 0 layout, IsSlot node.2.facts.slot)
    (hshown : ∀ node ∈ nodesOf 0 layout, IsShown node.2.facts) :
    Render.renderFrom true (.int indent) layout
        = (exportForest layout).map (fun objects => (objectsOf 0 objects).map (textOf indent)) ∧
      Meets ((nodesOf 0 layout).map fun node => node.2.facts.slot) (exportForest layout) ∧
      (∀ objects, exportForest layout = .ok objects →
        List.Forall₂ IsExportOf (nodesOf 0 layout) (objectsOf 0 objects)) ∧
      ((∀ node ∈ nodesOf 0 layout, node.2.facts.slot.isShowable = true) →
        ∃ lines, Render.renderFrom false (.int indent) layout = .ok lines) := by
  refine ⟨?_, ?_, ?_, ?_⟩
  · have hlines := Render.renderForest_eq indent 0 layout hshown
    have hzero : indent + 2 * ((0 : Nat) : Int) = indent := by omega
    rw [hzero] at hlines
    rw [Render.renderFrom_eq indent true layout hindent, hlines]
  · rw [← forestSlots_eq 0 layout]
    refine exportForest_meets layout fun slot hslot => ?_
    rw [forestSlots_eq 0 layout] at hslot
    rcases List.mem_map.mp hslot with ⟨node, hnode, hslot⟩
    rw [← hslot]
    exact hslots node hnode
  · exact fun objects h => objectsOf_export 0 layout objects h
  · -- Without the words the export has no part in it: that every line can be written is enough.
    intro hwritten
    rw [Render.renderFrom_eq indent false layout hindent]
    refine Render.renderForest_of_lines false indent 0 layout fun node hnode indent => ?_
    exact Render.line_of_isShown indent node.2.facts (hshown node hnode) (hwritten node hnode)

/-- The places in the tree of a layout with all three kinds of place. For a layout with negative
slots there is no tree with words, but one without. -/
theorem renderFrom_export_vault :
    (∃ objects, exportForest vaultForest = .ok objects ∧
      Render.renderFrom true (.int 2) vaultForest = .ok ((objectsOf 0 objects).map (textOf 2)) ∧
      (objectsOf 0 objects).map (fun object => (object.1, placeIn object.2)) =
        [(0, "[0x0000000000000000000000000000000000000000000000000000000000000000:0]"),
          (1, "[0x000000000000000000000000000000000000000000000000000000000000012c:None]"),
          (1, "")]) ∧
    Render.renderFrom true (.int 0) sunkenForest = .error (.negativeSlot (.int (-2))) ∧
    ∃ lines, Render.renderFrom false (.int 0) sunkenForest = .ok lines := by
  have hvault : ∀ node ∈ nodesOf 0 vaultForest, IsSlot node.2.facts.slot ∧
      IsShown node.2.facts := by
    intro node hnode
    simp only [vaultForest, nodesOf, nodesWithin, List.append_nil, List.cons_append,
      List.nil_append, List.mem_cons, List.not_mem_nil, or_false] at hnode
    rcases hnode with h | h | h <;> rw [h]
    · exact ⟨.inr (.inl ⟨0, rfl⟩), rfl, rfl, fun _ => Json.isShowable_int 0 (by decide), fun _ => rfl⟩
    · exact ⟨.inr (.inl ⟨300, rfl⟩), rfl, rfl, fun _ => rfl, fun _ => rfl⟩
    · exact ⟨.inl rfl, rfl, rfl, fun _ => rfl, fun _ => rfl⟩
  have hsunken : ∀ node ∈ nodesOf 0 sunkenForest, IsSlot node.2.facts.slot ∧
      IsShown node.2.facts ∧ node.2.facts.slot.isShowable = true := by
    intro node hnode
    simp only [sunkenForest, nodesOf, nodesWithin, List.append_nil, List.cons_append,
      List.nil_append, List.mem_cons, List.not_mem_nil, or_false] at hnode
    rcases hnode with h | h | h <;> rw [h]
    · exact ⟨.inr (.inl ⟨3, rfl⟩), ⟨rfl, rfl, fun _ => rfl, fun _ => rfl⟩,
        Json.isShowable_int 3 (by decide)⟩
    · exact ⟨.inr (.inl ⟨-2, rfl⟩), ⟨rfl, rfl, fun _ => rfl, fun _ => rfl⟩,
        Json.isShowable_int (-2) (by decide)⟩
    · exact ⟨.inr (.inl ⟨-1, rfl⟩), ⟨rfl, rfl, fun _ => rfl, fun _ => rfl⟩,
        Json.isShowable_int (-1) (by decide)⟩
  -- Three nodes: the first at slot 0, the second at a slot whose word needs two bytes, the third
  -- without a slot.
  have hexported : ∃ objects, exportForest vaultForest = .ok objects ∧
      (objectsOf 0 objects).map (fun object => (object.1, placeIn object.2)) =
        [(0, "[0x0000000000000000000000000000000000000000000000000000000000000000:0]"),
          (1, "[0x000000000000000000000000000000000000000000000000000000000000012c:None]"),
          (1, "")] := ⟨_, rfl, by with_unfolding_all rfl⟩
  rcases hexported with ⟨objects, hobjects, hplaces⟩
  have htree := (renderFrom_export vaultForest 2 (by decide) (fun node h => (hvault node h).1)
    (fun node h => (hvault node h).2)).1
  rw [hobjects] at htree
  have hsunkenTree := renderFrom_export sunkenForest 0 (by decide)
    (fun node h => (hsunken node h).1) (fun node h => (hsunken node h).2.1)
  have hfails : exportForest sunkenForest = .error (.negativeSlot (.int (-2))) :=
    Error.raise_of_isSayable _ (Json.isShowable_int (-2) (by decide))
  rw [hfails] at hsunkenTree
  exact ⟨⟨objects, hobjects, htree, hplaces⟩, hsunkenTree.1,
    hsunkenTree.2.2.2 fun node h => (hsunken node h).2.2⟩

/-- A layout with one node, of which the slot and the offset are given. -/
def placed (slot offset : Json) : List TypeReference :=
  [.node { name := .str "x", type := .str "t_bool", typeName := .str "bool", slot, offset } none]

/-- Where the place of the only node fails, the tree does. -/
theorem renderFrom_of_place_error (hexSlots : Bool) (facts : Facts) (e : Error)
    (h : Render.placeOf hexSlots facts = .error e) :
    Render.renderFrom hexSlots (.int 0) [.node facts none] = .error e := by
  have hline : Render.line hexSlots 0 facts = .error e := by
    rw [Render.line, h]
    rfl
  rw [Render.renderFrom_eq 0 hexSlots _ (by decide), Render.renderForest, Render.renderNode, hline]
  rfl

/-- A place cannot be made of an offset or, without its word, of a slot that cannot be written. -/
theorem placeOf_of_shown_error (facts : Facts) (e : Error) (hslot : facts.slot.isNull = false) :
    (∀ word, Slot.hexOfValue facts.slot = .ok word → facts.offset.shown = .error e →
      Render.placeOf true facts = .error e) ∧
    (facts.slot.shown = .error e → Render.placeOf false facts = .error e) := by
  constructor
  · intro word hword hoffset
    unfold Render.placeOf
    rw [hslot, hword, hoffset]
    rfl
  · intro hshown
    unfold Render.placeOf
    rw [hslot, hshown]
    rfl

theorem exportForest_placed (offset : Json) :
    ∃ objects, exportForest (placed (.int 0) offset) = .ok objects :=
  ⟨_, rfl⟩

/-- A layout that is exported need not have a tree: the number of columns can be one that cannot be
asked for, and an offset can have too many digits. Without the words of slots, a slot can, too. -/
theorem renderFrom_fails :
    (∃ objects, exportForest (placed (.int 0) (.int 0)) = .ok objects) ∧
      Render.renderFrom true (.int (-0x8000000000000001)) (placed (.int 0) (.int 0))
        = Defect.tooGreat.fail ∧
      (∃ objects, exportForest (placed (.int 0) (.int Text.leastTooLong)) = .ok objects) ∧
      Render.renderFrom true (.int 0) (placed (.int 0) (.int Text.leastTooLong))
        = Defect.badContent.fail ∧
      Render.renderFrom false (.int 0) (placed (.int Text.leastTooLong) (.int 0))
        = Defect.badContent.fail := by
  have hlong : (Json.int Text.leastTooLong).shown = Defect.badContent.fail := by
    rw [Json.shown, Json.isShowable_tooLong _ (Nat.le_of_eq (Int.natAbs_natCast _).symm)]
    rfl
  refine ⟨exportForest_placed _, rfl, exportForest_placed _, ?_, ?_⟩
  · exact renderFrom_of_place_error true _ _
      ((placeOf_of_shown_error _ _ rfl).1 (Slot.word 0) rfl hlong)
  · exact renderFrom_of_place_error false _ _ ((placeOf_of_shown_error _ _ rfl).2 hlong)

end StorageLayout
