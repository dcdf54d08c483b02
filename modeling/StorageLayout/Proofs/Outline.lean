import Mathlib.Data.List.TakeWhile
import StorageLayout.Proofs.Presentation

/-!
# The Outline of a Printed Tree

What the indentation of a printed tree says of the layout that it shows.

A tree is printed as a flat list of lines, one for each node, and all that is left of its branches
is how far each line is indented. That is enough. Parents come before their children and every child
stands two columns further in, so the lines below a node are those that follow it up to the next one
that is not indented further, and the children of the node are found among them in the same way. Two
layouts with the same lines have the same outline (`sameOutline_of_depths`).

For this the indentation has to be told from what follows it, and a name can begin with anything,
spaces and dashes included. It never does so on its own: a name stands in colour, and what switches
the colour on, or the dash before it, ends the spaces (`standsAt_line`).

## Main definitions

* `TypeReference.children`: The nodes below a node.
* `SameOutline`: Two layouts have the same branches, whatever their nodes say.
* `indentation`: The spaces that a line begins with.
* `IsLineOf`: A line is that of a node, and stands where the node's depth puts it.

## Theorems

* `depthsOf_cons`: The depths of a layout, with those below its first node set apart.
* `eq_of_deeper`: A list of depths is split in one way only where it stops being deeper.
* `sameOutline_of_depths`: The depths of the nodes tell the outline.
* `standsAt_line`: Where the line of a node stands.
* `renderForest_isLineOf`: There is one line for each node.
* `renderFrom_outline`: The printed tree shows the structure of the layout.
-/

namespace StorageLayout

/-! ## Depths -/

/-- The nodes below a node: none if it has no list of them. -/
def TypeReference.children (t : TypeReference) : List TypeReference := t.subType.getD []

/-- Two layouts have the same branches: as many nodes at the top, and below each of them the same
branches again. -/
inductive SameOutline : List TypeReference → List TypeReference → Prop
  | nil : SameOutline [] []
  | cons {t u : TypeReference} {rest others : List TypeReference}
      (below : SameOutline t.children u.children) (beside : SameOutline rest others) :
      SameOutline (t :: rest) (u :: others)

/-- The depths of the nodes of a layout, parents before children. -/
def depthsOf (depth : Nat) (layout : List TypeReference) : List Nat :=
  (nodesOf depth layout).map (·.1)

theorem nodesWithin_eq (depth : Nat) (t : TypeReference) :
    nodesWithin depth t = (depth, t) :: nodesOf (depth + 1) t.children := by
  rcases t with ⟨facts, children⟩
  cases children with
  | none => rfl
  | some children => rfl

theorem depthsOf_cons (depth : Nat) (t : TypeReference) (rest : List TypeReference) :
    depthsOf depth (t :: rest)
      = depth :: (depthsOf (depth + 1) t.children ++ depthsOf depth rest) := by
  rw [depthsOf, nodesOf, nodesWithin_eq, List.cons_append, List.map_cons, List.map_append]
  rfl

theorem sizeOf_children_lt (t : TypeReference) (rest : List TypeReference) :
    sizeOf t.children < sizeOf (t :: rest) := by
  rcases t with ⟨facts, children⟩
  -- A node without children counts as one with an empty list of them, which is no part of it, so
  -- its size is compared on its own.
  cases children with
  | none =>
      change sizeOf ([] : List TypeReference) < _
      simp only [List.nil.sizeOf_spec, List.cons.sizeOf_spec, TypeReference.node.sizeOf_spec]
      omega
  | some children =>
      change sizeOf children < _
      simp only [List.cons.sizeOf_spec, TypeReference.node.sizeOf_spec, Option.some.sizeOf_spec]
      omega

/-- No node is less deep than the top of its layout. -/
theorem le_of_mem_depthsOf (depth : Nat) (layout : List TypeReference) :
    ∀ d ∈ depthsOf depth layout, depth ≤ d := by
  cases layout with
  | nil => exact fun d hd => absurd hd List.not_mem_nil
  | cons t rest =>
      -- The children stand one level lower, the siblings on the same one.
      have hbelow := le_of_mem_depthsOf (depth + 1) t.children
      have hbeside := le_of_mem_depthsOf depth rest
      rw [depthsOf_cons]
      intro d hd
      rcases List.mem_cons.mp hd with hself | hd
      · rw [hself]
      · rcases List.mem_append.mp hd with hd | hd
        · have := hbelow d hd
          omega
        · exact hbeside d hd
termination_by sizeOf layout
decreasing_by
  · exact sizeOf_children_lt t rest
  · simp only [List.cons.sizeOf_spec]
    omega

/-- After the nodes below a node comes one that is as deep as the node itself, or nothing. -/
theorem takeWhile_depthsOf (depth : Nat) (layout : List TypeReference) :
    (depthsOf depth layout).takeWhile (depth < ·) = [] := by
  cases layout with
  | nil => rfl
  | cons t rest =>
      rw [depthsOf_cons]
      exact List.takeWhile_cons_of_neg (by simp only [Nat.lt_irrefl, decide_false]; decide)

/-- What is below a node is found again in the list of depths: it ends where the list stops being
deeper. -/
theorem eq_of_deeper (depth : Nat) (xs ys : List Nat) (layout : List TypeReference)
    (hxs : ∀ d ∈ xs, depth + 1 ≤ d) (hys : ys = xs ++ depthsOf depth layout) :
    ys.takeWhile (depth < ·) = xs := by
  have hdeeper : ∀ d ∈ xs, decide (depth < d) = true := fun d hd => decide_eq_true (hxs d hd)
  rw [hys, List.takeWhile_append_of_pos hdeeper, takeWhile_depthsOf, List.append_nil]

/-- The depths of the nodes tell the outline. -/
theorem sameOutline_of_depths (depth : Nat) (layout other : List TypeReference)
    (h : depthsOf depth layout = depthsOf depth other) : SameOutline layout other := by
  match layout, other with
  | [], [] => exact .nil
  | [], u :: others =>
      rw [depthsOf_cons] at h
      exact absurd h.symm (List.cons_ne_nil _ _)
  | t :: rest, [] =>
      rw [depthsOf_cons] at h
      exact absurd h (List.cons_ne_nil _ _)
  | t :: rest, u :: others =>
      rw [depthsOf_cons, depthsOf_cons] at h
      injection h with _ h
      -- Both lists of depths are split at the same place.
      have hbelow : depthsOf (depth + 1) t.children = depthsOf (depth + 1) u.children := by
        have ht := eq_of_deeper depth _ _ rest (le_of_mem_depthsOf (depth + 1) t.children) rfl
        have hu := eq_of_deeper depth _ _ others (le_of_mem_depthsOf (depth + 1) u.children) rfl
        rw [← ht, ← hu, h]
      rw [hbelow] at h
      exact .cons (sameOutline_of_depths (depth + 1) t.children u.children hbelow)
        (sameOutline_of_depths depth rest others (List.append_cancel_left h))
termination_by sizeOf layout
decreasing_by
  · exact sizeOf_children_lt t rest
  · simp only [List.cons.sizeOf_spec]
    omega

/-! ## Lines -/

/-- How far a line is indented: the spaces that it begins with. -/
def indentation (line : String) : Nat := (line.toList.takeWhile (· = ' ')).length

/-- What follows the spaces of a line: a dash, or at the margin what switches the colour of the name
on. -/
def marker (columns : Nat) : String := if columns = 0 then "\x1b[33m" else "- "

/-- A line is indented by so many columns, and its marker follows. -/
structure StandsAt (columns : Nat) (line : String) : Prop where
  indentation : indentation line = columns
  marker : (marker columns).toList <+: line.toList.drop columns

/-- A line is that of a node, and stands where the depth of the node puts it. -/
structure IsLineOf (hexSlots : Bool) (indent : Nat) (node : Nat × TypeReference) (text : String) :
    Prop where
  line : Render.line hexSlots (indent + 2 * node.1 : Nat) node.2.facts = .ok text
  stands : StandsAt (indent + 2 * node.1) text

/-- Spaces end where something else begins. -/
theorem standsAt_of_toList (columns : Nat) (c : Char) (rest : List Char) (text : String)
    (htext : text.toList = List.replicate columns ' ' ++ c :: rest) (hc : c ≠ ' ')
    (hmarker : (marker columns).toList <+: c :: rest) : StandsAt columns text := by
  have hspaces : ∀ x ∈ List.replicate columns ' ', decide (x = ' ') = true := fun x hx =>
    decide_eq_true (List.eq_of_mem_replicate hx)
  refine ⟨?_, ?_⟩
  · rw [indentation, htext, List.takeWhile_append_of_pos hspaces,
      List.takeWhile_cons_of_neg (by rw [decide_eq_true_eq]; exact hc), List.append_nil,
      List.length_replicate]
  · rw [htext, List.drop_append, List.length_replicate, Nat.sub_self,
      List.drop_eq_nil_of_le (by rw [List.length_replicate]), List.nil_append]
    exact hmarker

/-- The line of a node stands where it is put, whatever the node says. -/
theorem standsAt_line (hexSlots : Bool) (columns : Nat) (facts : Facts) (text : String)
    (h : Render.line hexSlots (columns : Nat) facts = .ok text) : StandsAt columns text := by
  rcases (bind_eq_ok _ _ _).mp h with ⟨place, _, h⟩
  rcases (bind_eq_ok _ _ _).mp h with ⟨name, _, h⟩
  rcases (bind_eq_ok _ _ _).mp h with ⟨type, _, h⟩
  injection h with h
  have hpadding : (Render.padding columns).toList = List.replicate columns ' '
      ++ (if columns = 0 then [] else ['-', ' ']) := by
    rw [Render.padding, String.toList_append, String.toList_ofList, Int.toNat_natCast]
    by_cases hzero : columns = 0
    · rw [if_pos hzero, if_pos (by omega)]
      rfl
    · rw [if_neg hzero, if_neg (by omega)]
      rfl
  -- After the padding comes the name in its colour.
  obtain ⟨rest, hrest⟩ : ∃ rest, text.toList = (Render.padding columns).toList
      ++ ("\x1b[33m".toList ++ rest) := by
    rw [← h]
    refine ⟨name.toList ++ "\x1b[0m".toList ++ " ".toList ++ place.toList ++ "[".toList
      ++ (Text.paint .brightMagenta type).toList ++ "]".toList, ?_⟩
    simp only [toString, Text.paint, Text.Colour.code, String.toList_append, List.append_assoc]
    rfl
  rw [hpadding, List.append_assoc] at hrest
  by_cases hzero : columns = 0
  · rw [if_pos hzero, List.nil_append] at hrest
    refine standsAt_of_toList columns '\x1b' _ text hrest (by decide) ?_
    rw [marker, if_pos hzero]
    exact List.prefix_append _ _
  · rw [if_neg hzero] at hrest
    refine standsAt_of_toList columns '-' _ text hrest (by decide) ?_
    rw [marker, if_neg hzero]
    exact List.prefix_append _ _

namespace Render

variable (hexSlots : Bool) (indent : Nat)

/-- A line that has been made is that of its node. -/
theorem isLineOf_of_line (depth : Nat) (t : TypeReference) (text : String)
    (h : line hexSlots (indent + 2 * depth : Nat) t.facts = .ok text) :
    IsLineOf hexSlots indent (depth, t) text :=
  ⟨h, standsAt_line hexSlots (indent + 2 * depth) t.facts text h⟩

mutual

theorem renderNode_isLineOf : ∀ (depth : Nat) (t : TypeReference) (lines : List String),
    renderNode hexSlots (indent + 2 * depth : Nat) t = .ok lines →
    List.Forall₂ (IsLineOf hexSlots indent) (nodesWithin depth t) lines
  | depth, .node facts none, lines, h => by
    rw [renderNode] at h
    rcases (bind_eq_ok _ _ _).mp h with ⟨own, hown, h⟩
    injection h with h
    rw [← h, nodesWithin]
    exact .cons (isLineOf_of_line hexSlots indent depth _ own hown) .nil
  | depth, .node facts (some children), lines, h => by
    rw [renderNode] at h
    rcases (bind_eq_ok _ _ _).mp h with ⟨own, hown, h⟩
    rcases (bind_eq_ok _ _ _).mp h with ⟨below, hbelow, h⟩
    injection h with h
    -- Two columns further in is one level deeper.
    have hdeeper : ((indent + 2 * depth : Nat) : Int) + 2
        = ((indent + 2 * (depth + 1) : Nat) : Int) := by omega
    rw [hdeeper] at hbelow
    rw [← h, nodesWithin]
    exact .cons (isLineOf_of_line hexSlots indent depth _ own hown)
      (renderForest_isLineOf (depth + 1) children below hbelow)

/-- A tree has one line for each node, parents before children. -/
theorem renderForest_isLineOf : ∀ (depth : Nat) (layout : List TypeReference)
    (lines : List String), renderForest hexSlots (indent + 2 * depth : Nat) layout = .ok lines →
    List.Forall₂ (IsLineOf hexSlots indent) (nodesOf depth layout) lines
  | depth, [], lines, h => by
    injection h with h
    rw [← h]
    exact .nil
  | depth, t :: rest, lines, h => by
    rw [renderForest] at h
    rcases (bind_eq_ok _ _ _).mp h with ⟨first, hfirst, h⟩
    rcases (bind_eq_ok _ _ _).mp h with ⟨others, hothers, h⟩
    injection h with h
    rw [← h, nodesOf]
    -- The columns of the children are those of `depth + 1`, which is what keeps the statement in
    -- shape from a node to the nodes below it.
    exact List.rel_append (renderNode_isLineOf depth t first hfirst)
      (renderForest_isLineOf depth rest others hothers)

end

/-- A tree that has been printed is that of the layout, whether its columns were looked at or not.
-/
theorem renderForest_of_renderFrom (n : Int) (layout : List TypeReference) (lines : List String)
    (h : renderFrom hexSlots (.int n) layout = .ok lines) :
    renderForest hexSlots n layout = .ok lines := by
  unfold renderFrom at h
  -- An empty layout is written without a look at the number of columns.
  cases layout with
  | nil => exact h
  | cons t rest =>
      rcases (bind_eq_ok _ _ _).mp h with ⟨asked, hasked, h⟩
      rw [columns] at hasked
      split at hasked
      · injection hasked with hasked
        rw [hasked]
        exact h
      · exact absurd hasked (by simp only [Defect.fail, reduceCtorEq, not_false_eq_true])

end Render

/-- The lines of a tree tell the depths of its nodes. -/
theorem depthsOf_of_lines (hexSlots : Bool) (indent : Nat) (layout : List TypeReference)
    (lines : List String) (h : List.Forall₂ (IsLineOf hexSlots indent) (nodesOf 0 layout) lines) :
    (depthsOf 0 layout).map (indent + 2 * ·) = lines.map indentation := by
  rw [depthsOf, List.map_map]
  generalize nodesOf 0 layout = nodes at h
  induction h with
  | nil => rfl
  | cons hline _ ih => rw [List.map_cons, List.map_cons, ih, hline.stands.indentation]; rfl

/-- The printed tree shows the structure of the layout.

There is one line for each node, parents before children, which says what the node says. It begins
with exactly the spaces that the depth of its node asks for, and a dash or a colour follows them. So
every layout that has the same lines has the same outline, whatever the names in it contain. -/
theorem renderFrom_outline (hexSlots : Bool) (indent : Nat) (layout : List TypeReference)
    (lines : List String) (h : Render.renderFrom hexSlots (.int indent) layout = .ok lines) :
    List.Forall₂ (IsLineOf hexSlots indent) (nodesOf 0 layout) lines ∧
      ∀ (otherHex : Bool) (other : List TypeReference),
        Render.renderFrom otherHex (.int indent) other = .ok lines → SameOutline layout other := by
  have hlines : ∀ (hex : Bool) (forest : List TypeReference),
      Render.renderFrom hex (.int indent) forest = .ok lines →
      List.Forall₂ (IsLineOf hex indent) (nodesOf 0 forest) lines := by
    intro hex forest hforest
    have hrun := Render.renderForest_of_renderFrom hex indent forest lines hforest
    exact Render.renderForest_isLineOf hex indent 0 forest lines hrun
  refine ⟨hlines hexSlots layout h, fun otherHex other hother => ?_⟩
  have hdepths := depthsOf_of_lines hexSlots indent layout lines (hlines hexSlots layout h)
  rw [← depthsOf_of_lines otherHex indent other lines (hlines otherHex other hother)] at hdepths
  -- Different depths are indented differently.
  have hinjective : Function.Injective fun depth => indent + 2 * depth := by
    intro a b hab
    simp only at hab
    omega
  exact sameOutline_of_depths 0 layout other (List.map_injective_iff.mpr hinjective hdepths)

/-- A layout whose names look like indented lines, and whose last node may or may not have an empty
list of children. -/
def disguisedForest (last : Option (List TypeReference)) : List TypeReference :=
  [.node { name := .str "  - x", type := .str "t", typeName := .str "T" } (some
      [.node { name := .str "- y", type := .str "t", typeName := .str "T" } none]),
    .node { name := .str " ", type := .str "t", typeName := .str "T" } last]

/-- The lines of such a layout. With and without the empty list, the outline is the same. -/
theorem renderFrom_outline_disguised :
    ∃ lines, lines = ["\x1b[33m  - x\x1b[0m [\x1b[95mT\x1b[0m]",
        "  - \x1b[33m- y\x1b[0m [\x1b[95mT\x1b[0m]", "\x1b[33m \x1b[0m [\x1b[95mT\x1b[0m]"] ∧
      Render.renderFrom false (.int (0 : Nat)) (disguisedForest none) = .ok lines ∧
      List.Forall₂ (IsLineOf false 0) (nodesOf 0 (disguisedForest none)) lines ∧
      SameOutline (disguisedForest none) (disguisedForest (some [])) := by
  have hnone : Render.renderFrom false (.int (0 : Nat)) (disguisedForest none) = .ok _ := rfl
  have hempty : Render.renderFrom true (.int (0 : Nat)) (disguisedForest (some [])) = .ok _ := rfl
  have htree := renderFrom_outline false 0 (disguisedForest none) _ hnone
  exact ⟨_, by decide +kernel, hnone, htree.1, htree.2 true _ hempty⟩

end StorageLayout
