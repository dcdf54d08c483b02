import StorageLayout.Proofs.Ast.Content
import StorageLayout.Proofs.Declaration
import StorageLayout.Proofs.Lockstep
import StorageLayout.Proofs.QualifiedName
import StorageLayout.Proofs.Rearrangement
import StorageLayout.Proofs.Selection

/-!
# Syntax Trees in a Greater Build

A layout that is read from syntax trees is the same after the build has grown and has been written
down in another order.

The index is made by a walk whose order depends on where sources and members stand, and what is
entered later replaces what was there. `Content` tells the finished index by what is inside the
trees instead, and from that it follows that every node of a build is under its id in a greater one
(`extends_of_includes`), and every contract under its name (`contract_of_includes`). This needs that
no two nodes of the greater build share an id, and no colon in the names of contracts, since a name
with a colon can be told apart from another path in more than one way. From there on the two
readers are compared item by item: whatever the first one reads, the second one reads up to the
order of members (`Follows`).

Two members are exceptions. The linearized bases of a contract are gone through in order, which for
an object is the order of its members, and the type of the keys of a mapping is shown in the label
of a nested value. These have to be the same in both builds (`keptNames`), and each of them alone
can change the layout (`resolveLayout_reordered`).

## Main definitions

* `Ast.keptNames`: The members that have to be the same in both builds.
* `Ast.Follows`: A run succeeds if another one does.
* `Ast.Extends`: One index has every node of another one.
* `Ast.HasPlainNames`: No colon stands in the name of a contract.
* `Ast.Includes`: One build has every source of another one.
* `TreeBy`: Two layouts of one form that say related things.

## Theorems

* `Ast.rearranged_answers`: The indices answer alike.
* `Ast.extends_of_includes`, `Ast.contract_of_includes`: What a greater build has.
* `resolveLayout_extended`: The layout in a greater build.
* `resolveLayout_reordered`: Layouts that depend on the order of members.
-/

namespace StorageLayout.Ast

/-- The members whose values are gone through in order, or shown. -/
def keptNames : List String := ["linearizedBaseContracts", "typeIdentifier"]

/-- Shapes of one kind with values that are equal up to the order of members. The type of a
mapping's keys is shown in a label, so it is equal. -/
inductive RearrangedShape : Shape → Shape → Prop
  | elementary : RearrangedShape .elementary .elementary
  | struct {m m' : Json} (hm : Rearranged keptNames m m') : RearrangedShape (.struct m) (.struct m')
  | fixedArray {length e e' : Json} (he : Rearranged keptNames e e') :
      RearrangedShape (.fixedArray length e) (.fixedArray length e')
  | dynamicArray {e e' : Json} (he : Rearranged keptNames e e') :
      RearrangedShape (.dynamicArray e) (.dynamicArray e')
  | mapping {k v v' : Json} (hv : Rearranged keptNames v v') :
      RearrangedShape (.mapping k v) (.mapping k v')

/-- A run succeeds if another one does, with a related result. -/
abbrev Follows {α β : Type} (same : α → β → Prop) (x : Except Error α) (y : Except Error β) :
    Prop := Tracks (fun _ => True) (fun _ _ => True) same x y

theorem RearrangedShape.told {s s' : Shape} (h : RearrangedShape s s') :
    RearrangedShape s.told s'.told := by
  -- Whether a shape tells more than its type depends on nulls alone, and these are the same in
  -- both.
  cases h with
  | elementary => exact .elementary
  | struct hm =>
      rw [Shape.told, Shape.told, hm.isNull_eq]
      split
      · exact .elementary
      · exact .struct hm
  | fixedArray he =>
      rw [Shape.told, Shape.told]
      split
      · exact .dynamicArray he
      · exact .fixedArray he
  | dynamicArray he => exact .dynamicArray he
  | mapping hv =>
      rw [Shape.told, Shape.told, hv.isNull_eq]
      split
      · exact .elementary
      · exact .mapping hv

theorem asText_follows {v w : Json} (h : Rearranged keptNames v w) :
    Follows Eq v.asText w.asText := by
  cases h with
  | same => exact Tracks.refl (fun _ => trivial) _
  | _ => exact Or.inl trivial

theorem isVariable_eq {v w : Json} (h : Rearranged keptNames v w) :
    isVariable v = isVariable w := by
  unfold isVariable
  rcases h.members?_rearranged with ⟨hx, hy⟩ | ⟨xs, ys, hx, hy, hxy⟩
  · rw [hx, hy]
  · rw [hx, hy]
    exact (get_rearranged hxy "nodeType").isText_eq "VariableDeclaration"

section Records

variable {r r' : Record} (h : RearrangedRecord keptNames r r')

include h

theorem orEmpty_follows (name : String) :
    Follows (RearrangedRecord keptNames) (r.orEmpty name) (r'.orEmpty name) := by
  have hvalue := get_rearranged h name
  unfold Record.orEmpty
  rw [hvalue.isEmpty_eq]
  split
  · exact .same _
  · -- A value that is no object ends the reading in an error, of which nothing has to follow.
    rcases hvalue.members?_rearranged with ⟨hnone, _⟩ | ⟨xs, ys, hx, hy, hxy⟩
    · refine Tracks.of_ok (fun a ha => ?_)
      rw [Json.asRecord_eq_ok _ a ha] at hnone
      exact absurd hnone (by simp only [Json.members?, reduceCtorEq, not_false_eq_true])
    · rw [hx, hy]
      exact hxy

theorem childId_follows (field : String) :
    Follows (Rearranged keptNames) (childId r field) (childId r' field) := by
  have hid := (get_rearranged h field).get?_rearranged "id"
  unfold Json.get? at hid
  unfold childId
  rcases hid with ⟨hx, hy⟩ | ⟨a, b, hx, hy, hab, _⟩
  · rw [hx, hy]
    exact Or.inl trivial
  · rw [hx, hy]
    exact hab

theorem literalLength?_eq :
    literalLength? (r.get "length") = literalLength? (r'.get "length") := by
  unfold literalLength?
  rcases (get_rearranged h "length").get?_rearranged "value" with
    ⟨hx, hy⟩ | ⟨a, b, hx, hy, hab, _⟩
  · rw [hx, hy]
  · rw [hx, hy]
    cases hab <;> rfl

theorem arrayLength_follows : Follows Eq (arrayLength r) (arrayLength r') := by
  unfold arrayLength
  simp only [(get_rearranged h "length").isNull_eq, literalLength?_eq h]
  cases (r'.get "length").isNull with
  | true => exact rfl
  | false =>
      simp only [Bool.false_eq_true, if_false]
      cases literalLength? (r'.get "length") with
      | some n => exact rfl
      | none =>
          refine Tracks.bind (orEmpty_follows h "typeDescriptions") (fun d d' hd => ?_)
          refine Tracks.bind (asText_follows (getText_rearranged hd "typeString"))
            (fun text text' heq => ?_)
          -- Both read the same text from here on.
          rw [← heq]
          split
          · exact Tracks.refl (fun _ => trivial) _
          · exact Or.inl trivial

theorem mappingKeyType_follows : Follows Eq (mappingKeyType r) (mappingKeyType r') := by
  unfold mappingKeyType
  refine Tracks.bind (orEmpty_follows h "keyType") (fun k k' hk => ?_)
  refine Tracks.bind (orEmpty_follows hk "typeDescriptions") (fun d d' hd => ?_)
  exact getD_kept hd "typeIdentifier" (by decide) (.str "")

/-- A contract stands for the same bases: the list of them is the same, and its own id is a key. -/
theorem bases_follows :
    Follows (List.Forall₂ (Rearranged keptNames)) (Index.bases r) (Index.bases r') := by
  have hlisted : r.get "linearizedBaseContracts" = r'.get "linearizedBaseContracts" :=
    getD_kept h "linearizedBaseContracts" (by decide) .null
  unfold Index.bases
  rw [hlisted]
  simp only
  split
  -- A list that says nothing stands for the contract alone.
  · unfold Record.member
    rcases find?_rearranged h "id" with ⟨hx, hy⟩ | ⟨a, b, hx, hy, hab, _⟩
    · rw [hx, hy]
      exact Or.inl trivial
    · rw [hx, hy]
      exact List.Forall₂.cons hab List.Forall₂.nil
  · exact Tracks.refl_of (fun _ => trivial) _ fun ids _ => List.forall₂_same.mpr fun v _ => .same v

theorem isConstant_eq : isConstant r = isConstant r' := by
  unfold isConstant
  rw [(get_rearranged h "mutability").isText_eq, (get_rearranged h "mutability").isText_eq]
  congr 2
  have hconstant := get_rearranged h "constant"
  generalize r.get "constant" = v at hconstant
  generalize r'.get "constant" = w at hconstant
  cases hconstant <;> rfl

end Records

/-- Every node of the first index is, up to the order of members, under its id in the second. -/
def Extends (index index' : Index) : Prop :=
  ∀ id record, index.node id = .ok record →
    ∃ record', index'.node id = .ok record' ∧ RearrangedRecord keptNames record record'

section Readers

variable {index index' : Index} (hextends : Extends index index')

include hextends

theorem node_follows {id id' : Json} (h : Rearranged keptNames id id') :
    Follows (RearrangedRecord keptNames) (index.node id) (index'.node id') := by
  refine Tracks.of_ok (fun record hrecord => ?_)
  -- What leads to a node is a key, and keys are not rearranged.
  rcases index.node_eq_ok id record hrecord with ⟨k, _, hk, _, _⟩
  rw [← h.eq_of_key? k hk]
  exact hextends id record hrecord

theorem shape_follows {t t' : Json} (h : Rearranged keptNames t t') :
    Follows RearrangedShape (index.shape t) (index'.shape t') := by
  unfold Index.shape
  rcases h.members?_rearranged with ⟨hx, hy⟩ | ⟨r, r', hx, hy, hr⟩
  · rw [hx, hy]
    exact .elementary
  · rw [hx, hy]
    -- The node type is among the kept names, so the same branch is taken in both.
    have hkind := (get_rearranged hr "nodeType").isText_eq
    simp only [Json.members?, hkind]
    split
    · refine Tracks.bind (arrayLength_follows hr) (fun length length' hlength => ?_)
      refine Tracks.map (childId_follows hr "baseType") (fun e e' he => ?_)
      rw [← hlength, arrayShape, arrayShape]
      split
      · exact .dynamicArray he
      · exact .fixedArray he
    · split
      · refine Tracks.bind (mappingKeyType_follows hr) (fun k k' hk => ?_)
        refine Tracks.map (childId_follows hr "valueType") (fun v v' hv => ?_)
        rw [← hk]
        exact .mapping hv
      · split
        · refine Tracks.bind (node_follows hextends (get_rearranged hr "referencedDeclaration"))
            (fun target target' htarget => ?_)
          rw [(get_rearranged htarget "nodeType").isText_eq]
          split
          · exact RearrangedShape.struct (get_rearranged htarget "id")
          · exact RearrangedShape.elementary
        · exact RearrangedShape.elementary

theorem declaration_follows {r r' : Record} (h : RearrangedRecord keptNames r r') :
    Follows (SameDeclaration (Rearranged keptNames) RearrangedShape) (index.declaration r)
      (index'.declaration r') := by
  unfold Index.declaration
  refine Tracks.bind (orEmpty_follows h "typeDescriptions") (fun d d' hd => ?_)
  -- All facts come from the record itself and only the shape from the nodes around it.
  have hmade : ∀ s s', RearrangedShape s s' →
      SameDeclaration (Rearranged keptNames) RearrangedShape
        (Declaration.withShape
          { label := r.getText "name"
            type := d.getText "typeIdentifier"
            typeName := d.getText "typeString"
            id := r.get "id"
            visibility := r.get "visibility"
            constant := isConstant r } s)
        (Declaration.withShape
          { label := r'.getText "name"
            type := d'.getText "typeIdentifier"
            typeName := d'.getText "typeString"
            id := r'.get "id"
            visibility := r'.get "visibility"
            constant := isConstant r' } s') := by
    intro s s' hs
    refine ⟨?_, ?_, ?_⟩
    · rw [facts_withShape, facts_withShape]
      exact ⟨getText_rearranged h "name", getText_rearranged hd "typeIdentifier",
        getText_rearranged hd "typeString", get_rearranged h "id", get_rearranged h "visibility",
        .same _, .same _, .same _, .same _⟩
    · rw [Declaration.withShape_constant, Declaration.withShape_constant]
      exact isConstant_eq h
    · rw [Declaration.shape_withShape_eq_told, Declaration.shape_withShape_eq_told]
      exact hs.told
  simp only
  rw [isConstant_eq h] at hmade ⊢
  split
  · exact hmade _ _ .elementary
  · exact Tracks.map (shape_follows hextends (get_rearranged h "typeName")) hmade

theorem element_follows {id id' : Json} (h : Rearranged keptNames id id') :
    Follows (SameDeclaration (Rearranged keptNames) RearrangedShape) (index.element id)
      (index'.element id') := by
  unfold Index.element
  refine Tracks.bind (node_follows hextends h) (fun r r' hr => ?_)
  refine Tracks.bind (orEmpty_follows hr "typeDescriptions") (fun d d' hd => ?_)
  -- An element has no name and no place of its own: of its facts only the id and the type differ in
  -- their order.
  refine Tracks.map (shape_follows hextends hr) (fun s s' hs => ⟨?_, ?_, ?_⟩)
  · rw [facts_withShape, facts_withShape]
    exact ⟨.same _, getText_rearranged hd "typeIdentifier", getText_rearranged hd "typeString", h,
      .same _, .same _, .same _, .same _, .same _⟩
  · rw [Declaration.withShape_constant, Declaration.withShape_constant]
  · rw [Declaration.shape_withShape_eq_told, Declaration.shape_withShape_eq_told]
    exact hs.told

/-- The variables among the nodes of a list. Only objects declare variables. -/
theorem declarations_follows {nodes nodes' : Json} (h : Rearranged keptNames nodes nodes') :
    Follows (List.Forall₂ (SameDeclaration (Rearranged keptNames) RearrangedShape))
      (index.declarations nodes) (index'.declarations nodes') := by
  unfold Index.declarations
  have hitems : Follows (fun items items' => List.Forall₂ (Rearranged keptNames)
      (items.filter isVariable) (items'.filter isVariable)) nodes.elements nodes'.elements :=
    Tracks.of_ok fun items hitems =>
      objects_rearranged h hitems isVariable (fun _ _ hab => isVariable_eq hab) fun _ => rfl
  refine Tracks.bind hitems (fun items items' hitems => ?_)
  refine Tracks.mapM hitems (fun v w hvw => ?_)
  -- Had the declaration been read, its node would be an object.
  rcases hvw.members?_rearranged with ⟨hnone, _⟩ | ⟨r, r', hr, hr', hrr⟩
  · refine Tracks.of_ok (fun d hd => ?_)
    rcases (bind_eq_ok _ _ _).mp hd with ⟨record, hrecord, _⟩
    rw [Json.asRecord_eq_ok _ record hrecord] at hnone
    exact absurd hnone (by simp only [Json.members?, reduceCtorEq, not_false_eq_true])
  · rw [hr, hr']
    exact declaration_follows hextends hrr

theorem members_follows {id id' : Json} (h : Rearranged keptNames id id') :
    Follows (List.Forall₂ (SameDeclaration (Rearranged keptNames) RearrangedShape))
      (index.members id) (index'.members id') :=
  Tracks.bind (node_follows hextends h) fun _ _ hr =>
    declarations_follows hextends (getList_rearranged hr "members")

/-- The variables of a contract and its bases, wherever the bases stand. -/
theorem storage_follows (fullName : String) (contract contract' : Record)
    (hcontract : index.contracts.find? fullName = some contract)
    (hcontract' : index'.contracts.find? fullName = some contract')
    (h : RearrangedRecord keptNames contract contract') :
    Follows (List.Forall₂ (SameDeclaration (Rearranged keptNames) RearrangedShape))
      (index.storage fullName) (index'.storage fullName) := by
  unfold Index.storage
  rw [hcontract, hcontract']
  refine Tracks.bind (bases_follows h) (fun ids ids' hids => ?_)
  -- A base that the smaller index has is in the larger one as well, with its record in another
  -- order at most.
  have hparts : Follows
      (List.Forall₂ (List.Forall₂ (SameDeclaration (Rearranged keptNames) RearrangedShape)))
      (ids.reverse.mapM fun base => do
        let node ← index.node base
        index.declarations (node.getList "nodes"))
      (ids'.reverse.mapM fun base => do
        let node ← index'.node base
        index'.declarations (node.getList "nodes")) :=
    Tracks.mapM (List.rel_reverse hids) fun id id' hid =>
      Tracks.bind (node_follows hextends hid) fun _ _ hr =>
        declarations_follows hextends (getList_rearranged hr "nodes")
  exact Tracks.map hparts fun parts parts' hparts => List.rel_flatten hparts

/-- The two indices answer alike under shapes that are rearranged. -/
theorem rearranged_answers (s s' : Shape) (h : RearrangedShape s s') :
    Answers (fun _ => True) (fun _ _ => True) (Rearranged keptNames) RearrangedShape (.ast index)
      (.ast index') s s' := by
  cases h with
  | elementary => exact .elementary
  | struct hm => exact .struct (members_follows hextends hm)
  | fixedArray he => exact .fixedArray (.same _) (element_follows hextends he)
  | dynamicArray he => exact .dynamicArray (element_follows hextends he)
  | mapping hv =>
      exact .mapping (.same _) (Tracks.refl_of (fun _ => trivial) _ fun label _ => .same label)
        (element_follows hextends hv)

end Readers

/-- No colon stands in the name of a contract. -/
def HasPlainNames (sources : Record) : Prop :=
  ∀ tree ∈ treesOf sources, ∀ record name, Defines tree.2 record name →
    ':' ∉ name.display.toList

/-- No colon stands in the name that a node may have. -/
def hasPlainName (node : Json) : Bool :=
  (node.get? "name").all fun name => !name.display.toList.contains ':'

/-- Whether names are plain can be computed. -/
theorem hasPlainNames_of_all (sources : Record)
    (h : (treesOf sources).all (fun tree =>
      ((Record.getList tree.2 "nodes").elements.toOption.getD []).all hasPlainName) = true) :
    HasPlainNames sources := by
  rintro tree htree record name ⟨items, hitems, hrecord, _, hname⟩ hcolon
  have hall := List.all_eq_true.mp h tree htree
  rw [hitems] at hall
  have hplain := List.all_eq_true.mp hall (.obj record) hrecord
  have hget : (Json.obj record).get? "name" = some name := hname
  rw [hasPlainName, hget, Option.all_some, Bool.not_eq_true', ← Bool.not_eq_true,
    List.contains_iff_mem] at hplain
  exact hplain hcolon

/-- Every source of one build is in another one, under the same path and with the same tree up to
the order of members. -/
def Includes (sources sources' : Record) : Prop :=
  ∀ tree ∈ treesOf sources, ∃ ast, (tree.1, ast) ∈ treesOf sources' ∧
    RearrangedRecord keptNames tree.2 ast

/-- What stands inside a tree stands inside one that is rearranged. -/
theorem inside_rearranged {x v w : Json} (hinside : Inside x v) (h : Rearranged keptNames v w) :
    ∃ y, Inside y w ∧ Rearranged keptNames x y := by
  induction hinside generalizing w with
  | self => exact ⟨w, .self, h⟩
  | child hc _ ih =>
      rcases h.children_rearranged _ hc with ⟨c', hc', hcc⟩
      rcases ih hcc with ⟨y, hy, hxy⟩
      exact ⟨y, .child hc' hy, hxy⟩

/-- What a contract definition adds to the table is the same in both builds, if its name is plain:
the name of a contract is shown in its key. -/
theorem definition?_rearranged (path : String) {v w : Json} (h : Rearranged keptNames v w)
    (hplain : ∀ (record : Record) name, w = .obj record →
      (Record.get record "nodeType").isText "ContractDefinition" = true →
      record.find? "name" = some name → ':' ∉ name.display.toList) :
    Option.Rel (fun p q => p.1 = q.1 ∧ RearrangedRecord keptNames p.2 q.2) (definition? path v)
      (definition? path w) := by
  unfold definition?
  rcases h.members?_rearranged with ⟨hx, hy⟩ | ⟨r, r', hx, hy, hr⟩
  · rw [hx, hy]
    exact .none
  · rw [hx, hy]
    simp only [Json.members?, Option.bind_some, (get_rearranged hr "nodeType").isText_eq]
    split
    · rename_i hkind
      rcases find?_rearranged hr "name" with ⟨hnone, hnone'⟩ | ⟨a, b, ha, hb, hab, _⟩
      · rw [hnone, hnone']
        exact .none
      · -- The full name is made from the text of the name. Without a colon in that text the names
        -- agree themselves.
        rw [ha, hb, hab.eq_of_display (hplain r' b hy hkind hb)]
        exact .some ⟨rfl, hr⟩
    · exact .none

/-- The contracts that two lists of nodes define. -/
theorem definitions_rearranged (path : String) {xs ys : List Json}
    (h : List.Forall₂ (Rearranged keptNames) xs ys)
    (hplain : ∀ (record : Record) name, .obj record ∈ ys →
      (Record.get record "nodeType").isText "ContractDefinition" = true →
      record.find? "name" = some name → ':' ∉ name.display.toList) :
    List.Forall₂ (fun p q => p.1 = q.1 ∧ RearrangedRecord keptNames p.2 q.2)
      (xs.filterMap (definition? path)) (ys.filterMap (definition? path)) := by
  induction h with
  | nil => exact List.Forall₂.nil
  | @cons v w xs ys hvw _ ih =>
      have hrest := ih fun record name hmem => hplain record name (List.mem_cons_of_mem w hmem)
      have hfirst := definition?_rearranged path hvw fun record name hw =>
        hplain record name (hw ▸ List.mem_cons_self)
      rw [List.filterMap_cons, List.filterMap_cons]
      -- A node that defines no contract is left out of both lists.
      generalize definition? path v = a at hfirst
      generalize definition? path w = b at hfirst
      cases hfirst with
      | none => exact hrest
      | some hpq => exact List.Forall₂.cons hpq hrest

/-- A contract of a tree is a contract of one that is rearranged. -/
theorem find?_definitionsIn (path fullName : String) (ast ast' contract : Record)
    (h : RearrangedRecord keptNames ast ast')
    (hplain : ∀ record name, Defines ast' record name → ':' ∉ name.display.toList)
    (hfound : (Assoc.ofList (definitionsIn path ast)).find? fullName = some contract) :
    ∃ contract', (Assoc.ofList (definitionsIn path ast')).find? fullName = some contract' ∧
      RearrangedRecord keptNames contract contract' := by
  unfold definitionsIn at hfound ⊢
  cases hitems : (ast.getList "nodes").elements with
  | error e =>
      rw [hitems] at hfound
      exact absurd hfound (by simp only [Except.toOption, Option.getD_none, List.filterMap_nil,
        Assoc.ofList, List.foldl_nil, Assoc.find?, reduceCtorEq, not_false_eq_true])
  | ok items =>
      have hobject : ∀ v w, Rearranged keptNames v w → v.isObject = w.isObject := by
        intro v w hvw
        rw [Json.isObject, Json.isObject]
        rcases hvw.members?_rearranged with ⟨hx, hy⟩ | ⟨_, _, hx, hy, _⟩
        · rw [hx, hy]
        · rw [hx, hy]
          rfl
      rcases objects_rearranged (getList_rearranged h "nodes") hitems Json.isObject hobject
        (fun _ => rfl) with ⟨items', hitems', hobjects⟩
      -- What is no object defines nothing.
      have hfilter : ∀ vs : List Json,
          (vs.filter Json.isObject).filterMap (definition? path)
            = vs.filterMap (definition? path) := by
        intro vs
        rw [List.filterMap_filter]
        refine List.filterMap_congr (fun v _ => ?_)
        cases v <;> rfl
      have hrel := Assoc.find?_ofList_forall₂ _ _ (definitions_rearranged path hobjects
        fun record name hmem hkind hname => hplain record name
          ⟨items', hitems', List.mem_of_mem_filter hmem, hkind, hname⟩) fullName
      rw [hfilter, hfilter] at hrel
      rw [hitems] at hfound
      rw [hitems']
      change (Assoc.ofList (items.filterMap (definition? path))).find? fullName = some contract
        at hfound
      rw [hfound] at hrel
      change ∃ contract', (Assoc.ofList (items'.filterMap (definition? path))).find? fullName
        = some contract' ∧ _
      generalize (Assoc.ofList (items'.filterMap (definition? path))).find? fullName = b at hrel ⊢
      cases hrel with
      | some hr => exact ⟨_, rfl, hr⟩

/-- The qualified name of a contract tells the path of its tree. -/
theorem path_of_mem_definitionsIn (sources : Record) (hplain : HasPlainNames sources)
    (fullName : String) (tree tree' : String × Record) (htree : tree ∈ treesOf sources)
    (htree' : tree' ∈ treesOf sources) (record record' : Record)
    (h : (fullName, record) ∈ definitionsIn tree.1 tree.2)
    (h' : (fullName, record') ∈ definitionsIn tree'.1 tree'.2) : tree.1 = tree'.1 := by
  rcases mem_definitionsIn _ _ _ _ h with ⟨name, hdefines, shown, hshown, hfull⟩
  rcases mem_definitionsIn _ _ _ _ h' with ⟨name', hdefines', shown', hshown', hfull'⟩
  have hnoColon := hplain tree htree record name hdefines
  have hnoColon' := hplain tree' htree' record' name' hdefines'
  rw [← hshown] at hnoColon
  rw [← hshown'] at hnoColon'
  exact (ContractName.qualified_inj hnoColon hnoColon' (hfull.symm.trans hfull')).1

section Builds

variable (output output' : Json) (sources sources' : Record) (index index' : Index)
variable (hsources : output.record? "sources" = some sources)
variable (hsources' : output'.record? "sources" = some sources')
variable (hindex : Index.ofOutput output = .ok index)
variable (hindex' : Index.ofOutput output' = .ok index')
variable (hincludes : Includes sources sources')

include hsources hsources' hindex hindex' hincludes

/-- The index of the greater build extends that of the other one. -/
theorem extends_of_includes (hunique : HasUniqueIds sources') : Extends index index' := by
  intro id record hrecord
  rcases index.node_eq_ok id record hrecord with ⟨k, n, hk, hn, hsame⟩
  rcases Index.found_inside output sources index hsources hindex k n hn with
    ⟨tree, htree, hinside, own, hown, hkey⟩
  rcases hincludes tree htree with ⟨ast, hast, hrearranged⟩
  rcases inside_rearranged hinside hrearranged with ⟨v, hv, hnode⟩
  rcases hnode.members?_rearranged with ⟨hnone, _⟩ | ⟨xs, r', hxs, hr', hr⟩
  · exact absurd hnone (by simp only [Json.members?, reduceCtorEq, not_false_eq_true])
  · injection hxs with hxs
    rw [← hxs] at hr
    rw [hr'] at hv
    -- The rearranged node carries the same id, and nothing else does.
    rcases find?_rearranged hr "id" with ⟨hnone, _⟩ | ⟨a, b, ha, hb, hab, _⟩
    · rw [hown] at hnone
      exact absurd hnone (by simp only [reduceCtorEq, not_false_eq_true])
    · rw [hown] at ha
      injection ha with ha
      rw [← ha] at hab
      rw [← hab.eq_of_key? k hkey] at hb
      have hfound : ∃ n', index'.nodes.find? k = some n' :=
        (Index.found_iff_inside output' sources' index' hsources' hindex' k).mpr
          ⟨_, hast, r', hv, own, hb, hkey⟩
      rcases hfound with ⟨n', hn'⟩
      rcases Index.found_inside output' sources' index' hsources' hindex' k n' hn' with
        ⟨tree', htree', hinside', hcarries'⟩
      have heq := hunique tree' htree' _ hast n'.record r' k hinside' hv hcarries' ⟨own, hb, hkey⟩
      rw [← heq] at hr
      rw [hsame] at hr
      exact ⟨n'.record, index'.node_of_found id k n' hk hn', hr⟩

/-- A contract of the one build is, up to the order of members, the contract of that name in the
greater one. -/
theorem contract_of_includes (hpaths : sources'.keys.Nodup) (hplain : HasPlainNames sources')
    (fullName : String) (contract : Record)
    (hfound : index.contracts.find? fullName = some contract) :
    ∃ contract', index'.contracts.find? fullName = some contract' ∧
      RearrangedRecord keptNames contract contract' := by
  rw [Index.ofOutput_definitions output sources index hsources hindex] at hfound
  rw [Index.ofOutput_definitions output' sources' index' hsources' hindex']
  have hown : ∃ tree ∈ treesOf sources,
      (Assoc.ofList (definitionsIn tree.1 tree.2)).find? fullName = some contract := by
    rcases Assoc.find?_ofList_flatMap fullName (fun tree => definitionsIn tree.1 tree.2)
      (treesOf sources) with ⟨tree, htree, v, hv, hall⟩ | ⟨_, hnone⟩
    · rw [hfound] at hall
      injection hall with hall
      exact ⟨tree, htree, hall ▸ hv⟩
    · rw [hfound] at hnone
      exact absurd hnone (by simp only [reduceCtorEq, not_false_eq_true])
  rcases hown with ⟨tree, htree, htable⟩
  rcases hincludes tree htree with ⟨ast, hast, hrearranged⟩
  rcases find?_definitionsIn tree.1 fullName tree.2 ast contract hrearranged
    (hplain (tree.1, ast) hast) htable with ⟨contract', hcontract', hr⟩
  refine ⟨contract', ?_, hr⟩
  rcases Assoc.find?_ofList_flatMap fullName (fun tree => definitionsIn tree.1 tree.2)
    (treesOf sources') with ⟨tree', htree', v, hv, hall⟩ | ⟨hnone, _⟩
  · -- The name tells the path, and there is one tree for each path.
    have hpath := path_of_mem_definitionsIn sources' hplain fullName (tree.1, ast) tree' hast htree'
      contract' v (Assoc.find?_ofList_mem fullName contract' _ hcontract')
      (Assoc.find?_ofList_mem fullName v _ hv)
    rcases tree' with ⟨path, ast'⟩
    change tree.1 = path at hpath
    rw [← hpath] at htree' hv
    rw [← treesOf_unique sources' hpaths tree.1 ast ast' hast htree', hcontract'] at hv
    injection hv with hv
    rw [hall, hv]
  · have hempty := hnone _ hast
    rw [hcontract'] at hempty
    exact absurd hempty (by simp only [reduceCtorEq, not_false_eq_true])

end Builds

end StorageLayout.Ast

namespace StorageLayout

/-- Two trees of one form whose nodes say related things. -/
inductive TreeBy (Q : Json → Json → Prop) : TypeReference → TypeReference → Prop
  | leaf {f g : Facts} (h : SameSaid Q f g) : TreeBy Q (.node f none) (.node g none)
  | branch {f g : Facts} {xs ys : List TypeReference} (h : SameSaid Q f g)
      (hbelow : List.Forall₂ (TreeBy Q) xs ys) : TreeBy Q (.node f (some xs)) (.node g (some ys))

/-- The roots of such trees say related things. -/
theorem TreeBy.facts {Q : Json → Json → Prop} {x y : TypeReference} (h : TreeBy Q x y) :
    SameSaid Q x.facts y.facts := by
  cases h with
  | leaf h => exact h
  | branch h _ => exact h

/-- What is below the roots of such trees. -/
theorem TreeBy.children {Q : Json → Json → Prop} {x y : TypeReference} (h : TreeBy Q x y) :
    List.Forall₂ (TreeBy Q) (x.subType.getD []) (y.subType.getD []) := by
  cases h with
  | leaf _ => exact List.Forall₂.nil
  | branch _ hbelow => exact hbelow

/-- Whether layouts are of one form is told node by node. -/
theorem isCongruence_treeBy {Q : Json → Json → Prop} (hQ : ∀ v, Q v v) :
    IsCongruence Q (TreeBy Q) where
  label s := hQ (.str s)
  leaf _ _ h := .leaf h
  branch _ _ _ _ h hbelow := .branch h hbelow

/-- A layout that is read from syntax trees is the same in a greater build, in which the sources
stand in any order among others and the members of objects are written down in any order. -/
theorem resolveLayout_extended (output output' : Json) (sources sources' : Record)
    (hbare : output.get? "output" = none) (hbare' : output'.get? "output" = none)
    (hsources : output.record? "sources" = some sources)
    (hsources' : output'.record? "sources" = some sources')
    (haccepted : ∃ index', Ast.Index.ofOutput output' = .ok index')
    (hincludes : Ast.Includes sources sources') (hpaths : sources'.keys.Nodup)
    (hunique : Ast.HasUniqueIds sources') (hplain : Ast.HasPlainNames sources')
    (fullName : String) (hname : ContractName.isQualified fullName = true) (limit : DepthLimit)
    (forest : List TypeReference) (h : resolveLayout output fullName .ast limit = .ok forest) :
    ∃ forest', resolveLayout output' fullName .ast limit = .ok forest' ∧
      List.Forall₂ (TreeBy (Rearranged Ast.keptNames)) forest forest' := by
  -- Both runs are those of an index, and the second index extends the first one.
  rcases haccepted with ⟨index', hindex'⟩
  have hobject : ∀ (o : Json) (s : Record), o.record? "sources" = some s → o.isObject = true := by
    intro o s hs
    cases o with
    | obj members => rfl
    | _ => exact absurd hs (by simp [Json.record?, Json.get?, Json.members?])
  have hself : ∀ o : Json, o.get? "output" = none → Source.outputOf o = o := by
    intro o ho
    rw [Source.outputOf, ho, Option.getD_none]
  rw [resolveLayout_ast_eq output (hobject output sources hsources) fullName hname, hself output
    hbare] at h
  rw [resolveLayout_ast_eq output' (hobject output' sources' hsources') fullName hname,
    hself output' hbare', hindex', ok_bind]
  rcases (bind_eq_ok _ _ _).mp h with ⟨index, hindex, hlayout⟩
  have hextends := Ast.extends_of_includes output output' sources sources' index index' hsources
    hsources' hindex hindex' hincludes hunique
  have hstorage : Ast.Follows
      (List.Forall₂ (SameDeclaration (Rearranged Ast.keptNames) Ast.RearrangedShape))
      (index.storage fullName) (index'.storage fullName) := by
    cases hfound : index.contracts.find? fullName with
    -- A contract that is not there has no layout to follow.
    | none =>
        refine Tracks.of_ok (fun ds hds => ?_)
        rw [Ast.Index.storage, hfound] at hds
        exact absurd hds (by simp only [reduceCtorEq, not_false_eq_true])
    | some contract =>
        rcases Ast.contract_of_includes output output' sources sources' index index' hsources
          hsources' hindex hindex' hincludes hpaths hplain fullName contract hfound with
          ⟨contract', hfound', hr⟩
        exact Ast.storage_follows hextends fullName contract contract' hfound hfound' hr
  exact (layoutOf_answers (fun _ => trivial) (isCongruence_treeBy fun v => .same v)
    (Ast.rearranged_answers hextends) fullName limit hstorage).ok hlayout

/-- A build with the given sources. -/
def buildOf (sources : Record) : Json := .obj [("sources", .obj sources)]

/-- The section of sources with one tree. -/
def oneSource (ast : Record) : Record := [("a.sol", .obj [("ast", .obj ast)])]

/-- The tree of a source with one contract that has one variable, and more members. -/
def ballotTree (extra : Record) : Record :=
  ("nodes", .arr [.obj [("id", .int 1), ("nodeType", .str "ContractDefinition"),
    ("name", .str "Ballot"), ("linearizedBaseContracts", .arr [.int 1]),
    ("nodes", .arr [.obj [("id", .int 2), ("nodeType", .str "VariableDeclaration"),
      ("name", .str "votes")]])]]) :: extra

/-- The layout of a contract when another source comes first and the members of the tree stand in
another order. -/
theorem resolveLayout_extended_ballot :
    ∃ forest forest',
      resolveLayout (buildOf (oneSource (ballotTree [("id", .int 10)]))) "a.sol:Ballot" .ast
        (.ofNat 8) = .ok forest ∧
      resolveLayout (buildOf (("b.sol", .obj [("ast", .obj [("id", .int 20)])])
        :: oneSource (("id", .int 10) :: ballotTree []))) "a.sol:Ballot" .ast (.ofNat 8)
        = .ok forest' ∧
      List.Forall₂ (TreeBy (Rearranged Ast.keptNames)) forest forest' := by
  have hlayout : ∃ forest, resolveLayout (buildOf (oneSource (ballotTree [("id", .int 10)])))
      "a.sol:Ballot" .ast (.ofNat 8) = .ok forest := ⟨_, by with_unfolding_all rfl⟩
  have hincludes : Ast.Includes (oneSource (ballotTree [("id", .int 10)]))
      (("b.sol", .obj [("ast", .obj [("id", .int 20)])])
        :: oneSource (("id", .int 10) :: ballotTree [])) := by
    intro tree htree
    rw [List.mem_singleton.mp htree]
    exact ⟨_, List.mem_cons_of_mem _ List.mem_cons_self,
      rearranged_of_perm (List.Perm.swap _ _ _) (by decide)⟩
  -- The second output has another source in front, and the tree of the first with its members in
  -- another order.
  have haccepted : ∃ index, Ast.Index.ofOutput (buildOf
      (("b.sol", .obj [("ast", .obj [("id", .int 20)])])
        :: oneSource (("id", .int 10) :: ballotTree []))) = .ok index :=
    ⟨_, by with_unfolding_all rfl⟩
  rcases hlayout with ⟨forest, h⟩
  rcases resolveLayout_extended _ _ _ _ rfl rfl rfl rfl haccepted hincludes (by decide)
    (Ast.hasUniqueIds_of_nodup _ (by decide)) (Ast.hasPlainNames_of_all _ (by decide))
    "a.sol:Ballot" (by decide) (.ofNat 8) forest h with ⟨forest', h', hrel⟩
  exact ⟨forest, forest', h, h', hrel⟩

/-- Two trees that differ only in the order of members, each with an index of its own, lead to
layouts that differ in more. -/
def DiffersByOrder (ast ast' : Record) (fullName : String) : Prop :=
  RearrangedRecord [] ast ast' ∧
    (Ast.HasUniqueIds (oneSource ast) ∧ Ast.HasUniqueIds (oneSource ast')) ∧
    (Ast.HasPlainNames (oneSource ast) ∧ Ast.HasPlainNames (oneSource ast')) ∧
    ∃ forest forest', resolveLayout (buildOf (oneSource ast)) fullName .ast (.ofNat 64)
        = .ok forest ∧
      resolveLayout (buildOf (oneSource ast')) fullName .ast (.ofNat 64) = .ok forest' ∧
      ¬ List.Forall₂ (TreeBy (Rearranged [])) forest forest'

/-- A contract whose list of bases is given as an object, with two bases. -/
def basesTree (bases : Json) : Record :=
  [("nodes", .arr [
    .obj [("id", .int 1), ("nodeType", .str "ContractDefinition"), ("name", .str "C"),
      ("linearizedBaseContracts", bases)],
    .obj [("id", .str "p"), ("nodes", .arr [
      .obj [("id", .int 2), ("nodeType", .str "VariableDeclaration"), ("name", .str "x")]])],
    .obj [("id", .str "q"), ("nodes", .arr [
      .obj [("id", .int 3), ("nodeType", .str "VariableDeclaration"), ("name", .str "y")]])]])]

/-- A contract with a mapping to arrays, under keys whose type is given as an object. -/
def keysTree (identifier : Json) : Record :=
  [("nodes", .arr [.obj [("id", .int 1), ("nodeType", .str "ContractDefinition"),
    ("name", .str "C"), ("nodes", .arr [
      .obj [("id", .int 2), ("nodeType", .str "VariableDeclaration"), ("name", .str "m"),
        ("typeName", .obj [("id", .int 3), ("nodeType", .str "Mapping"),
          ("keyType", .obj [("typeDescriptions", .obj [("typeIdentifier", identifier)])]),
          ("valueType", .obj [("id", .int 4), ("nodeType", .str "ArrayTypeName"),
            ("baseType", .obj [("id", .int 5)])])])]])]])]

/-- The bases are gone through in the order in which they are listed. -/
theorem basesTree_differs :
    DiffersByOrder (basesTree (.obj [("q", .bool true), ("p", .bool true)]))
      (basesTree (.obj [("p", .bool true), ("q", .bool true)])) "a.sol:C" := by
  refine ⟨?_, ⟨Ast.hasUniqueIds_of_nodup _ (by decide), Ast.hasUniqueIds_of_nodup _ (by decide)⟩,
    ⟨Ast.hasPlainNames_of_all _ (by decide), Ast.hasPlainNames_of_all _ (by decide)⟩, ?_⟩
  · refine rearranged_at [] [] "nodes" (rearranged_item [] _ ?_) List.not_mem_nil (by decide)
    refine rearranged_at [_, _, _] [] "linearizedBaseContracts" ?_ List.not_mem_nil (by decide)
    exact rearranged_of_perm (List.Perm.swap _ _ _) (by decide)
  · -- The bases are the names of the object, taken in its order, and the first variable is that of
    -- the last base.
    have hforests : ∃ x y x' y',
        resolveLayout (buildOf (oneSource
          (basesTree (.obj [("q", .bool true), ("p", .bool true)])))) "a.sol:C" .ast (.ofNat 64)
          = .ok [x, y] ∧ x.facts.name = .str "x" ∧
        resolveLayout (buildOf (oneSource
          (basesTree (.obj [("p", .bool true), ("q", .bool true)])))) "a.sol:C" .ast (.ofNat 64)
          = .ok [x', y'] ∧ x'.facts.name = .str "y" :=
      ⟨_, _, _, _, by with_unfolding_all rfl, rfl, by with_unfolding_all rfl, rfl⟩
    rcases hforests with ⟨x, y, x', y', h, hx, h', hx'⟩
    refine ⟨_, _, h, h', fun hrel => ?_⟩
    rw [List.forall₂_cons] at hrel
    have hnames := hrel.1.facts.name.eq_of_str "x" hx
    rw [hx, hx'] at hnames
    exact absurd (Json.str.inj hnames) (by decide)

/-- The type of the keys is shown in the label of the array. -/
theorem keysTree_differs :
    DiffersByOrder (keysTree (.obj [("a", .bool true), ("b", .bool true)]))
      (keysTree (.obj [("b", .bool true), ("a", .bool true)])) "a.sol:C" := by
  refine ⟨?_, ⟨Ast.hasUniqueIds_of_nodup _ (by decide), Ast.hasUniqueIds_of_nodup _ (by decide)⟩,
    ⟨Ast.hasPlainNames_of_all _ (by decide), Ast.hasPlainNames_of_all _ (by decide)⟩, ?_⟩
  · refine rearranged_at [] [] "nodes" (rearranged_item [] [] ?_) List.not_mem_nil (by decide)
    refine rearranged_at [_, _, _] [] "nodes" (rearranged_item [] [] ?_) List.not_mem_nil
      (by decide)
    refine rearranged_at [_, _, _] [] "typeName" ?_ List.not_mem_nil (by decide)
    refine rearranged_at [_, _] [_] "keyType" ?_ List.not_mem_nil (by decide)
    refine rearranged_at [] [] "typeDescriptions" ?_ List.not_mem_nil (by decide)
    refine rearranged_at [] [] "typeIdentifier" ?_ List.not_mem_nil (by decide)
    exact rearranged_of_perm (List.Perm.swap _ _ _) (by decide)
  · -- The key of the mapping is written in brackets as the object stands there.
    have hforests : ∃ x y x' y',
        resolveLayout (buildOf (oneSource
          (keysTree (.obj [("a", .bool true), ("b", .bool true)])))) "a.sol:C" .ast (.ofNat 64)
          = .ok [x] ∧ x.subType = some [y] ∧ y.facts.name = .str "[\x7b'a': True, 'b': True\x7d]" ∧
        resolveLayout (buildOf (oneSource
          (keysTree (.obj [("b", .bool true), ("a", .bool true)])))) "a.sol:C" .ast (.ofNat 64)
          = .ok [x'] ∧ x'.subType = some [y'] ∧
        y'.facts.name = .str "[\x7b'b': True, 'a': True\x7d]" :=
      ⟨_, _, _, _, by with_unfolding_all rfl, rfl, by with_unfolding_all rfl,
        by with_unfolding_all rfl, rfl, by with_unfolding_all rfl⟩
    rcases hforests with ⟨x, y, x', y', h, hx, hy, h', hx', hy'⟩
    refine ⟨_, _, h, h', fun hrel => ?_⟩
    rw [List.forall₂_cons] at hrel
    have hbelow := hrel.1.children
    rw [hx, hx', Option.getD_some, Option.getD_some, List.forall₂_cons] at hbelow
    have hnames := hbelow.1.facts.name.eq_of_str _ hy
    rw [hy, hy'] at hnames
    exact absurd (Json.str.inj hnames) (by decide)

/-- The order of members can change the order of variables, and it can change a label. -/
theorem resolveLayout_reordered :
    DiffersByOrder (basesTree (.obj [("q", .bool true), ("p", .bool true)]))
        (basesTree (.obj [("p", .bool true), ("q", .bool true)])) "a.sol:C" ∧
      DiffersByOrder (keysTree (.obj [("a", .bool true), ("b", .bool true)]))
        (keysTree (.obj [("b", .bool true), ("a", .bool true)])) "a.sol:C" :=
  ⟨basesTree_differs, keysTree_differs⟩

end StorageLayout
