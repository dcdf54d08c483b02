import StorageLayout.Proofs.Ast.Nodes
import StorageLayout.Proofs.Declaration

/-!
# Types of Syntax Trees

What type nodes say, told without the readers that take them apart.

A type node describes one of five forms. Arrays and mappings are told by the kind of their node,
and the nodes of their parts stand inside it, so a part goes by an id of its own. A struct is told
by what a name refers to: the definition may stand anywhere in the build, and only if it is that of
a struct does the type have members. Every other name stays closed, and so does every other node.

What has to be readable is the same as for emitted layouts: the length of a fixed array, and every
field by which a declaration tells its kind, which may not be null.

The variables of a contract or a struct are told by their nodes, constants among them. A constant
has no storage, so nothing is asked of its type.

## Main definitions

* `TypeForm`: What a type node can describe.
* `Form`: The rules for type nodes.
* `variablesIn`: The variables among nodes.
* `Index.Declares`: The variables that a list of nodes declares, all readable.
* `Index.Lists`: The variables of a contract and its bases.
* `Index.Reads`: What a declaration says of its variable.

## Theorems

* `shape_of_form`: The readers agree with the rules.
* `declarations_read`: What is read from a list of nodes.
* `members_read`, `storage_read`, `element_read`: What the resolver is given.
-/

namespace StorageLayout.Ast

/-- What a type node can describe. -/
inductive TypeForm where
  | fixedArray (length : Int) (element : Json)
  | dynamicArray (element : Json)
  /-- A struct with the id of its definition and the variables that are its members. -/
  | struct (id : Json) (members : List Record)
  | mapping (keyType value : Json)
  | elementary

/-- The shape of a declaration of a type. -/
def TypeForm.shape : TypeForm → Shape
  | .fixedArray length element => .fixedArray (.int length) element
  | .dynamicArray element => .dynamicArray element
  | .struct id _ => .struct id
  | .mapping keyType value => .mapping keyType value
  | .elementary => .elementary

/-- The variables among nodes, in order. -/
def variablesIn (nodes : List Json) : List Record :=
  (nodes.filter isVariable).filterMap Json.members?

/-- A node whose description of its type can be read. -/
def IsReadable (node : Record) : Prop :=
  ∃ description, node.orEmpty "typeDescriptions" = .ok description

/-- A list of nodes declares these variables, and all of them can be read. -/
def Declares (list : Json) (vs : List Record) : Prop :=
  ∃ nodes, list.elements = .ok nodes ∧ vs = variablesIn nodes ∧ ∀ v ∈ vs, IsReadable v

/-- The variables that occupy storage. -/
def stored (vs : List Record) : List Record := vs.filter fun v => !isConstant v

/-- A variable of some contract or struct of a build. -/
def Index.IsVariableOf (index : Index) (v : Record) : Prop :=
  ∃ (id : Json) (owner : Record) (vs : List Record), index.node id = .ok owner ∧ v ∈ vs ∧
    (Declares (owner.getList "nodes") vs ∨ Declares (owner.getList "members") vs)

/-- The form that a type node describes. -/
inductive Form (index : Index) (typeNode : Record) : TypeForm → Prop
  | fixedArray {length : Int} {element : Json}
      (isArray : (typeNode.get "nodeType").isText "ArrayTypeName" = true)
      (hasLength : arrayLength typeNode = .ok (.int length))
      (hasElement : childId typeNode "baseType" = .ok element) :
      Form index typeNode (.fixedArray length element)
  | dynamicArray {element : Json}
      (isArray : (typeNode.get "nodeType").isText "ArrayTypeName" = true)
      (noLength : (typeNode.get "length").isNull = true)
      (hasElement : childId typeNode "baseType" = .ok element) :
      Form index typeNode (.dynamicArray element)
  | mapping {keyType value : Json}
      (isMapping : (typeNode.get "nodeType").isText "Mapping" = true)
      (hasKey : mappingKeyType typeNode = .ok keyType)
      (hasValue : childId typeNode "valueType" = .ok value)
      (keyNotNull : keyType.isNull = false) (keyShowable : keyType.isShowable = true)
      (valueNotNull : value.isNull = false) :
      Form index typeNode (.mapping keyType value)
  | struct {target : Record} {vs : List Record}
      (isName : (typeNode.get "nodeType").isText "UserDefinedTypeName" = true)
      (refers : index.node (typeNode.get "referencedDeclaration") = .ok target)
      (isStruct : (target.get "nodeType").isText "StructDefinition" = true)
      (notNull : (target.get "id").isNull = false)
      (declares : Declares (target.getList "members") vs) :
      Form index typeNode (.struct (target.get "id") vs)
  /-- A name that refers to anything but a struct. -/
  | closed {target : Record}
      (isName : (typeNode.get "nodeType").isText "UserDefinedTypeName" = true)
      (refers : index.node (typeNode.get "referencedDeclaration") = .ok target)
      (notStruct : (target.get "nodeType").isText "StructDefinition" = false) :
      Form index typeNode .elementary
  | elementary
      (notArray : (typeNode.get "nodeType").isText "ArrayTypeName" = false)
      (notMapping : (typeNode.get "nodeType").isText "Mapping" = false)
      (notName : (typeNode.get "nodeType").isText "UserDefinedTypeName" = false) :
      Form index typeNode .elementary

/-- A name has the shape of what it refers to, and that is closed unless it is a struct. -/
theorem shape_of_name (index : Index) (typeNode target : Record)
    (isName : (typeNode.get "nodeType").isText "UserDefinedTypeName" = true)
    (refers : index.node (typeNode.get "referencedDeclaration") = .ok target) :
    index.shape (.obj typeNode)
      = if (target.get "nodeType").isText "StructDefinition" then .ok (.struct (target.get "id"))
        else .ok .elementary := by
  -- A node of this kind is none of the kinds that are asked for first.
  have hnot := Json.isText_unique (t := "ArrayTypeName") isName (by decide)
  have hnot' := Json.isText_unique (t := "Mapping") isName (by decide)
  simp only [Index.shape, Json.members?]
  rw [hnot, hnot', if_neg Bool.false_ne_true, if_neg Bool.false_ne_true, if_pos isName, refers]
  rfl

/-- The readers agree with the rules on the shape of a type node. The kinds are asked for in one
order, and a node is of one kind only. -/
theorem shape_of_form {index : Index} {typeNode : Record} {form : TypeForm}
    (h : Form index typeNode form) : index.shape (.obj typeNode) = .ok form.shape := by
  -- The kinds exclude each other by the name of the node, and are tried in the order array,
  -- mapping, name.
  cases h with
  | fixedArray isArray hasLength hasElement =>
      simp only [Index.shape, Json.members?]
      rw [if_pos isArray, hasLength, hasElement]
      rfl
  | dynamicArray isArray noLength hasElement =>
      have hlength : arrayLength typeNode = .ok .null := by
        simp only [arrayLength, noLength, if_true]
      simp only [Index.shape, Json.members?]
      rw [if_pos isArray, hlength, hasElement]
      rfl
  | mapping isMapping hasKey hasValue =>
      have hnot := Json.isText_unique (t := "ArrayTypeName") isMapping (by decide)
      simp only [Index.shape, Json.members?]
      rw [hnot, if_neg Bool.false_ne_true, if_pos isMapping, hasKey, hasValue]
      rfl
  | @struct target _ isName refers isStruct =>
      rw [shape_of_name index typeNode target isName refers, if_pos isStruct]
      rfl
  | @closed target isName refers notStruct =>
      rw [shape_of_name index typeNode target isName refers, notStruct, if_neg Bool.false_ne_true]
      rfl
  | elementary notArray notMapping notName =>
      simp only [Index.shape, Json.members?]
      rw [notArray, notMapping, notName]
      rfl

/-- The kind of a form can be told from its shape. -/
theorem isTold_of_form {index : Index} {typeNode : Record} {form : TypeForm}
    (h : Form index typeNode form) : form.shape.IsTold := by
  cases h with
  | fixedArray _ _ _ => rfl
  | dynamicArray _ _ _ => exact trivial
  | mapping _ _ _ keyNotNull _ valueNotNull => exact ⟨keyNotNull, valueNotNull⟩
  | struct _ _ _ notNull _ => exact notNull
  | closed _ _ _ => exact trivial
  | elementary _ _ _ => exact trivial

theorem mem_stored (v : Record) (vs : List Record) (h : v ∈ stored vs) :
    v ∈ vs ∧ isConstant v = false := by
  rcases List.mem_filter.mp h with ⟨hmem, hstored⟩
  rw [Bool.not_eq_true'] at hstored
  exact ⟨hmem, hstored⟩

/-- Variables and their declarations are left out together. -/
theorem stored_forall₂ {R : Record → Declaration → Prop} (vs : List Record) (ds : List Declaration)
    (hconstant : ∀ v d, R v d → d.constant = isConstant v) (h : List.Forall₂ R vs ds) :
    List.Forall₂ R (stored vs) (ds.filter (!·.constant)) := by
  refine List.rel_filter (fun v d hvd => ?_) h
  change (!isConstant v) = true ↔ (!d.constant) = true
  rw [hconstant v d hvd]

/-- A variable of a contract or a struct can be read. -/
theorem Index.IsVariableOf.readable {index : Index} {v : Record} (h : index.IsVariableOf v) :
    IsReadable v := by
  rcases h with ⟨_, _, vs, _, hv, ⟨_, _, _, hall⟩ | ⟨_, _, _, hall⟩⟩
  · exact hall v hv
  · exact hall v hv

/-- The variables that a list of nodes declares; none, if it cannot be gone through. -/
def declaredIn (list : Json) : List Record := (list.elements.toOption.map variablesIn).getD []

/-- The variables of all contracts and structs of a build. -/
def Index.variablesOfAll (index : Index) : List Record :=
  index.nodes.flatMap fun p =>
    declaredIn (p.2.record.getList "nodes") ++ declaredIn (p.2.record.getList "members")

theorem Declares.eq_declaredIn {list : Json} {vs : List Record} (h : Declares list vs) :
    vs = declaredIn list := by
  rcases h with ⟨nodes, hnodes, hvs, _⟩
  rw [declaredIn, hnodes, hvs]
  rfl

/-- A variable of some contract or struct is met when the table is gone through. -/
theorem Index.IsVariableOf.mem_variablesOfAll {index : Index} {v : Record}
    (h : index.IsVariableOf v) : v ∈ index.variablesOfAll := by
  rcases h with ⟨id, owner, vs, howner, hv, hdeclares⟩
  rcases index.node_eq_ok id owner howner with ⟨k, n, _, hfound, hrecord⟩
  refine List.mem_flatMap.mpr ⟨(k, n), Assoc.find?_mem k n _ hfound, ?_⟩
  rw [hrecord, List.mem_append]
  rcases hdeclares with hnodes | hmembers
  · exact Or.inl (hnodes.eq_declaredIn ▸ hv)
  · exact Or.inr (hmembers.eq_declaredIn ▸ hv)

/-- The members of a struct are variables of its definition. -/
theorem isVariableOf_of_struct {index : Index} {typeNode : Record} {id : Json} {vs : List Record}
    (h : Form index typeNode (.struct id vs)) : ∀ v ∈ vs, index.IsVariableOf v := by
  intro v hv
  cases h with
  | struct _ refers _ _ declares => exact ⟨_, _, vs, refers, hv, Or.inr declares⟩

/-- The nodes that declare variables are the objects of `variablesIn`. -/
theorem filter_isVariable (nodes : List Json) :
    nodes.filter isVariable = (variablesIn nodes).map Json.obj := by
  unfold variablesIn
  induction nodes with
  | nil => rfl
  | cons node rest ih =>
      -- Only an object can be a variable, so that no node is lost when the members are taken.
      cases hnode : isVariable node with
      | false =>
          rw [List.filter_cons_of_neg (by rw [hnode]; exact Bool.false_ne_true)]
          exact ih
      | true =>
          rw [List.filter_cons_of_pos hnode]
          cases node with
          | obj record =>
              have hfilterMap : (Json.obj record :: rest.filter isVariable).filterMap Json.members?
                  = record :: (rest.filter isVariable).filterMap Json.members? := rfl
              rw [hfilterMap, List.map_cons, ← ih]
          | _ => exact absurd hnode Bool.false_ne_true

namespace Index

/-- What a declaration says of its variable. The type of a constant is not looked at. -/
def Reads (index : Index) (v : Record) (d : Declaration) : Prop :=
  d.label = v.getText "name" ∧ d.constant = isConstant v ∧
    (isConstant v = false → ∀ (typeNode : Record) (form : TypeForm),
      v.get "typeName" = .obj typeNode → Form index typeNode form → d.shape = form.shape)

/-- A variable can be read: its description, and its type unless it is constant. -/
def Admits (index : Index) (v : Record) : Prop :=
  IsReadable v ∧ (isConstant v = false → ∃ (typeNode : Record) (form : TypeForm),
    v.get "typeName" = .obj typeNode ∧ Form index typeNode form)

/-- The variables of a contract and its bases, the most basic first. -/
def Lists (index : Index) (fullName : String) (vs : List Record) : Prop :=
  ∃ contract ids parts, index.contracts.find? fullName = some contract ∧
    bases contract = .ok ids ∧ vs = parts.flatten ∧
    List.Forall₂ (fun id part => ∃ node, index.node id = .ok node ∧
      Declares (node.getList "nodes") part) ids.reverse parts

/-- The variables that a contract lists are those of its own and of its bases. -/
theorem isVariableOf_of_lists {index : Index} {fullName : String} {vs : List Record}
    (h : index.Lists fullName vs) : ∀ v ∈ vs, index.IsVariableOf v := by
  rcases h with ⟨_, ids, parts, _, _, hvs, hparts⟩
  rw [hvs]
  clear hvs
  -- The order of the bases plays no part, so any list of ids will do for the induction.
  generalize ids.reverse = js at hparts
  induction hparts with
  | nil => exact fun v hv => absurd hv List.not_mem_nil
  | @cons id part _ _ hpart _ ih =>
      rcases hpart with ⟨node, hnode, hdeclares⟩
      intro v hv
      rw [List.flatten_cons, List.mem_append] at hv
      rcases hv with hv | hv
      · exact ⟨id, node, part, hnode, hv, Or.inl hdeclares⟩
      · exact ih v hv

/-- The shape that a variable is given: that of its type, and none if it is constant. -/
theorem variable_shape (index : Index) (v : Record) (h : index.Admits v) :
    ∃ s, (if isConstant v then pure .elementary else index.shape (v.get "typeName")) = .ok s ∧
      s.IsTold ∧ (isConstant v = false → ∀ (typeNode : Record) (form : TypeForm),
        v.get "typeName" = .obj typeNode → Form index typeNode form → s = form.shape) := by
  cases hconstant : isConstant v with
  -- A constant counts as elementary, whatever its type.
  | true => exact ⟨.elementary, rfl, trivial, fun hc => absurd hc Bool.true_eq_false.mp⟩
  | false =>
      rcases h.2 hconstant with ⟨typeNode, form, htype, hform⟩
      refine ⟨form.shape, ?_, isTold_of_form hform, fun _ typeNode' form' htype' hform' => ?_⟩
      · rw [if_neg Bool.false_ne_true, htype]
        exact shape_of_form hform
      · rw [htype] at htype'
        injection htype' with htype'
        have hshape := shape_of_form hform'
        rw [← htype', shape_of_form hform] at hshape
        injection hshape

/-- A variable is read as a declaration. -/
theorem declaration_reads (index : Index) (v : Record) (h : index.Admits v) :
    ∃ d, index.declaration v = .ok d ∧ index.Reads v d := by
  rcases h.1 with ⟨description, hdescription⟩
  rcases index.variable_shape v h with ⟨s, hs, htold, hforms⟩
  refine ⟨Declaration.withShape
    { label := v.getText "name", type := Record.getText description "typeIdentifier",
      typeName := Record.getText description "typeString", id := v.get "id",
      visibility := v.get "visibility", constant := isConstant v } s, ?_, ?_, ?_, ?_⟩
  · refine (bind_eq_ok _ _ _).mpr ⟨description, hdescription, ?_⟩
    -- For a constant the shape is given, not read.
    cases hconstant : isConstant v with
    | true =>
        rw [hconstant] at hs
        injection hs with hs
        rw [← hs]
        rfl
    | false =>
        rw [hconstant] at hs
        exact (bind_eq_ok _ _ _).mpr ⟨s, hs, rfl⟩
  · rw [Declaration.withShape_label]
  · rw [Declaration.withShape_constant]
  · intro hconstant typeNode form htype hform
    rw [Declaration.shape_withShape _ _ _ _ _ _ _ _ _ htold]
    exact hforms hconstant typeNode form htype hform

/-- The variables that a list of nodes declares are read one by one. -/
theorem declarations_read (index : Index) (list : Json) (vs : List Record) (h : Declares list vs)
    (hadmits : ∀ v ∈ vs, index.Admits v) :
    ∃ ds, index.declarations list = .ok ds ∧ List.Forall₂ index.Reads vs ds := by
  rcases h with ⟨nodes, hnodes, hvs, _⟩
  rcases mapM_eq_ok index.declaration index.Reads vs
    (fun v hv => index.declaration_reads v (hadmits v hv)) with ⟨ds, hds, hreads⟩
  refine ⟨ds, ?_, hreads⟩
  -- The reader keeps the nodes of variables first and takes their objects after.
  rw [declarations, hnodes]
  refine (bind_eq_ok _ _ _).mpr ⟨nodes, rfl, ?_⟩
  rw [filter_isVariable, List.mapM_map, ← hvs]
  exact hds

/-- The members of a struct are read from its definition, which goes by the id that it carries. -/
theorem members_read (index : Index) (howns : OwnIds index.nodes) (typeNode : Record) (id : Json)
    (vs : List Record) (h : Form index typeNode (.struct id vs))
    (hadmits : ∀ v ∈ vs, index.Admits v) :
    ∃ ds, index.members id = .ok ds ∧ List.Forall₂ index.Reads vs ds := by
  cases h with
  | @struct target _ _ refers _ _ declares =>
      rcases index.node_own_id howns _ target refers with ⟨own, hown, hnode⟩
      -- The members are asked for by the id that the definition carries, not by the one that the
      -- name refers to.
      have hid : target.get "id" = own := by rw [Record.get, hown, Option.getD_some]
      rcases index.declarations_read _ vs declares hadmits with ⟨ds, hds, hreads⟩
      refine ⟨ds, ?_, hreads⟩
      rw [hid]
      exact (bind_eq_ok _ _ _).mpr ⟨target, hnode, hds⟩

/-- The variables of contracts are read contract by contract. -/
theorem parts_read (index : Index) (ids : List Json) (parts : List (List Record))
    (h : List.Forall₂ (fun id part => ∃ node, index.node id = .ok node ∧
      Declares (node.getList "nodes") part) ids parts)
    (hadmits : ∀ v ∈ parts.flatten, index.Admits v) :
    ∃ dss, (ids.mapM fun id => do
        let node ← index.node id
        index.declarations (node.getList "nodes")) = .ok dss ∧
      List.Forall₂ index.Reads parts.flatten dss.flatten := by
  induction h with
  | nil => exact ⟨[], rfl, List.Forall₂.nil⟩
  | cons hpart _ ih =>
      rcases hpart with ⟨node, hnode, hdeclares⟩
      rw [List.flatten_cons] at hadmits ⊢
      rcases index.declarations_read _ _ hdeclares
        (fun v hv => hadmits v (List.mem_append_left _ hv)) with ⟨ds, hds, hreads⟩
      -- Each base is read on its own; the parts are joined in the order of the bases.
      rcases ih (fun v hv => hadmits v (List.mem_append_right _ hv)) with ⟨dss, hdss, hrest⟩
      refine ⟨ds :: dss, ?_, ?_⟩
      · rw [List.mapM_cons, hnode, hdss]
        exact (bind_eq_ok _ _ _).mpr ⟨ds, hds, rfl⟩
      · rw [List.flatten_cons]
        exact List.rel_append hreads hrest

/-- The storage of a contract is read from its variables and those of its bases. -/
theorem storage_read (index : Index) (fullName : String) (vs : List Record)
    (h : index.Lists fullName vs) (hadmits : ∀ v ∈ vs, index.Admits v) :
    ∃ ds, index.storage fullName = .ok ds ∧ List.Forall₂ index.Reads vs ds := by
  rcases h with ⟨contract, ids, parts, hcontract, hbases, hvs, hparts⟩
  rw [hvs] at hadmits ⊢
  rcases index.parts_read ids.reverse parts hparts hadmits with ⟨dss, hdss, hreads⟩
  refine ⟨dss.flatten, ?_, hreads⟩
  simp only [storage, hcontract]
  exact (bind_eq_ok _ _ _).mpr ⟨ids, hbases, (bind_eq_ok _ _ _).mpr ⟨dss, hdss, rfl⟩⟩

/-- An element is read as a declaration of its type. -/
theorem element_read (index : Index) (id : Json) (typeNode : Record) (form : TypeForm)
    (hnode : index.node id = .ok typeNode) (hreadable : IsReadable typeNode)
    (hform : Form index typeNode form) :
    ∃ d, index.element id = .ok d ∧ d.constant = false ∧ d.shape = form.shape := by
  rcases hreadable with ⟨description, hdescription⟩
  refine ⟨Declaration.withShape
    { label := .str "", type := Record.getText description "typeIdentifier",
      typeName := Record.getText description "typeString", id } form.shape, ?_, ?_, ?_⟩
  · refine (bind_eq_ok _ _ _).mpr ⟨typeNode, hnode, ?_⟩
    refine (bind_eq_ok _ _ _).mpr ⟨description, hdescription, ?_⟩
    exact (bind_eq_ok _ _ _).mpr ⟨form.shape, shape_of_form hform, rfl⟩
  · rw [Declaration.withShape_constant]
  · exact Declaration.shape_withShape _ _ _ _ _ _ _ _ _ (isTold_of_form hform)

end Index

end StorageLayout.Ast
