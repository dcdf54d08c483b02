import StorageLayout.Proofs.Ast.Content
import StorageLayout.Proofs.Faults

/-!
# What Is Missing When a Reference Is

A reference that cannot be resolved in a build of syntax trees points at a declaration that no tree
has.

The reader looks nodes up by id in five places: for the bases of a contract, for the definition that
a type names, for the element of an array, for the value of a mapping, and for the members of a
struct. Only the first two ids are written down as references. The others are read off a node that
stands in a tree, and they are ids of nodes that stand in it, too: an element's type is inside the
array's, and a struct is asked for by the id that its definition carries. So they are in the table,
whichever of several nodes with one id the table has kept (`node_of_carried`).

That leaves the references. What the table does not have, no tree carries (`isMissing_of_node`). The
keys that the resolver goes on with are never references, but are read off the shapes of type nodes,
so they are found (`HasNodes`); that all of this is kept from one step to the next is
`isSound_index`. Then a layout can only end in a `Fault` whose references are dangling.

## Main definitions

* `Within`: An object stands in a tree of a build.
* `IsMissing`: No object of the trees carries an id.
* `IsReferred`, `IsListedBase`: The two places where ids are written down as references.
* `IsDangling`: An id that is written down as a reference is missing.

## Theorems

* `node_of_carried`, `isMissing_of_node`: What is in the table, and what is not.
* `node_of_childId`, `node_of_keys`, `node_of_contract`: The look-ups that succeed.
* `isSound_index`: What the resolver reads leads to nothing but these look-ups.
* `layoutOf_ends_fault`: The errors of a layout.
* `ends_ofOutput`: The errors of the index.
* `unresolved_isMissing`: An unresolved reference is one to a missing declaration.
-/

namespace StorageLayout.Ast

/-- An object stands in a tree of a build. -/
def Within (sources : Record) (record : Record) : Prop :=
  ∃ tree ∈ treesOf sources, Inside (.obj record) (.obj tree.2)

/-- No object of the trees carries an id. -/
def IsMissing (sources : Record) (key : Json) : Prop :=
  ∃ k, key.key? = some k ∧ ∀ record, Within sources record → ¬ Carries record k

/-- A type in the trees names a definition by an id, which is null where it names none. -/
def IsReferred (sources : Record) (key : Json) : Prop :=
  ∃ record, Within sources record ∧ (record.get "nodeType").isText "UserDefinedTypeName" = true ∧
    record.get "referencedDeclaration" = key

/-- An id is listed among the bases of a contract, which are what going through the member
yields. -/
def IsListedBase (sources : Record) (key : Json) : Prop :=
  ∃ record bases, Within sources record ∧
    (record.get "linearizedBaseContracts").elements = .ok bases ∧ key ∈ bases

/-- An id that is written down as a reference is missing. -/
def IsDangling (sources : Record) (key : Json) : Prop :=
  IsMissing sources key ∧ (IsReferred sources key ∨ IsListedBase sources key)

/-- The keys of a shape lead to nodes. -/
def HasNodes (index : Index) (s : Shape) : Prop := ∀ key ∈ s.keys, ∃ r, index.node key = .ok r

theorem hasNodes_elementary (index : Index) : HasNodes index .elementary :=
  fun _ hkey => absurd hkey List.not_mem_nil

/-- What is read off a declaration has no keys but those of the shape that was put in. -/
theorem hasNodes_withShape {index : Index} (label type typeName id visibility : Json)
    (constant : Bool) (s : Shape) (hs : HasNodes index s) :
    HasNodes index
      (Declaration.withShape { label, type, typeName, id, visibility, constant } s).shape := by
  rw [Declaration.shape_withShape_eq_told]
  exact fun key hkey => hs key (Shape.keys_told_subset s hkey)

/-! ## Places in a tree -/

/-- An object that is a member stands in the same tree. -/
theorem within_member (sources record child : Record) (name : String) (h : Within sources record)
    (hchild : record.get name = .obj child) : Within sources child := by
  rcases h with ⟨tree, htree, hinside⟩
  refine ⟨tree, htree, ?_⟩
  unfold Record.get at hchild
  -- A name that is missing gives null, which is no record.
  cases hfind : record.find? name with
  | none =>
      rw [hfind] at hchild
      exact absurd hchild (by simp only [Option.getD_none, reduceCtorEq, not_false_eq_true])
  | some v =>
      rw [hfind] at hchild
      change v = .obj child at hchild
      rw [hchild] at hfind
      exact (inside_of_find? record name _ hfind).trans hinside

/-- An object among those that a member is gone through for stands in the same tree. -/
theorem within_element (sources record child : Record) (name : String) (items : List Json)
    (h : Within sources record) (hitems : (record.getList name).elements = .ok items)
    (hchild : Json.obj child ∈ items) : Within sources child := by
  rcases h with ⟨tree, htree, hinside⟩
  refine ⟨tree, htree, ?_⟩
  unfold Record.getList at hitems
  cases hfind : record.find? name with
  | none =>
      rw [hfind] at hitems
      injection hitems with hitems
      rw [← hitems] at hchild
      exact absurd hchild List.not_mem_nil
  | some v =>
      rw [hfind] at hitems
      have hmember := (inside_of_find? record name v hfind).trans hinside
      -- Names and characters are no objects, so the member is a list.
      cases v with
      | arr list =>
          injection hitems with hitems
          rw [← hitems] at hchild
          exact (Inside.child (v := .arr list) hchild .self).trans hmember
      | obj members =>
          injection hitems with hitems
          rw [← hitems] at hchild
          rcases List.mem_map.mp hchild with ⟨_, _, hname⟩
          exact absurd hname (by simp only [reduceCtorEq, not_false_eq_true])
      | str s =>
          injection hitems with hitems
          rw [← hitems] at hchild
          rcases List.mem_map.mp hchild with ⟨_, _, hchar⟩
          exact absurd hchar (by simp only [reduceCtorEq, not_false_eq_true])
      | _ => exact absurd hitems (by simp only [Option.getD_some, Json.elements, Defect.fail,
          reduceCtorEq, not_false_eq_true])

namespace Index

section Trees

variable {output : Json} {sources : Record} {index : Index}
variable (hsources : output.record? "sources" = some sources) (h : ofOutput output = .ok index)

include hsources h

/-- A node that is looked up stands in a tree. -/
theorem within_of_node (key : Json) (record : Record) (hnode : index.node key = .ok record) :
    Within sources record := by
  rcases index.node_eq_ok key record hnode with ⟨k, n, _, hfound, hrecord⟩
  rcases found_inside output sources index hsources h k n hfound with ⟨tree, htree, hinside, _⟩
  rw [hrecord] at hinside
  exact ⟨tree, htree, hinside⟩

/-- An id that an object of the trees carries leads to a node. -/
theorem node_of_carried (record : Record) (id : Json) (hrecord : Within sources record)
    (hid : record.find? "id" = some id) : ∃ r, index.node id = .ok r := by
  rcases hrecord with ⟨tree, htree, hinside⟩
  rcases inside_found output sources index hsources h tree htree record hinside id hid with
    ⟨k, hk, n, hn⟩
  exact ⟨n.record, index.node_of_found id k n hk hn⟩

/-- An id that leads to no node is carried by no object of the trees. -/
theorem isMissing_of_node (id key : Json) (hnode : index.node id = .error (.unresolved key)) :
    key = id ∧ IsMissing sources id := by
  unfold node Json.asKey at hnode
  cases hk : id.key? with
  | none =>
      rw [hk] at hnode
      exact absurd hnode (by simp only [Defect.fail, bind, Except.bind, Except.error.injEq,
        reduceCtorEq, not_false_eq_true])
  | some k =>
      rw [hk, ok_bind] at hnode
      -- That the look-up failed is known for the key, and two ids may have one key.
      have hnone : index.nodes.find? k = none := by
        cases hfound : index.nodes.find? k with
        | none => rfl
        | some n =>
            rw [hfound] at hnode
            exact absurd hnode (by simp only [pure, Except.pure, reduceCtorEq, not_false_eq_true])
      rw [hnone] at hnode
      injection hnode with hnode
      injection hnode with hnode
      refine ⟨hnode.symm, k, hk, ?_⟩
      -- Every record inside a tree has been entered, so one that carries this key would have been
      -- found.
      rintro record ⟨tree, htree, hinside⟩ ⟨own, hown, hkey⟩
      rcases inside_found output sources index hsources h tree htree record hinside own hown with
        ⟨l, hl, n, hn⟩
      rw [hkey] at hl
      injection hl with hl
      rw [← hl, hnone] at hn
      exact absurd hn (by simp only [reduceCtorEq, not_false_eq_true])

/-- The element of an array and the value of a mapping lead to nodes. -/
theorem node_of_childId (typeNode : Record) (htypeNode : Within sources typeNode) (field : String)
    (id : Json) (hid : childId typeNode field = .ok id) : ∃ r, index.node id = .ok r := by
  unfold childId at hid
  -- Whoever has the id of a child has the child itself, and it is inside the tree together with its
  -- parent.
  cases hchild : typeNode.get field with
  | obj child =>
      rw [hchild] at hid
      cases hfind : Assoc.find? "id" child with
      | none =>
          rw [show (Json.obj child).members? = some child from rfl, Option.bind_some, hfind] at hid
          exact absurd hid (by simp only [reduceCtorEq, not_false_eq_true])
      | some own =>
          rw [show (Json.obj child).members? = some child from rfl, Option.bind_some, hfind] at hid
          injection hid with hid
          rw [hid] at hfind
          exact node_of_carried hsources h child id
            (within_member sources typeNode child field htypeNode hchild) hfind
  | _ =>
      rw [hchild] at hid
      exact absurd hid (by simp only [Json.members?, Option.bind_none, reduceCtorEq,
        not_false_eq_true])

omit hsources in
/-- A definition leads to a node by the id that it carries. -/
theorem node_of_definition (key : Json) (target : Record) (hnode : index.node key = .ok target) :
    ∃ r, index.node (target.get "id") = .ok r := by
  rcases index.node_own_id (ofOutput_ownIds output index h) key target hnode with
    ⟨own, hown, hfound⟩
  rw [Record.get, hown, Option.getD_some]
  exact ⟨target, hfound⟩

/-- A contract that is listed is a definition at the top of a tree. -/
theorem within_of_contract (fullName : String) (contract : Record)
    (hcontract : index.contracts.find? fullName = some contract) : Within sources contract := by
  rw [ofOutput_definitions output sources index hsources h] at hcontract
  have hmem := Assoc.find?_ofList_mem fullName contract _ hcontract
  rcases List.mem_flatMap.mp hmem with ⟨tree, htree, hdefinition⟩
  rcases mem_definitionsIn _ _ _ _ hdefinition with ⟨_, ⟨items, hitems, hmember, _⟩, _⟩
  exact within_element sources tree.2 contract "nodes" items ⟨tree, htree, .self⟩ hitems hmember

/-- A contract leads to a node by the id that it carries. -/
theorem node_of_contract (fullName : String) (contract : Record)
    (hcontract : index.contracts.find? fullName = some contract) (id : Json)
    (hid : contract.find? "id" = some id) : ∃ r, index.node id = .ok r :=
  node_of_carried hsources h contract id
    (within_of_contract hsources h fullName contract hcontract) hid

/-! ## The errors of the readers -/

/-- A reference leads to a node, or to nothing that the trees have. -/
theorem ends_node (id : Json) (hid : IsReferred sources id ∨ IsListedBase sources id) :
    Ends (Fault (IsDangling sources)) (fun r => index.node id = .ok r) (index.node id) := by
  refine Ends.intro (fun _ hr => hr) (fun e he => ?_)
  have hmissing := isMissing_of_node hsources h id
  unfold node at he hmissing
  -- Of the two ways to fail, an id of a wrong kind says nothing about the table.
  cases hk : id.asKey with
  | error defect =>
      rw [hk] at he
      injection he with he
      rw [← he]
      exact (ends_asKey (fun _ => .form) id).of_error hk
  | ok k =>
      rw [hk, ok_bind] at he hmissing
      cases hfound : index.nodes.find? k with
      | some n =>
          rw [hfound] at he
          exact absurd he (by simp only [pure, Except.pure, reduceCtorEq, not_false_eq_true])
      | none =>
          rw [hfound] at he hmissing
          injection he with he
          rw [← he]
          exact .unresolved ⟨(hmissing id rfl).2, hid⟩

omit hsources h in
theorem ends_arrayLength (typeNode : Record) :
    Ends (Fault (IsDangling sources)) (fun _ => True) (arrayLength typeNode) := by
  unfold arrayLength
  simp only
  -- The length is taken from the literal, or from the text of the type. No id is followed for it.
  split
  · exact trivial
  · split
    · exact trivial
    · refine Ends.bind (ends_orEmpty (fun _ => .form) _ _) (fun description _ => ?_)
      refine Ends.bind (ends_asText (fun _ => .form) _) (fun label _ => ?_)
      split
      · exact ends_lengthOfDigits (fun _ => .form) _
      · exact .form rfl

omit hsources h in
theorem ends_childId (typeNode : Record) (field : String) :
    Ends (Fault (IsDangling sources)) (fun id => childId typeNode field = .ok id)
      (childId typeNode field) := by
  unfold childId
  split
  · exact rfl
  · exact .form rfl

omit hsources h in
theorem ends_mappingKeyType (typeNode : Record) :
    Ends (Fault (IsDangling sources)) (fun _ => True) (mappingKeyType typeNode) := by
  refine Ends.bind (ends_orEmpty (fun _ => .form) _ _) (fun keyType _ => ?_)
  exact Ends.bind (ends_orEmpty (fun _ => .form) _ _) (fun _ _ => trivial)

/-- The shape of a type node has keys that lead to nodes, and the only other look-up is that of the
definition that it names. -/
theorem ends_shape (typeNode : Json) (hwithin : ∀ r, typeNode = .obj r → Within sources r) :
    Ends (Fault (IsDangling sources)) (HasNodes index) (index.shape typeNode) := by
  have hnone := hasNodes_elementary index
  unfold shape
  cases typeNode with
  | obj record =>
      have hchild := node_of_childId hsources h record (hwithin record rfl)
      simp only [Json.members?]
      split
      · refine Ends.bind (ends_arrayLength record) (fun length _ => ?_)
        refine Ends.bind (ends_childId record "baseType") (fun element helement => ?_)
        -- With or without a length, the element is the one key.
        have hkeys : (arrayShape length element).keys = [element] := by
          unfold arrayShape
          split <;> rfl
        intro key hkey
        rw [hkeys, List.mem_singleton] at hkey
        rw [hkey]
        exact hchild "baseType" element helement
      · split
        · refine Ends.bind (ends_mappingKeyType record) (fun keyType _ => ?_)
          refine Ends.bind (ends_childId record "valueType") (fun value hvalue => ?_)
          intro key hkey
          rw [List.mem_singleton.mp hkey]
          exact hchild "valueType" value hvalue
        · split
          · rename_i hname
            have hreferred : IsReferred sources (Record.get record "referencedDeclaration") :=
              ⟨record, hwithin record rfl, hname, rfl⟩
            refine Ends.bind (ends_node hsources h _ (Or.inl hreferred)) (fun target htarget => ?_)
            split
            · intro key hkey
              rw [List.mem_singleton.mp hkey]
              exact node_of_definition h _ target htarget
            · exact hnone
          · exact hnone
  | _ => exact hnone

theorem ends_declaration (node : Record) (hnode : Within sources node) :
    Ends (Fault (IsDangling sources)) (fun d => HasNodes index d.shape)
      (index.declaration node) := by
  refine Ends.bind (ends_orEmpty (fun _ => .form) _ _) (fun description _ => ?_)
  -- The type of a constant is not looked at.
  simp only
  split
  · exact hasNodes_withShape _ _ _ _ _ _ _ (hasNodes_elementary index)
  · refine Ends.bind (ends_shape hsources h _ ?_) (fun s hs => ?_)
    · exact fun r hr => within_member sources node r "typeName" hnode hr
    · exact hasNodes_withShape _ _ _ _ _ _ s hs

/-- The variables that a member of a node declares. -/
theorem ends_declarations (node : Record) (name : String) (hnode : Within sources node) :
    Ends (Fault (IsDangling sources)) (fun ds => ∀ d ∈ ds, HasNodes index d.shape)
      (index.declarations (node.getList name)) := by
  refine Ends.bind (ends_elements (fun _ => .form) _) (fun items hitems => ?_)
  refine Ends.mapM _ (fun item hitem => ?_)
  refine Ends.bind (ends_asRecord (fun _ => .form) item) (fun record hrecord => ?_)
  have hmem := List.mem_of_mem_filter hitem
  rw [hrecord] at hmem
  exact ends_declaration hsources h record
    (within_element sources node record name items hnode hitems hmem)

theorem ends_storage (fullName : String) (contract : Record)
    (hcontract : index.contracts.find? fullName = some contract) :
    Ends (Fault (IsDangling sources)) (fun ds => ∀ d ∈ ds, HasNodes index d.shape)
      (index.storage fullName) := by
  have hwithin := within_of_contract hsources h fullName contract hcontract
  -- A base is listed, or it is the contract itself.
  have hbases : Ends (Fault (IsDangling sources))
      (fun ids => ∀ id ∈ ids, IsListedBase sources id ∨ ∃ r, index.node id = .ok r)
      (bases contract) := by
    unfold bases
    simp only
    split
    · refine Ends.bind (ends_member (fun _ => .form) contract "id") (fun own hown => ?_)
      intro id hid
      rw [List.mem_singleton.mp hid]
      exact Or.inr (node_of_contract hsources h fullName contract hcontract own hown)
    · refine (ends_elements (fun _ => .form) _).imp (fun ids hids id hid => ?_)
      exact Or.inl ⟨contract, ids, hwithin, hids, hid⟩
  unfold storage
  rw [hcontract]
  refine Ends.bind hbases (fun ids hids => ?_)
  have hparts : Ends (Fault (IsDangling sources)) (fun parts => ∀ part ∈ parts, ∀ d ∈ part,
      HasNodes index d.shape) (ids.reverse.mapM fun base => do
        let node ← index.node base
        index.declarations (node.getList "nodes")) := by
    refine Ends.mapM _ (fun base hbase => ?_)
    have hnode : Ends (Fault (IsDangling sources)) (fun r => index.node base = .ok r)
        (index.node base) := by
      rcases hids base (List.mem_reverse.mp hbase) with hlisted | ⟨r, hr⟩
      · exact ends_node hsources h base (Or.inr hlisted)
      · rw [hr]
        exact rfl
    refine Ends.bind hnode (fun node hfound => ?_)
    exact ends_declarations hsources h node "nodes" (within_of_node hsources h base node hfound)
  refine Ends.bind hparts (fun parts hall d hd => ?_)
  rcases List.mem_flatten.mp hd with ⟨part, hpart, hd⟩
  exact hall part hpart d hd

/-- What the resolver reads leads to nothing but references and nodes that are there. -/
theorem isSound_index : IsSound (IsDangling sources) (HasNodes index) (.ast index) where
  members m hm := by
    rcases hm m List.mem_cons_self with ⟨node, hnode⟩
    change Ends _ _ (index.members m)
    rw [members, hnode]
    exact ends_declarations hsources h node "members" (within_of_node hsources h m node hnode)
  element s key hs hkey := by
    -- Of the three shapes with an element its key is the only one they hold.
    have hmem : key ∈ s.keys := by
      cases s with
      | fixedArray length element =>
          injection hkey with hkey
          rw [hkey]
          exact List.mem_cons_self
      | dynamicArray element =>
          injection hkey with hkey
          rw [hkey]
          exact List.mem_cons_self
      | mapping keyType value =>
          injection hkey with hkey
          rw [hkey]
          exact List.mem_cons_self
      | _ => exact absurd hkey (by simp only [Shape.element?, reduceCtorEq, not_false_eq_true])
    rcases hs key hmem with ⟨node, hnode⟩
    change Ends _ _ (index.element key)
    rw [element, hnode, ok_bind]
    refine Ends.bind (ends_orEmpty (fun _ => .form) _ _) (fun description _ => ?_)
    refine Ends.bind (ends_shape hsources h (.obj node) ?_) (fun shape hshape => ?_)
    · intro r hr
      injection hr with hr
      rw [← hr]
      exact within_of_node hsources h key node hnode
    · exact hasNodes_withShape _ _ _ _ _ _ shape hshape

/-- The errors of the layout of a listed contract. -/
theorem layoutOf_ends_fault (fullName : String) (contract : Record)
    (hcontract : index.contracts.find? fullName = some contract) (limit : DepthLimit) :
    Ends (Fault (IsDangling sources)) (fun _ => True) (layoutOf (.ast index) fullName limit) :=
  layoutOf_ends (isSound_index hsources h) fullName limit
    (ends_storage hsources h fullName contract hcontract)

end Trees

end Index

section Indexing

variable {P : Error → Prop} (hP : ∀ e, e.isOfForm = true → P e)

include hP

theorem ends_walk (stack : List Json) (nodes : Nodes) :
    Ends P (fun _ => True) (walk stack nodes) := by
  -- The recursion of the walk. A value without members leaves the table as it is.
  induction stack, nodes using walk.induct with
  | case1 nodes =>
      rw [walk]
      exact trivial
  | case2 v stack nodes record hv ih =>
      have henter : Ends P (fun _ => True) (enter record nodes) := by
        unfold enter
        split
        · exact trivial
        · exact Ends.bind (ends_asKey hP _) (fun _ _ => trivial)
      rw [walk, hv]
      exact Ends.bind henter (fun entered _ => ih entered)
  | case3 v stack nodes hv ih =>
      rw [walk, hv]
      exact ih nodes

theorem ends_enterContract (path : String) (contracts : Assoc String Record) (node : Json) :
    Ends P (fun _ => True) (enterContract path contracts node) := by
  unfold enterContract
  split
  · split
    · refine Ends.bind (ends_member hP _ "name") (fun name _ => ?_)
      exact Ends.bind (ends_shown hP name) (fun _ _ => trivial)
    · exact trivial
  · exact trivial

/-- The index of compiler output can fail for want of trees, or because of their form. -/
theorem ends_ofOutput (hsources : P .noSources) (hast : ∀ path, P (.noAst path)) (output : Json) :
    Ends P (fun _ => True) (Index.ofOutput output) := by
  unfold Index.ofOutput
  -- Only two errors are told here: no sources at all, and a source without its tree.
  split
  · exact hsources
  · refine Ends.foldlM _ (fun index unit _ _ => ?_) _ trivial
    unfold enterSource
    split
    · exact hast unit.1
    · rename_i ast _
      refine Ends.bind (ends_walk hP _ _) (fun nodes _ => ?_)
      refine Ends.bind (ends_elements hP _) (fun top _ => ?_)
      have htop : Ends P (fun _ => True) (top.foldlM (enterContract unit.1) index.contracts) :=
        Ends.foldlM top (fun contracts node _ _ => ends_enterContract hP unit.1 contracts node) _
          trivial
      exact Ends.bind htop (fun _ _ => trivial)

end Indexing

/-- An unresolved reference points at a declaration that is really missing.

If the layout of a listed contract ends in one, no object of the trees carries the id, and the id is
written down as a reference: in a type that names a definition, or in a list of bases. No other
look-up can end so. The element of an array and the value of a mapping, the keys that come with the
shape of any type node of the trees, among them that of a struct's members, and the contract's own
id all lead to nodes. -/
theorem unresolved_isMissing (output : Json) (sources : Record) (index : Index)
    (hsources : output.record? "sources" = some sources) (h : Index.ofOutput output = .ok index) :
    (∀ fullName contract limit key, index.contracts.find? fullName = some contract →
      layoutOf (.ast index) fullName limit = .error (.unresolved key) →
      IsMissing sources key ∧ (IsReferred sources key ∨ IsListedBase sources key)) ∧
    (∀ typeNode, Within sources typeNode →
      (∀ field id, childId typeNode field = .ok id → ∃ r, index.node id = .ok r) ∧
      ∀ s, index.shape (.obj typeNode) = .ok s → HasNodes index s) ∧
    ∀ fullName contract id, index.contracts.find? fullName = some contract →
      contract.find? "id" = some id → ∃ r, index.node id = .ok r := by
  refine ⟨fun fullName contract limit key hcontract hlayout => ?_, fun typeNode htypeNode => ?_,
    fun fullName contract id hcontract hid => ?_⟩
  · have hfault := (Index.layoutOf_ends_fault hsources h fullName contract hcontract
      limit).of_error hlayout
    -- The other errors are of a form that does not name a key.
    cases hfault with
    | form hform => exact absurd hform (by simp only [Error.isOfForm, Bool.false_eq_true,
        not_false_eq_true])
    | unresolved hdangling => exact hdangling
  · refine ⟨Index.node_of_childId hsources h typeNode htypeNode, fun s hs => ?_⟩
    refine (Index.ends_shape hsources h (.obj typeNode) (fun r hr => ?_)).of_ok hs
    injection hr with hr
    rw [← hr]
    exact htypeNode
  · exact Index.node_of_contract hsources h fullName contract hcontract id hid

/-- The tree of a contract with a variable whose struct is defined nowhere. -/
def looseTree : Record :=
  [("id", .int 0), ("nodes", .arr [.obj [("id", .int 1), ("nodeType", .str "ContractDefinition"),
    ("name", .str "Loose"), ("linearizedBaseContracts", .arr [.int 1]),
    ("nodes", .arr [.obj [("id", .int 2), ("nodeType", .str "VariableDeclaration"),
      ("name", .str "point"), ("typeName", .obj [("id", .int 3),
        ("nodeType", .str "UserDefinedTypeName"), ("referencedDeclaration", .int 99)])]])]])]

/-- The sources of a build with this tree. -/
def looseSources : Record := [("a.sol", .obj [("ast", .obj looseTree)])]

/-- The struct that cannot be resolved is missing. -/
theorem unresolved_isMissing_loose :
    ∃ index, Index.ofOutput (.obj [("sources", .obj looseSources)]) = .ok index ∧
      layoutOf (.ast index) "a.sol:Loose" (.ofNat 64) = .error (.unresolved (.int 99)) ∧
      IsMissing looseSources (.int 99) := by
  have hindex : ∃ index contract,
      Index.ofOutput (.obj [("sources", .obj looseSources)]) = .ok index ∧
      index.contracts.find? "a.sol:Loose" = some contract ∧
      layoutOf (.ast index) "a.sol:Loose" (.ofNat 64) = .error (.unresolved (.int 99)) :=
    ⟨_, _, by with_unfolding_all rfl, rfl, by with_unfolding_all rfl⟩
  rcases hindex with ⟨index, contract, hindex, hcontract, hlayout⟩
  have hmissing := (unresolved_isMissing _ looseSources index rfl hindex).1 "a.sol:Loose" contract
    (.ofNat 64) (.int 99) hcontract hlayout
  exact ⟨index, hindex, hlayout, hmissing.1⟩

end StorageLayout.Ast
