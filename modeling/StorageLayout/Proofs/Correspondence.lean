import StorageLayout.Proofs.Ast.Types
import StorageLayout.Proofs.DepthLimit
import StorageLayout.Proofs.Emitted.Types
import StorageLayout.Proofs.Simulation

/-!
# Syntax Trees and Emitted Layouts Agree

The same build, read from its syntax trees and from its emitted layouts.

The two encodings have nothing in common that could be compared: one links nodes by ids across
sources, the other keeps records by the keys of types. What relates them has to be given from
outside, as a relation `R` between the ids of type nodes and the keys of types. `Corresponds` asks
that related types have one form and that their parts are related again, and then a contract with
the same variables in both has the same layout in both.

An id can be carried by several objects. The table knows the last of them, and by that one an
element is found; but a variable holds the node of its type itself, and the reader takes it from
there. So whatever stands under an id in either way has to be of the form that is asked for
(`IsTypeNode`).

The layouts are alike by simulation. Two shapes are linked if they are those of related types
(`Linked`), and unfolding them leads to linked shapes again: for an element by the relation itself,
for a struct variable by variable.

## Main definitions

* `SameVariable`: A variable of a tree and an entry that stands for it.
* `SameForm`: Two types of one form, with related parts.
* `Corresponds`: A relation under which the types agree.
* `Linked`: The shapes of related types.

## Theorems

* `sameElements_of_related`, `sameVariables_of_reads`: Unfolding leads to linked shapes.
* `linked_isSimulation`: So the shapes of related types can be followed in lockstep.
* `layoutOf_ast_alike_emitted`: A contract has the same layout in both, or none in both.
-/

namespace StorageLayout

/-- A type node with an id: the one that the id leads to, or that of a variable. -/
def Ast.Index.IsTypeNode (index : Ast.Index) (id : Json) (typeNode : Record) : Prop :=
  index.node id = .ok typeNode ∨
    ∃ v, index.IsVariableOf v ∧ isConstant v = false ∧ v.get "typeName" = .obj typeNode ∧
      typeNode.find? "id" = some id

/-- What is made of two related lists, item by item, is related, too. -/
theorem forall₂_of_made {α β γ δ : Type} {P : α → β → Prop} {Q : α → γ → Prop} {Q' : β → δ → Prop}
    {S : γ → δ → Prop} (xs : List α) (ys : List β) (as : List γ) (bs : List δ)
    (h : List.Forall₂ P xs ys) (ha : List.Forall₂ Q xs as) (hb : List.Forall₂ Q' ys bs)
    (hS : ∀ x ∈ xs, ∀ y a b, P x y → Q x a → Q' y b → S a b) : List.Forall₂ S as bs := by
  -- The two lists of results are as long as those that they were made from.
  induction h generalizing as bs with
  | nil =>
      cases ha
      cases hb
      exact List.Forall₂.nil
  | cons hxy _ ih =>
      cases ha with
      | cons hxa has =>
          cases hb with
          | cons hyb hbs =>
              refine List.Forall₂.cons (hS _ List.mem_cons_self _ _ _ hxy hxa hyb) ?_
              exact ih _ _ has hbs (fun x hx => hS x (List.mem_cons_of_mem _ hx))

section Relation

variable (R : Json → Json → Prop)

/-- A variable of a tree and an entry that stands for it: one name, and related types. -/
structure SameVariable (v : Record) (entry : Json) : Prop where
  name : v.getText "name" = Emitted.entryLabel entry
  readable : Emitted.IsReadable entry
  type : ∃ (typeNode : Record) (id : Json), v.get "typeName" = .obj typeNode ∧
    typeNode.find? "id" = some id ∧ R id (Emitted.entryType entry)

/-- Two types of one form, with related parts. -/
inductive SameForm : Ast.TypeForm → Emitted.TypeForm → Prop
  | fixedArray {length : Int} {e e' : Json} (h : R e e') :
      SameForm (.fixedArray length e) (.fixedArray length e')
  | dynamicArray {e e' : Json} (h : R e e') : SameForm (.dynamicArray e) (.dynamicArray e')
  | mapping {k k' v v' : Json} (h : R v v') : SameForm (.mapping k v) (.mapping k' v')
  | struct {id : Json} {vs : List Record} {es : List Json}
      (h : List.Forall₂ (SameVariable R) (Ast.stored vs) es) : SameForm (.struct id vs) (.struct es)
  | elementary : SameForm .elementary .elementary

/-- A relation under which the types of syntax trees and of emitted layouts agree. -/
structure Corresponds (trees : Ast.Index) (emitted : Emitted.Index) : Prop where
  /-- The id of a related type leads to a node that can be read. -/
  node : ∀ id key, R id key → ∃ typeNode, trees.node id = .ok typeNode ∧ Ast.IsReadable typeNode
  form : ∀ id key typeNode, R id key → trees.IsTypeNode id typeNode →
    ∃ form form', Ast.Form trees typeNode form ∧ emitted.Describes key form' ∧ SameForm R form form'

end Relation

/-- Where the id of a variable's type leads to the type that the variable holds, an id stands for
one node only, and the types of the table are all that has to be compared. -/
theorem corresponds_of_nodes (R : Json → Json → Prop) (trees : Ast.Index) (emitted : Emitted.Index)
    (hown : ∀ v ∈ trees.variablesOfAll, ∀ (typeNode : Record) (id : Json),
      v.get "typeName" = .obj typeNode → typeNode.find? "id" = some id →
      trees.node id = .ok typeNode)
    (hform : ∀ id key, R id key → ∃ typeNode form form', trees.node id = .ok typeNode ∧
      Ast.IsReadable typeNode ∧ Ast.Form trees typeNode form ∧ emitted.Describes key form' ∧
      SameForm R form form') : Corresponds R trees emitted where
  node id key h := by
    rcases hform id key h with ⟨typeNode, _, _, hnode, hreadable, _⟩
    exact ⟨typeNode, hnode, hreadable⟩
  form id key typeNode h htype := by
    -- A variable's own node is the one in the table, so there is one node to look at.
    have hnode : trees.node id = .ok typeNode := by
      rcases htype with hnode | ⟨v, hv, _, hname, hid⟩
      · exact hnode
      · exact hown v hv.mem_variablesOfAll typeNode id hname hid
    rcases hform id key h with ⟨typeNode', form, form', hnode', _, hrest⟩
    rw [hnode] at hnode'
    injection hnode' with hnode'
    rw [hnode']
    exact ⟨form, form', hrest⟩

/-- The shapes of related types. -/
def Linked (R : Json → Json → Prop) (trees : Ast.Index) (emitted : Emitted.Index) (a b : Shape) :
    Prop :=
  ∃ typeNode key form form', Ast.Form trees typeNode form ∧ emitted.Describes key form' ∧
    SameForm R form form' ∧ a = form.shape ∧ b = form'.shape key

section Agreement

variable (R : Json → Json → Prop) (trees : Ast.Index) (emitted : Emitted.Index)
variable (hR : Corresponds R trees emitted)

include hR

/-- Under related keys, both sources have elements of linked shapes. -/
theorem sameElements_of_related (id key : Json) (h : R id key) :
    SameElements (.ast trees) (.layout emitted) (Linked R trees emitted) id key := by
  rcases hR.node id key h with ⟨typeNode, hnode, hreadable⟩
  rcases hR.form id key typeNode h (Or.inl hnode) with ⟨form, form', hform, hform', hsame⟩
  rcases trees.element_read id typeNode form hnode hreadable hform with ⟨d, hd, hstored, hshape⟩
  rcases emitted.element_presents key form' hform' with ⟨d', hd', htype, hpresents⟩
  have hshape' := hpresents.shape_eq key form' htype hform'
  exact ⟨d, d', hd, hd', hstored, hpresents.1,
    typeNode, key, form, form', hform, hform', hsame, hshape, hshape'⟩

/-- A variable and its entry have types of one form, by what the variable holds itself. -/
theorem forms_of_sameVariable (v : Record) (e : Json) (hv : trees.IsVariableOf v)
    (hstored : Ast.isConstant v = false) (h : SameVariable R v e) :
    ∃ typeNode form form', v.get "typeName" = .obj typeNode ∧ Ast.Form trees typeNode form ∧
      emitted.Describes (Emitted.entryType e) form' ∧ SameForm R form form' := by
  rcases h.type with ⟨typeNode, id, htype, hid, hrelated⟩
  rcases hR.form id _ typeNode hrelated (Or.inr ⟨v, hv, hstored, htype, hid⟩) with
    ⟨form, form', hform, hform', hsame⟩
  exact ⟨typeNode, form, form', htype, hform, hform', hsame⟩

/-- What is read of a variable and of its entry has one label and linked shapes. -/
theorem linked_of_reads (v : Record) (e : Json) (d d' : Declaration) (hv : trees.IsVariableOf v)
    (hstored : Ast.isConstant v = false) (h : SameVariable R v e) (hd : trees.Reads v d)
    (hd' : emitted.Reads e d') : d.label = d'.label ∧ Linked R trees emitted d.shape d'.shape := by
  rcases forms_of_sameVariable R trees emitted hR v e hv hstored h with
    ⟨typeNode, form, form', htype, hform, hform', hsame⟩
  rcases hd with ⟨hlabel, _, hshape⟩
  rcases hd' with ⟨hlabel', htype', hpresents⟩
  -- The form that the declaration was given is the one that the relation speaks of.
  have hshape' := hpresents.shape_eq _ form' htype' hform'
  exact ⟨by rw [hlabel, hlabel', h.name], typeNode, _, form, form', hform, hform', hsame,
    hshape hstored typeNode form htype hform, hshape'⟩

section Variables

variable (vs : List Record) (es : List Json) (hvs : ∀ v ∈ vs, trees.IsVariableOf v)
variable (h : List.Forall₂ (SameVariable R) (Ast.stored vs) es)

include hvs h

/-- All variables can be read, the constants among them, too. -/
theorem admits_variables : ∀ v ∈ vs, trees.Admits v := by
  intro v hv
  refine ⟨(hvs v hv).readable, fun hstored => ?_⟩
  have hmem : v ∈ Ast.stored vs := List.mem_filter.mpr ⟨hv, by rw [hstored]; rfl⟩
  rcases exists_partner _ es h v hmem with ⟨e, _, hve⟩
  rcases forms_of_sameVariable R trees emitted hR v e (hvs v hv) hstored hve with
    ⟨typeNode, form, _, htype, hform, _⟩
  exact ⟨typeNode, form, htype, hform⟩

/-- All entries can be read. -/
theorem admits_entries : ∀ e ∈ es, emitted.Admits e := by
  intro e he
  rcases exists_partner es _ h.flip e he with ⟨v, hv, hve⟩
  rcases Ast.mem_stored v vs hv with ⟨hmem, hstored⟩
  rcases forms_of_sameVariable R trees emitted hR v e (hvs v hmem) hstored hve with
    ⟨_, _, form', _, _, hform', _⟩
  exact ⟨hve.readable, form', hform'⟩

/-- What is read of variables and of their entries agrees on all that occupies storage. -/
theorem sameVariables_of_reads (ds ds' : List Declaration) (hds : List.Forall₂ trees.Reads vs ds)
    (hds' : List.Forall₂ emitted.Reads es ds') :
    SameVariables (Linked R trees emitted) ds ds' := by
  have hstored : List.Forall₂ trees.Reads (Ast.stored vs) (ds.filter (!·.constant)) :=
    Ast.stored_forall₂ vs ds (fun _ _ hvd => hvd.2.1) hds
  -- The declarations of entries are never constant, so none of them is left out.
  have hall : ds'.filter (fun d => !d.constant) = ds' := by
    rw [List.filter_eq_self]
    intro d hd
    rw [(emitted.presents_of_reads es ds' hds' d hd).1]
    rfl
  rw [SameVariables, hall]
  refine forall₂_of_made _ es _ ds' h hstored hds' (fun v hv e d d' hve hvd hed => ?_)
  rcases Ast.mem_stored v vs hv with ⟨hmem, hconstant⟩
  exact linked_of_reads R trees emitted hR v e d d' (hvs v hmem) hconstant hve hvd hed

end Variables

/-- Unfolding leads from linked shapes to linked shapes, so both sources can be followed in
lockstep. Members are found because each object of the trees stands under its own id. -/
theorem linked_isSimulation (howns : Ast.OwnIds trees.nodes) :
    IsSimulation (.ast trees) (.layout emitted) (Linked R trees emitted) := by
  rintro a b ⟨typeNode, key, form, form', hform, hform', hsame, ha, hb⟩
  rw [ha, hb]
  cases hsame with
  | elementary => exact .elementary
  | fixedArray h => exact .fixedArray (sameElements_of_related R trees emitted hR _ _ h)
  | dynamicArray h => exact .dynamicArray (sameElements_of_related R trees emitted hR _ _ h)
  | mapping h =>
      -- The types of keys are each read from their own side, and only there.
      cases hform with
      | mapping _ _ _ keyNotNull keyShowable _ =>
          rcases hform' with ⟨_, _, hform'⟩
          cases hform' with
          | mapping _ _ _ keyNotNull' keyShowable' _ =>
              exact .mapping ⟨keyNotNull, keyShowable⟩ ⟨keyNotNull', keyShowable'⟩
                (sameElements_of_related R trees emitted hR _ _ h)
  | @struct id vs es h =>
      have hvs := Ast.isVariableOf_of_struct hform
      rcases trees.members_read howns typeNode id vs hform
        (admits_variables R trees emitted hR vs es hvs h) with ⟨ds, hds, hreads⟩
      rcases emitted.members_read key es hform'
        (admits_entries R trees emitted hR vs es hvs h) with ⟨ds', hds', hreads'⟩
      exact .struct hds hds'
        (sameVariables_of_reads R trees emitted hR vs es hvs h ds ds' hreads hreads')

end Agreement

/-- The syntax trees and the emitted layouts of a build lead to the same layout of a contract.

The types agree under a relation between the ids of type nodes and the keys of types, and the
variables of the contract and its bases, constants left out, have the names of its storage entries
and related types. Then under every limit in range either both sources give a layout, with the same
nodes in the same places, or types are nested too deep in both. -/
theorem layoutOf_ast_alike_emitted (output : Json) (trees : Ast.Index)
    (htrees : Ast.Index.ofOutput output = .ok trees) (emitted : Emitted.Index)
    (R : Json → Json → Prop) (hR : Corresponds R trees emitted) (fullName : String)
    (vs : List Record) (hvs : trees.Lists fullName vs) (es : List Json)
    (hes : emitted.Lists fullName es) (h : List.Forall₂ (SameVariable R) (Ast.stored vs) es)
    (limit : DepthLimit) (hlimit : limit.inRange = true) :
    (∃ forest forest', layoutOf (.ast trees) fullName limit = .ok forest ∧
      layoutOf (.layout emitted) fullName limit = .ok forest' ∧ SameForest forest forest') ∨
    (layoutOf (.ast trees) fullName limit = .error (.nestedTooDeep limit.written) ∧
      layoutOf (.layout emitted) fullName limit = .error (.nestedTooDeep limit.written)) := by
  have howns := Ast.Index.ofOutput_ownIds output trees htrees
  have hvariables := Ast.Index.isVariableOf_of_lists hvs
  -- Both sources read their variables, because they are admitted.
  rcases trees.storage_read fullName vs hvs
    (admits_variables R trees emitted hR vs es hvariables h) with ⟨ds, hds, hreads⟩
  rcases emitted.storage_read fullName es hes
    (admits_entries R trees emitted hR vs es hvariables h) with ⟨ds', hds', hreads'⟩
  -- From here on the two resolvers go side by side, since linked declarations lead to linked ones.
  have htracks := layoutOf_alike (.ast trees) (.layout emitted) (Linked R trees emitted)
    (linked_isSimulation R trees emitted hR howns) fullName limit hlimit ds ds' hds hds'
    (sameVariables_of_reads R trees emitted hR vs es hvariables h ds ds' hreads hreads')
  rcases htracks.ok_or_error with ⟨forest, forest', hf, hf', hsame⟩ | ⟨e, f, he, hf, hef⟩
  · exact Or.inl ⟨forest, forest', hf, hf', hsame⟩
  · -- The comparison admits one error only, that of the limit.
    exact Or.inr ⟨by rw [he, hef.1], by rw [hf, hef.2]⟩

/-- The nodes of a contract with a mapping from addresses to lists of a struct. -/
def pointElementary : Record := [("id", .int 4), ("nodeType", .str "ElementaryTypeName")]

def pointMember : Record :=
  [("id", .int 3), ("nodeType", .str "VariableDeclaration"), ("name", .str "x"),
    ("typeName", .obj pointElementary)]

def pointDefinition : Record :=
  [("id", .int 2), ("nodeType", .str "StructDefinition"), ("members", .arr [.obj pointMember])]

def pointName : Record :=
  [("id", .int 7), ("nodeType", .str "UserDefinedTypeName"), ("referencedDeclaration", .int 2)]

def pointList : Record :=
  [("id", .int 6), ("nodeType", .str "ArrayTypeName"), ("baseType", .obj pointName)]

def pointMapping : Record :=
  [("id", .int 5), ("nodeType", .str "Mapping"), ("keyType", .obj
    [("typeDescriptions", .obj [("typeIdentifier", .str "t_address")])]),
    ("valueType", .obj pointList)]

def pointVariable : Record :=
  [("id", .int 8), ("nodeType", .str "VariableDeclaration"), ("name", .str "points"),
    ("typeName", .obj pointMapping)]

def pointContract : Record :=
  [("id", .int 1), ("nodeType", .str "ContractDefinition"), ("name", .str "A"),
    ("nodes", .arr [.obj pointDefinition, .obj pointVariable])]

/-- The compiler output with its syntax tree, and what is found there. -/
def pointOutput : Json :=
  .obj [("sources", .obj [("a.sol", .obj [("ast", .obj [("nodes", .arr [.obj pointContract])])])])]

def pointTrees : Ast.Index :=
  match Ast.Index.ofOutput pointOutput with
  | .ok index => index
  | .error _ => ⟨[], []⟩

/-- The storage entry of the variable and the entry of the struct's member. -/
def pointEntry : Json :=
  .obj [("label", .str "points"), ("type", .str "t_mapping(t_address,t_array)"), ("slot", .str "0")]

def pointMemberEntry : Json :=
  .obj [("label", .str "x"), ("type", .str "t_bool"), ("slot", .str "0")]

/-- The emitted layout of the same contract. -/
def pointLayout : Emitted.Index where
  contracts := [("a.sol:A", .obj [("storageLayout", .obj [("storage", .arr [pointEntry])])])]
  types := [
    (.text "t_bool", ⟨.str "t_bool", .obj [("encoding", .str "inplace")]⟩),
    (.text "t_struct", ⟨.str "t_struct", .obj [("members", .arr [pointMemberEntry])]⟩),
    (.text "t_array", ⟨.str "t_array",
      .obj [("encoding", .str "dynamic_array"), ("base", .str "t_struct")]⟩),
    (.text "t_mapping(t_address,t_array)", ⟨.str "t_mapping(t_address,t_array)",
      .obj [("encoding", .str "mapping"), ("key", .str "t_address"), ("value", .str "t_array")]⟩)]

/-- The ids of the type nodes with the keys of the same types. -/
def PointTypes (id key : Json) : Prop :=
  (id = .int 4 ∧ key = .str "t_bool") ∨ (id = .int 7 ∧ key = .str "t_struct") ∨
    (id = .int 6 ∧ key = .str "t_array") ∨
    (id = .int 5 ∧ key = .str "t_mapping(t_address,t_array)")

theorem pointTypes_correspond : Corresponds PointTypes pointTrees pointLayout := by
  refine corresponds_of_nodes PointTypes pointTrees pointLayout ?_ ?_
  · have hall : pointTrees.variablesOfAll = [pointVariable, pointMember] := by
      with_unfolding_all rfl
    rw [hall]
    intro v hv typeNode id htype hid
    rcases List.mem_pair.mp hv with rfl | rfl
    · injection htype with htype
      rw [← htype] at hid ⊢
      injection hid with hid
      rw [← hid]
      with_unfolding_all rfl
    · injection htype with htype
      rw [← htype] at hid ⊢
      injection hid with hid
      rw [← hid]
      with_unfolding_all rfl
  · -- The related types one by one: the elementary one, the struct, the list of structs and the
    -- mapping.
    rintro id key (⟨rfl, rfl⟩ | ⟨rfl, rfl⟩ | ⟨rfl, rfl⟩ | ⟨rfl, rfl⟩)
    · exact ⟨pointElementary, .elementary, .elementary, by with_unfolding_all rfl, ⟨_, rfl⟩,
        .elementary rfl rfl rfl, ⟨_, rfl, .elementary rfl rfl rfl⟩, .elementary⟩
    · refine ⟨pointName, .struct (.int 2) [pointMember], .struct [pointMemberEntry],
        by with_unfolding_all rfl, ⟨_, rfl⟩, ?_, ⟨_, rfl, .struct rfl rfl rfl rfl rfl⟩, ?_⟩
      · have hdefinition : pointTrees.node (.int 2) = .ok pointDefinition := by
          with_unfolding_all rfl
        have hdeclares : Ast.Declares (Record.getList pointDefinition "members") [pointMember] := by
          refine ⟨_, rfl, rfl, fun v hv => ?_⟩
          rw [List.mem_singleton.mp hv]
          exact ⟨_, rfl⟩
        exact @Ast.Form.struct _ _ pointDefinition _ rfl hdefinition rfl rfl hdeclares
      · exact .struct (List.Forall₂.cons ⟨rfl, ⟨rfl, rfl, ⟨_, _, rfl, rfl⟩, ⟨_, rfl⟩⟩,
          pointElementary, .int 4, rfl, rfl, Or.inl ⟨rfl, rfl⟩⟩ List.Forall₂.nil)
    · refine ⟨pointList, .dynamicArray (.int 7), .dynamicArray (.str "t_struct"),
        by with_unfolding_all rfl, ⟨_, rfl⟩, .dynamicArray rfl rfl rfl,
        ⟨_, rfl, .dynamicArray rfl rfl⟩, .dynamicArray ?_⟩
      exact Or.inr (Or.inl ⟨rfl, rfl⟩)
    · refine ⟨pointMapping, .mapping (.str "t_address") (.int 6),
        .mapping (.str "t_address") (.str "t_array"), by with_unfolding_all rfl, ⟨_, rfl⟩,
        .mapping rfl rfl rfl rfl rfl rfl, ⟨_, rfl, .mapping rfl rfl rfl rfl rfl rfl⟩, .mapping ?_⟩
      exact Or.inr (Or.inr (Or.inl ⟨rfl, rfl⟩))

/-- The mapping of lists of structs has the same layout in both sources, with the label of its keys
on the node for the lists. -/
theorem layoutOf_point_alike : ∃ forest forest',
    layoutOf (.ast pointTrees) "a.sol:A" (.ofNat 2) = .ok forest ∧
    layoutOf (.layout pointLayout) "a.sol:A" (.ofNat 2) = .ok forest' ∧
    SameForest forest forest' := by
  have hread : Ast.IsReadable pointVariable := ⟨_, rfl⟩
  have hlists : pointTrees.Lists "a.sol:A" [pointVariable] := by
    refine ⟨pointContract, [.int 1], [[pointVariable]], by with_unfolding_all rfl, rfl, rfl,
      List.Forall₂.cons ⟨pointContract, by with_unfolding_all rfl, _, rfl, rfl, ?_⟩
        List.Forall₂.nil⟩
    intro v hv
    rw [List.mem_singleton.mp hv]
    exact hread
  have hsame : List.Forall₂ (SameVariable PointTypes) (Ast.stored [pointVariable])
      [pointEntry] := by
    refine List.Forall₂.cons ⟨rfl, ⟨rfl, rfl, ⟨_, _, rfl, rfl⟩, ⟨_, rfl⟩⟩,
      pointMapping, .int 5, rfl, rfl, ?_⟩ List.Forall₂.nil
    exact Or.inr (Or.inr (Or.inr ⟨rfl, rfl⟩))
  have h := layoutOf_ast_alike_emitted pointOutput pointTrees (by with_unfolding_all rfl)
    pointLayout PointTypes pointTypes_correspond "a.sol:A" [pointVariable] hlists [pointEntry]
    ⟨_, _, rfl, rfl, Or.inl rfl⟩ hsame (.ofNat 2) (inRange_ofNat 2 (by decide))
  -- Two levels are enough here, so the runs do not end at the limit.
  refine h.resolve_right (fun hlimit => ?_)
  have hok : ∃ forest, layoutOf (.layout pointLayout) "a.sol:A" (.ofNat 2) = .ok forest := ⟨_, rfl⟩
  rcases hok with ⟨forest, hforest⟩
  rw [hforest] at hlimit
  exact absurd hlimit.2 (by simp only [reduceCtorEq, not_false_eq_true])

end StorageLayout
