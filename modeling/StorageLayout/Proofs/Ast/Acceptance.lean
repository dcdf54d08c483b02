import StorageLayout.Proofs.Ast.Traversal

/-!
# What the Index Accepts

Which trees of a compiler can be indexed.

The walk takes every object with a member `id` for a node of the tree. Compilers write two other
kinds of object. The description of a type holds texts, and none of its members is called `id`. The
map of the symbols that a source exports is different: its members are called what the source calls
its contracts, structs and functions, and their values are lists of ids. As long as none of them is
called `id`, the map is passed by like any other value, whatever the names are, and the table has
the ids of the nodes and no others. But `id` is a name like any other for a source, and then the
walk takes the list under it for the id of a node, which a list cannot be. So the index is not made,
and this is the only name for which it is not (`ofOutput_accepts`).

## Main definitions

* `IsTreeNode`, `IsDescription`, `IsSymbolMap`: The objects of which trees are made.
* `IsWellFormedTree`: A tree made of them.
* `HasPlainSymbols`: No symbol of a build is called `id`.

## Theorems

* `enterAll_settles`, `enterSource_settles`, `ofOutput_settles`: When objects, a tree and a build can
  be entered.
* `ofOutput_accepts`: When the index of a build is made, and which ids it has.
* `ofOutput_symbolNamedId`: A build that is not indexed.
-/

namespace StorageLayout.Ast

/-- A node of a tree: it says of what kind it is, and its id is an integer. -/
def IsTreeNode (record : Record) : Prop :=
  (∃ kind, record.find? "nodeType" = some kind) ∧ ∃ n, record.find? "id" = some (.int n)

/-- The description of a type: texts under names of which none is `id`. -/
def IsDescription (record : Record) : Prop :=
  (∀ m ∈ record, ∃ s, m.2 = .str s) ∧ record.find? "id" = none

/-- The symbols that a source exports: lists of ids under the names that the source gives. -/
def IsSymbolMap (record : Record) : Prop :=
  ∀ m ∈ record, ∃ ids : List Int, m.2 = .arr (ids.map Json.int)

/-- A tree as compilers write it: every object is a node, a description or a map of symbols, and the
nodes at the top are a list in which every contract has a name that can be shown. -/
structure IsWellFormedTree (ast : Record) : Prop where
  objects : ∀ record, Inside (.obj record) (.obj ast) →
    IsTreeNode record ∨ IsDescription record ∨ IsSymbolMap record
  top : ∃ items, ast.getList "nodes" = .arr items ∧ ∀ record : Record, .obj record ∈ items →
    (record.get "nodeType").isText "ContractDefinition" = true →
      ∃ name, record.find? "name" = some name ∧ name.isShowable = true

/-- No source of a build exports a symbol that is called `id`. -/
def HasPlainSymbols (sources : Record) : Prop :=
  ∀ tree ∈ treesOf sources, ∀ symbols : Record, Inside (.obj symbols) (.obj tree.2) →
    IsSymbolMap symbols → symbols.find? "id" = none

/-- What an object has as its id, if it has one, serves as a key. -/
def HasUsableId (record : Record) : Prop :=
  ∀ id, record.find? "id" = some id → ∃ k, id.key? = some k

/-- In a map of symbols the member `id` would be a list. -/
theorem IsSymbolMap.hasUsableId_iff {record : Record} (h : IsSymbolMap record) :
    HasUsableId record ↔ record.find? "id" = none := by
  constructor
  · intro husable
    cases hid : record.find? "id" with
    | none => rfl
    | some v =>
        -- A symbol stands for a list of ids, and a list is no key.
        rcases husable v hid with ⟨k, hk⟩
        rcases h _ (Assoc.find?_mem "id" v record hid) with ⟨ids, hids⟩
        change v = Json.arr (ids.map Json.int) at hids
        rw [hids] at hk
        exact absurd hk (by simp only [Json.key?, reduceCtorEq, not_false_eq_true])
  · intro hnone id hid
    rw [hnone] at hid
    exact absurd hid (by simp only [reduceCtorEq, not_false_eq_true])

/-- The integer that a node has as its id serves as a key. -/
theorem IsTreeNode.hasUsableId {record : Record} (h : IsTreeNode record) : HasUsableId record := by
  rcases h.2 with ⟨n, hn⟩
  intro id hid
  rw [hn] at hid
  injection hid with hid
  rw [← hid]
  exact ⟨_, rfl⟩

theorem IsDescription.hasUsableId {record : Record} (h : IsDescription record) :
    HasUsableId record := by
  intro id hid
  rw [h.2] at hid
  exact absurd hid (by simp only [reduceCtorEq, not_false_eq_true])

/-- An object of a tree has a usable id unless it is a map with a symbol that is called `id`. -/
theorem IsWellFormedTree.hasUsableId_iff {ast : Record} (h : IsWellFormedTree ast)
    (record : Record) (hinside : Inside (.obj record) (.obj ast)) :
    HasUsableId record ↔ (IsSymbolMap record → record.find? "id" = none) := by
  rcases h.objects record hinside with hnode | hdescription | hsymbols
  · refine ⟨fun _ hsymbols => ?_, fun _ => hnode.hasUsableId⟩
    exact hsymbols.hasUsableId_iff.mp hnode.hasUsableId
  · exact ⟨fun _ _ => hdescription.2, fun _ => hdescription.hasUsableId⟩
  · rw [hsymbols.hasUsableId_iff]
    exact ⟨fun hnone _ => hnone, fun hnone => hnone hsymbols⟩

/-- What carries an id in a tree is one of its nodes, if no symbol is called `id`. -/
theorem IsWellFormedTree.isTreeNode {ast : Record} (h : IsWellFormedTree ast) (record : Record)
    (hinside : Inside (.obj record) (.obj ast))
    (hplain : IsSymbolMap record → record.find? "id" = none) {k : Key}
    (hcarries : Carries record k) : IsTreeNode record := by
  rcases hcarries with ⟨id, hid, _⟩
  have hsome : record.find? "id" ≠ none := by
    rw [hid]
    exact Option.some_ne_none id
  rcases h.objects record hinside with hnode | hdescription | hsymbols
  · exact hnode
  · exact absurd hdescription.2 hsome
  · exact absurd (hplain hsymbols) hsome

/-! ## Entering -/

/-- An object is entered unless its id cannot be used. -/
theorem enter_settles (record : Record) (nodes : Nodes) :
    Settles (HasUsableId record) (.defect .wrongKind) (enter record nodes) := by
  rw [enter]
  cases hid : record.find? "id" with
  | none =>
      refine Or.inl ⟨fun id h => ?_, nodes, rfl⟩
      rw [hid] at h
      exact absurd h (by simp only [reduceCtorEq, not_false_eq_true])
  | some id =>
      simp only [Json.asKey]
      -- The kind of the id is all that matters: null and a truth value are keys, a list is none.
      cases hk : id.key? with
      | some k =>
          refine Or.inl ⟨fun v hv => ?_, _, rfl⟩
          rw [hid] at hv
          injection hv with hv
          exact ⟨k, hv ▸ hk⟩
      | none =>
          refine Or.inr ⟨fun husable => ?_, rfl⟩
          rcases husable id hid with ⟨k, hsome⟩
          rw [hk] at hsome
          exact absurd hsome (by simp only [reduceCtorEq, not_false_eq_true])

theorem enterAll_settles (records : List Record) (nodes : Nodes) :
    Settles (∀ record ∈ records, HasUsableId record) (.defect .wrongKind)
      (enterAll records nodes) :=
  Settles.foldlM records (fun nodes record _ => enter_settles record nodes) nodes

/-- A top-level node is entered, if contracts have names that can be shown. -/
theorem enterContract_isOk (path : String) (contracts : Assoc String Record) (node : Json)
    (h : ∀ record : Record, node = .obj record →
      (record.get "nodeType").isText "ContractDefinition" = true →
        ∃ name, record.find? "name" = some name ∧ name.isShowable = true) :
    ∃ contracts', enterContract path contracts node = .ok contracts' := by
  unfold enterContract
  -- Only a contract definition has a name that is read.
  split
  · rename_i record hrecord
    split
    · rename_i hkind
      rcases h record (node.members?_eq_some record hrecord) hkind with ⟨name, hname, hshowable⟩
      have hmember : record.member "name" = .ok name := by rw [Record.member, hname]
      have hshown : name.shown = .ok name.display := by rw [Json.shown, if_pos hshowable]
      rw [hmember, ok_bind, hshown, ok_bind]
      exact ⟨_, rfl⟩
    · exact ⟨contracts, rfl⟩
  · exact ⟨contracts, rfl⟩

/-- A well-formed tree is entered unless one of its objects has an id that cannot be used. -/
theorem enterSource_settles (index : Index) (path : String) (unit : Json) (ast : Record)
    (hast : unit.record? "ast" = some ast) (h : IsWellFormedTree ast) :
    Settles (∀ record ∈ visited (.obj ast), HasUsableId record) (.defect .wrongKind)
      (enterSource index path unit) := by
  rcases h.top with ⟨items, hitems, hnames⟩
  have helements : (ast.getList "nodes").elements = .ok items := by rw [hitems, Json.elements]
  have hcontracts : Settles (∀ node ∈ items, True) (.defect .wrongKind)
      (items.foldlM (enterContract path) index.contracts) := by
    refine Settles.foldlM items (fun contracts node hnode => Or.inl ⟨trivial, ?_⟩) _
    exact enterContract_isOk path contracts node fun record hrecord =>
      hnames record (hrecord ▸ hnode)
  rcases hcontracts.ok_iff.mpr (fun _ _ => trivial) with ⟨contracts, hcontracts⟩
  have hwalk : Settles (∀ record ∈ visited (.obj ast), HasUsableId record) (.defect .wrongKind)
      (walk [.obj ast] index.nodes) := by
    rw [walk_eq, List.flatMap_singleton]
    exact enterAll_settles _ index.nodes
  -- Only the walk can fail: the contracts are entered whatever the walk has made.
  simp only [enterSource, hast, helements, ok_bind, hcontracts]
  exact hwalk.map fun nodes => (⟨nodes, contracts⟩ : Index)

namespace Index

section Trees

variable (output : Json) (sources : Record)
variable (h : ∀ unit ∈ sources, ∃ ast, unit.2.record? "ast" = some ast ∧ IsWellFormedTree ast)

include h

/-- The trees of a build are those of its sources. -/
theorem isWellFormedTree_of_mem (tree : String × Record) (htree : tree ∈ treesOf sources) :
    IsWellFormedTree tree.2 := by
  rcases (mem_treesOf sources tree.1 tree.2).mp htree with ⟨unit, hunit, hast⟩
  rcases h _ hunit with ⟨ast, hast', hwell⟩
  change unit.record? "ast" = some ast at hast'
  rw [hast] at hast'
  injection hast' with hast'
  rw [hast']
  exact hwell

/-- Whether a build is indexed depends on the names of its symbols alone. -/
theorem ofOutput_settles (hsources : output.record? "sources" = some sources) :
    Settles (HasPlainSymbols sources) (.defect .wrongKind) (ofOutput output) := by
  simp only [ofOutput, hsources]
  have hsteps : Settles (∀ unit ∈ sources, ∀ ast, unit.2.record? "ast" = some ast →
      ∀ record ∈ visited (.obj ast), HasUsableId record) (.defect .wrongKind)
      (sources.foldlM (fun index unit => enterSource index unit.1 unit.2) ⟨[], []⟩) := by
    refine Settles.foldlM sources (fun index unit hunit => ?_) _
    rcases h unit hunit with ⟨ast, hast, hwell⟩
    refine (enterSource_settles index unit.1 unit.2 ast hast hwell).congr ?_
    simp only [hast, Option.some.injEq, forall_eq']
  -- Of the objects that are visited, only a map of symbols can have an id that is of no use.
  refine hsteps.congr ⟨fun hall tree htree symbols hinside hsymbols => ?_,
    fun hplain unit hunit ast hast record hrecord => ?_⟩
  · rcases (mem_treesOf sources tree.1 tree.2).mp htree with ⟨unit, hunit, hast⟩
    have husable := hall _ hunit tree.2 hast symbols ((mem_visited symbols _).mpr hinside)
    exact hsymbols.hasUsableId_iff.mp husable
  · have htree : (unit.1, ast) ∈ treesOf sources :=
      (mem_treesOf sources unit.1 ast).mpr ⟨unit.2, hunit, hast⟩
    have hwell := isWellFormedTree_of_mem sources h _ htree
    have hinside := (mem_visited record _).mp hrecord
    exact (hwell.hasUsableId_iff record hinside).mpr (hplain _ htree record hinside)

end Trees

/-- A build of well-formed trees is indexed exactly if no symbol is called `id`, and then it has the
ids of all nodes and no others.

The names of symbols do not matter otherwise; they may be those of members that the index reads, such
as `nodes` or `nodeType`. If a symbol is called `id`, then the index ends in an error that is not
reported as one of the input. -/
theorem ofOutput_accepts (output : Json) (sources : Record)
    (hsources : output.record? "sources" = some sources)
    (h : ∀ unit ∈ sources, ∃ ast, unit.2.record? "ast" = some ast ∧ IsWellFormedTree ast) :
    ((∃ index, ofOutput output = .ok index) ↔ HasPlainSymbols sources) ∧
    (¬ HasPlainSymbols sources → ofOutput output = .error (.defect .wrongKind)) ∧
    ∀ index, ofOutput output = .ok index → ∀ k,
      ((∃ n, index.nodes.find? k = some n) ↔ ∃ tree ∈ treesOf sources, ∃ record,
        Inside (.obj record) (.obj tree.2) ∧ IsTreeNode record ∧ Carries record k) := by
  have hsettles := ofOutput_settles output sources h hsources
  refine ⟨hsettles.ok_iff, hsettles.error_of_not, fun index hindex k => ?_⟩
  have hplain := hsettles.ok_iff.mp ⟨index, hindex⟩
  rw [found_iff_inside output sources index hsources hindex k]
  constructor
  · rintro ⟨tree, htree, record, hinside, hcarries⟩
    -- No symbol is called `id`, so what carries an id is a node.
    have hwell := isWellFormedTree_of_mem sources h tree htree
    have hnode := hwell.isTreeNode record hinside (hplain tree htree record hinside) hcarries
    exact ⟨tree, htree, record, hinside, hnode, hcarries⟩
  · rintro ⟨tree, htree, record, hinside, _, hcarries⟩
    exact ⟨tree, htree, record, hinside, hcarries⟩

end Index

/-- A contract in a tree, with the description of a type. -/
def symbolContract (name : String) : Record :=
  [("id", .int 1), ("nodeType", .str "ContractDefinition"), ("name", .str name),
    ("typeDescriptions", .obj [("typeString", .str "contract")])]

/-- A tree of one contract, which its source exports. -/
def symbolTree (name : String) : Record :=
  [("id", .int 2), ("nodeType", .str "SourceUnit"),
    ("exportedSymbols", .obj [(name, .arr [.int 1])]), ("nodes", .arr [.obj (symbolContract name)])]

/-- The sources of a build with this tree. -/
def symbolSources (name : String) : Record :=
  [("a.sol", .obj [("id", .int 0), ("ast", .obj (symbolTree name))])]

/-- The tree is well-formed, whatever the contract is called. -/
theorem isWellFormed_symbolTree (name : String) : IsWellFormedTree (symbolTree name) where
  objects record hinside := by
    -- The tree has four objects, and they are listed by the walk.
    have hmem : record ∈ [symbolTree name, symbolContract name,
        [("typeString", .str "contract")], [(name, .arr [.int 1])]] :=
      (mem_visited record (.obj (symbolTree name))).mpr hinside
    simp only [List.mem_cons, List.not_mem_nil, or_false] at hmem
    rcases hmem with rfl | rfl | rfl | rfl
    · exact Or.inl ⟨⟨_, rfl⟩, _, rfl⟩
    · exact Or.inl ⟨⟨_, rfl⟩, _, rfl⟩
    · exact Or.inr (Or.inl ⟨List.forall_mem_singleton.mpr ⟨_, rfl⟩, rfl⟩)
    · exact Or.inr (Or.inr (List.forall_mem_singleton.mpr ⟨[1], rfl⟩))
  top := by
    refine ⟨[.obj (symbolContract name)], rfl, fun record hrecord _ => ?_⟩
    injection List.mem_singleton.mp hrecord with hrecord
    rw [hrecord]
    exact ⟨.str name, rfl, rfl⟩

theorem forall_symbolSources (name : String) : ∀ unit ∈ symbolSources name,
    ∃ ast, unit.2.record? "ast" = some ast ∧ IsWellFormedTree ast :=
  List.forall_mem_singleton.mpr ⟨symbolTree name, rfl, isWellFormed_symbolTree name⟩

/-- A contract that is called like a member of nodes does no harm: the build is indexed, and the map
that has it as a symbol is not among the nodes. -/
theorem ofOutput_accepts_nodeType :
    (∀ unit ∈ symbolSources "nodeType", ∃ ast, unit.2.record? "ast" = some ast ∧
      IsWellFormedTree ast) ∧
    ∃ index, Index.ofOutput (.obj [("sources", .obj (symbolSources "nodeType"))]) = .ok index ∧
      HasPlainSymbols (symbolSources "nodeType") ∧ ∃ n, index.nodes.find? (.number 1) = some n := by
  have haccepts := Index.ofOutput_accepts (.obj [("sources", .obj (symbolSources "nodeType"))]) _ rfl
    (forall_symbolSources "nodeType")
  have hindex : ∃ index,
      Index.ofOutput (.obj [("sources", .obj (symbolSources "nodeType"))]) = .ok index :=
    ⟨_, by with_unfolding_all rfl⟩
  have hplain := haccepts.1.mp hindex
  rcases hindex with ⟨index, hindex⟩
  refine ⟨forall_symbolSources "nodeType", index, hindex, hplain,
    (haccepts.2.2 index hindex (.number 1)).mpr ?_⟩
  -- The contract is a node inside the tree and carries the id.
  refine ⟨("a.sol", symbolTree "nodeType"), List.mem_singleton_self _, symbolContract "nodeType", ?_,
    ⟨⟨_, rfl⟩, _, rfl⟩, .int 1, rfl, rfl⟩
  exact (mem_visited _ _).mp (List.mem_cons_of_mem _ List.mem_cons_self)

/-- A contract that is called `id` keeps a well-formed build from being indexed. -/
theorem ofOutput_symbolNamedId :
    IsWellFormedTree (symbolTree "id") ∧
      Index.ofOutput (.obj [("sources", .obj (symbolSources "id"))])
        = .error (.defect .wrongKind) :=
  ⟨isWellFormed_symbolTree "id", by with_unfolding_all rfl⟩

end StorageLayout.Ast
