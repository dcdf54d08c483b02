import StorageLayout.Proofs.Ast.Faults
import StorageLayout.Proofs.Ast.Renaming
import StorageLayout.Proofs.Selection

/-!
# Ids Are Only Names

The layout that is read from syntax trees under other ids is the layout under the new ids.

`Renaming` compares the indices of both builds. From there on the two readers go side by side
(`Mirrors`): a node is found under a new id exactly if it was found under the old one, and a
reference that leads nowhere does so under both. Every reader ends in the renamed result or in the
same error with the id in it renamed, so this is an equation between outcomes and not only about
layouts. What makes it true is that no reader asks an id for anything but whether it is null. An id
that is zero says nothing, as a value, and a reader that fell back to a default for it would break
the equation for this one id.

Two things can go wrong, and both come from values that are put into words. The name of a contract
may be an object, and if it holds an id, the name by which the contract is found is another one
after the renaming (`resolveLayout_renamed_name`). And an error names an id only if it can be
written, which one with thousands of digits cannot; so the equation is about errors as such, and
about what is reported if the renaming keeps what can be written.

## Main definitions

* `Facts.renamed`, `TypeReference.renamed`, `renamedOutcome`: Layouts and errors under other ids.
* `Declaration.renamed`, `Shape.renamed`: What the resolver works on.
* `IsId`: A whole number, or nothing.

## Theorems

* `Ast.shape_mirrors`, `Ast.declaration_mirrors`, `Ast.storage_mirrors`: The readers.
* `Ast.isLockstep_renamed`: The resolver goes through both indices in lockstep.
* `resolveLayout_renamed`: The layout, or the error, under other ids.
* `resolveLayout_renamed_name`: A contract that is called by an id.
-/

namespace StorageLayout

section Renaming

variable (f : Int → Int)

/-- What a node says, with its id renamed. -/
def Facts.renamed (facts : Facts) : Facts := { facts with id := renamedId f facts.id }

namespace TypeReference

mutual

/-- A node and all below it with their ids renamed. -/
def renamed : TypeReference → TypeReference
  | .node facts none => .node (facts.renamed f) none
  | .node facts (some xs) => .node (facts.renamed f) (some (renamedForest xs))

/-- A forest with the ids of all nodes renamed. -/
def renamedForest : List TypeReference → List TypeReference
  | [] => []
  | x :: rest => x.renamed :: renamedForest rest

end

end TypeReference

/-- The layout with its ids renamed, or the error with the id in it renamed. -/
def renamedOutcome : Except Error (List TypeReference) → Except Error (List TypeReference)
  | .ok forest => .ok (TypeReference.renamedForest f forest)
  | .error e => .error (e.renamed f)

/-- A declaration with its id and its keys renamed. -/
def Declaration.renamed (d : Declaration) : Declaration :=
  { d with
    id := renamedId f d.id
    members := renamedId f d.members
    element := renamedId f d.element }

/-- A shape with its key renamed. -/
def Shape.renamed : Shape → Shape
  | .fixedArray length element => .fixedArray length (renamedId f element)
  | .dynamicArray element => .dynamicArray (renamedId f element)
  | .struct members => .struct (renamedId f members)
  | .mapping keyType value => .mapping keyType (renamedId f value)
  | .elementary => .elementary

/-- A whole number, or nothing. -/
def IsId (v : Json) : Prop := v = .null ∨ ∃ n, v = .int n

/-- The declaration under other ids. Its keys are ids. -/
def SameUpToIds (d d' : Declaration) : Prop :=
  d' = d.renamed f ∧ ∀ key ∈ d.shape.keys, IsId key

/-- Trees that are renamed one by one are the renamed forest. -/
theorem eq_renamedForest (xs ys : List TypeReference)
    (h : List.Forall₂ (fun t t' => t' = t.renamed f) xs ys) :
    ys = TypeReference.renamedForest f xs := by
  induction h with
  | nil => rfl
  | cons hxy _ ih => rw [TypeReference.renamedForest, hxy, ih]

theorem isNull_renamedId (v : Json) : (renamedId f v).isNull = v.isNull := by
  cases v <;> rfl

/-- What is null stays null, so a renamed declaration has the renamed shape. -/
theorem shape_renamed (d : Declaration) : (d.renamed f).shape = d.shape.renamed f := by
  unfold Declaration.shape
  simp only [Declaration.renamed, isNull_renamedId]
  split
  · rfl
  · split
    · rfl
    · split
      · rfl
      · split <;> rfl

theorem withShape_renamed (d : Declaration) (s : Shape) :
    (d.withShape s).renamed f = (d.renamed f).withShape (s.renamed f) := by
  cases s <;> rfl

theorem nodeFacts_renamed (d : Declaration) :
    (d.renamed f).nodeFacts = d.nodeFacts.renamed f := by
  unfold Declaration.nodeFacts
  rw [shape_renamed]
  cases d.shape <;> rfl

/-- What is made of fields that are equal up to the id, and of a shape that is renamed. -/
theorem sameUpToIds_withShape (label type typeName id visibility : Json) (constant : Bool)
    (s : Shape) (hs : ∀ key ∈ s.keys, IsId key) :
    SameUpToIds f
      (Declaration.withShape { label, type, typeName, id, visibility, constant } s)
      (Declaration.withShape
        { label, type, typeName, id := renamedId f id, visibility, constant } (s.renamed f)) := by
  refine ⟨?_, fun key hkey => ?_⟩
  · rw [withShape_renamed]
    rfl
  · rw [Declaration.shape_withShape_eq_told] at hkey
    exact hs key (Shape.keys_told_subset s hkey)

end Renaming

namespace Ast

section Records

variable (f : Int → Int) (record : Record) (htidy : IsTidy (.obj record))

theorem renamed_of_isId (v : Json) (h : IsId v) : renamed f .id v = renamedId f v := by
  rcases h with hnull | ⟨n, hn⟩
  · rw [hnull]
    rfl
  · rw [hn]
    rfl

include htidy

theorem isId_own : IsId (record.get "id") := by
  unfold Record.get
  cases hid : record.find? "id" with
  | none => exact Or.inl rfl
  | some v => exact Or.inr ((htidy.ids record .self).own v hid)

theorem isId_reference : IsId (record.get "referencedDeclaration") := by
  unfold Record.get
  cases hid : record.find? "referencedDeclaration" with
  | none => exact Or.inl rfl
  | some v => exact Or.inr ((htidy.ids record .self).reference v hid)

/-- The id of a renamed object. -/
theorem own_renamed :
    Record.get (renamedMembers f record) "id" = renamedId f (record.get "id") := by
  rw [get_renamedMembers]
  exact renamed_of_isId f _ (isId_own record htidy)

theorem reference_renamed : Record.get (renamedMembers f record) "referencedDeclaration"
    = renamedId f (record.get "referencedDeclaration") := by
  rw [get_renamedMembers]
  exact renamed_of_isId f _ (isId_reference record htidy)

/-- A description is the same, and so is the default for one that is missing. -/
theorem find?_description (name : String) (hname : name ∈ descriptions) :
    (renamedMembers f record).find? name = record.find? name := by
  cases hfind : record.find? name with
  | none => rw [find?_renamedMembers, hfind, Option.map_none]
  | some w => exact description_renamed f record htidy name hname w hfind

theorem getText_description (name : String) (hname : name ∈ descriptions) :
    Record.getText (renamedMembers f record) name = record.getText name := by
  rw [Record.getText, Record.getText, find?_description f record htidy name hname]

theorem get_description (name : String) (hname : name ∈ descriptions) :
    Record.get (renamedMembers f record) name = record.get name := by
  rw [Record.get, Record.get, find?_description f record htidy name hname]

theorem orEmpty_mirrors (name : String) (hrole : roleOf name = .plain) :
    Mirrors f (fun r r' => r' = renamedMembers f r ∧ IsTidy (.obj r)) (record.orEmpty name)
      (Record.orEmpty (renamedMembers f record) name) := by
  have hvalue := isTidy_get record htidy name
  unfold Record.orEmpty
  rw [get_renamedMembers, hrole, isEmpty_renamed f .plain (by decide)]
  split
  · exact ⟨rfl, isTidy_nil⟩
  · generalize record.get name = v at hvalue
    cases v with
    | obj members => exact ⟨rfl, hvalue⟩
    | _ => exact Or.inr rfl

theorem arrayLength_mirrors :
    Mirrors f (fun a b => a = b) (arrayLength record) (arrayLength (renamedMembers f record)) := by
  have hliteral : literalLength? (renamed f .plain (record.get "length"))
      = literalLength? (record.get "length") := by
    unfold literalLength? Json.get?
    rw [members?_renamed]
    cases (record.get "length").members? with
    | none => rfl
    | some members =>
        simp only [Option.map_some, Option.bind_some, find?_renamedMembers]
        cases Assoc.find? "value" members with
        | none => rfl
        | some v => cases v <;> rfl
  have hlength := get_renamedMembers f record "length"
  rw [show roleOf "length" = .plain by decide] at hlength
  unfold arrayLength
  simp only [hlength, isNull_renamed, hliteral]
  split
  · exact rfl
  · split
    · exact rfl
    · refine Tracks.bind (orEmpty_mirrors f record htidy "typeDescriptions" (by decide))
        (fun d d' hd => ?_)
      rw [hd.1, getText_description f d hd.2 "typeString" (by decide)]
      have htext : Mirrors f (fun a b => a = b) (d.getText "typeString").asText
          (d.getText "typeString").asText := by
        cases d.getText "typeString" <;> first | exact rfl | exact Or.inr rfl
      refine Tracks.bind htext (fun label label' hlabel => ?_)
      rw [← hlabel]
      split
      · unfold lengthOfDigits
        split
        · exact rfl
        · exact Or.inr rfl
      · -- The error names the array node.
        rw [own_renamed f record htidy]
        exact Or.inr rfl

theorem childId_mirrors (field kind : String) (hrole : roleOf field = .plain)
    (hkind : (record.get "nodeType").isText kind = true) :
    Mirrors f (fun a b => b = renamedId f a ∧ IsId a) (childId record field)
      (childId (renamedMembers f record) field) := by
  -- An error names the kind of the node, too, which is no id.
  have htype : record.get "nodeType" = .str kind := by
    generalize record.get "nodeType" = v at hkind
    cases v with
    | str s => rw [of_decide_eq_true hkind]
    | _ => exact absurd hkind Bool.false_ne_true
  have htype' : Record.get (renamedMembers f record) "nodeType" = .str kind := by
    rw [get_renamedMembers, htype]
    rfl
  have hchild := isTidy_get record htidy field
  unfold childId
  rw [htype, htype', own_renamed f record htidy, get_renamedMembers, hrole, members?_renamed]
  generalize record.get field = v at hchild
  cases v with
  | obj child =>
      simp only [Json.members?, Option.map_some, Option.bind_some, find?_renamedMembers]
      cases hid : Assoc.find? "id" child with
      | none => exact Or.inr rfl
      | some id =>
          have hisId : IsId id := Or.inr ((hchild.ids child .self).own id hid)
          exact ⟨renamed_of_isId f id hisId, hisId⟩
  | _ => exact Or.inr rfl

theorem mappingKeyType_mirrors :
    Mirrors f (fun a b => a = b) (mappingKeyType record)
      (mappingKeyType (renamedMembers f record)) := by
  refine Tracks.bind (orEmpty_mirrors f record htidy "keyType" (by decide)) (fun k k' hk => ?_)
  rw [hk.1]
  refine Tracks.bind (orEmpty_mirrors f k hk.2 "typeDescriptions" (by decide)) (fun d d' hd => ?_)
  rw [hd.1]
  exact (getText_description f d hd.2 "typeIdentifier" (by decide)).symm

/-- The bases of a contract are the same ones, renamed. -/
theorem bases_mirrors :
    Mirrors f (List.Forall₂ fun a b => b = renamedId f a ∧ IsId a) (Index.bases record)
      (Index.bases (renamedMembers f record)) := by
  have hlisted := get_renamedMembers f record "linearizedBaseContracts"
  rw [show roleOf "linearizedBaseContracts" = .ids by decide] at hlisted
  have hids := htidy.ids record .self
  unfold Index.bases
  simp only [hlisted, isEmpty_renamed f .ids (by decide)]
  split
  · -- A contract that lists no bases is its own base.
    unfold Record.member
    rw [find?_renamedMembers]
    cases hown : record.find? "id" with
    | none => exact Or.inr rfl
    | some id =>
        have hisId : IsId id := Or.inr (hids.own id hown)
        exact List.Forall₂.cons ⟨renamed_of_isId f id hisId, hisId⟩ List.Forall₂.nil
  · have hmirrors := elements_mirrors f .ids (record.get "linearizedBaseContracts")
      (isTidy_get record htidy _)
    refine hmirrors.imp_of_ok (fun items items' hitems hsame => ?_)
    have hisId : ∀ item ∈ items, IsId item := fun item hitem =>
      Or.inr (hids.bases items hitems item hitem)
    refine ((List.forall₂_and_left items items').mpr ⟨hisId, hsame⟩).imp (fun a b hab => ?_)
    rcases hab with ⟨hisId, _, hb⟩
    exact ⟨hb.trans (renamed_of_isId f a hisId), hisId⟩

end Records

theorem isConstant_renamed (f : Int → Int) (record : Record) :
    isConstant (renamedMembers f record) = isConstant record := by
  unfold isConstant
  rw [get_renamedMembers, get_renamedMembers, isText_renamed, isText_renamed]
  cases record.get "constant" <;> rfl

theorem isVariable_renamed (f : Int → Int) (v : Json) :
    isVariable (renamed f .plain v) = isVariable v := by
  unfold isVariable
  rw [members?_renamed]
  cases v.members? with
  | none => rfl
  | some record => simp only [Option.map_some, Option.any_some, get_renamedMembers, isText_renamed]

section Readers

variable {f : Int → Int} {index index' : Index} (h : IsRenaming f index index')
variable (htidy : ∀ k n, index.nodes.find? k = some n → IsTidy (.obj n.record))

include h htidy

/-- A node is found under its new id exactly if it was found under its old one. -/
theorem node_mirrors (id : Json) (hid : IsId id) :
    Mirrors f (fun r r' => r' = renamedMembers f r ∧ IsTidy (.obj r)) (index.node id)
      (index'.node (renamedId f id)) := by
  rcases hid with hnull | ⟨n, hn⟩
  · -- Null stands for no id. It is not renamed, and it leads nowhere.
    rw [hnull]
    have hkey : Json.null.asKey = .ok .null := rfl
    simp only [Index.node, renamedId, hkey, ok_bind, h.nodes.null.1, h.nodes.null.2]
    exact Or.inr rfl
  · rw [hn]
    have hnode := h.nodes.number n
    have hrecord := htidy (.number n)
    have hkey : ∀ m : Int, (Json.int m).asKey = .ok (.number m) := fun _ => rfl
    simp only [Index.node, renamedId, hkey, ok_bind]
    generalize index.nodes.find? (.number n) = a at hnode hrecord
    generalize index'.nodes.find? (.number (f n)) = b at hnode
    cases hnode with
    | none => exact Or.inr rfl
    | some hab => exact ⟨hab, hrecord _ rfl⟩

/-- The shape of a renamed type node is the renamed shape. -/
theorem shape_mirrors (typeNode : Json) (hnode : IsTidy typeNode) :
    Mirrors f (fun s s' => s' = s.renamed f ∧ ∀ key ∈ s.keys, IsId key) (index.shape typeNode)
      (index'.shape (renamed f .plain typeNode)) := by
  have helementary : Mirrors f
      (fun (s s' : Shape) => s' = s.renamed f ∧ ∀ key ∈ s.keys, IsId key) (.ok .elementary)
      (.ok .elementary) := ⟨rfl, fun key hkey => absurd hkey List.not_mem_nil⟩
  unfold Index.shape
  rw [members?_renamed]
  cases hmembers : typeNode.members? with
  | none => exact helementary
  | some record =>
      rw [typeNode.members?_eq_some record hmembers] at hnode
      simp only [Option.map_some, get_renamedMembers f record "nodeType", isText_renamed]
      split
      · rename_i hkind
        refine Tracks.bind (arrayLength_mirrors f record hnode) (fun length length' hlength => ?_)
        refine Tracks.bind (childId_mirrors f record hnode "baseType" _ (by decide) hkind)
          (fun element element' helement => ?_)
        rw [← hlength, helement.1]
        -- With or without a length, the element is the one key.
        change (_ : Shape) = _ ∧ _
        unfold arrayShape
        split
        · exact ⟨rfl, fun key hkey => List.mem_singleton.mp hkey ▸ helement.2⟩
        · exact ⟨rfl, fun key hkey => List.mem_singleton.mp hkey ▸ helement.2⟩
      · split
        · rename_i hkind
          refine Tracks.bind (mappingKeyType_mirrors f record hnode)
            (fun keyType keyType' hkeyType => ?_)
          refine Tracks.bind (childId_mirrors f record hnode "valueType" _ (by decide) hkind)
            (fun value value' hvalue => ?_)
          rw [← hkeyType, hvalue.1]
          exact ⟨rfl, fun key hkey => List.mem_singleton.mp hkey ▸ hvalue.2⟩
        · split
          · rw [reference_renamed f record hnode]
            refine Tracks.bind (node_mirrors h htidy _ (isId_reference record hnode))
              (fun target target' htarget => ?_)
            rw [htarget.1, get_renamedMembers, isText_renamed]
            split
            · rw [own_renamed f target htarget.2]
              exact ⟨rfl, fun key hkey => List.mem_singleton.mp hkey ▸ isId_own target htarget.2⟩
            · exact helementary
          · exact helementary

theorem declaration_mirrors (node : Record) (hnode : IsTidy (.obj node)) :
    Mirrors f (SameUpToIds f) (index.declaration node)
      (index'.declaration (renamedMembers f node)) := by
  unfold Index.declaration
  refine Tracks.bind (orEmpty_mirrors f node hnode "typeDescriptions" (by decide))
    (fun d d' hd => ?_)
  have hvisibility := get_description f node hnode "visibility" (by decide)
  have hname := getText_description f node hnode "name" (by decide)
  have htypes := getText_description f d hd.2
  have hmade := sameUpToIds_withShape f (node.getText "name") (d.getText "typeIdentifier")
    (d.getText "typeString") (node.get "id") (node.get "visibility") (isConstant node)
  simp only [hd.1, isConstant_renamed, hname, hvisibility, own_renamed f node hnode,
    htypes "typeIdentifier" (by decide), htypes "typeString" (by decide)]
  -- A constant is given no shape, so its type is not looked at and no id is followed.
  split
  · exact hmade .elementary (fun key hkey => absurd hkey List.not_mem_nil)
  · rw [get_renamedMembers]
    refine Tracks.map (shape_mirrors h htidy _ (isTidy_get node hnode "typeName"))
      (fun s s' hs => ?_)
    rw [hs.1]
    exact hmade s hs.2

/-- The variables that a member of a node declares. -/
theorem declarations_mirrors (node : Record) (name : String) (hrole : roleOf name = .plain)
    (hnode : IsTidy (.obj node)) :
    Mirrors f (List.Forall₂ (SameUpToIds f)) (index.declarations (node.getList name))
      (index'.declarations (Record.getList (renamedMembers f node) name)) := by
  unfold Index.declarations
  rw [getList_renamedMembers, hrole]
  refine Tracks.bind (elements_mirrors f .plain _ (isTidy_getList node hnode name))
    (fun items items' hitems => ?_)
  -- What is kept is decided by the node type alone, which no renaming touches, so the two lists
  -- stay in step.
  have hfiltered : List.Forall₂ (fun a b => IsTidy a ∧ b = renamed f .plain a)
      (items.filter isVariable) (items'.filter isVariable) := by
    refine List.rel_filter (fun a b hab => ?_) hitems
    change isVariable a = true ↔ isVariable b = true
    rw [hab.2, isVariable_renamed]
  refine Tracks.mapM hfiltered (fun v w hvw => ?_)
  rcases hvw with ⟨hv, hw⟩
  rw [hw]
  -- A variable that is no object is refused in both outputs for the same reason.
  cases v with
  | obj record => exact declaration_mirrors h htidy record hv
  | _ => exact Or.inr rfl

theorem members_mirrors (id : Json) (hid : IsId id) :
    Mirrors f (List.Forall₂ (SameUpToIds f)) (index.members id)
      (index'.members (renamedId f id)) := by
  refine Tracks.bind (node_mirrors h htidy id hid) (fun r r' hr => ?_)
  rw [hr.1]
  exact declarations_mirrors h htidy r "members" (by decide) hr.2

theorem element_mirrors (id : Json) (hid : IsId id) :
    Mirrors f (SameUpToIds f) (index.element id) (index'.element (renamedId f id)) := by
  unfold Index.element
  refine Tracks.bind (node_mirrors h htidy id hid) (fun r r' hr => ?_)
  rw [hr.1]
  refine Tracks.bind (orEmpty_mirrors f r hr.2 "typeDescriptions" (by decide)) (fun d d' hd => ?_)
  refine Tracks.map (shape_mirrors h htidy (.obj r) hr.2) (fun s s' hs => ?_)
  have htypes := getText_description f d hd.2
  rw [hd.1, hs.1, htypes "typeIdentifier" (by decide), htypes "typeString" (by decide)]
  exact sameUpToIds_withShape f _ _ _ _ _ _ s hs.2

/-- The variables of a contract and its bases. -/
theorem storage_mirrors (hcontracts : ∀ fullName contract,
    index.contracts.find? fullName = some contract → IsTidy (.obj contract)) (fullName : String) :
    Mirrors f (List.Forall₂ (SameUpToIds f)) (index.storage fullName)
      (index'.storage fullName) := by
  have hcontract := h.contracts fullName
  have htidyContract := hcontracts fullName
  unfold Index.storage
  -- The two tables hold the contract under one name, and it has been renamed in the second one.
  generalize index.contracts.find? fullName = a at hcontract htidyContract
  generalize index'.contracts.find? fullName = b at hcontract
  cases hcontract with
  | none => exact Or.inr rfl
  | @some contract contract' hsame =>
      rw [hsame]
      refine Tracks.bind (bases_mirrors f contract (htidyContract contract rfl))
        (fun ids ids' hids => ?_)
      -- The bases are looked up from the last to the first, and a base that is missing is named by
      -- the new id.
      have hparts : Mirrors f (List.Forall₂ (List.Forall₂ (SameUpToIds f)))
          (ids.reverse.mapM fun base => do
            let node ← index.node base
            index.declarations (node.getList "nodes"))
          (ids'.reverse.mapM fun base => do
            let node ← index'.node base
            index'.declarations (node.getList "nodes")) := by
        refine Tracks.mapM (List.rel_reverse hids) (fun id id' hid => ?_)
        rw [hid.1]
        refine Tracks.bind (node_mirrors h htidy id hid.2) (fun r r' hr => ?_)
        rw [hr.1]
        exact declarations_mirrors h htidy r "nodes" (by decide) hr.2
      exact Tracks.map hparts (fun parts parts' hsame => List.rel_flatten hsame)

/-- The resolver goes through both indices in lockstep. -/
theorem isLockstep_renamed :
    IsLockstep (fun _ => False) (fun e e' => e' = e.renamed f) (SameUpToIds f) Eq (.ast index)
      (.ast index') (fun t t' => t' = t.renamed f) where
  constant d d' hd := by
    rw [hd.1]
    rfl
  replies d d' hd := by
    rcases hd with ⟨heq, hkeys⟩
    rw [heq, shape_renamed]
    -- Ids are followed to elements and members only; the key of a mapping is written as it
    -- stands.
    generalize d.shape = s at hkeys
    have helement := element_mirrors h htidy
    cases s with
    | elementary => exact .elementary
    | struct m => exact .struct (members_mirrors h htidy m (hkeys m List.mem_cons_self))
    | fixedArray length key => exact .fixedArray (helement key (hkeys key List.mem_cons_self))
    | dynamicArray key => exact .dynamicArray (helement key (hkeys key List.mem_cons_self))
    | mapping keyType value =>
        refine .mapping ?_ (helement value (hkeys value List.mem_cons_self))
        unfold keyLabel Json.shown
        split
        · exact rfl
        · exact Or.inr rfl
  label := rfl
  relabel d d' l l' hd hl := by
    rw [hd.1, ← hl]
    exact ⟨rfl, hd.2⟩
  node d d' t t' hd ht := by
    rw [hd.1, nodeFacts_renamed]
    cases ht with
    | none => rfl
    | @some xs ys hxs =>
        rw [eq_renamedForest f xs ys hxs]
        rfl
  deep _ := rfl

end Readers

end Ast

/-- A run that mirrors another one ends in its outcome under the new ids. -/
theorem outcome_of_mirrors {f : Int → Int} {x y : Except Error (List TypeReference)}
    (h : Mirrors f (List.Forall₂ fun t t' => t' = t.renamed f) x y) : y = renamedOutcome f x := by
  rcases h.ok_or_error with ⟨xs, ys, hx, hy, hxs⟩ | ⟨e, e', hx, hy, he⟩
  · rw [hx, hy, eq_renamedForest f xs ys hxs]
    rfl
  · rw [hx, hy, he]
    rfl

/-- Whether an error can be said does not depend on its id, if whether the id can be written does
not. -/
theorem isSayable_renamed (f : Int → Int) (hf : ∀ n, Text.isWritable (f n) = Text.isWritable n)
    (e : Error) : (e.renamed f).isSayable = e.isSayable := by
  have hid : ∀ v : Json, (renamedId f v).isShowable = v.isShowable := by
    intro v
    cases v with
    | int n => exact hf n
    | _ => rfl
  -- Ids stand in three of the messages, and nothing else in a message is renamed.
  cases e with
  | unresolved key => exact hid key
  | unreadableNodeLength id => exact hid id
  | missingChild nodeType id field =>
      change (nodeType.isShowable && (renamedId f id).isShowable)
        = (nodeType.isShowable && id.isShowable)
      rw [hid]
  | _ => rfl

/-- What is reported under other ids. -/
theorem reported_renamed (f : Int → Int) (hf : ∀ n, Text.isWritable (f n) = Text.isWritable n)
    (x : Except Error (List TypeReference)) :
    (renamedOutcome f x).mapError Error.reported
      = renamedOutcome f (x.mapError Error.reported) := by
  cases x with
  | ok forest => rfl
  | error e =>
      change Except.error (e.renamed f).reported = Except.error (e.reported.renamed f)
      unfold Error.reported
      rw [isSayable_renamed f hf]
      split <;> rfl

/-- Ids are only names.

If the ids in the trees of a build are whole numbers, and no description holds one, then the layout
that is read from the trees after an injective renaming is the one that was read before, with the
ids of all nodes renamed, and an error is the same with its id renamed. What is reported is the
same, too, if the renaming gives no id that is too long to be written in the place of one that is
not. -/
theorem resolveLayout_renamed (f : Int → Int) (hf : Function.Injective f) (output : Json)
    (sources : Record) (hbare : output.get? "output" = none)
    (hsources : output.record? "sources" = some sources)
    (htidy : ∀ tree ∈ Ast.treesOf sources, Ast.IsTidy (.obj tree.2)) (fullName : String)
    (hname : ContractName.isQualified fullName = true) (limit : DepthLimit) :
    resolveLayout (Ast.renamedOutput f output) fullName .ast limit
      = renamedOutcome f (resolveLayout output fullName .ast limit) ∧
    ((∀ n, Text.isWritable (f n) = Text.isWritable n) →
      (resolveLayout (Ast.renamedOutput f output) fullName .ast limit).mapError Error.reported
        = renamedOutcome f
          ((resolveLayout output fullName .ast limit).mapError Error.reported)) := by
  have hobject : ∀ (o : Json) (s : Record), o.record? "sources" = some s → o.isObject = true := by
    intro o s hs
    cases o with
    | obj members => rfl
    | _ => exact absurd hs (by simp [Json.record?, Json.get?, Json.members?])
  have hself : ∀ o : Json, o.get? "output" = none → Source.outputOf o = o := by
    intro o ho
    rw [Source.outputOf, ho, Option.getD_none]
  have hsources' := Ast.record?_renamedOutput f output sources hsources
  -- The renaming reaches into the sources only, so an output that is bare stays so.
  have hbare' : (Ast.renamedOutput f output).get? "output" = none := by
    rw [Ast.renamedOutput, Ast.get?_atMember_other "sources" "output" (by decide), hbare]
  have hequation : resolveLayout (Ast.renamedOutput f output) fullName .ast limit
      = renamedOutcome f (resolveLayout output fullName .ast limit) := by
    rw [resolveLayout_ast_eq _ (hobject _ _ hsources') fullName hname limit,
      resolveLayout_ast_eq _ (hobject _ _ hsources) fullName hname limit, hself _ hbare,
      hself _ hbare']
    refine outcome_of_mirrors ?_
    -- What the index of the output holds stands in the trees, and so it is tidy.
    have hindex := (Ast.ofOutput_renamed hf output sources hsources htidy).imp_of_ok
      (fun index index' hok hsame => And.intro hok hsame)
    refine Tracks.bind hindex (fun index index' hboth => ?_)
    rcases hboth with ⟨hok, hsame⟩
    have hnodes : ∀ k n, index.nodes.find? k = some n → Ast.IsTidy (.obj n.record) := by
      intro k n hn
      rcases Ast.Index.found_inside output sources index hsources hok k n hn with
        ⟨tree, htree, hinside, _⟩
      exact (htidy tree htree).inside hinside
    have hcontracts : ∀ name contract, index.contracts.find? name = some contract →
        Ast.IsTidy (.obj contract) := by
      intro name contract hcontract
      rcases Ast.Index.within_of_contract hsources hok name contract hcontract with
        ⟨tree, htree, hinside⟩
      exact (htidy tree htree).inside hinside
    -- The two resolvers ask about the same ids under two names, and so take the same steps.
    exact layoutOf_lockstep (Ast.isLockstep_renamed hsame hnodes) fullName limit rfl
      (Ast.storage_mirrors hsame hnodes hcontracts fullName)
  refine ⟨hequation, fun hwritable => ?_⟩
  -- What is reported depends on whether the id in an error can be written.
  rw [hequation, reported_renamed f hwritable]

/-- A tree with a contract whose variable is a struct, and with the definition of the struct. -/
def pointTree : Record :=
  [("id", .int 9), ("nodes", .arr [
    .obj [("id", .int 1), ("nodeType", .str "ContractDefinition"), ("name", .str "Canvas"),
      ("linearizedBaseContracts", .arr [.int 1]),
      ("nodes", .arr [.obj [("id", .int 2), ("nodeType", .str "VariableDeclaration"),
        ("name", .str "origin"), ("typeName", .obj [("id", .int 3),
          ("nodeType", .str "UserDefinedTypeName"), ("referencedDeclaration", .int 0)])]])],
    .obj [("id", .int 0), ("nodeType", .str "StructDefinition"), ("members", .arr [
      .obj [("id", .int 5), ("nodeType", .str "VariableDeclaration"), ("name", .str "x")]])]])]

/-- A build with one source. -/
def canvasOutput (ast : Record) : Json :=
  .obj [("sources", .obj [("a.sol", .obj [("ast", .obj ast)])])]

/-- A struct whose definition has the id zero is read under another id, too. -/
theorem resolveLayout_renamed_canvas :
    resolveLayout (Ast.renamedOutput (fun n => n + 40) (canvasOutput pointTree)) "a.sol:Canvas" .ast
        (.ofNat 8)
      = renamedOutcome (fun n => n + 40)
        (resolveLayout (canvasOutput pointTree) "a.sol:Canvas" .ast (.ofNat 8)) ∧
    ∃ x y, resolveLayout (canvasOutput pointTree) "a.sol:Canvas" .ast (.ofNat 8) = .ok [x] ∧
      x.subType = some [y] ∧ y.facts.id = .int 5 := by
  refine ⟨(resolveLayout_renamed (fun n => n + 40) (fun a b hab => by simpa using hab)
    (canvasOutput pointTree) _ rfl rfl ?_ "a.sol:Canvas" (by decide) (.ofNat 8)).1, _, _,
    by with_unfolding_all rfl, rfl, rfl⟩
  intro tree htree
  rw [List.mem_singleton.mp htree]
  exact Ast.isTidy_of_checks _ (by decide) (by decide)

/-- A contract whose name is an object with an id in it. -/
def namelessTree : Record :=
  [("nodes", .arr [.obj [("id", .int 1), ("nodeType", .str "ContractDefinition"),
    ("name", .obj [("id", .int 5)])]])]

/-- The name of a contract changes with the ids in it, and so the contract is not found by it. -/
theorem resolveLayout_renamed_name :
    Function.Injective (fun n : Int => n + 1) ∧
    (canvasOutput namelessTree).get? "output" = none ∧
    (∀ record : Record, Ast.Inside (.obj record) (.obj namelessTree) → Ast.HasIntegerIds record) ∧
    ContractName.isQualified "a.sol:\x7b'id': 5\x7d" = true ∧
    resolveLayout (canvasOutput namelessTree) "a.sol:\x7b'id': 5\x7d" .ast (.ofNat 64) = .ok [] ∧
    resolveLayout (Ast.renamedOutput (fun n => n + 1) (canvasOutput namelessTree))
      "a.sol:\x7b'id': 5\x7d" .ast (.ofNat 64)
        = .error (.contractMissing "a.sol:\x7b'id': 5\x7d") := by
  have hids : (Ast.recordsIn (.obj namelessTree)).all Ast.integerIds = true := by decide
  have hempty : ∀ x : Except Error (List TypeReference), x.toOption.any List.isEmpty = true →
      x = .ok [] := by
    intro x hx
    cases x with
    | ok forest => rw [List.isEmpty_iff.mp hx]
    | error e => exact absurd hx Bool.false_ne_true
  have hmissing : ∀ (x : Except Error (List TypeReference)) (name : String),
      (match x with
        | .error (.contractMissing missing) => decide (missing = name)
        | _ => false) = true → x = .error (.contractMissing name) := by
    intro x name hx
    split at hx
    · rw [of_decide_eq_true hx]
    · exact absurd hx Bool.false_ne_true
  -- A name is shown if no number in it is too long, and only the kernel compares such numbers.
  exact ⟨fun a b hab => by simpa using hab, rfl,
    fun record hinside => Ast.hasIntegerIds_of_check record
      (List.all_eq_true.mp hids record (Ast.mem_recordsIn record _ hinside)),
    by decide, hempty _ (by decide +kernel), hmissing _ _ (by decide +kernel)⟩

end StorageLayout
