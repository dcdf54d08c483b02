import StorageLayout.Proofs.Ast.Inheritance
import StorageLayout.Proofs.Ast.Types
import StorageLayout.Proofs.TreeForm

/-!
# Constants in Syntax Trees

Constants and immutables leave no trace in a layout.

They are read like all other variables and left out only when a list of declarations is resolved.
In between nothing is asked of their types, so a constant whose type names a definition that is
missing, or an array whose length cannot be read, does not keep a layout from being made; and it
makes no difference whether the constant stands there or not.

This is said of two builds with the same tables, in which the lists of nodes of contracts and the
lists of members of structs differ. `SameButConstants` lists the ways in which they may: a constant
is missing on one side, or has another type there. What is no variable does not count, for it may
hold a list that differs in turn, as a struct does that is defined inside a contract.

The readers are told of both builds at once. What is read from two such lists has the same
declarations that occupy storage, and an error is the same on both sides (`StoredAlike`). The
resolver does not tell such lists apart (`resolve_storedAlike`), neither for a contract nor for any
of the structs below.

## Main definitions

* `SameStored`, `StoredAlike`: Lists and runs with the same declarations that occupy storage.
* `IsConstantVariable`: A variable that occupies no storage.
* `SameButConstants`: Two lists of nodes that differ in constants.
* `SameRecord`, `SameTables`: Objects and builds that differ in such lists.

## Theorems

* `resolve_storedAlike`, `layoutOf_storedAlike`: What resolving makes of lists that are alike.
* `shape_sameTables`, `shape_sameRecord`: The shapes of types are the same.
* `declarations_storedAlike`: What is read from lists that differ in constants.
* `storage_storedAlike`, `members_storedAlike`, `element_same`: What the resolver is given.
* `not_constant_of_occurs`: No node of a layout is made of a constant.
* `layoutOf_sameButConstants`: The layouts are the same.
-/

namespace StorageLayout

/-- Two lists of declarations of which the same occupy storage. -/
def SameStored (ds ds' : List Declaration) : Prop := stored ds = stored ds'

/-- Two runs that end in the same error, or in declarations of which the same occupy storage. -/
abbrev StoredAlike (x y : Except Error (List Declaration)) : Prop :=
  Tracks (fun _ => False) Eq SameStored x y

namespace SameStored

variable {ds ds' es es' : List Declaration}

theorem append (hds : SameStored ds ds') (hes : SameStored es es') :
    SameStored (ds ++ es) (ds' ++ es') := by
  rw [SameStored, stored, stored, List.filter_append, List.filter_append]
  exact congrArg₂ _ hds hes

theorem cons (d : Declaration) (h : SameStored ds ds') : SameStored (d :: ds) (d :: ds') := by
  have hself : SameStored [d] [d] := rfl
  exact hself.append h

/-- A constant in front of a list does not count. -/
theorem of_constant (d : Declaration) (ds : List Declaration) (h : d.constant = true) :
    SameStored (d :: ds) ds :=
  List.filter_cons_of_neg (by rw [h]; exact Bool.false_ne_true)

end SameStored

section Resolving

variable {source source' : Source}
variable (hmembers : ∀ key, StoredAlike (source.members key) (source'.members key))
variable (helement : ∀ key, source.element key = source'.element key)

section Step

variable {r r' : List Declaration → Except Error (List TypeReference)}
variable (hr : ∀ ds ds', SameStored ds ds' → r ds = r' ds')

include hr

/-- What is resolved from runs that are alike is the same. -/
theorem bind_storedAlike {x y : Except Error (List Declaration)} (h : StoredAlike x y) :
    (x >>= r) = (y >>= r') := by
  refine Tracks.eq (Tracks.bind h fun ds ds' hds => ?_)
  rw [hr ds ds' hds]
  exact Tracks.refl (fun _ => rfl) _

include hmembers helement

theorem elementForest_storedAlike (key label : Json) :
    elementForest source r key label = elementForest source' r' key label := by
  unfold elementForest
  rw [helement key]
  cases source'.element key with
  | error e => rfl
  | ok element =>
      rw [ok_bind, ok_bind]
      -- Only the members of a struct are declared in a list, so only there a constant can be left
      -- out.
      cases element.shape with
      | elementary => rfl
      | struct m => exact bind_storedAlike hr (hmembers m)
      | fixedArray _ _ => exact hr _ _ rfl
      | dynamicArray _ => exact hr _ _ rfl
      | mapping _ _ => exact hr _ _ rfl

/-- One node with what is below it. -/
theorem expand_storedAlike (d : Declaration) : expand source r d = expand source' r' d := by
  have hforest := elementForest_storedAlike hmembers helement hr
  unfold expand
  cases d.shape with
  | elementary => rfl
  | struct m => simp only [bind_storedAlike hr (hmembers m)]
  | fixedArray _ _ => simp only [hforest]
  | dynamicArray _ => simp only [hforest]
  | mapping _ _ => simp only [hforest]

end Step

include hmembers helement

/-- Resolving does not tell lists apart that differ in what occupies no storage. -/
theorem resolve_storedAlike (limit : Json) (budget : Nat) (ds ds' : List Declaration)
    (h : SameStored ds ds') :
    resolve source limit budget ds = resolve source' limit budget ds' := by
  -- The run on one level less is the run that `expand` is given.
  induction budget generalizing ds ds' with
  | zero => rfl
  | succ budget ih =>
      have hexpand := funext (expand_storedAlike hmembers helement ih)
      change (stored ds).mapM _ = (stored ds').mapM _
      rw [show stored ds = stored ds' from h, hexpand]

/-- The layouts of a contract are the same, if its variables are alike. -/
theorem layoutOf_storedAlike (fullName : String) (limit : DepthLimit)
    (hstorage : StoredAlike (source.storage fullName) (source'.storage fullName)) :
    layoutOf source fullName limit = layoutOf source' fullName limit := by
  rw [layoutOf, layoutOf]
  split
  · exact bind_storedAlike
      (resolve_storedAlike hmembers helement limit.written (limit.budget 0)) hstorage
  · rfl

end Resolving

namespace Ast

/-- A variable that occupies no storage. Its description can be read, as it can be when it is an
object or missing. -/
def IsConstantVariable (v : Record) : Prop :=
  isVariable (.obj v) = true ∧ isConstant v = true ∧ IsReadable v

/-- Two lists of nodes that differ in constants, and in nodes that are no variables. -/
inductive SameButConstants : List Json → List Json → Prop
  | nil : SameButConstants [] []
  | same {x : Json} {xs ys : List Json} (h : SameButConstants xs ys) :
      SameButConstants (x :: xs) (x :: ys)
  /-- Neither of two nodes is a variable. -/
  | other {x y : Json} {xs ys : List Json} (hx : isVariable x = false) (hy : isVariable y = false)
      (h : SameButConstants xs ys) : SameButConstants (x :: xs) (y :: ys)
  /-- The type of a constant has been replaced. -/
  | retyped {v w : Record} {xs ys : List Json} (hv : IsConstantVariable v)
      (hvw : ∀ name, name ≠ "typeName" → v.find? name = w.find? name)
      (h : SameButConstants xs ys) : SameButConstants (.obj v :: xs) (.obj w :: ys)
  /-- A constant is missing in the second list. -/
  | deleted {v : Record} {xs ys : List Json} (hv : IsConstantVariable v)
      (h : SameButConstants xs ys) : SameButConstants (.obj v :: xs) ys
  /-- A constant is missing in the first list. -/
  | restored {v : Record} {xs ys : List Json} (hv : IsConstantVariable v)
      (h : SameButConstants xs ys) : SameButConstants xs (.obj v :: ys)

/-- Two values that are the same, or lists of nodes that differ in constants. -/
def SameNodes (list list' : Json) : Prop :=
  list = list' ∨ ∃ xs ys, list = .arr xs ∧ list' = .arr ys ∧ SameButConstants xs ys

/-- The members in which two objects may differ. The type of a variable is among them because a
constant whose type is replaced may stand in the table of nodes itself. -/
def changedNames : List String := ["nodes", "members", "typeName"]

/-- Two objects that differ in the constants of a contract or of a struct. -/
structure SameRecord (r r' : Record) : Prop where
  fields : ∀ name, name ∉ changedNames → r.find? name = r'.find? name
  nodes : SameNodes (r.getList "nodes") (r'.getList "nodes")
  members : SameNodes (r.getList "members") (r'.getList "members")

/-- Two builds with the same nodes and contracts, but for the constants in them. -/
structure SameTables (index index' : Index) : Prop where
  nodes : ∀ k, Option.Rel (fun n n' : Node => SameRecord n.record n'.record)
    (index.nodes.find? k) (index'.nodes.find? k)
  contracts : ∀ name, Option.Rel SameRecord (index.contracts.find? name)
    (index'.contracts.find? name)

namespace SameRecord

variable {r r' : Record} (h : SameRecord r r')

include h

theorem get (name : String) (hname : name ∉ changedNames) : r.get name = r'.get name := by
  rw [Record.get, Record.get, h.fields name hname]

theorem orEmpty (name : String) (hname : name ∉ changedNames) :
    r.orEmpty name = r'.orEmpty name := by
  rw [Record.orEmpty, Record.orEmpty, h.get name hname]

theorem childId (field : String) (hfield : field ∉ changedNames) :
    childId r field = childId r' field := by
  simp only [Ast.childId, h.get field hfield, h.get "nodeType" (by decide), h.get "id" (by decide)]

theorem arrayLength : arrayLength r = arrayLength r' := by
  simp only [Ast.arrayLength, h.get "length" (by decide), h.orEmpty "typeDescriptions" (by decide),
    h.get "id" (by decide)]

theorem mappingKeyType : mappingKeyType r = mappingKeyType r' := by
  simp only [Ast.mappingKeyType, h.orEmpty "keyType" (by decide)]

theorem bases : Index.bases r = Index.bases r' := by
  simp only [Index.bases, Record.member, h.get "linearizedBaseContracts" (by decide),
    h.fields "id" (by decide)]

/-- The type that an object describes does not depend on its constants. -/
theorem shape (index : Index) : index.shape (.obj r) = index.shape (.obj r') := by
  simp only [Index.shape, Json.members?, h.get "nodeType" (by decide), h.arrayLength,
    h.mappingKeyType, h.childId "baseType" (by decide), h.childId "valueType" (by decide),
    h.get "referencedDeclaration" (by decide)]

end SameRecord

namespace Index

/-! ## Constants in one build -/

section Reading

variable (index : Index)

/-- A constant is read whatever its type. -/
theorem declaration_of_constant (v : Record) (h : IsConstantVariable v) :
    ∃ d, index.declaration v = .ok d ∧ d.constant = true := by
  rcases h with ⟨_, hconstant, hreadable⟩
  have hadmits : index.Admits v := by
    refine ⟨hreadable, fun hstored => ?_⟩
    rw [hconstant] at hstored
    exact absurd hstored Bool.true_eq_false.mp
  rcases index.declaration_reads v hadmits with ⟨d, hd, hreads⟩
  exact ⟨d, hd, hreads.2.1.trans hconstant⟩

/-- A constant is read alike whatever its type. -/
theorem declaration_of_retyped (v w : Record) (h : IsConstantVariable v)
    (hvw : ∀ name, name ≠ "typeName" → v.find? name = w.find? name) :
    index.declaration v = index.declaration w := by
  have hget : ∀ name, name ≠ "typeName" → v.get name = w.get name := by
    intro name hname
    rw [Record.get, Record.get, hvw name hname]
  -- Both are constants, and the type of a constant is not read.
  have hconstant : isConstant w = true := by
    have hv := h.2.1
    rw [isConstant, hget "constant" (by decide), hget "mutability" (by decide)] at hv
    exact hv
  simp only [declaration, h.2.1, hconstant, if_true, Record.orEmpty, Record.getText,
    hget "typeDescriptions" (by decide), hget "id" (by decide), hget "visibility" (by decide),
    hvw "name" (by decide)]

/-- What is read from lists of nodes that differ in constants. -/
theorem items_storedAlike (xs ys : List Json) (h : SameButConstants xs ys) :
    StoredAlike ((xs.filter isVariable).mapM fun node => node.asRecord >>= index.declaration)
      ((ys.filter isVariable).mapM fun node => node.asRecord >>= index.declaration) := by
  induction h with
  | nil => exact rfl
  | @same x xs ys _ ih =>
      by_cases hx : isVariable x = true
      · rw [List.filter_cons_of_pos hx, List.filter_cons_of_pos hx, List.mapM_cons, List.mapM_cons]
        exact Tracks.bind_self (fun _ => rfl) _ (fun d => Tracks.map ih fun _ _ => SameStored.cons d)
      · rw [List.filter_cons_of_neg hx, List.filter_cons_of_neg hx]
        exact ih
  | other hx hy _ ih =>
      rw [List.filter_cons_of_neg (by rw [hx]; exact Bool.false_ne_true),
        List.filter_cons_of_neg (by rw [hy]; exact Bool.false_ne_true)]
      exact ih
  | @retyped v w xs ys hv hvw _ ih =>
      have hw : isVariable (.obj w) = true := by
        have hkind := hv.1
        change (v.get "nodeType").isText "VariableDeclaration" = true at hkind
        rw [Record.get, hvw "nodeType" (by decide)] at hkind
        exact hkind
      -- Both are read as the same declaration, for the type of a constant is not looked at.
      rw [List.filter_cons_of_pos hv.1, List.filter_cons_of_pos hw, List.mapM_cons, List.mapM_cons]
      change StoredAlike (index.declaration v >>= _) (index.declaration w >>= _)
      rw [index.declaration_of_retyped v w hv hvw]
      exact Tracks.bind_self (fun _ => rfl) _ (fun d => Tracks.map ih fun _ _ => SameStored.cons d)
  | @deleted v xs ys hv _ ih =>
      -- The constant is read on one side only, without an error, and is left out there.
      rcases index.declaration_of_constant v hv with ⟨d, hd, hconstant⟩
      rw [List.filter_cons_of_pos hv.1, List.mapM_cons]
      change StoredAlike (index.declaration v >>= _) _
      rw [hd, ok_bind, ← bind_pure (List.mapM _ (ys.filter isVariable))]
      exact Tracks.map ih fun ds _ hds => (SameStored.of_constant d ds hconstant).trans hds
  | @restored v xs ys hv _ ih =>
      rcases index.declaration_of_constant v hv with ⟨d, hd, hconstant⟩
      rw [List.filter_cons_of_pos hv.1, List.mapM_cons]
      change StoredAlike _ (index.declaration v >>= _)
      rw [hd, ok_bind, ← bind_pure (List.mapM _ (xs.filter isVariable))]
      exact Tracks.map ih fun _ ds' hds => hds.trans (SameStored.of_constant d ds' hconstant).symm

end Reading

/-! ## Two builds -/

section Builds

variable {index index' : Index} (h : SameTables index index')

include h

theorem node_sameTables (id : Json) :
    Tracks (fun _ => False) Eq SameRecord (index.node id) (index'.node id) := by
  unfold node
  refine Tracks.bind_self (fun _ => rfl) _ (fun k => ?_)
  have hfound := h.nodes k
  generalize index.nodes.find? k = a at hfound
  generalize index'.nodes.find? k = b at hfound
  cases hfound with
  | none => exact Or.inr rfl
  | some hrecord => exact hrecord

/-- The shapes of types are the same, for what a name refers to is of the same kind. -/
theorem shape_sameTables (typeNode : Json) : index.shape typeNode = index'.shape typeNode := by
  unfold shape
  cases typeNode.members? with
  | none => rfl
  | some record =>
      simp only
      split
      · rfl
      · split
        · rfl
        · split
          · -- Of the node that is referred to only the type and the id are read, and those are
            -- kept.
            refine Tracks.eq (Tracks.bind (node_sameTables h _) fun target target' htarget => ?_)
            rw [htarget.get "nodeType" (by decide), htarget.get "id" (by decide)]
            exact Tracks.refl (fun _ => rfl) _
          · rfl

/-- What is read from lists of nodes that differ in constants, each in its own build. -/
theorem declarations_storedAlike (list list' : Json) (hlist : SameNodes list list') :
    StoredAlike (index.declarations list) (index'.declarations list') := by
  have hsame : index'.declaration = index.declaration := by
    funext v
    simp only [declaration, shape_sameTables h]
  simp only [declarations, hsame]
  rcases hlist with heq | ⟨xs, ys, hxs, hys, hdiffer⟩
  · rw [heq]
    exact Tracks.refl_of (fun _ => rfl) _ fun _ _ => rfl
  · rw [hxs, hys]
    exact index.items_storedAlike xs ys hdiffer

theorem members_storedAlike (id : Json) :
    StoredAlike (index.members id) (index'.members id) :=
  Tracks.bind (node_sameTables h id) fun _ _ hnode => declarations_storedAlike h _ _ hnode.members

/-- An element is read from the same description and the same type. -/
theorem element_same (id : Json) : index.element id = index'.element id := by
  refine Tracks.eq (Tracks.bind (node_sameTables h id) fun node node' hnode => ?_)
  rw [hnode.orEmpty "typeDescriptions" (by decide), hnode.shape index, shape_sameTables h]
  exact Tracks.refl (fun _ => rfl) _

/-- The variables of a contract and its bases are alike, one contract after the other. -/
theorem storage_storedAlike (fullName : String) :
    StoredAlike (index.storage fullName) (index'.storage fullName) := by
  have hcontract := h.contracts fullName
  unfold storage
  -- The bases of the two contracts are the same, the variables in them only up to constants.
  generalize index.contracts.find? fullName = a at hcontract
  generalize index'.contracts.find? fullName = b at hcontract
  cases hcontract with
  | none => exact Or.inr rfl
  | @some contract contract' hrecord =>
      simp only [hrecord.bases]
      refine Tracks.bind_self (fun _ => rfl) _ (fun ids => ?_)
      have hparts : Tracks (fun _ => False) Eq
          (List.Forall₂ SameStored)
          (ids.reverse.mapM index.variablesOf) (ids.reverse.mapM index'.variablesOf) := by
        have hids : List.Forall₂ Eq ids.reverse ids.reverse := List.forall₂_refl _
        refine Tracks.mapM hids fun id id' hid => ?_
        rw [← hid]
        exact Tracks.bind (node_sameTables h id) fun _ _ hnode =>
          declarations_storedAlike h _ _ hnode.nodes
      refine Tracks.map hparts fun parts parts' hall => ?_
      -- Base by base, because the lists of two bases need not be of one length.
      induction hall with
      | nil => rfl
      | cons hds _ ih => exact hds.append ih

end Builds

end Index

end Ast

/-- What stands in a layout at any depth is not made of a constant. -/
theorem not_constant_of_occurs (source : Source) (fullName : String) (forest : List TypeReference)
    (n : Nat) (o : Origin) (d : Declaration) (x : TypeReference)
    (h : Occurs source fullName forest n o d x) : d.constant = false := by
  have hstored : ∀ (ds : List Declaration) (i : Nat) (d : Declaration),
      (stored ds)[i]? = some d → d.constant = false := by
    intro ds i d hd
    have hmem := List.mem_of_getElem? hd
    rw [stored, List.mem_filter, Bool.not_eq_true'] at hmem
    exact hmem.2
  cases h with
  | storage _ hd _ => exact hstored _ _ d hd
  | member _ _ _ hd _ _ => exact hstored _ _ d hd
  | element _ _ _ he _ _ _ =>
      -- Another label does not make a constant of an element.
      have hconstant := element_not_constant source _ _ he
      exact hconstant

/-- Constants and immutables are in no layout, and change nothing in one, whatever their types are
and whether they stand there or not.

The layout of a contract is the same in two builds whose tables differ in nothing but constants: in
the nodes of contracts and the members of structs they may be missing in either build, or have other
types there. If it ends in an error, then in both builds and in the same one. And every node of a
layout, at any depth, is made of a declaration that is no constant. -/
theorem layoutOf_sameButConstants (index index' : Ast.Index) (h : Ast.SameTables index index')
    (fullName : String) (limit : DepthLimit) :
    layoutOf (.ast index) fullName limit = layoutOf (.ast index') fullName limit ∧
    ∀ forest, layoutOf (.ast index) fullName limit = .ok forest → ∀ n x, At forest n x →
      ∃ o d, Occurs (.ast index) fullName forest n o d x ∧ d.constant = false := by
  have hmembers : ∀ key, StoredAlike ((Source.ast index).members key)
      ((Source.ast index').members key) := Ast.Index.members_storedAlike h
  have helement : ∀ key, (Source.ast index).element key = (Source.ast index').element key :=
    Ast.Index.element_same h
  refine ⟨?_, fun forest hlayout n x hx => ?_⟩
  · exact layoutOf_storedAlike hmembers helement fullName limit
      (Ast.Index.storage_storedAlike h fullName)
  · rcases occurs_of_at hlayout n x hx with ⟨o, d, hoccurs⟩
    exact ⟨o, d, hoccurs, not_constant_of_occurs _ fullName forest n o d x hoccurs⟩

namespace Ast

/-- A contract with a variable that is a struct, below some constants. -/
def ledgerContract (constants : List Json) : Record :=
  [("id", .int 1), ("nodeType", .str "ContractDefinition"), ("name", .str "Ledger"),
    ("nodes", .arr (constants ++ [variableNode "entry" [("nodeType", .str "UserDefinedTypeName"),
      ("referencedDeclaration", .int 3)]]))]

/-- The struct, with some constants above its member. -/
def ledgerEntry (constants : List Json) : Record :=
  [("id", .int 3), ("nodeType", .str "StructDefinition"),
    ("members", .arr (constants ++ [variableNode "amount" []]))]

/-- The index of their tree. -/
def ledgerIndex (own members : List Json) : Index where
  nodes := Assoc.ofList
    [(.number 1, ⟨.int 1, ledgerContract own⟩), (.number 3, ⟨.int 3, ledgerEntry members⟩)]
  contracts := Assoc.ofList [("a.sol:Ledger", ledgerContract own)]

/-- A constant whose type names a definition that is missing. -/
def danglingConstant : Record :=
  [("nodeType", .str "VariableDeclaration"), ("name", .str "SCALE"), ("constant", .bool true),
    ("typeName", .obj [("nodeType", .str "UserDefinedTypeName"),
      ("referencedDeclaration", .int 99)])]

/-- An immutable whose type is an array with a length that cannot be read. -/
def unreadableImmutable : Record :=
  [("nodeType", .str "VariableDeclaration"), ("name", .str "rates"),
    ("mutability", .str "immutable"),
    ("typeName", .obj [("nodeType", .str "ArrayTypeName"), ("length", .bool true)])]

/-- The contract with and without the constant. -/
theorem sameRecord_ledger :
    SameRecord (ledgerContract [.obj danglingConstant]) (ledgerContract []) where
  fields name hname := by
    have hnodes : "nodes" ≠ name := fun heq => hname (heq ▸ List.mem_cons_self)
    simp only [ledgerContract, Assoc.find?, if_neg hnodes]
  nodes := Or.inr ⟨_, _, rfl, rfl, .deleted ⟨rfl, rfl, [], rfl⟩ (.same .nil)⟩
  members := Or.inl rfl

/-- One build has the constant in the contract, the other one the immutable in the struct. -/
theorem sameTables_ledger :
    SameTables (ledgerIndex [.obj danglingConstant] []) (ledgerIndex [] [.obj unreadableImmutable])
    where
  nodes k := by
    have hentry : SameRecord (ledgerEntry []) (ledgerEntry [.obj unreadableImmutable]) := by
      refine ⟨fun name hname => ?_, Or.inl rfl, Or.inr ⟨_, _, rfl, rfl, ?_⟩⟩
      · have hmembers : "members" ≠ name :=
          fun heq => hname (heq ▸ List.mem_cons_of_mem _ List.mem_cons_self)
        simp only [ledgerEntry, Assoc.find?, if_neg hmembers]
      · exact .restored ⟨rfl, rfl, [], rfl⟩ (.same .nil)
    -- The tables have the same keys in the same order, hence a comparison entry by entry.
    refine Assoc.find?_ofList_forall₂ (R := fun n n' : Node => SameRecord n.record n'.record)
      _ _ ?_ k
    exact .cons ⟨rfl, sameRecord_ledger⟩ (.cons ⟨rfl, hentry⟩ .nil)
  contracts name := by
    refine Assoc.find?_ofList_forall₂ (R := SameRecord) _ _ ?_ name
    exact .cons ⟨rfl, sameRecord_ledger⟩ .nil

/-- The struct and its member are the layout in both builds. -/
theorem layoutOf_sameButConstants_ledger :
    SameTables (ledgerIndex [.obj danglingConstant] [])
      (ledgerIndex [] [.obj unreadableImmutable]) ∧
    ∃ entry, layoutOf (.ast (ledgerIndex [.obj danglingConstant] [])) "a.sol:Ledger" (.ofNat 64)
        = .ok [entry] ∧
      layoutOf (.ast (ledgerIndex [] [.obj unreadableImmutable])) "a.sol:Ledger" (.ofNat 64)
        = .ok [entry] ∧ entry.subType.map List.length = some 1 := by
  have hlayout : ∃ entry, layoutOf (.ast (ledgerIndex [.obj danglingConstant] [])) "a.sol:Ledger"
      (.ofNat 64) = .ok [entry] ∧ entry.subType.map List.length = some 1 :=
    ⟨_, by with_unfolding_all rfl, rfl⟩
  rcases hlayout with ⟨entry, hentry, hbelow⟩
  refine ⟨sameTables_ledger, entry, hentry, ?_, hbelow⟩
  rw [← (layoutOf_sameButConstants _ _ sameTables_ledger _ _).1]
  exact hentry

end Ast

end StorageLayout
