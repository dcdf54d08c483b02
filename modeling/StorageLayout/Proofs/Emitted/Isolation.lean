import StorageLayout.Proofs.Emitted.Reading
import StorageLayout.Proofs.Emitted.Tables
import StorageLayout.Proofs.Lockstep
import StorageLayout.Proofs.QualifiedName
import StorageLayout.Proofs.Selection

/-!
# The Layout of a Contract and the Rest of the Build

An emitted layout is read as if its contract stood alone in the build.

The tables of types of all contracts are merged into one, and a key that several contracts have
takes the record of the last of them. A compiler writes the same record each time, but nothing
forces it to, so what a contract's layout looks like could depend on which contracts were compiled
with it and on their order.

It does not, under two conditions on the types that the contract reaches. They are those that its
entries name, and on from there those that the records of reached types name (`Reaches`). Its own
table has all of them, and every other table that has one of them has the same record. Nothing is
asked of types that the contract does not reach: the resolver never looks at them, which is what
`isolated_answers` says, step by step.

## Main definitions

* `Reaches`: The types that a layout reaches through a table.
* `Holds`: A contract stands in a build.
* `HasDistinctNames`: The members of a contracts section are those of an object.
* `IsSelfContained`, `IsShared`: The two conditions.
* `SharesShape`: One shape on both sides, which refers to types of a given kind.

## Theorems

* `entry_agrees`, `members_agrees`, `element_agrees`: Readers look at the records of the types that
  they read, and at nothing else in a table.
* `isolated_answers`: Two indices that agree on the types that are reached answer alike.
* `contractOf_eq`: A contract is found under its qualified name.
* `ofOutput_alone`: A contract of a build can be read alone, if the build can.
* `find?_records_of_reaches`: The table of the build has the contract's own records.
* `resolveLayout_alone`: The layout of a contract is the one that it has alone.
-/

namespace StorageLayout.Emitted

/-- The types that a layout reaches through a table: those that its entries name, and those that
the record of a type that is reached names. -/
inductive Reaches (table : Assoc Key Json) (layout : Record) : Json → Prop
  | entry {key : Json} (h : key ∈ entryTypes (layout.get "storage")) : Reaches table layout key
  | named {key other : Json} {k : Key} {record : Record} (h : Reaches table layout key)
      (hkey : key.key? = some k) (hrecord : table.find? k = some (.obj record))
      (hother : other ∈ namedTypes record) : Reaches table layout other

/-- A contract stands in the contracts section of a build. -/
def Holds (units : Record) (source name : String) (contract : Json) : Prop :=
  ∃ named, (source, Json.obj named) ∈ units ∧ (name, contract) ∈ named

/-- Sources and contracts have distinct names, as the members of objects do, and no colon stands in
the name of a contract. -/
structure HasDistinctNames (units : Record) : Prop where
  sources : units.keys.Nodup
  contracts : ∀ source (named : Record), (source, Json.obj named) ∈ units → named.keys.Nodup
  noColon : ∀ source name contract, Holds units source name contract → ':' ∉ name.toList

/-- A table has all types that a layout reaches. -/
def IsSelfContained (table : Assoc Key Json) (layout : Record) : Prop :=
  ∀ key k, Reaches table layout key → key.key? = some k → ∃ record, table.find? k = some record

/-- Another table that has a type that is reached has the same record of it. -/
def IsShared (table : Assoc Key Json) (layout : Record) (other : Assoc Key Json) : Prop :=
  ∀ key k record, Reaches table layout key → key.key? = some k → other.find? k = some record →
    table.find? k = some record

/-- The same shape, with types of a given kind in it. -/
def SharesShape (P : Json → Prop) (s s' : Shape) : Prop := s = s' ∧ ∀ key ∈ s.keys, P key

namespace Index

section Agreement

variable {index index' : Index} {P : Json → Prop}
variable (hagree : ∀ key, P key → index.typeRecord key = index'.typeRecord key)
variable (hclosed : ∀ key record, P key → index.typeRecord key = .ok (.obj record) →
  ∀ other ∈ namedTypes record, P other)

/-- An entry is read alike if the record of its type is found alike. -/
theorem entry_congr (value : Json)
    (h : ∀ key, value.get? "type" = some key → index.typeRecord key = index'.typeRecord key) :
    index.entry value = index'.entry value := by
  unfold entry
  cases value with
  | obj fields =>
      simp only [Json.members?]
      cases hkey : entryMember fields "type" with
      | error e => rfl
      | ok key => rw [ok_bind, ok_bind, h key (entryMember_eq_ok fields "type" key hkey)]
  | _ => rfl

include hclosed

/-- What a declaration refers to is named by the record of its type. -/
theorem sharesShape (key : Json) (record : Record) (s : Shape) (hkey : P key)
    (hrecord : index.typeRecord key = .ok (.obj record)) (hs : shape key record = .ok s) :
    SharesShape P s.told s.told := by
  refine ⟨rfl, fun other hother => ?_⟩
  have hmem := shape_keys_subset key record s hs (s.keys_told_subset hother)
  rcases List.mem_cons.mp hmem with heq | hnamed
  · rw [heq]
    exact hkey
  · exact hclosed key record hkey hrecord other hnamed

include hagree

/-- Entries of the types that are agreed on are read alike. -/
theorem entry_agrees (value : Json) (h : ∀ key, value.get? "type" = some key → P key) :
    Tracks (fun _ => False) Eq (SameDeclaration Eq (SharesShape P)) (index.entry value)
      (index'.entry value) := by
  rw [← entry_congr value fun key hkey => hagree key (h key hkey)]
  refine Tracks.refl_of (fun _ => rfl) _ (fun d hd => ?_)
  cases index.entryRead value d hd with
  | read hkey _ _ _ _ hrecord hshape =>
      refine ⟨SameSaid.refl (fun _ => rfl) _, rfl, ?_⟩
      rw [Declaration.shape_withShape_eq_told]
      exact sharesShape hclosed _ _ _ (h _ hkey) hrecord hshape

theorem entries_agrees (list : Json) (h : ∀ key ∈ entryTypes list, P key) :
    Tracks (fun _ => False) Eq (List.Forall₂ (SameDeclaration Eq (SharesShape P)))
      (index.entries list) (index'.entries list) := by
  unfold entries
  cases hitems : list.elements with
  | error e => exact Or.inr rfl
  | ok items =>
      -- The entries are the same; that each is one of the list is kept, because only for those `P`
      -- is known.
      have hsame : List.Forall₂ (fun item item' => item = item' ∧ item ∈ items) items items :=
        List.forall₂_same.mpr fun item hitem => ⟨rfl, hitem⟩
      refine Tracks.mapM hsame (fun item item' hitem => ?_)
      rw [← hitem.1]
      exact entry_agrees hagree hclosed item fun key hkey =>
        h key (mem_entryTypes list item key items hitems hitem.2 hkey)

theorem members_agrees (key : Json) (h : P key) :
    Tracks (fun _ => False) Eq (List.Forall₂ (SameDeclaration Eq (SharesShape P)))
      (index.members key) (index'.members key) := by
  rw [members, members, ← hagree key h]
  cases hrecord : index.typeRecord key >>= Json.asRecord with
  | error e => exact Or.inr rfl
  | ok record =>
      refine entries_agrees hagree hclosed _ (fun other hother => ?_)
      exact hclosed key record h (index.typeObject_eq_ok key record hrecord) other
        (List.mem_append_right _ hother)

theorem element_agrees (key : Json) (h : P key) :
    Tracks (fun _ => False) Eq (SameDeclaration Eq (SharesShape P)) (index.element key)
      (index'.element key) := by
  have hsame : index.element key = index'.element key := by rw [element, element, hagree key h]
  rw [← hsame]
  refine Tracks.refl_of (fun _ => rfl) _ (fun d hd => ?_)
  cases index.elementRead key d hd with
  | read hrecord hshape =>
      refine ⟨SameSaid.refl (fun _ => rfl) _, rfl, ?_⟩
      rw [Declaration.shape_withShape_eq_told]
      exact sharesShape hclosed _ _ _ h hrecord hshape

/-- Two indices that agree on some types answer alike under shapes that refer to these. -/
theorem isolated_answers (a b : Shape) (h : SharesShape P a b) :
    Answers (fun _ => False) Eq Eq (SharesShape P) (.layout index) (.layout index') a b := by
  rcases h with ⟨heq, hkeys⟩
  rw [← heq]
  -- Each key that a shape holds is in `P`, where the two tables agree.
  cases a with
  | elementary => exact .elementary
  | struct m => exact .struct (members_agrees hagree hclosed m (hkeys m List.mem_cons_self))
  | fixedArray length e =>
      exact .fixedArray rfl (element_agrees hagree hclosed e (hkeys e List.mem_cons_self))
  | dynamicArray e =>
      exact .dynamicArray (element_agrees hagree hclosed e (hkeys e List.mem_cons_self))
  | mapping k v =>
      exact .mapping rfl (Tracks.refl (fun _ => rfl) _)
        (element_agrees hagree hclosed v (hkeys v List.mem_cons_self))

/-- A contract that both indices have is laid out alike. -/
theorem layoutOf_agrees (fullName : String) (contract : Json) (layout : Record)
    (hfound : index.contracts.find? fullName = some contract)
    (hfound' : index'.contracts.find? fullName = some contract)
    (hlayout : contract.record? "storageLayout" = some layout)
    (h : ∀ key ∈ entryTypes (layout.get "storage"), P key) (limit : DepthLimit) :
    layoutOf (.layout index) fullName limit = layoutOf (.layout index') fullName limit := by
  have hstorage : Tracks (fun _ => False) Eq (List.Forall₂ (SameDeclaration Eq (SharesShape P)))
      (index.storage fullName) (index'.storage fullName) := by
    unfold storage
    rw [hfound, hfound']
    -- The contract is found in both with the same entries, so that only their types can differ.
    cases contract with
    | null => exact Or.inr rfl
    | _ =>
        simp only [hlayout]
        split
        · exact List.Forall₂.nil
        · exact entries_agrees hagree hclosed _ h
  have hanswers := layoutOf_answers (fun _ => rfl) isCongruence_eq
    (isolated_answers hagree hclosed) fullName limit hstorage
  rw [List.forall₂_eq_eq_eq] at hanswers
  exact hanswers.eq

end Agreement

end Index

/-- A contract that can be entered into one index can be entered into any. -/
theorem enterContract_isOk (source name : String) (contract : Json) (index index' : Index) :
    Tracks (fun _ => False) Eq (fun _ _ => True) (enterContract source index name contract)
      (enterContract source index' name contract) := by
  unfold enterContract
  cases contract.record? "storageLayout" with
  | none => exact trivial
  | some layout => exact Tracks.bind (mergeTypes_isOk _ _ _) (fun _ _ _ => trivial)

/-- What is listed stands in the build. -/
theorem holds_of_mem (units : Record) (c : String × Json) (h : c ∈ listedContracts units) :
    ∃ source name, Holds units source name c.2 := by
  rcases List.mem_flatMap.mp h with ⟨⟨source, unit⟩, hunit, hlisted⟩
  cases unit with
  | obj named =>
      rcases List.mem_map.mp hlisted with ⟨⟨name, contract⟩, hcontract, hpair⟩
      rw [← hpair]
      exact ⟨source, name, named, hunit, hcontract⟩
  | _ => exact absurd hlisted List.not_mem_nil

section Alone

variable (output : Json) (units : Record)
variable (hunits : output.record? "contracts" = some units)
variable (source name : String) (contract : Json) (hholds : Holds units source name contract)

include hholds

theorem mem_listedContracts : (s!"{source}:{name}", contract) ∈ listedContracts units := by
  rcases hholds with ⟨named, hnamed, hcontract⟩
  exact List.mem_flatMap.mpr ⟨_, hnamed, List.mem_map.mpr ⟨_, hcontract, rfl⟩⟩

/-- Distinct names are distinct keys, so a contract is found under its own. -/
theorem contractOf_eq (hnames : HasDistinctNames units) :
    contractOf units s!"{source}:{name}" = some contract := by
  refine Assoc.find?_ofList_of_unique _ contract _ (mem_listedContracts units _ _ _ hholds) ?_
  intro other hother
  rcases List.mem_flatMap.mp hother with ⟨⟨source', named'⟩, hunit', hlisted⟩
  rcases hholds with ⟨named, hunit, hcontract⟩
  cases named' with
  | obj named' =>
      rcases List.mem_map.mp hlisted with ⟨⟨name', value⟩, hcontract', hpair⟩
      injection hpair with hqualified hvalue
      change value = other at hvalue
      rw [hvalue] at hcontract'
      have hsame : source' = source ∧ name' = name := ContractName.qualified_inj
        (hnames.noColon source' name' other ⟨named', hunit', hcontract'⟩)
        (hnames.noColon source name contract ⟨named, hunit, hcontract⟩) hqualified
      -- One source is listed once, and one contract once in it.
      rw [hsame.1] at hunit'
      injection Assoc.eq_of_mem source _ _ units hnames.sources hunit' hunit with hnamed
      rw [hnamed, hsame.2] at hcontract'
      exact Assoc.eq_of_mem name other contract named (hnames.contracts source named hunit)
        hcontract' hcontract
  | _ => exact absurd hlisted List.not_mem_nil

include hunits

/-- A contract of a build can be read alone, if the build can. -/
theorem ofOutput_alone (index : Index) (h : Index.ofOutput output = .ok index) (reduced : Json)
    (hreduced : reduced.record? "contracts" = some [(source, .obj [(name, contract)])]) :
    ∃ index', Index.ofOutput reduced = .ok index' := by
  rw [Index.ofOutput, hunits] at h
  rcases hholds with ⟨named, hnamed, hcontract⟩
  rcases foldlM_step _ units _ index h _ hnamed with ⟨before, after, hsource⟩
  rcases foldlM_step _ named before after hsource _ hcontract with ⟨i, i', hstep⟩
  rcases (enterContract_isOk source name contract i ⟨[], []⟩).ok hstep with ⟨index', hindex', _⟩
  refine ⟨index', ?_⟩
  rw [Index.ofOutput, hreduced]
  simp only [List.foldlM_cons, enterSource, hindex']
  rfl

end Alone

/-- The table of the build has the contract's own record of every type that is reached. -/
theorem find?_records_of_reaches (output : Json) (units : Record) (index : Index)
    (hunits : output.record? "contracts" = some units) (hindex : Index.ofOutput output = .ok index)
    (source name : String) (contract : Json) (layout : Record)
    (hholds : Holds units source name contract)
    (hcontained : IsSelfContained (ownTypes contract) layout)
    (hshared : ∀ source' name' other, Holds units source' name' other →
      IsShared (ownTypes contract) layout (ownTypes other))
    (key : Json) (k : Key) (hreached : Reaches (ownTypes contract) layout key)
    (hkey : key.key? = some k) :
    (recordsOf index.types).find? k = (ownTypes contract).find? k := by
  rw [ofOutput_records output units index hunits hindex]
  rcases Assoc.find?_ofList_flatMap k (fun c : String × Json => typesOf c.2)
    (listedContracts units) with ⟨c, hc, record, hrecord, hfound⟩ | ⟨hnone, _⟩
  · rcases holds_of_mem units c hc with ⟨source', name', hother⟩
    rw [hfound, hshared source' name' c.2 hother key k record hreached hkey hrecord]
  · -- The contract is listed, so its own record is there to be found.
    rcases hcontained key k hreached hkey with ⟨record, hrecord⟩
    have hown := hnone _ (mem_listedContracts units source name contract hholds)
    rw [ownTypes, hown] at hrecord
    exact absurd hrecord (by simp only [reduceCtorEq, not_false_eq_true])

/-- The layout of a contract is the one that it has alone: the same tree or the same error.

The contract's table has all types that its layout reaches, and whatever other table of the build
has one of them has the same record. -/
theorem resolveLayout_alone (output : Json) (units : Record)
    (hbare : output.get? "output" = none) (hunits : output.record? "contracts" = some units)
    (haccepted : ∃ index, Index.ofOutput output = .ok index) (hnames : HasDistinctNames units)
    (source name : String) (contract : Json) (layout : Record)
    (hholds : Holds units source name contract)
    (hlayout : contract.record? "storageLayout" = some layout)
    (hcontained : IsSelfContained (ownTypes contract) layout)
    (hshared : ∀ source' name' other, Holds units source' name' other →
      IsShared (ownTypes contract) layout (ownTypes other))
    (reduced : Json) (hbare' : reduced.get? "output" = none)
    (hreduced : reduced.record? "contracts" = some [(source, .obj [(name, contract)])])
    (limit : DepthLimit) :
    resolveLayout output s!"{source}:{name}" .layout limit
      = resolveLayout reduced s!"{source}:{name}" .layout limit := by
  rcases haccepted with ⟨index, hindex⟩
  rcases ofOutput_alone output units hunits source name contract hholds index hindex reduced
    hreduced with ⟨index', hindex'⟩
  have hself : Source.outputOf output = output := by rw [Source.outputOf, hbare, Option.getD_none]
  have hself' : Source.outputOf reduced = reduced := by
    rw [Source.outputOf, hbare', Option.getD_none]
  have hobject := isObject_of_section output units (by rw [hself, hunits])
  have hobject' := isObject_of_section reduced _ (by rw [hself', hreduced])
  have hqualified := ContractName.isQualified_qualified source name
  rw [resolveLayout_layout_eq output hobject _ hqualified,
    resolveLayout_layout_eq reduced hobject' _ hqualified, hself, hself', hindex, hindex', ok_bind,
    ok_bind]
  have hfind := find?_records_of_reaches output units index hunits hindex source name contract
    layout hholds hcontained hshared
  -- Alone, the table of the build is the contract's own.
  have hrecords' : recordsOf index'.types = ownTypes contract := by
    rw [ofOutput_records reduced _ index' hreduced hindex', ownTypes]
    simp only [listedContracts, listedIn, List.flatMap_cons, List.flatMap_nil, List.map_cons,
      List.map_nil, List.append_nil]
  have hcontracts' : index'.contracts.find? s!"{source}:{name}" = some contract := by
    rw [ofOutput_contracts reduced _ index' hreduced hindex']
    exact Assoc.find?_put_self _ contract []
  have hcontracts : index.contracts.find? s!"{source}:{name}" = some contract := by
    rw [ofOutput_contracts output units index hunits hindex]
    exact contractOf_eq units source name contract hholds hnames
  refine Index.layoutOf_agrees (P := Reaches (ownTypes contract) layout)
    (fun key hkey => Index.typeRecord_congr index index' key fun k hk => ?_)
    (fun key record hkey hrecord other hother => ?_) _ contract layout hcontracts hcontracts'
    hlayout (fun key hkey => .entry hkey) limit
  · rw [hfind key k hkey hk, hrecords']
  · rcases index.typeRecord_eq_ok key _ hrecord with ⟨k, hk, hfound⟩
    rw [← find?_recordsOf, hfind key k hkey hk] at hfound
    exact .named hkey hk hfound hother

/-- A struct of one member, as the compiler writes it for every contract that uses it. -/
def pointRecord : Json :=
  .obj [("encoding", .str "inplace"), ("label", .str "struct Point"), ("numberOfBytes", .str "32"),
    ("members", .arr [.obj [("astId", .int 4), ("label", .str "x"), ("offset", .int 0),
      ("slot", .str "0"), ("type", .str "t_uint256")]])]

def wordRecord : Json :=
  .obj [("encoding", .str "inplace"), ("label", .str "uint256"), ("numberOfBytes", .str "32")]

/-- The layout of a contract with one variable. -/
def spotLayout : Record :=
  [("storage", .arr [.obj [("astId", .int 9), ("label", .str "spot"), ("offset", .int 0),
      ("slot", .str "0"), ("type", .str "t_struct(Point)5_storage")]]),
    ("types", .obj [("t_struct(Point)5_storage", pointRecord), ("t_uint256", wordRecord)])]

def spotContract : Json := .obj [("storageLayout", .obj spotLayout)]

/-- Another contract that has the struct, too, and a type of its own. -/
def routeContract : Json :=
  .obj [("storageLayout", .obj [("storage", .arr []), ("types", .obj [("t_bool", wordRecord),
    ("t_uint256", wordRecord), ("t_struct(Point)5_storage", pointRecord)])])]

/-- The contracts section of a build of both. -/
def spotUnits : Record :=
  [("Spot.sol", .obj [("Spot", spotContract)]), ("Route.sol", .obj [("Route", routeContract)])]

theorem holds_spot (source name : String) (contract : Json)
    (h : Holds spotUnits source name contract) :
    name = "Spot" ∧ contract = spotContract ∨ name = "Route" ∧ contract = routeContract := by
  rcases h with ⟨named, hunit, hcontract⟩
  -- There are two sources, with one contract in each.
  rcases List.mem_cons.mp hunit with heq | hunit
  · injection heq with _ heq
    injection heq with heq
    rw [heq, List.mem_singleton, Prod.mk.injEq] at hcontract
    exact Or.inl hcontract
  · injection List.mem_singleton.mp hunit with _ heq
    injection heq with heq
    rw [heq, List.mem_singleton, Prod.mk.injEq] at hcontract
    exact Or.inr hcontract

theorem spotUnits_distinct : HasDistinctNames spotUnits where
  sources := by decide
  contracts := by
    intro source named h
    rcases List.mem_cons.mp h with heq | h
    · injection heq with _ heq
      injection heq with heq
      rw [heq]
      decide
    · injection List.mem_singleton.mp h with _ heq
      injection heq with heq
      rw [heq]
      decide
  noColon := by
    intro source name contract h
    -- The two contracts that there are have plain names.
    rcases holds_spot source name contract h with ⟨hname, _⟩ | ⟨hname, _⟩
    · rw [hname]
      decide
    · rw [hname]
      decide

/-- What the variable reaches: the struct and the type of its member. -/
theorem reaches_spot (key : Json) (k : Key) (h : Reaches (ownTypes spotContract) spotLayout key)
    (hkey : key.key? = some k) : k = .text "t_struct(Point)5_storage" ∨ k = .text "t_uint256" := by
  -- From the one entry to the struct, from there to the type of its member, which names no other.
  induction h generalizing k with
  | entry h =>
      rw [List.mem_singleton.mp h] at hkey
      injection hkey with hkey
      exact Or.inl hkey.symm
  | named _ hl hrecord hother ih =>
      rcases ih _ hl with heq | heq
      · have hpoint : (ownTypes spotContract).find? (.text "t_struct(Point)5_storage")
          = some pointRecord := rfl
        rw [heq, hpoint] at hrecord
        injection hrecord with hrecord
        injection hrecord with hrecord
        rw [← hrecord] at hother
        rw [List.mem_singleton.mp hother] at hkey
        injection hkey with hkey
        exact Or.inr hkey.symm
      · have hword : (ownTypes spotContract).find? (.text "t_uint256") = some wordRecord := rfl
        rw [heq, hword] at hrecord
        injection hrecord with hrecord
        injection hrecord with hrecord
        rw [← hrecord] at hother
        exact absurd hother List.not_mem_nil

/-- A contract among others, and the same contract alone. -/
theorem resolveLayout_alone_spot :
    resolveLayout (.obj [("contracts", .obj spotUnits)]) "Spot.sol:Spot" .layout (.ofNat 64)
      = resolveLayout (.obj [("contracts", .obj [("Spot.sol", .obj [("Spot", spotContract)])])])
        "Spot.sol:Spot" .layout (.ofNat 64) ∧
    ∃ forest, resolveLayout (.obj [("contracts", .obj spotUnits)]) "Spot.sol:Spot" .layout
      (.ofNat 64) = .ok forest := by
  refine ⟨resolveLayout_alone (.obj [("contracts", .obj spotUnits)]) spotUnits rfl rfl ⟨_, rfl⟩
    spotUnits_distinct "Spot.sol" "Spot" spotContract spotLayout
    ⟨_, List.mem_cons_self, List.mem_cons_self⟩ rfl (fun key k hreached hkey => ?_)
    (fun source name other hother key k record hreached hkey hrecord => ?_) _ rfl rfl (.ofNat 64),
    _, by with_unfolding_all rfl⟩
  · rcases reaches_spot key k hreached hkey with heq | heq
    · exact ⟨pointRecord, by rw [heq]; rfl⟩
    · exact ⟨wordRecord, by rw [heq]; rfl⟩
  · rcases holds_spot source name other hother with ⟨_, hcontract⟩ | ⟨_, hcontract⟩
    · rw [hcontract] at hrecord
      exact hrecord
    -- Both tables have both types, with one record for each.
    · rw [hcontract] at hrecord
      rcases reaches_spot key k hreached hkey with heq | heq
      · rw [heq] at hrecord ⊢
        exact hrecord
      · rw [heq] at hrecord ⊢
        exact hrecord

end StorageLayout.Emitted
