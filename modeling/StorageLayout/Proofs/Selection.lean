import StorageLayout.Proofs.Emitted.Contracts
import StorageLayout.Resolver

/-!
# The Choice Between the Sources

What the mode `auto` does, compared with the two modes that name a source.

A build can have emitted layouts for some contracts and only syntax trees for others. The choice is
made in two steps that look at different things. First the whole build is looked at: if any
contract has a member for an emitted layout, the index of those layouts is made, and made for all
contracts. Then the contract itself is looked up in this index, and the trees are read instead if
its record has no layout.

The second step can only be taken for a contract that is listed. So there are two ways to stay with
emitted layouts although the contract has none: the index cannot be made, because the layout of
some other contract is malformed; or the contract is not listed as an object, as when no output was
asked for its file. `FallsBack` is what remains, and `resolveLayout_auto` shows that it is exact: a
contract without a layout of its own is read from the trees if it holds, and otherwise there is an
error, even if the trees have the contract.

## Main definitions

* `CarriesLayout`: A contract with an emitted layout.
* `FallsBack`: The contract is read from the syntax trees.

## Theorems

* `resolveLayout_ast_eq`, `resolveLayout_layout_eq`, `resolveLayout_auto_eq`: The three modes.
* `hasEmittedLayout_of_carries`: A build with a layout for one contract has one.
* `storage_eq_error`: A contract without an emitted layout has no storage there.
* `resolveLayout_auto`: The outcome of `auto`, by that of the other modes.
* `resolveLayout_auto_unlisted`: A contract of the trees that is not listed.
-/

namespace StorageLayout

/-- The record of a contract has an emitted layout. -/
def CarriesLayout (units : Record) (fullName : String) : Prop :=
  ∃ contract layout, Emitted.contractOf units fullName = some contract ∧
    contract.record? "storageLayout" = some layout

/-- A contract without an emitted layout is read from the syntax trees: no contract of the build has
a member for one, be it null, or the index of emitted layouts can be made and lists the contract as
an object. -/
def FallsBack (output : Json) (units : Record) (fullName : String) : Prop :=
  Source.hasEmittedLayout output = false ∨
    ((∃ index, Emitted.Index.ofOutput output = .ok index) ∧
      ∃ record, Emitted.contractOf units fullName = some (.obj record))

/-- Only an object has a section of contracts, in itself or in its output. -/
theorem isObject_of_section (artifact : Json) (units : Record)
    (h : (Source.outputOf artifact).record? "contracts" = some units) :
    artifact.isObject = true := by
  cases artifact with
  | obj members => rfl
  | _ => exact absurd h (by simp [Source.outputOf, Json.get?, Json.record?, Json.members?])

theorem qualify_of_isQualified (name : String) (names : List String)
    (h : ContractName.isQualified name = true) : ContractName.qualify name names = .ok name := by
  rw [ContractName.qualify, if_pos h]

section Modes

variable (artifact : Json) (hobject : artifact.isObject = true)
variable (fullName : String) (hname : ContractName.isQualified fullName = true)
variable (limit : DepthLimit)

include hobject hname

/-- Reading from the syntax trees. -/
theorem resolveLayout_ast_eq : resolveLayout artifact fullName .ast limit
    = Ast.Index.ofOutput (Source.outputOf artifact) >>= fun index =>
      layoutOf (.ast index) fullName limit := by
  simp only [resolveLayout, Source.select, Source.ofArtifact, hobject, Bool.not_true,
    Bool.false_eq_true, if_false]
  cases Ast.Index.ofOutput (Source.outputOf artifact) with
  | error e => rfl
  | ok index =>
      simp only [bind, Except.bind, Functor.map, Except.map, qualify_of_isQualified _ _ hname]
      rfl

/-- Reading from the emitted layouts. -/
theorem resolveLayout_layout_eq : resolveLayout artifact fullName .layout limit
    = Emitted.Index.ofOutput (Source.outputOf artifact) >>= fun index =>
      layoutOf (.layout index) fullName limit := by
  simp only [resolveLayout, Source.select, Source.ofArtifact, hobject, Bool.not_true,
    Bool.false_eq_true, if_false]
  cases Emitted.Index.ofOutput (Source.outputOf artifact) with
  | error e => rfl
  | ok index =>
      simp only [bind, Except.bind, Functor.map, Except.map, qualify_of_isQualified _ _ hname]
      rfl

/-- The choice between the two, in its two steps. -/
theorem resolveLayout_auto_eq : resolveLayout artifact fullName .auto limit
    = if Source.hasEmittedLayout (Source.outputOf artifact) then
        Emitted.Index.ofOutput (Source.outputOf artifact) >>= fun index =>
          if Source.lacksLayout index fullName then resolveLayout artifact fullName .ast limit
          else layoutOf (.layout index) fullName limit
      else resolveLayout artifact fullName .ast limit := by
  have hast := resolveLayout_ast_eq artifact hobject fullName hname limit
  have hqualify := qualify_of_isQualified fullName
  cases hemitted : Source.hasEmittedLayout (Source.outputOf artifact) with
  -- Without an emitted layout anywhere, the choice is that of the syntax trees.
  | false =>
      rw [if_neg Bool.false_ne_true, hast]
      simp only [resolveLayout, Source.select, Source.ofArtifact, hobject, hemitted, Bool.not_true,
        Bool.false_eq_true, if_false]
      cases Ast.Index.ofOutput (Source.outputOf artifact) with
      | error e => rfl
      | ok index =>
          simp only [bind, Except.bind, Functor.map, Except.map, hqualify _ hname]
          rfl
  | true =>
      rw [if_pos rfl]
      simp only [resolveLayout, Source.select, Source.ofArtifact, hobject, hemitted, Bool.not_true,
        Bool.false_eq_true, if_false, if_true]
      -- The layouts are indexed first, and only then is the contract looked for among them.
      cases Emitted.Index.ofOutput (Source.outputOf artifact) with
      | error e => rfl
      | ok index =>
          simp only [bind, Except.bind, Functor.map, Except.map, hqualify _ hname]
          cases Source.lacksLayout index fullName with
          | false => rfl
          | true => simp only [if_true]

end Modes

/-- A build with an emitted layout for one contract has one. -/
theorem hasEmittedLayout_of_carries (output : Json) (units : Record) (fullName : String)
    (hunits : output.record? "contracts" = some units) (h : CarriesLayout units fullName) :
    Source.hasEmittedLayout output = true := by
  rcases h with ⟨contract, layout, hcontract, hlayout⟩
  -- The record of the contract comes from the section of some source, where it is found again.
  have hmem := Assoc.find?_ofList_mem fullName contract _ hcontract
  rcases List.mem_flatMap.mp hmem with ⟨unit, hunit, hlisted⟩
  rw [Source.hasEmittedLayout, hunits, Option.any_some, List.any_eq_true]
  refine ⟨unit, hunit, ?_⟩
  cases hnamed : unit.2 with
  | obj named =>
      rw [hnamed] at hlisted
      rcases List.mem_map.mp hlisted with ⟨c, hc, hpair⟩
      injection hpair with _ hrecord
      change named.any (fun c => (c.2.get? "storageLayout").isSome) = true
      rw [List.any_eq_true]
      refine ⟨c, hc, ?_⟩
      rw [hrecord]
      rw [Json.record?] at hlayout
      cases hget : contract.get? "storageLayout" with
      | none =>
          rw [hget] at hlayout
          exact absurd hlayout (by simp only [Option.bind_none, reduceCtorEq, not_false_eq_true])
      | some v => rfl
  | _ =>
      rw [hnamed] at hlisted
      exact absurd hlisted List.not_mem_nil

/-- A contract without an emitted layout has no storage there. -/
theorem storage_eq_error (index : Emitted.Index) (fullName : String)
    (h : ∀ contract layout, index.contracts.find? fullName = some contract →
      contract.record? "storageLayout" ≠ some layout) :
    ∃ e, index.storage fullName = .error e := by
  unfold Emitted.Index.storage
  cases hcontract : index.contracts.find? fullName with
  | none => exact ⟨_, rfl⟩
  | some contract =>
      cases hlayout : contract.record? "storageLayout" with
      | some layout => exact absurd hlayout (h contract layout hcontract)
      | none => cases contract <;> exact ⟨_, by simp only [hlayout]; rfl⟩

/-- Without storage there is no layout, whatever the limit. -/
theorem layoutOf_eq_error (source : Source) (fullName : String) (limit : DepthLimit)
    (h : ∃ e, source.storage fullName = .error e) :
    ∃ e, layoutOf source fullName limit = .error e := by
  rcases h with ⟨e, he⟩
  cases hlimit : limit.inRange with
  | false => exact ⟨_, by rw [layoutOf, hlimit, if_neg Bool.false_ne_true]⟩
  | true => exact ⟨e, by rw [layoutOf, hlimit, if_pos rfl, he]; rfl⟩

section Choice

variable (artifact : Json) (units : Record)
variable (hunits : (Source.outputOf artifact).record? "contracts" = some units)
variable (fullName : String) (hname : ContractName.isQualified fullName = true)
variable (limit : DepthLimit)

include hunits hname

/-- A contract with an emitted layout is read from it. -/
theorem resolveLayout_auto_of_carries (h : CarriesLayout units fullName) :
    resolveLayout artifact fullName .auto limit
      = resolveLayout artifact fullName .layout limit := by
  have hobject := isObject_of_section artifact units hunits
  -- The contract's own layout is enough for the first step of the choice.
  rw [resolveLayout_auto_eq artifact hobject fullName hname limit,
    resolveLayout_layout_eq artifact hobject fullName hname limit,
    if_pos (hasEmittedLayout_of_carries _ units fullName hunits h)]
  cases hindex : Emitted.Index.ofOutput (Source.outputOf artifact) with
  | error e => rfl
  | ok index =>
      rcases h with ⟨contract, layout, hcontract, hlayout⟩
      have hfound : index.contracts.find? fullName = some contract := by
        rw [Emitted.ofOutput_contracts _ units index hunits hindex]
        exact hcontract
      have hlacks : Source.lacksLayout index fullName = false := by
        rw [Source.lacksLayout, hfound, Option.any_some, hlayout, Option.isNone_some,
          Bool.and_false]
      rw [ok_bind, ok_bind, hlacks, if_neg Bool.false_ne_true]

/-- A contract without one is read from the trees if the choice falls back to them. -/
theorem resolveLayout_auto_of_fallsBack (hcarries : ¬ CarriesLayout units fullName)
    (h : FallsBack (Source.outputOf artifact) units fullName) :
    resolveLayout artifact fullName .auto limit = resolveLayout artifact fullName .ast limit := by
  have hobject := isObject_of_section artifact units hunits
  rw [resolveLayout_auto_eq artifact hobject fullName hname limit]
  rcases h with hnone | ⟨⟨index, hindex⟩, record, hrecord⟩
  · rw [hnone, if_neg Bool.false_ne_true]
  · -- The record is an object, and what it lacks is the layout.
    have hlacks : Source.lacksLayout index fullName = true := by
      rw [Source.lacksLayout, Emitted.ofOutput_contracts _ units index hunits hindex]
      change (Emitted.contractOf units fullName).any _ = true
      rw [hrecord, Option.any_some]
      cases hlayout : (Json.obj record).record? "storageLayout" with
      | none => rfl
      | some layout => exact absurd ⟨_, layout, hrecord, hlayout⟩ hcarries
    rw [hindex, ok_bind, hlacks, if_pos rfl, ite_self]

/-- Otherwise the choice stays with the emitted layouts, and there is an error. -/
theorem resolveLayout_auto_of_not_fallsBack (hcarries : ¬ CarriesLayout units fullName)
    (h : ¬ FallsBack (Source.outputOf artifact) units fullName) :
    ∃ e, resolveLayout artifact fullName .auto limit = .error e := by
  have hobject := isObject_of_section artifact units hunits
  have hemitted : Source.hasEmittedLayout (Source.outputOf artifact) = true := by
    rw [← Bool.not_eq_false]
    exact fun hnone => h (Or.inl hnone)
  rw [resolveLayout_auto_eq artifact hobject fullName hname limit, if_pos hemitted]
  cases hindex : Emitted.Index.ofOutput (Source.outputOf artifact) with
  -- The layout of another contract may be what cannot be read.
  | error e => exact ⟨e, rfl⟩
  | ok index =>
      have htable := Emitted.ofOutput_contracts _ units index hunits hindex
      have hlacks : Source.lacksLayout index fullName = false := by
        rw [Source.lacksLayout, htable]
        change (Emitted.contractOf units fullName).any _ = false
        cases hcontract : Emitted.contractOf units fullName with
        | none => rfl
        | some contract =>
            cases contract with
            | obj record => exact absurd (Or.inr ⟨⟨index, hindex⟩, record, hcontract⟩) h
            | _ => rfl
      rw [ok_bind, hlacks, if_neg Bool.false_ne_true]
      refine layoutOf_eq_error (.layout index) fullName limit (storage_eq_error index fullName ?_)
      intro contract layout hcontract hlayout
      rw [htable] at hcontract
      exact hcarries ⟨contract, layout, hcontract, hlayout⟩

end Choice

/-- What `auto` does with a qualified name, by what the other modes do.

A contract with an emitted layout is read from it. For any other contract `auto` does what `ast`
does if it falls back to the trees, and ends in an error if it does not. So a layout that `ast`
finds is the one that `auto` gives exactly if it falls back. -/
theorem resolveLayout_auto (artifact : Json) (units : Record)
    (hunits : (Source.outputOf artifact).record? "contracts" = some units) (fullName : String)
    (hname : ContractName.isQualified fullName = true) (limit : DepthLimit) :
    (CarriesLayout units fullName →
      resolveLayout artifact fullName .auto limit
        = resolveLayout artifact fullName .layout limit) ∧
    (¬ CarriesLayout units fullName →
      (FallsBack (Source.outputOf artifact) units fullName →
        resolveLayout artifact fullName .auto limit = resolveLayout artifact fullName .ast limit) ∧
      (¬ FallsBack (Source.outputOf artifact) units fullName →
        ∃ e, resolveLayout artifact fullName .auto limit = .error e) ∧
      ∀ forest, resolveLayout artifact fullName .ast limit = .ok forest →
        (resolveLayout artifact fullName .auto limit = .ok forest ↔
          FallsBack (Source.outputOf artifact) units fullName)) := by
  have hback := resolveLayout_auto_of_fallsBack artifact units hunits fullName hname limit
  have hstay := resolveLayout_auto_of_not_fallsBack artifact units hunits fullName hname limit
  refine ⟨resolveLayout_auto_of_carries artifact units hunits fullName hname limit,
    fun hcarries => ⟨hback hcarries, hstay hcarries, fun forest hforest => ⟨fun hauto => ?_,
      fun h => by rw [hback hcarries h, hforest]⟩⟩⟩
  by_contra h
  rcases hstay hcarries h with ⟨e, he⟩
  rw [hauto] at he
  exact absurd he (by simp only [reduceCtorEq, not_false_eq_true])

/-- The contracts section of a build that has an emitted layout for one contract. -/
def mixedUnits : Record :=
  [("contracts/Vault.sol", .obj [("Vault", .obj [("storageLayout", .obj
    [("storage", .arr []), ("types", .null)])])])]

/-- A build with a second contract, for which no output but the syntax tree was asked. -/
def mixedArtifact : Json :=
  .obj [("sources", .obj [("contracts/Plain.sol", .obj [("ast", .obj [("nodes", .arr [.obj
      [("id", .int 1), ("nodeType", .str "ContractDefinition"), ("name", .str "Plain"),
        ("nodes", .arr [.obj [("id", .int 2), ("nodeType", .str "VariableDeclaration"),
          ("name", .str "count"), ("typeName", .obj
            [("id", .int 3), ("nodeType", .str "ElementaryTypeName")])]])]])])])]),
    ("contracts", .obj mixedUnits)]

theorem plain_unlisted : Emitted.contractOf mixedUnits "contracts/Plain.sol:Plain" = none := rfl

theorem plain_not_carries : ¬ CarriesLayout mixedUnits "contracts/Plain.sol:Plain" := by
  rintro ⟨contract, layout, hcontract, _⟩
  rw [plain_unlisted] at hcontract
  exact absurd hcontract (by simp only [reduceCtorEq, not_false_eq_true])

/-- The choice for both contracts: the one with an emitted layout is read from it, and for the other
one there is an error. -/
theorem resolveLayout_auto_mixed :
    resolveLayout mixedArtifact "contracts/Vault.sol:Vault" .auto (.ofNat 64)
      = resolveLayout mixedArtifact "contracts/Vault.sol:Vault" .layout (.ofNat 64) ∧
    ∃ e, resolveLayout mixedArtifact "contracts/Plain.sol:Plain" .auto (.ofNat 64)
      = .error e := by
  refine ⟨(resolveLayout_auto mixedArtifact mixedUnits rfl "contracts/Vault.sol:Vault" rfl
    (.ofNat 64)).1 ⟨_, _, rfl, rfl⟩, ((resolveLayout_auto mixedArtifact mixedUnits rfl
      "contracts/Plain.sol:Plain" rfl (.ofNat 64)).2 plain_not_carries).2.1 ?_⟩
  rintro (hnone | ⟨_, record, hrecord⟩)
  · exact absurd hnone (by decide)
  · rw [plain_unlisted] at hrecord
    exact absurd hrecord (by simp only [reduceCtorEq, not_false_eq_true])

/-- A contract that no output lists is not found, although the syntax trees have its layout. -/
theorem resolveLayout_auto_unlisted :
    (∀ unit ∈ mixedUnits, unit.2.isObject = true) ∧
    ¬ CarriesLayout mixedUnits "contracts/Plain.sol:Plain" ∧
    ∃ forest, resolveLayout mixedArtifact "contracts/Plain.sol:Plain" .ast (.ofNat 64)
        = .ok forest ∧
      resolveLayout mixedArtifact "contracts/Plain.sol:Plain" .auto (.ofNat 64)
        = .error (.contractMissing "contracts/Plain.sol:Plain") := by
  refine ⟨fun unit hunit => ?_, plain_not_carries, _, by with_unfolding_all rfl, rfl⟩
  rw [List.mem_singleton.mp hunit]
  rfl

end StorageLayout
