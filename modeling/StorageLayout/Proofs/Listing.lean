import StorageLayout.Proofs.Ast.Faults
import StorageLayout.Proofs.Emitted.Faults
import StorageLayout.Proofs.Selection

/-!
# The Names That Are Listed

Which contracts of an artifact are found, compared with those that are listed.

The contracts are listed by one source, which is chosen for the artifact as a whole. A layout is
made by a source that is chosen for the contract, and the choice may change over to the syntax trees
for a contract that the emitted layouts list without one. A name is known to both only if the two
tables agree. They do in what compilers write, where every contract of the contracts section is
defined in the tree of its source (`DefinesListed`): then what is listed is found, whatever becomes
of its layout, and what is not listed is not found.

That a listed contract is found is a statement about all errors that its layout can end in, and the
two modules on faults have it: none of them complains about a name (`Error.isOfName`). What is left
is to look at who is asked.

There is one exception. A sources section that is there but empty gives an index without contracts,
not an error, and no tree is there to ask for a definition. A contract that is listed without a
layout is then looked for in this index (`IsLeftOut`), and it is not found.

## Main definitions

* `Error.isNotFound`, `Error.isOfName`: Whether an error complains about the name of a contract.
* `DefinesListed`: The contracts section has no contract that the trees do not define.
* `IsLeftOut`: A contract is looked for in an empty sources section.

## Theorems

* `ofArtifact_auto`: The source that lists the contracts.
* `resolveLayout_of_not_listed`, `resolveLayout_of_isLeftOut`: Contracts that are not found.
* `ends_of_listed`: Contracts that are found.
* `resolveLayout_notFound_iff`: Exactly the listed contracts are found, with the one exception.
* `resolveLayout_leftOut`: A contract that is listed and not found.
-/

namespace StorageLayout

/-- Whether an error says that a contract is not found. -/
def Error.isNotFound : Error → Bool
  | .contractMissing _ | .noContractNamed _ => true
  | _ => false

/-- Whether an error complains about the name of a contract: it is not found, or it has no emitted
layout. -/
def Error.isOfName : Error → Bool
  | .noStorageLayout _ => true
  | e => e.isNotFound

/-- Every contract of the contracts section is defined at the top of the tree of its source. -/
def DefinesListed (sources units : Record) : Prop :=
  ∀ unit ∈ units, ∀ contracts, unit.2 = .obj contracts → ∀ c ∈ contracts,
    ∃ ast record, (unit.1, ast) ∈ Ast.treesOf sources ∧ Ast.Defines ast record (.str c.1)

/-- A contract has no emitted layout, other contracts have one, and there is no source to look for
it in. -/
def IsLeftOut (output : Json) (fullName : String) : Prop :=
  Source.hasEmittedLayout output = true ∧ output.record? "sources" = some [] ∧
    ∀ units, output.record? "contracts" = some units → ¬ CarriesLayout units fullName

/-- An error that complains about the form of the data does not complain about a name. -/
theorem isOfName_of_form (e : Error) (h : e.isOfForm = true) : e.isOfName = false := by
  cases e <;> first | rfl | exact absurd h Bool.false_ne_true

/-- An error in which the layout of a contract can end that a source has does not, either. -/
theorem isOfName_of_fault {dangling : Json → Prop} (e : Error) (h : Fault dangling e) :
    e.isOfName = false := by
  cases h with
  | form hform => exact isOfName_of_form e hform
  | tooDeep limit => rfl
  | outOfRange limit => rfl
  | unresolved _ => rfl

/-- Under a limit that is in range, an error of the storage is that of the layout. -/
theorem layoutOf_of_storage_error (source : Source) (fullName : String) (limit : DepthLimit)
    (hlimit : limit.inRange = true) (e : Error) (h : source.storage fullName = .error e) :
    layoutOf source fullName limit = .error e := by
  rw [layoutOf, if_pos hlimit, h]
  rfl

/-- The source that lists the contracts of an artifact: emitted layouts if there are any. -/
theorem ofArtifact_auto (artifact : Json) (source : Source)
    (h : Source.ofArtifact artifact .auto = .ok source) :
    artifact.isObject = true ∧
      ((Source.hasEmittedLayout (Source.outputOf artifact) = false ∧
        ∃ index, Ast.Index.ofOutput (Source.outputOf artifact) = .ok index ∧ source = .ast index) ∨
      (Source.hasEmittedLayout (Source.outputOf artifact) = true ∧
        ∃ index, Emitted.Index.ofOutput (Source.outputOf artifact) = .ok index ∧
          source = .layout index)) := by
  unfold Source.ofArtifact at h
  cases hobject : artifact.isObject with
  | false =>
      rw [hobject] at h
      exact absurd h (by simp only [Bool.not_false, if_true, reduceCtorEq, not_false_eq_true])
  | true =>
      -- An object is opened as emitted layouts if there is one anywhere, and otherwise as trees.
      refine ⟨rfl, ?_⟩
      simp only [hobject, Bool.not_true, Bool.false_eq_true, if_false] at h
      cases hemitted : Source.hasEmittedLayout (Source.outputOf artifact) with
      | false =>
          rw [hemitted, if_neg Bool.false_ne_true] at h
          rcases (map_eq_ok _ _ _).mp h with ⟨index, hindex, hsource⟩
          exact Or.inl ⟨rfl, index, hindex, hsource.symm⟩
      | true =>
          rw [hemitted, if_pos rfl] at h
          rcases (map_eq_ok _ _ _).mp h with ⟨index, hindex, hsource⟩
          exact Or.inr ⟨rfl, index, hindex, hsource.symm⟩

/-- A contract that no table has is missing from the syntax trees. -/
theorem astStorage_of_not_mem (index : Ast.Index) (fullName : String)
    (h : fullName ∉ index.contracts.keys) :
    index.storage fullName = .error (.contractMissing fullName) := by
  unfold Ast.Index.storage
  cases hfind : index.contracts.find? fullName with
  | none => rfl
  | some contract => exact absurd ((Assoc.mem_keys_iff fullName _).mpr ⟨contract, hfind⟩) h

/-- A contract that is listed is one of the contracts section. -/
theorem contractOf_of_mem (output : Json) (index : Emitted.Index)
    (hindex : Emitted.Index.ofOutput output = .ok index) (fullName : String)
    (h : fullName ∈ index.contracts.keys) :
    ∃ units contract, output.record? "contracts" = some units ∧
      Emitted.contractOf units fullName = some contract ∧
      index.contracts.find? fullName = some contract ∧
      (fullName, contract) ∈ Emitted.listedContracts units := by
  cases hunits : output.record? "contracts" with
  | none =>
      rw [Emitted.Index.ofOutput, hunits] at hindex
      exact absurd hindex (by simp only [reduceCtorEq, not_false_eq_true])
  | some units =>
      -- The table is made of all that is listed, and what is found in it is the last one of a name.
      have htable := Emitted.ofOutput_contracts output units index hunits hindex
      rcases (Assoc.mem_keys_iff fullName _).mp h with ⟨contract, hcontract⟩
      have hfound := hcontract
      rw [htable] at hfound
      exact ⟨units, contract, rfl, hfound, hcontract,
        Assoc.find?_ofList_mem fullName contract _ hfound⟩

/-- A contract of the contracts section that the trees define is in their table. -/
theorem mem_contracts_of_definesListed (output : Json) (sources units : Record) (index : Ast.Index)
    (hsources : output.record? "sources" = some sources)
    (hindex : Ast.Index.ofOutput output = .ok index) (hdefines : DefinesListed sources units)
    (fullName : String) (contract : Json)
    (h : (fullName, contract) ∈ Emitted.listedContracts units) :
    ∃ definition, index.contracts.find? fullName = some definition := by
  rcases List.mem_flatMap.mp h with ⟨unit, hunit, hlisted⟩
  cases hnamed : unit.2 with
  | obj contracts =>
      rw [hnamed] at hlisted
      rcases List.mem_map.mp hlisted with ⟨c, hc, hpair⟩
      injection hpair with hfull _
      rcases hdefines unit hunit contracts hnamed c hc with ⟨ast, record, hast, hdefinition⟩
      have hmem := Ast.mem_definitionsIn_of_defines unit.1 ast record _ hdefinition
      change (s!"{unit.1}:{c.1}", record) ∈ _ at hmem
      rw [hfull] at hmem
      rw [Ast.Index.ofOutput_definitions output sources index hsources hindex]
      -- Of several definitions with the name one is in the table.
      rcases Assoc.find?_ofList_flatMap fullName
        (fun tree : String × Record => Ast.definitionsIn tree.1 tree.2) (Ast.treesOf sources) with
        ⟨_, _, v, _, hv⟩ | ⟨hnone, _⟩
      · exact ⟨v, hv⟩
      · have hkeys := hnone (unit.1, ast) hast
        exact absurd hmem (Assoc.not_mem_of_find?_ofList fullName _ hkeys record)
  | _ =>
      rw [hnamed] at hlisted
      exact absurd hlisted List.not_mem_nil

section Artifacts

variable (artifact : Json) (source : Source)
variable (hsource : Source.ofArtifact artifact .auto = .ok source)
variable (fullName : String) (hname : ContractName.isQualified fullName = true)
variable (limit : DepthLimit) (hlimit : limit.inRange = true)

include hsource hname hlimit

/-- What is not listed is not found. -/
theorem resolveLayout_of_not_listed (h : fullName ∉ source.contractNames) :
    resolveLayout artifact fullName .auto limit = .error (.contractMissing fullName) := by
  rcases ofArtifact_auto artifact source hsource with
    ⟨hobject, ⟨hemitted, index, hindex, heq⟩ | ⟨hemitted, index, hindex, heq⟩⟩
  · rw [heq] at h
    rw [resolveLayout_auto_eq artifact hobject fullName hname limit, hemitted,
      if_neg Bool.false_ne_true, resolveLayout_ast_eq artifact hobject fullName hname limit, hindex,
      ok_bind]
    exact layoutOf_of_storage_error (.ast index) fullName limit hlimit _
      (astStorage_of_not_mem index fullName h)
  · rw [heq] at h
    have hnone : index.contracts.find? fullName = none := by
      cases hfind : index.contracts.find? fullName with
      | none => rfl
      | some contract => exact absurd ((Assoc.mem_keys_iff fullName _).mpr ⟨contract, hfind⟩) h
    -- A contract that is not listed stays with the emitted layouts.
    have hlacks : Source.lacksLayout index fullName = false := by
      rw [Source.lacksLayout, hnone]
      rfl
    rw [resolveLayout_auto_eq artifact hobject fullName hname limit, hemitted, if_pos rfl, hindex,
      ok_bind, hlacks, if_neg Bool.false_ne_true]
    refine layoutOf_of_storage_error (.layout index) fullName limit hlimit _ ?_
    change index.storage fullName = _
    rw [Emitted.Index.storage, hnone]

variable (hobjects : ∀ units, (Source.outputOf artifact).record? "contracts" = some units →
  ∀ c ∈ Emitted.listedContracts units, c.2.isObject = true)

include hobjects

/-- A contract without a layout is not found in an empty sources section. -/
theorem resolveLayout_of_isLeftOut (h : IsLeftOut (Source.outputOf artifact) fullName) :
    resolveLayout artifact fullName .auto limit = .error (.contractMissing fullName) := by
  by_cases hlisted : fullName ∈ source.contractNames
  · rcases h with ⟨hlayouts, hempty, hcarries⟩
    rcases ofArtifact_auto artifact source hsource with
      ⟨hobject, ⟨hemitted, _⟩ | ⟨hemitted, index, hindex, heq⟩⟩
    · -- The source is one of emitted layouts, because there is one.
      rw [hemitted] at hlayouts
      exact absurd hlayouts Bool.false_ne_true
    · rw [heq] at hlisted
      rcases contractOf_of_mem _ index hindex fullName hlisted with
        ⟨units, contract, hunits, hcontract, hfound, hmem⟩
      -- The contract itself has none, so the trees are asked.
      have hlacks : Source.lacksLayout index fullName = true := by
        rw [Source.lacksLayout, hfound, Option.any_some, hobjects units hunits _ hmem,
          Bool.true_and]
        cases hlayout : contract.record? "storageLayout" with
        | none => rfl
        | some layout => exact absurd ⟨contract, layout, hcontract, hlayout⟩ (hcarries units hunits)
      -- But there are no trees, and in an empty table nothing is found.
      have hast : Ast.Index.ofOutput (Source.outputOf artifact) = .ok ⟨[], []⟩ := by
        rw [Ast.Index.ofOutput, hempty]
        rfl
      rw [resolveLayout_auto_eq artifact hobject fullName hname limit, hemitted, if_pos rfl, hindex,
        ok_bind, hlacks, if_pos rfl, resolveLayout_ast_eq artifact hobject fullName hname limit,
        hast, ok_bind]
      exact layoutOf_of_storage_error (.ast ⟨[], []⟩) fullName limit hlimit _ rfl
  · exact resolveLayout_of_not_listed artifact source hsource fullName hname limit hlimit hlisted

omit hlimit in
/-- What is listed is found: the layout ends in no error that complains about a name. -/
theorem ends_of_listed
    (hdefines : ∀ sources units, (Source.outputOf artifact).record? "sources" = some sources →
      (Source.outputOf artifact).record? "contracts" = some units → Ast.treesOf sources ≠ [] →
      DefinesListed sources units)
    (h : fullName ∈ source.contractNames)
    (hleft : ¬ IsLeftOut (Source.outputOf artifact) fullName) :
    Ends (fun e => e.isOfName = false) (fun _ => True)
      (resolveLayout artifact fullName .auto limit) := by
  -- A contract that the trees list is read from them.
  have htrees : ∀ (sources : Record) (index : Ast.Index),
      (Source.outputOf artifact).record? "sources" = some sources →
      Ast.Index.ofOutput (Source.outputOf artifact) = .ok index →
      (∃ definition, index.contracts.find? fullName = some definition) →
      Ends (fun e => e.isOfName = false) (fun _ => True)
        (layoutOf (.ast index) fullName limit) := by
    rintro sources index hsources hindex ⟨definition, hdefinition⟩
    have hends := Ast.Index.layoutOf_ends_fault hsources hindex fullName definition hdefinition
      limit
    exact Ends.intro (fun _ _ => trivial) (fun e he => isOfName_of_fault e (hends.of_error he))
  have hindexing := Ast.ends_ofOutput isOfName_of_form rfl (fun _ => rfl)
    (Source.outputOf artifact)
  rcases ofArtifact_auto artifact source hsource with
    ⟨hobject, ⟨hemitted, index, hindex, heq⟩ | ⟨hemitted, index, hindex, heq⟩⟩
  · rw [heq] at h
    rw [resolveLayout_auto_eq artifact hobject fullName hname limit, hemitted,
      if_neg Bool.false_ne_true, resolveLayout_ast_eq artifact hobject fullName hname limit, hindex,
      ok_bind]
    rcases Ast.Index.sources_of_ok _ index hindex with ⟨sources, hsources⟩
    exact htrees sources index hsources hindex ((Assoc.mem_keys_iff fullName _).mp h)
  · rw [heq] at h
    rcases contractOf_of_mem _ index hindex fullName h with
      ⟨units, contract, hunits, hcontract, hfound, hmem⟩
    have hisObject := hobjects units hunits _ hmem
    rw [resolveLayout_auto_eq artifact hobject fullName hname limit, hemitted, if_pos rfl, hindex,
      ok_bind]
    cases hlayout : contract.record? "storageLayout" with
    | some layout =>
        have hlacks : Source.lacksLayout index fullName = false := by
          rw [Source.lacksLayout, hfound, Option.any_some, hlayout, Option.isNone_some,
            Bool.and_false]
        rw [hlacks, if_neg Bool.false_ne_true]
        have hends := index.layoutOf_ends_fault fullName contract layout hfound hlayout limit
        exact Ends.intro (fun _ _ => trivial) (fun e he => isOfName_of_fault e (hends.of_error he))
    | none =>
        have hlacks : Source.lacksLayout index fullName = true := by
          rw [Source.lacksLayout, hfound, Option.any_some, hisObject, hlayout]
          rfl
        rw [hlacks, if_pos rfl, resolveLayout_ast_eq artifact hobject fullName hname limit]
        cases hast : Ast.Index.ofOutput (Source.outputOf artifact) with
        | error e => exact hindexing.of_error hast
        | ok trees =>
            rw [ok_bind]
            rcases Ast.Index.sources_of_ok _ trees hast with ⟨sources, hsources⟩
            -- With sources that all have trees, there is no tree only if there is no source.
            have hsome : Ast.treesOf sources ≠ [] := by
              intro hnone
              refine hleft ⟨hemitted, ?_, fun units' hunits' => ?_⟩
              · rw [hsources, Ast.Index.eq_nil_of_treesOf _ sources trees hsources hast hnone]
              · rintro ⟨contract', layout, hcontract', hlayout'⟩
                rw [hunits] at hunits'
                injection hunits' with hunits'
                rw [← hunits', hcontract] at hcontract'
                injection hcontract' with hcontract'
                rw [← hcontract', hlayout] at hlayout'
                exact absurd hlayout' (by simp only [reduceCtorEq, not_false_eq_true])
            exact htrees sources trees hsources hast (mem_contracts_of_definesListed _ sources units
              trees hsources hast (hdefines sources units hsources hunits hsome) fullName contract
              hmem)

end Artifacts

/-- The names that are listed are the names that are found.

In an artifact whose contracts are objects, and are defined in the trees if there are any, a
qualified name is not found if it is not listed. It is found if it is, except where the contract has
no emitted layout and is left to a sources section without sources. No name is ever refused for want
of an emitted layout, because such a contract is read from the trees. -/
theorem resolveLayout_notFound_iff (artifact : Json) (source : Source)
    (hsource : Source.ofArtifact artifact .auto = .ok source)
    (hobjects : ∀ units, (Source.outputOf artifact).record? "contracts" = some units →
      ∀ c ∈ Emitted.listedContracts units, c.2.isObject = true)
    (hdefines : ∀ sources units, (Source.outputOf artifact).record? "sources" = some sources →
      (Source.outputOf artifact).record? "contracts" = some units → Ast.treesOf sources ≠ [] →
      DefinesListed sources units)
    (fullName : String) (hname : ContractName.isQualified fullName = true) (limit : DepthLimit)
    (hlimit : limit.inRange = true) :
    ((∃ e, resolveLayout artifact fullName .auto limit = .error e ∧ e.isNotFound = true) ↔
      fullName ∉ source.contractNames ∨ IsLeftOut (Source.outputOf artifact) fullName) ∧
    ∀ name, resolveLayout artifact fullName .auto limit ≠ .error (.noStorageLayout name) := by
  have hunlisted := resolveLayout_of_not_listed artifact source hsource fullName hname limit hlimit
  have hleft := resolveLayout_of_isLeftOut artifact source hsource fullName hname limit hlimit
    hobjects
  have hlisted := ends_of_listed artifact source hsource fullName hname limit hobjects hdefines
  by_cases h : fullName ∉ source.contractNames ∨ IsLeftOut (Source.outputOf artifact) fullName
  · have hmissing : resolveLayout artifact fullName .auto limit
        = .error (.contractMissing fullName) := by
      rcases h with h | h
      · exact hunlisted h
      · exact hleft h
    refine ⟨⟨fun _ => h, fun _ => ⟨_, hmissing, rfl⟩⟩, fun name hother => ?_⟩
    rw [hmissing] at hother
    exact absurd hother (by simp only [Except.error.injEq, reduceCtorEq, not_false_eq_true])
  · rw [not_or, not_not] at h
    have hends := hlisted h.1 h.2
    refine ⟨⟨?_, fun hcontra => absurd hcontra (by rw [not_or, not_not]; exact h)⟩,
      fun name hother => absurd (hends.of_error hother) Bool.true_eq_false.mp⟩
    rintro ⟨e, he, hnotFound⟩
    -- An error that says that a contract is not found complains about its name.
    have hofName : e.isOfName = true := by
      cases e <;> first | rfl | exact absurd hnotFound Bool.false_ne_true
    have hother : e.isOfName = false := hends.of_error he
    rw [hofName] at hother
    exact absurd hother (Ne.symm Bool.false_ne_true)

/-- The tree of a source with two contracts. -/
def pairTree : Record :=
  [("nodes", .arr [
    .obj [("id", .int 1), ("nodeType", .str "ContractDefinition"), ("name", .str "A")],
    .obj [("id", .int 2), ("nodeType", .str "ContractDefinition"), ("name", .str "B")]])]

/-- The contracts section for them. Only one has an emitted layout. -/
def pairUnits : Record :=
  [("a.sol", .obj [("A", .obj [("storageLayout", .obj [("storage", .arr []), ("types", .null)])]),
    ("B", .obj [])])]

/-- A build with the contracts section and some sources. -/
def pairArtifact (sources : Record) : Json :=
  .obj [("sources", .obj sources), ("contracts", .obj pairUnits)]

theorem definesListed_pair :
    DefinesListed [("a.sol", .obj [("ast", .obj pairTree)])] pairUnits := by
  intro unit hunit contracts hcontracts c hc
  rw [List.mem_singleton.mp hunit] at hcontracts ⊢
  injection hcontracts with hcontracts
  rw [← hcontracts] at hc
  -- There are two contracts, and the tree defines both.
  rcases List.mem_cons.mp hc with hfirst | hrest
  · rw [hfirst]
    exact ⟨pairTree, _, List.mem_cons_self, _, rfl, List.mem_cons_self, rfl, rfl⟩
  · rw [List.mem_singleton.mp hrest]
    exact ⟨pairTree, _, List.mem_cons_self, _, rfl, List.mem_cons_of_mem _ List.mem_cons_self, rfl,
      rfl⟩

/-- The contract without a layout of its own is found, and a third one is not. -/
theorem resolveLayout_notFound_pair :
    (¬ ∃ e, resolveLayout (pairArtifact [("a.sol", .obj [("ast", .obj pairTree)])]) "a.sol:B" .auto
      (.ofNat 64) = .error e ∧ e.isNotFound = true) ∧
    ∃ e, resolveLayout (pairArtifact [("a.sol", .obj [("ast", .obj pairTree)])]) "a.sol:C" .auto
      (.ofNat 64) = .error e ∧ e.isNotFound = true := by
  have hsource : ∃ source,
      Source.ofArtifact (pairArtifact [("a.sol", .obj [("ast", .obj pairTree)])]) .auto
        = .ok source ∧ source.contractNames = ["a.sol:A", "a.sol:B"] := ⟨_, rfl, rfl⟩
  rcases hsource with ⟨source, hsource, hnames⟩
  have hiff := fun fullName hname => (resolveLayout_notFound_iff
    (pairArtifact [("a.sol", .obj [("ast", .obj pairTree)])]) source hsource
    (fun units hunits => by injection hunits with hunits; rw [← hunits]; decide)
    (fun sources units hsources hunits _ => by
      injection hsources with hsources
      injection hunits with hunits
      rw [← hsources, ← hunits]
      exact definesListed_pair)
    fullName hname (.ofNat 64) (by decide)).1
  -- Of the two conditions for an error, the first one tells the contracts apart.
  rw [hiff "a.sol:B" (by decide), hiff "a.sol:C" (by decide), hnames]
  refine ⟨?_, Or.inl (by decide)⟩
  rintro (hunlisted | ⟨_, hempty, _⟩)
  · exact absurd hunlisted (by decide)
  · injection hempty with hempty
    exact absurd hempty (List.cons_ne_nil _ _)

/-- Without sources, the contract without a layout of its own is listed and not found. -/
theorem resolveLayout_leftOut :
    ∃ source, Source.ofArtifact (pairArtifact []) .auto = .ok source ∧
      "a.sol:B" ∈ source.contractNames ∧
      (∀ units, (Source.outputOf (pairArtifact [])).record? "contracts" = some units →
        ∀ c ∈ Emitted.listedContracts units, c.2.isObject = true) ∧
      (∀ sources units, (Source.outputOf (pairArtifact [])).record? "sources" = some sources →
        (Source.outputOf (pairArtifact [])).record? "contracts" = some units →
        Ast.treesOf sources ≠ [] → DefinesListed sources units) ∧
      resolveLayout (pairArtifact []) "a.sol:B" .auto (.ofNat 64)
        = .error (.contractMissing "a.sol:B") := by
  have hsource : ∃ source, Source.ofArtifact (pairArtifact []) .auto = .ok source ∧
      source.contractNames = ["a.sol:A", "a.sol:B"] := ⟨_, rfl, rfl⟩
  rcases hsource with ⟨source, hsource, hnames⟩
  refine ⟨source, hsource, by rw [hnames]; decide, fun units hunits => ?_,
    fun sources units hsources _ htrees => ?_, rfl⟩
  · injection hunits with hunits
    rw [← hunits]
    decide
  · injection hsources with hsources
    rw [← hsources] at htrees
    exact absurd rfl htrees

end StorageLayout
