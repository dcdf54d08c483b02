import StorageLayout.Proofs.Listing
import StorageLayout.Proofs.QualifiedName

/-!
# Bare Names

A bare name means the same as the qualified name that it is resolved to.

A qualified name stands for itself, so nothing is looked up for it. A bare name is looked up in the
table of contracts of the source that was chosen, and in the mode `auto` this can happen twice: if
the contract that was found there has no emitted layout, the trees are read instead, and the bare
name is looked up again in their table. The second look-up knows nothing of the first. That the two
end in one name needs what compilers write, every contract of the contracts section being defined in
the tree of its source (`DefinesListed`): then the contract of the first look-up is also in the
second table, where there is only one of its bare name.

So the choice that is made for the bare name is made for the qualified one as well, source and name
(`select_bareName`), and with it every layout.

## Main definitions

* `DefinedAs`, `ListedAs`: A contract of a build, by the path of its source and its own name.
* `HasPlainContracts`: The names of contracts are free of colons.
* `Source.Has`: A contract of that part of the build that a source was made of.
* `Source.defersTo`: Whether a contract is left to the syntax trees.

## Theorems

* `qualify_eq_ok`: What a bare name is resolved to.
* `select_eq`: The choice of a source, in its steps.
* `ofArtifact_eq_ok`: A source is the index of one part of the build.
* `mem_contractNames`, `has_of_bareName`: A contract that a source lists goes by its path and its own
  name.
* `select_found`: What is chosen lists the contract that was found.
* `qualified_unique`: Both look-ups find the same contract.
* `select_bareName`: The choice for a bare name is the one for the qualified name.
-/

namespace StorageLayout

/-- A contract is defined at the top of the tree of a source, by its path and by its name. -/
def DefinedAs (output : Json) (path name : String) : Prop :=
  ∃ sources ast record shown, output.record? "sources" = some sources ∧
    (path, ast) ∈ Ast.treesOf sources ∧ Ast.Defines ast record shown ∧ shown.display = name

/-- A contract stands in the contracts section, by the path of its source and by its name. -/
def ListedAs (output : Json) (path name : String) : Prop :=
  ∃ units contracts contract, output.record? "contracts" = some units ∧
    (path, .obj contracts) ∈ units ∧ (name, contract) ∈ contracts

/-- The names of contracts are free of colons. -/
def HasPlainContracts (output : Json) : Prop :=
  ∀ path name, DefinedAs output path name ∨ ListedAs output path name → ':' ∉ name.toList

namespace Source

/-- A contract stands in that part of the build that a source was made of. -/
def Has (output : Json) (path name : String) : Source → Prop
  | .ast _ => DefinedAs output path name
  | .layout _ => ListedAs output path name

/-- Whether a contract that a source lists is left to the syntax trees. -/
def defersTo (mode : Mode) (source : Source) (fullName : String) : Bool :=
  match mode, source with
  | .auto, .layout index => lacksLayout index fullName
  | _, _ => false

end Source

namespace ContractName

/-- A bare name is resolved to the one candidate that ends in it. -/
theorem qualify_eq_ok (name : String) (names : List String) (fullName : String)
    (hbare : isQualified name = false) (h : qualify name names = .ok fullName) :
    fullName ∈ names ∧ bareName fullName = name ∧
      ∀ other ∈ names, bareName other = name → other = fullName := by
  rw [qualify, hbare, if_neg Bool.false_ne_true] at h
  -- Only a single candidate is an answer; none and several are refused.
  have hfound : (names.filter fun c => bareName c = name) = [fullName] := by
    split at h
    · exact absurd h (by simp only [reduceCtorEq, not_false_eq_true])
    · rename_i found hfound
      injection h with h
      rw [hfound, h]
    · exact absurd h (by simp only [reduceCtorEq, not_false_eq_true])
  have hmem : ∀ other, other = fullName ↔ other ∈ names ∧ bareName other = name := by
    intro other
    rw [← List.mem_singleton, ← hfound, List.mem_filter, decide_eq_true_eq]
  have hself := (hmem fullName).mp rfl
  exact ⟨hself.1, hself.2, fun other hother hname => (hmem other).mpr ⟨hother, hname⟩⟩

end ContractName

namespace Source

/-- The choice of a source in its steps: the artifact is opened, the name is looked up, and a
contract that is left to the trees is looked up there again. -/
theorem select_eq (artifact : Json) (name : String) (mode : Mode) :
    select artifact name mode = do
      let source ← ofArtifact artifact mode
      let fullName ← ContractName.qualify name source.contractNames
      if defersTo mode source fullName then
        let trees ← ofArtifact artifact .ast
        let fullName ← ContractName.qualify name trees.contractNames
        return (trees, fullName)
      else return (source, fullName) := by
  unfold select
  congr 1
  funext source
  congr 1
  funext fullName
  -- Only the usual mode looks at the source that it has opened. The others defer to nothing.
  cases mode with
  | auto => cases source with
    | ast index => rfl
    | layout index => rfl
  | ast => rfl
  | layout => rfl
  | unknown word => rfl

/-- Opening an artifact for its trees makes their index. -/
theorem ofArtifact_ast_eq_ok (artifact : Json) (source : Source)
    (h : ofArtifact artifact .ast = .ok source) :
    ∃ index, Ast.Index.ofOutput (outputOf artifact) = .ok index ∧ source = .ast index := by
  unfold ofArtifact at h
  split at h
  · cases h
  · rcases (map_eq_ok _ _ _).mp h with ⟨index, hindex, hsource⟩
    exact ⟨index, hindex, hsource.symm⟩

/-- A source is the index of one part of the build. -/
theorem ofArtifact_eq_ok (artifact : Json) (mode : Mode) (source : Source)
    (h : ofArtifact artifact mode = .ok source) :
    (∃ index, Ast.Index.ofOutput (outputOf artifact) = .ok index ∧ source = .ast index) ∨
      ∃ index, Emitted.Index.ofOutput (outputOf artifact) = .ok index ∧
        source = .layout index := by
  have hlayout : Source.layout <$> Emitted.Index.ofOutput (outputOf artifact) = .ok source →
      ∃ index, Emitted.Index.ofOutput (outputOf artifact) = .ok index ∧
        source = .layout index := by
    intro hmap
    rcases (map_eq_ok _ _ _).mp hmap with ⟨index, hindex, hsource⟩
    exact ⟨index, hindex, hsource.symm⟩
  -- Each mode opens one kind of output, and the usual mode one of the two.
  cases mode with
  | ast => exact Or.inl (ofArtifact_ast_eq_ok artifact source h)
  | layout =>
      unfold ofArtifact at h
      split at h
      · cases h
      · exact Or.inr (hlayout h)
  | auto =>
      rcases ofArtifact_auto artifact source h with ⟨_, ⟨_, hast⟩ | ⟨_, hemitted⟩⟩
      · exact Or.inl hast
      · exact Or.inr hemitted
  | unknown word =>
      unfold ofArtifact at h
      split at h <;> cases h

/-- A contract that a source lists goes by the path of its source and its own name. -/
theorem mem_contractNames (artifact : Json) (mode : Mode) (source : Source)
    (h : ofArtifact artifact mode = .ok source) (fullName : String)
    (hmem : fullName ∈ source.contractNames) :
    ∃ path name, source.Has (outputOf artifact) path name ∧ fullName = s!"{path}:{name}" := by
  rcases ofArtifact_eq_ok artifact mode source h with
    ⟨index, hindex, heq⟩ | ⟨index, hindex, heq⟩
  · rw [heq] at hmem ⊢
    -- A name of the trees is in the table of definitions, which is put together tree by tree.
    rcases Ast.Index.sources_of_ok _ index hindex with ⟨sources, hsources⟩
    rcases (Assoc.mem_keys_iff fullName _).mp hmem with ⟨record, hrecord⟩
    rw [Ast.Index.ofOutput_definitions _ sources index hsources hindex] at hrecord
    rcases List.mem_flatMap.mp (Assoc.find?_ofList_mem fullName record _ hrecord) with
      ⟨tree, htree, hdefinition⟩
    rcases Ast.mem_definitionsIn tree.1 tree.2 fullName record hdefinition with
      ⟨shown, hdefines, name, hname, hfull⟩
    exact ⟨tree.1, name, ⟨sources, tree.2, record, shown, hsources, htree, hdefines, hname.symm⟩,
      hfull⟩
  · rw [heq] at hmem ⊢
    -- A name of the layouts is in a section of `contracts`, and a section is an object.
    rcases contractOf_of_mem _ index hindex fullName hmem with ⟨units, contract, hunits, _, _, hc⟩
    rcases List.mem_flatMap.mp hc with ⟨unit, hunit, hlisted⟩
    cases hnamed : unit.2 with
    | obj contracts =>
        rw [hnamed] at hlisted
        rcases List.mem_map.mp hlisted with ⟨c, hc, hpair⟩
        injection hpair with hfull _
        exact ⟨unit.1, c.1, ⟨units, contracts, c.2, hunits, hnamed ▸ hunit, hc⟩, hfull.symm⟩
    | _ =>
        rw [hnamed] at hlisted
        exact absurd hlisted List.not_mem_nil

/-- A contract that a source lists under a bare name has this name, if names have no colons. -/
theorem has_of_bareName (artifact : Json) (hplain : HasPlainContracts (outputOf artifact))
    (mode : Mode) (source : Source) (h : ofArtifact artifact mode = .ok source) (fullName : String)
    (hmem : fullName ∈ source.contractNames) :
    ContractName.isQualified fullName = true ∧
      ∃ path, source.Has (outputOf artifact) path (ContractName.bareName fullName) ∧
        fullName = s!"{path}:{ContractName.bareName fullName}" := by
  rcases mem_contractNames artifact mode source h fullName hmem with ⟨path, name, hhas, hfull⟩
  have hcolon : ':' ∉ name.toList := by
    refine hplain path name ?_
    cases source with
    | ast index => exact Or.inl hhas
    | layout index => exact Or.inr hhas
  -- The last colon of the name is the one that was put between the two parts.
  have hname : ContractName.bareName fullName = name := by
    rw [hfull, ContractName.bareName_qualified path name hcolon]
  refine ⟨?_, path, ?_, ?_⟩
  · rw [hfull]
    exact ContractName.isQualified_qualified path name
  · rw [hname]
    exact hhas
  · rw [hname]
    exact hfull

/-- What is chosen is a source of the artifact, and the name was looked up in its table. -/
theorem select_found (artifact : Json) (name : String) (mode : Mode) (source : Source)
    (fullName : String) (h : select artifact name mode = .ok (source, fullName)) :
    ∃ opened, ofArtifact artifact opened = .ok source ∧
      ContractName.qualify name source.contractNames = .ok fullName := by
  rw [select_eq] at h
  rcases (bind_eq_ok _ _ _).mp h with ⟨first, hfirst, h⟩
  rcases (bind_eq_ok _ _ _).mp h with ⟨found, hfound, h⟩
  -- If the choice is deferred, the name is looked up once more, in the trees.
  split at h
  · rcases (bind_eq_ok _ _ _).mp h with ⟨trees, htrees, h⟩
    rcases (bind_eq_ok _ _ _).mp h with ⟨again, hagain, h⟩
    cases h
    exact ⟨.ast, htrees, hagain⟩
  · cases h
    exact ⟨mode, hfirst, hfound⟩

/-- A contract that has been found by a bare name and is left to the trees is the one that is found
there. -/
theorem qualified_unique (artifact : Json) (name : String)
    (hbare : ContractName.isQualified name = false)
    (hdefines : ∀ sources units, (outputOf artifact).record? "sources" = some sources →
      (outputOf artifact).record? "contracts" = some units → Ast.treesOf sources ≠ [] →
      DefinesListed sources units)
    (index : Emitted.Index) (hindex : Emitted.Index.ofOutput (outputOf artifact) = .ok index)
    (found : String) (hfound : ContractName.qualify name index.contracts.keys = .ok found)
    (trees : Ast.Index) (htrees : Ast.Index.ofOutput (outputOf artifact) = .ok trees)
    (fullName : String) (hagain : ContractName.qualify name trees.contracts.keys = .ok fullName) :
    found = fullName := by
  rcases ContractName.qualify_eq_ok name _ found hbare hfound with ⟨hmem, hname, _⟩
  rcases ContractName.qualify_eq_ok name _ fullName hbare hagain with ⟨hthere, _, hunique⟩
  rcases contractOf_of_mem _ index hindex found hmem with ⟨units, contract, hunits, _, _, hlisted⟩
  rcases Ast.Index.sources_of_ok _ trees htrees with ⟨sources, hsources⟩
  -- A tree in which a contract is found is a tree, so that the trees define what is listed.
  have hsome : Ast.treesOf sources ≠ [] := by
    intro hnone
    rw [Ast.Index.ofOutput_definitions _ sources trees hsources htrees, hnone] at hthere
    exact absurd hthere List.not_mem_nil
  rcases mem_contracts_of_definesListed _ sources units trees hsources htrees
    (hdefines sources units hsources hunits hsome) found contract hlisted with ⟨record, hrecord⟩
  exact hunique found ((Assoc.mem_keys_iff found _).mpr ⟨record, hrecord⟩) hname

end Source

/-- A bare name means the same as the qualified name that it is resolved to.

Let the names of contracts be free of colons, and let the trees, if there are any, define what the
contracts section lists. What is chosen for a bare name is then a source with exactly one contract of
this name, and the qualified name of this contract; it is made of the path and the name under which
the build has the contract. For this qualified name the same is chosen, so that its layout is the
layout for the bare name under every limit. -/
theorem select_bareName (artifact : Json)
    (hplain : HasPlainContracts (Source.outputOf artifact))
    (hdefines : ∀ sources units, (Source.outputOf artifact).record? "sources" = some sources →
      (Source.outputOf artifact).record? "contracts" = some units → Ast.treesOf sources ≠ [] →
      DefinesListed sources units)
    (mode : Mode) (name : String) (hbare : ContractName.isQualified name = false) (source : Source)
    (fullName : String) (h : Source.select artifact name mode = .ok (source, fullName)) :
    fullName ∈ source.contractNames ∧
    (∃ path, source.Has (Source.outputOf artifact) path name ∧ fullName = s!"{path}:{name}") ∧
    (∀ other ∈ source.contractNames, ContractName.bareName other = name ↔ other = fullName) ∧
    Source.select artifact fullName mode = .ok (source, fullName) ∧
    ∀ limit, resolveLayout artifact fullName mode limit
      = resolveLayout artifact name mode limit := by
  rcases Source.select_found artifact name mode source fullName h with ⟨opened, hopened, hfound⟩
  rcases ContractName.qualify_eq_ok name _ fullName hbare hfound with ⟨hmem, hname, hunique⟩
  rcases Source.has_of_bareName artifact hplain opened source hopened fullName hmem with
    ⟨hqualified, path, hhas, hfull⟩
  rw [hname] at hhas hfull
  have hself : ∀ names, ContractName.qualify fullName names = .ok fullName := fun names =>
    qualify_of_isQualified fullName names hqualified
  have hselect : Source.select artifact fullName mode = .ok (source, fullName) := by
    rw [Source.select_eq] at h ⊢
    rcases (bind_eq_ok _ _ _).mp h with ⟨first, hfirst, h⟩
    rcases (bind_eq_ok _ _ _).mp h with ⟨found, hbefore, h⟩
    rw [hfirst, ok_bind, hself, ok_bind]
    cases hdefers : Source.defersTo mode first found with
    | false =>
        rw [hdefers] at h
        cases h
        rw [hdefers]
        rfl
    | true =>
        -- Only emitted layouts leave a contract to the trees, and then it is the same contract.
        rw [hdefers] at h
        rcases (bind_eq_ok _ _ _).mp h with ⟨trees, htrees, h⟩
        rcases (bind_eq_ok _ _ _).mp h with ⟨again, hagain, h⟩
        cases h
        have hsame : found = fullName := by
          rcases Source.ofArtifact_eq_ok artifact mode first hfirst with
            ⟨index, _, heq⟩ | ⟨index, hindex, heq⟩
          · rw [heq] at hdefers
            cases mode <;> exact absurd hdefers Bool.false_ne_true
          · rcases Source.ofArtifact_ast_eq_ok artifact source htrees with ⟨trees, hast, hsource⟩
            rw [heq] at hbefore
            rw [hsource] at hagain
            exact Source.qualified_unique artifact name hbare hdefines index hindex found hbefore
              trees hast fullName hagain
        rw [hsame] at hdefers
        rw [hdefers, if_pos rfl, htrees, ok_bind, hself]
        rfl
  refine ⟨hmem, ⟨path, hhas, hfull⟩, fun other hother => ⟨hunique other hother, fun heq => ?_⟩,
    hselect, fun limit => ?_⟩
  · rw [heq, hname]
  · rw [resolveLayout, resolveLayout, h, hselect]

theorem hasPlainContracts_pair :
    HasPlainContracts (Source.outputOf (pairArtifact [("a.sol", .obj [("ast", .obj pairTree)])])) := by
  rintro path name (⟨sources, ast, record, shown, hsources, htree, hdefines, hname⟩ |
    ⟨units, contracts, contract, hunits, hunit, hcontract⟩)
  · injection hsources with hsources
    rw [← hsources] at htree
    cases List.mem_singleton.mp htree
    rcases hdefines with ⟨items, hitems, hrecord, _, hshown⟩
    injection hitems with hitems
    rw [← hitems] at hrecord
    rw [← hname]
    -- The tree has two contracts.
    rcases List.mem_cons.mp hrecord with hfirst | hrest
    · cases hfirst
      cases hshown
      decide
    · cases List.mem_singleton.mp hrest
      cases hshown
      decide
  · injection hunits with hunits
    rw [← hunits] at hunit
    cases List.mem_singleton.mp hunit
    -- The section has the same two.
    rcases List.mem_cons.mp hcontract with hfirst | hrest
    · cases hfirst
      decide
    · cases List.mem_singleton.mp hrest
      decide

/-- The contract without an emitted layout is looked up twice by its bare name, and not at all by
its qualified name. The trees are chosen for both. -/
theorem select_bareName_pair :
    ∃ trees, Source.select (pairArtifact [("a.sol", .obj [("ast", .obj pairTree)])]) "B" .auto
        = .ok (.ast trees, "a.sol:B") ∧
      Source.select (pairArtifact [("a.sol", .obj [("ast", .obj pairTree)])]) "a.sol:B" .auto
        = .ok (.ast trees, "a.sol:B") := by
  have hbare : ∃ trees, Source.select (pairArtifact [("a.sol", .obj [("ast", .obj pairTree)])]) "B"
      .auto = .ok (.ast trees, "a.sol:B") := ⟨_, by with_unfolding_all rfl⟩
  rcases hbare with ⟨trees, hbare⟩
  refine ⟨trees, hbare, (select_bareName _ hasPlainContracts_pair (fun sources units hsources hunits
    _ => ?_) .auto "B" (by decide) (.ast trees) "a.sol:B" hbare).2.2.2.1⟩
  injection hsources with hsources
  injection hunits with hunits
  rw [← hsources, ← hunits]
  exact definesListed_pair

end StorageLayout
