import StorageLayout.Proofs.Artifacts
import StorageLayout.Proofs.BareName
import StorageLayout.Proofs.CommandLine.Printing

/-!
# Finding Every Contract

Which contracts of a build are found by looking through its artifacts.

Every contract has a file at the path of its source, and the list of contracts is made of what these
files say. So it has every contract once, and a bare name that only one of them has is resolved to
that one: printing a contract by its bare name is the same run as printing it by the qualified name.

There is one exception. The visit leaves out the folder of build files, and it knows this folder by
its name alone, wherever it comes across it. A source that has a folder of that name in its path is
left out with it, although the files of its contracts are there and are found when a qualified name
leads to them.

## Theorems

* `ContractName.qualify_of_unique`: A bare name of one candidate is resolved to it.
* `CommandLine.printLayout_contract`: A print depends on the name of the contract only by way of the
  artifact that is found for it.
* `listContracts_complete`: Every contract is found, if it is not below a folder with the name of
  that of build files.
* `listContracts_registry`: A contract that is not found.
-/

namespace StorageLayout

/-- A bare name that one candidate has is resolved to it. -/
theorem ContractName.qualify_of_unique (name fullName : String) (names : List String)
    (hbare : isQualified name = false) (hnodup : names.Nodup) (hmem : fullName ∈ names)
    (hname : bareName fullName = name)
    (honly : ∀ other ∈ names, bareName other = name → other = fullName) :
    qualify name names = .ok fullName := by
  -- The candidates are distinct, so it is enough to know which they are.
  have hfound : (names.filter fun c => bareName c = name) = [fullName] := by
    refine List.perm_singleton.mp ((List.perm_ext_iff_of_nodup (hnodup.filter _)
      (List.nodup_singleton fullName)).mpr fun other => ?_)
    rw [List.mem_filter, decide_eq_true_eq, List.mem_singleton]
    constructor
    · exact fun h => honly other h.1 h.2
    · intro h
      rw [h]
      exact ⟨hmem, hname⟩
  rw [qualify, hbare, if_neg Bool.false_ne_true, hfound]

namespace CommandLine

/-- Two prints that differ only in the name of the contract are the same run, if the names lead to
one artifact and to one name in it. -/
theorem printLayout_contract (settings : Settings) (name other : String) (c : Console)
    (h : artifactFor { settings with contract := name } (prepared settings c).files
      = artifactFor { settings with contract := other } (prepared settings c).files) :
    (printLayout { settings with contract := name }).run.run c
      = (printLayout { settings with contract := other }).run.run c := by
  have hlayout : layoutFor { settings with contract := name } (prepared settings c).files
      = layoutFor { settings with contract := other } (prepared settings c).files := by
    unfold layoutFor
    rw [h]
    rfl
  -- The first part of a print and the last one do not look at the name.
  have hprepare : prepare { settings with contract := name }
      = prepare { settings with contract := other } := rfl
  have hdeliver : deliver { settings with contract := name }
      = deliver { settings with contract := other } := rfl
  rw [printLayout_eq, printLayout_eq, hprepare, hdeliver, run_bind, run_bind]
  cases hrun : (prepare { settings with contract := other }).run.run c with
  | mk result c' =>
      cases result with
      | error e => rfl
      | ok _ =>
          have hc' : c' = prepared settings c := run_prepare _ c c' _ hrun
          rw [hc']
          simp only [run_bind, reads_makeLayout { settings with contract := name } _,
            reads_makeLayout { settings with contract := other } _, hlayout]

end CommandLine

namespace Artifacts

open CommandLine

/-- Every contract is found.

Let a folder hold the artifacts of contracts. Then listing succeeds, and the list has every contract
of which no part of the source path is the name of the folder of build files, each of them once, and
has nothing else. If such a contract is the only one of its name in the list, then a print by its
bare name is the same run as a print by its qualified name, whatever the other settings are, as long
as the artifacts are looked for in this folder. -/
theorem listContracts_complete (root : FileTree) (folder : String)
    (entries : List (String × FileTree)) (contracts : List Contract)
    (h : HoldsArtifacts root folder entries contracts) :
    ∃ names, listContracts root folder = .ok names ∧ names.Nodup ∧
      (∀ name, name ∈ names ↔ ∃ c ∈ contracts, buildFolder ∉ c.source ∧ name = c.fullName) ∧
      ∀ c ∈ contracts, buildFolder ∉ c.source →
        (∀ d ∈ contracts, buildFolder ∉ d.source → d.name = c.name → d.fullName = c.fullName) →
        ∀ settings console, nonEmpty (settings.text? buildInfo) = none →
          settings.text artifacts = folder → (prepared settings console).files = root →
            (printLayout { settings with contract := c.name }).run.run console
              = (printLayout { settings with contract := c.fullName }).run.run console := by
  rcases h.listContracts_eq with ⟨names, hnames, hnodup, hlisted⟩
  refine ⟨names, hnames, hnodup, hlisted, ?_⟩
  intro c hc hsource hunique settings console hinfo hfolder hfiles
  have hbareName : ∀ d ∈ contracts, ContractName.bareName d.fullName = d.name := fun d hd =>
    ContractName.bareName_qualified _ _ (h.plain d hd).name.1
  have hbare : ContractName.isQualified c.name = false :=
    decide_eq_false (h.plain c hc).name.1
  have hqualified : ContractName.isQualified c.fullName = true :=
    ContractName.isQualified_qualified _ _
  -- The bare name stands for this contract, as no other one in the list has it.
  have hresolved : ContractName.qualify c.name names = .ok c.fullName := by
    refine ContractName.qualify_of_unique c.name c.fullName names hbare hnodup
      ((hlisted _).mpr ⟨c, hc, hsource, rfl⟩) (hbareName c hc) ?_
    intro other hother hname
    rcases (hlisted other).mp hother with ⟨d, hd, hdsource, heq⟩
    rw [heq, hbareName d hd] at hname
    rw [heq]
    exact hunique d hd hdsource hname
  -- Both prints read the same artifact, and that is all the name is used for.
  refine printLayout_contract settings c.name c.fullName console ?_
  unfold artifactFor
  have htext : ∀ name, Settings.text { settings with contract := name } artifacts = folder :=
    fun _ => hfolder
  have hnone : ∀ name,
      nonEmpty (Settings.text? { settings with contract := name } buildInfo) = none :=
    fun _ => hinfo
  simp only [hnone, htext, hfiles, hbare, hqualified, if_true, Bool.false_eq_true, if_false,
    hnames, ok_bind, hresolved]

/-- The contract that is deep down is found under both names, although the folder is reached on a
detour. -/
theorem listContracts_complete_vault :
    ∃ names, listContracts vaultProject "src/../out/" = .ok names ∧
      "contracts/v1:2/Vault.sol:Vault" ∈ names ∧
      (printLayout ⟨[(CommandLine.artifacts.name, .text "src/../out/")], "Vault"⟩).run.run
          { files := vaultProject }
        = (printLayout ⟨[(CommandLine.artifacts.name, .text "src/../out/")],
            "contracts/v1:2/Vault.sol:Vault"⟩).run.run { files := vaultProject } := by
  rcases listContracts_complete _ _ _ _ isLaidOut_vault.holdsArtifacts with
    ⟨names, hnames, _, hlisted, hprints⟩
  have hvault : ⟨["contracts", "v1:2", "Vault.sol"], "Vault", "b1"⟩ ∈ vaultContracts :=
    List.mem_cons_self
  -- The only other contract has another name, and its source is one of those left out.
  have hunique : ∀ d ∈ vaultContracts, buildFolder ∉ d.source → d.name = "Vault" →
      d.fullName = "contracts/v1:2/Vault.sol:Vault" := by decide
  exact ⟨names, hnames, (hlisted _).mpr ⟨_, hvault, by decide, rfl⟩,
    hprints _ hvault (by decide) hunique
      ⟨[(CommandLine.artifacts.name, .text "src/../out/")], ""⟩ { files := vaultProject } rfl rfl
      (by rw [prepared_of_off _ (by decide)])⟩

/-- A contract in a source that has the name of the folder of build files in its path. -/
def registry : Contract := ⟨["contracts", "build-info", "Registry.sol"], "Registry", "b"⟩

/-- The artifacts of this contract. -/
def registryFolder : List (String × FileTree) :=
  (FileTree.ofFiles (registry.files.map fun f => (f.1, encodeText f.2.compact))).entries

/-- A working folder with the artifacts in it. -/
def registryProject : FileTree := .folder [("out", .folder registryFolder)]

theorem jsonFiles_registry : jsonFiles "out" (.folder registryFolder) = [] := by
  -- All that the contract has stands below one of the two folders with this name.
  have hentries : ∃ t u, registryFolder
      = [("contracts", .folder [("build-info", .folder t)]), ("build-info", .folder u)] :=
    ⟨_, _, rfl⟩
  rcases hentries with ⟨t, u, hentries⟩
  rw [hentries]
  simp +decide [jsonFiles, ownFiles, filesOfFolders, byName, List.mergeSort,
    List.MergeSort.Internal.splitInTwo]

/-- The files of the contract are there, each saying what it should, and a qualified name leads to
its build file. But the list of contracts is empty. -/
theorem listContracts_registry :
    listContracts registryProject "out" = .ok [] ∧
      readsAs registryProject (Path.join "out" (registry.inSource registry.artifactFile)) (fun v =>
        saysOf "sourceName" registry.sourceName v && saysOf "contractName" registry.name v) = true ∧
      ∃ v, readBuildInfo registryProject "out" registry.fullName = .ok v := by
  refine ⟨?_, by decide +kernel, ?_⟩
  · have hfound : registryProject.lookup "out" = .ok (.folder registryFolder) := rfl
    unfold listContracts
    rw [hfound]
    dsimp only
    rw [jsonFiles_registry]
    rfl
  · have hread : (readBuildInfo registryProject "out" registry.fullName).isOk = true := by
      decide +kernel
    exact (isOk_iff _).mp hread

end Artifacts

end StorageLayout
