import Mathlib.Tactic.Common
import StorageLayout.Json.Printer
import StorageLayout.Proofs.QualifiedName
import StorageLayout.Proofs.Visit

/-!
# Listed Contracts Can Be Opened

What the names in a list of contracts are good for.

The list of contracts is made by a visit of all files of a folder, and each name is what a file says
of itself. Opening a contract goes the other way: the name is taken apart, the debug file is looked
for where the name says that it is, and the build file where the debug file says. Nothing in either
direction asks whether the other one will succeed. Whether it does depends on the build tool, which
decides what the files say and where they stand. `IsLaidOut` is what it promises: every file stands
at the path of the source it is for, and every debug file points back up, as many folders as the
source is deep.

The two directions meet in the tree. A file of the visit stands at a list of names, and the path of
a file that is opened leads to one (`file_of_load`); if no folder has a name twice, there is one
file at these names. The pointer of a debug file is a path that is joined and tidied as a text, and
the path that comes out leads to the build file, however the path of the folder is written.

Listing needs less than opening. It reads neither debug files nor build files, so that only the
files of the contracts have to say what they are for (`HoldsArtifacts`).

## Main definitions

* `Contract`: A contract with its source and its build file.
* `Contract.IsPlain`: The names are such that they can be those of files.
* `HoldsArtifacts`: A folder has the files of the contracts, each at the path of its source.
* `IsLaidOut`: A folder of artifacts is laid out as the build tool does it.

## Theorems

* `loadJson_eq_ok`, `loadJson_normalize`: What a file has been read as.
* `HoldsArtifacts.listContracts_eq`: Which contracts are listed, each of them once.
* `IsLaidOut.buildInfoPath_eq`: Where a debug file points.
* `IsLaidOut.readBuildInfo_eq`: Which file is opened for a contract.
* `readBuildInfo_listed`: Every name that is listed can be opened, and gives the right build file.
-/

namespace StorageLayout.Artifacts

/-! ## What files are read as -/

/-- What a file is called in messages does not change what it is read as. -/
theorem decodeJson_of_ok (path other : String) (bytes : List UInt8) (v : Json)
    (h : decodeJson path bytes = .ok v) : decodeJson other bytes = .ok v := by
  unfold decodeJson at h ⊢
  -- The path is only used in the complaint.
  cases htext : decodeText bytes with
  | none =>
      rw [htext] at h
      exact absurd h (by simp only [Defect.fail, reduceCtorEq, not_false_eq_true])
  | some text =>
      rw [htext] at h
      dsimp only at h ⊢
      cases hparse : Json.parse (some Text.maxDigits) text with
      | ok w =>
          rw [hparse] at h
          exact h
      | error fault =>
          rw [hparse] at h
          cases fault <;>
            exact absurd h (by simp only [Defect.fail, reduceCtorEq, not_false_eq_true])

/-- A file that has been read: its bytes, and what they stand for. -/
theorem loadJson_eq_ok (root : FileTree) (path : String) (v : Json) :
    loadJson root path = .ok v ↔
      ∃ bytes, root.read path = .ok bytes ∧ decodeJson path bytes = .ok v := by
  rw [loadJson, bind_eq_ok]
  refine exists_congr fun bytes => and_congr_left fun _ => ?_
  unfold readFile
  cases root.read path with
  | ok content => simp only [Except.ok.injEq]
  | error d => simp only [Defect.fail, reduceCtorEq]

/-- Tidying the path of a file does not change what it is read as. -/
theorem loadJson_normalize (root : FileTree) (place : FileTree.Trail) (path : String) (v : Json)
    (hplace : root.locate path = .ok place) (h : loadJson root path = .ok v) :
    loadJson root (Path.normalize path) = .ok v := by
  rcases (loadJson_eq_ok root path v).mp h with ⟨bytes, hbytes, hv⟩
  refine (loadJson_eq_ok root _ v).mpr ⟨bytes, ?_, decodeJson_of_ok path _ bytes v hv⟩
  rw [FileTree.read_normalize root place path hplace, hbytes]

/-! ## Contracts and their files -/

/-- A contract that a build leaves behind. -/
structure Contract where
  /-- The path of its source, from the outermost folder to the file. -/
  source : List String
  /-- Its own name. -/
  name : String
  /-- The name of the build file that has its compiler output. -/
  build : String

namespace Contract

variable (c : Contract)

/-- The path of the source, as a text. -/
def sourceName : String := "/".intercalate c.source

/-- The name under which the contract is listed. -/
def fullName : String := s!"{c.sourceName}:{c.name}"

/-- The name of the file that describes the contract. -/
def artifactFile : String := c.name ++ ".json"

/-- The name of the file that points at the build file. -/
def debugFile : String := c.name ++ ".dbg.json"

/-- The name of the build file. -/
def buildFile : String := c.build ++ ".json"

/-- The path of a file of the contract. The source has a folder of its own. -/
def inSource (file : String) : String := c.sourceName ++ "/" ++ file

/-- The path of the build file. -/
def buildPath : String := buildFolder ++ "/" ++ c.buildFile

/-- The way from the folder of the source to the build file. -/
def pointer : String := String.join (List.replicate c.source.length "../") ++ c.buildPath

/-- The names are such that they can be those of files, and that of the contract can be told from
what stands around it. -/
structure IsPlain : Prop where
  source_ne_nil : c.source ≠ []
  source : ∀ part ∈ c.source, Path.IsPlain part.toList
  name : ':' ∉ c.name.toList ∧ '/' ∉ c.name.toList ∧ '.' ∉ c.name.toList
  build : '/' ∉ c.build.toList

theorem toList_sourceName :
    c.sourceName.toList = List.intercalate ['/'] (c.source.map String.toList) :=
  String.toList_intercalate

theorem head?_buildPath : c.buildPath.toList.head? ≠ some '/' := by
  rw [buildPath, Path.toList_slash]
  exact (by decide : some 'b' ≠ some '/')

namespace IsPlain

variable {c : Contract} (h : c.IsPlain)

include h

theorem parts : ∀ part ∈ c.source.map String.toList, part ≠ [] ∧ '/' ∉ part := by
  intro part hpart
  rcases List.mem_map.mp hpart with ⟨name, hname, heq⟩
  rw [← heq]
  exact ⟨(h.source name hname).ne_nil, (h.source name hname).not_mem⟩

theorem named_sourceName : Path.named c.sourceName.toList = c.source.map String.toList := by
  rw [toList_sourceName, Path.named_intercalate _ h.parts]

theorem sourceName_ne_empty : c.sourceName ≠ "" := by
  intro hempty
  have hnamed := h.named_sourceName
  rw [hempty, show Path.named "".toList = [] by decide] at hnamed
  exact h.source_ne_nil (List.map_eq_nil_iff.mp hnamed.symm)

/-- Two contracts that are listed under one name have one source and one name. -/
theorem source_name_eq {d : Contract} (hd : d.IsPlain) (heq : c.fullName = d.fullName) :
    c.source = d.source ∧ c.name = d.name := by
  rcases ContractName.qualified_inj h.name.1 hd.name.1 heq with ⟨hsource, hname⟩
  have hparts : c.source.map String.toList = d.source.map String.toList := by
    rw [← h.named_sourceName, ← hd.named_sourceName, hsource]
  exact ⟨List.map_injective_iff.mpr (fun _ _ => String.toList_inj.mp) hparts, hname⟩

theorem head?_sourceName : c.sourceName.toList.head? ≠ some '/' := by
  rw [toList_sourceName]
  exact Path.head?_intercalate _ h.parts

theorem getLast?_sourceName : c.sourceName.toList.getLast? ≠ some '/' := by
  rw [toList_sourceName]
  exact Path.getLast?_intercalate _ h.parts

theorem artifactFile : Path.IsPlain c.artifactFile.toList :=
  Path.isPlain_append c.name ".json" h.name.2.1 (by decide) (by decide)

theorem debugFile : Path.IsPlain c.debugFile.toList :=
  Path.isPlain_append c.name ".dbg.json" h.name.2.1 (by decide) (by decide)

theorem buildFile : Path.IsPlain c.buildFile.toList :=
  Path.isPlain_append c.build ".json" h.build (by decide) (by decide)

theorem head?_inSource (file : String) : (c.inSource file).toList.head? ≠ some '/' := by
  have hne : c.sourceName.toList ≠ [] := mt String.toList_eq_nil_iff.mp h.sourceName_ne_empty
  rw [inSource, Path.toList_slash, List.head?_append_of_ne_nil _ hne]
  exact h.head?_sourceName

/-- The names that lead to a file of the contract. -/
theorem pathComponents_inSource (file : String) (hfile : Path.IsPlain file.toList) :
    FileTree.pathComponents (c.inSource file) = c.source ++ [file] := by
  rw [FileTree.pathComponents_eq, inSource, Path.toList_slash, Path.named_append,
    h.named_sourceName, Path.named_of_plain _ hfile, List.map_append, List.map_map, List.map_singleton,
    String.ofList_toList]
  congr 1
  simp

/-- The names that lead to the build file. -/
theorem named_buildPath :
    Path.named c.buildPath.toList = [buildFolder.toList, c.buildFile.toList] := by
  rw [buildPath, Path.toList_slash, Path.named_append, Path.named_of_plain _ h.buildFile,
    show Path.named buildFolder.toList = [buildFolder.toList] by decide]
  rfl

theorem pathComponents_buildPath :
    FileTree.pathComponents c.buildPath = [buildFolder, c.buildFile] := by
  rw [FileTree.pathComponents_eq, h.named_buildPath]
  simp only [List.map_cons, List.map_nil, String.ofList_toList]

theorem forall_inSource {file : String} (hfile : Path.IsPlain file.toList) :
    ∀ name ∈ c.source ++ [file], Path.IsPlain name.toList := by
  intro name hname
  rcases List.mem_append.mp hname with hpart | hlast
  · exact h.source name hpart
  · rw [List.mem_singleton.mp hlast]
    exact hfile

theorem forall_buildPath : ∀ name ∈ [buildFolder] ++ [c.buildFile], Path.IsPlain name.toList := by
  intro name hname
  rcases List.mem_append.mp hname with hfolder | hfile
  · rw [List.mem_singleton.mp hfolder]
    exact ⟨by decide, by decide, by decide, by decide⟩
  · rw [List.mem_singleton.mp hfile]
    exact h.buildFile

theorem forall_named : ∀ part ∈ Path.named c.sourceName.toList, Path.IsPlain part := by
  intro part hpart
  rw [h.named_sourceName] at hpart
  rcases List.mem_map.mp hpart with ⟨name, hname, heq⟩
  rw [← heq]
  exact h.source name hname

end IsPlain

end Contract

/-! ## Folders of artifacts -/

/-- A folder has the files of contracts, each at the path of its source. Besides them there may be
debug files, and anything in the folder of build files. -/
structure HoldsArtifacts (root : FileTree) (folder : String) (entries : List (String × FileTree))
    (contracts : List Contract) : Prop where
  /-- The path leads to the folder, however it is written. -/
  found : root.lookup folder = .ok (.folder entries)
  distinct : (FileTree.folder entries).HasDistinctNames
  plain : ∀ c ∈ contracts, c.IsPlain
  /-- The file of a contract says which one it is. -/
  described : ∀ c ∈ contracts, ∃ v,
    loadJson root (Path.join folder (c.inSource c.artifactFile)) = .ok v ∧
      v.get? "sourceName" = some (.str c.sourceName) ∧ v.get? "contractName" = some (.str c.name)
  /-- There are no other files of this kind. -/
  only : ∀ folders name bytes,
    (FileTree.folder entries).atNames? (folders ++ [name]) = some (.file bytes) →
      endsIn ".json" name = true →
        (∃ c ∈ contracts, folders ++ [name] = c.source ++ [c.artifactFile]) ∨
          endsIn ".dbg.json" name = true ∨ folders.head? = some buildFolder

/-- A folder of artifacts, laid out as the build tool does it. Which files can be read is told by
their paths, so a file whose path is too long is not there. -/
structure IsLaidOut (root : FileTree) (folder : String) (entries : List (String × FileTree))
    (contracts : List Contract) : Prop where
  /-- The path leads to the folder, however it is written. -/
  found : root.lookup folder = .ok (.folder entries)
  distinct : (FileTree.folder entries).HasDistinctNames
  plain : ∀ c ∈ contracts, c.IsPlain
  /-- The file of a contract says which one it is. -/
  described : ∀ c ∈ contracts, ∃ v,
    loadJson root (Path.join folder (c.inSource c.artifactFile)) = .ok v ∧
      v.get? "sourceName" = some (.str c.sourceName) ∧ v.get? "contractName" = some (.str c.name)
  /-- Its debug file points at its build file. -/
  debugged : ∀ c ∈ contracts, ∃ v,
    loadJson root (Path.join folder (c.inSource c.debugFile)) = .ok v ∧
      v.get? "buildInfo" = some (.str c.pointer)
  built : ∀ c ∈ contracts, ∃ v, loadJson root (Path.join folder c.buildPath) = .ok v
  /-- There are no other files of this kind. -/
  only : ∀ folders name bytes,
    (FileTree.folder entries).atNames? (folders ++ [name]) = some (.file bytes) →
      endsIn ".json" name = true → ∃ c ∈ contracts,
        folders ++ [name] = c.source ++ [c.artifactFile] ∨
          folders ++ [name] = c.source ++ [c.debugFile] ∨
            folders ++ [name] = [buildFolder, c.buildFile]

/-- A file below the folder that has been read stands in the tree, and its path leads there. -/
theorem file_of_load {root : FileTree} {folder : String} {entries : List (String × FileTree)}
    (hfound : root.lookup folder = .ok (.folder entries)) (path : String)
    (names : List String) (v : Json) (hload : loadJson root (Path.join folder path) = .ok v)
    (hrelative : path.toList.head? ≠ some '/') (hnames : FileTree.pathComponents path = names)
    (hplain : ∀ name ∈ names, Path.IsPlain name.toList) :
    ∃ base bytes, root.locate (Path.join folder path) = .ok (names.reverse ++ base) ∧
      root.read (Path.join folder path) = .ok bytes ∧
      (FileTree.folder entries).atNames? names = some (.file bytes) ∧
      ∀ other, decodeJson other bytes = .ok v := by
  rcases (loadJson_eq_ok _ _ _).mp hload with ⟨bytes, hread, hdecode⟩
  have hlookup := FileTree.read_eq_ok root _ bytes hread
  -- No component of the path leads up again, so the trail of the file is that of the folder and the
  -- names.
  have hdots : ∀ name ∈ FileTree.pathComponents path, name ≠ "." ∧ name ≠ ".." := by
    intro name hname
    rw [hnames] at hname
    exact (hplain name hname).ne_dots_text
  rcases (FileTree.lookup_eq_ok _ _ _).mp hfound with ⟨base, hbase, _⟩
  rcases (FileTree.lookup_eq_ok _ _ _).mp hlookup with ⟨place, hplace, _⟩
  have heq := FileTree.locate_join root base place folder path hbase hplace hrelative hdots
  have hat := FileTree.lookup_join root _ _ folder path hfound hlookup hrelative hdots
  rw [heq, hnames] at hplace
  rw [hnames] at hat
  exact ⟨base, bytes, hplace, hread, hat, fun other => decodeJson_of_ok _ other bytes v hdecode⟩

/-! ## Listing -/

theorem describesContract_artifactFile {c : Contract} (h : c.IsPlain) :
    describesContract c.artifactFile = true := by
  have hends : endsIn ".json" c.artifactFile = true := by
    rw [endsIn, List.isSuffixOf_iff_suffix, Contract.artifactFile, String.toList_append]
    exact List.suffix_append _ _
  have hnot : endsIn ".dbg.json" c.artifactFile = false := by
    rw [endsIn, Bool.eq_false_iff, ne_eq, List.isSuffixOf_iff_suffix, Contract.artifactFile,
      String.toList_append]
    rintro ⟨before, hbefore⟩
    rw [show ".dbg.json".toList = ".dbg".toList ++ ".json".toList by decide,
      ← List.append_assoc] at hbefore
    -- The name would end in the first half of the ending.
    have hname := List.append_cancel_right hbefore
    refine h.name.2.2 ?_
    rw [← hname]
    exact List.mem_append_right _ (by decide)
  rw [describesContract, hends, hnot]
  rfl

theorem endsIn_debugFile (c : Contract) : endsIn ".dbg.json" c.debugFile = true := by
  rw [endsIn, List.isSuffixOf_iff_suffix, Contract.debugFile, String.toList_append]
  exact List.suffix_append _ _

/-- What a file that describes a contract is listed as. -/
theorem qualifiedName?_of_describes (c : Contract) (v : Json)
    (hsource : v.get? "sourceName" = some (.str c.sourceName))
    (hname : v.get? "contractName" = some (.str c.name)) : qualifiedName? v = some c.fullName := by
  rw [qualifiedName?, hsource, hname]
  rfl

namespace HoldsArtifacts

variable {root : FileTree} {folder : String} {entries : List (String × FileTree)}
  {contracts : List Contract} (h : HoldsArtifacts root folder entries contracts)

include h

/-- The file that describes a contract stands at its names. -/
theorem artifact_found (c : Contract) (hc : c ∈ contracts) :
    ∃ bytes v, (FileTree.folder entries).atNames? (c.source ++ [c.artifactFile])
        = some (.file bytes) ∧
      (∀ place, decodeJson place bytes = .ok v) ∧ qualifiedName? v = some c.fullName := by
  have hplain := h.plain c hc
  rcases h.described c hc with ⟨v, hload, hsource, hname⟩
  rcases file_of_load h.found _ _ v hload (hplain.head?_inSource _)
    (hplain.pathComponents_inSource _ hplain.artifactFile)
    (hplain.forall_inSource hplain.artifactFile) with ⟨_, bytes, _, _, hat, hdecode⟩
  exact ⟨bytes, v, hat, hdecode, qualifiedName?_of_describes c v hsource hname⟩

/-- Every file that is visited describes one of the contracts. -/
theorem describes_of_visited (names : List String) (bytes : List UInt8) (hvisited : IsVisited names)
    (hat : (FileTree.folder entries).atNames? names = some (.file bytes)) :
    ∃ v, (∀ place, decodeJson place bytes = .ok v) ∧
      ∃ c ∈ contracts, buildFolder ∉ c.source ∧ names = c.source ++ [c.artifactFile] ∧
        qualifiedName? v = some c.fullName := by
  rcases hvisited with ⟨folders, name, hnames, hdescribes, hfolders⟩
  rw [describesContract, Bool.and_eq_true, Bool.not_eq_true'] at hdescribes
  rw [hnames] at hat
  rcases h.only folders name bytes hat hdescribes.1 with ⟨c, hc, hartifact⟩ | hdebug | hbuild
  · -- Two files at the same names are one file.
    rcases h.artifact_found c hc with ⟨content, v, hcontent, hdecode, hfull⟩
    rw [hartifact, hcontent] at hat
    injection hat with hat
    injection hat with hat
    rw [(List.append_singleton_inj.mp hartifact).1] at hfolders
    rw [← hat]
    exact ⟨v, hdecode, c, hc, hfolders, hnames.trans hartifact, hfull⟩
  · rw [hdebug] at hdescribes
    exact absurd hdescribes.2 (by decide)
  · exact absurd (List.mem_of_mem_head? hbuild) hfolders

/-- Listed are the contracts of which the files are not among the build files, each of them once. -/
theorem listContracts_eq :
    ∃ names, listContracts root folder = .ok names ∧ names.Nodup ∧
      ∀ name, name ∈ names ↔ ∃ c ∈ contracts, buildFolder ∉ c.source ∧ name = c.fullName := by
  rcases exists_visit _ h.distinct folder with ⟨files, hvisit, hfiles⟩
  rcases mapM_eq_ok (fun f => decodeJson (placeAt folder f.1) f.2)
    (fun f v => ∃ c ∈ contracts, buildFolder ∉ c.source ∧ f.1 = c.source ++ [c.artifactFile] ∧
      qualifiedName? v = some c.fullName) files (fun f hf => by
        rcases (hvisit.mem_iff f.1 f.2).mp hf with ⟨hvisited, hat⟩
        rcases h.describes_of_visited f.1 f.2 hvisited hat with ⟨v, hdecode, hdescribes⟩
        exact ⟨v, hdecode _, hdescribes⟩) with ⟨values, hvalues, hdescribe⟩
  refine ⟨values.filterMap qualifiedName?, ?_, ?_, ?_⟩
  · rw [listContracts_visit root folder entries files h.found hfiles, hvalues]
    rfl
  · -- Where a file stands can be told from what it is listed as.
    have hdistinct : values.Pairwise fun v w => ∀ name, qualifiedName? v = some name →
        ∀ other, qualifiedName? w = some other → name ≠ other := by
      refine pairwise_of_forall₂ ?_ files values hdescribe (List.pairwise_map.mp hvisit.nodup_names)
      rintro f g v w ⟨c, hc, _, hf, hv⟩ ⟨d, hd, _, hg, hw⟩ hne name hname other hother heq
      rw [hv] at hname
      rw [hw] at hother
      injection hname with hname
      injection hother with hother
      rw [← hname, ← hother] at heq
      have hcd := (h.plain c hc).source_name_eq (h.plain d hd) heq
      refine hne ?_
      rw [hf, hg, Contract.artifactFile, Contract.artifactFile, hcd.1, hcd.2]
    exact hdistinct.filterMap _ fun v w hvw name hname other hother =>
      hvw name hname other hother
  · intro name
    rw [List.mem_filterMap]
    constructor
    · rintro ⟨v, hv, hname⟩
      rcases exists_partner _ _ hdescribe.flip v hv with ⟨f, _, c, hc, hsource, _, hfull⟩
      rw [hname] at hfull
      injection hfull with hfull
      exact ⟨c, hc, hsource, hfull⟩
    · -- The visit reads the file of the contract, and there is one value that it can be read as.
      rintro ⟨c, hc, hsource, hname⟩
      rcases h.artifact_found c hc with ⟨bytes, v, hat, hdecode, hfull⟩
      have hmem : (c.source ++ [c.artifactFile], bytes) ∈ files :=
        (hvisit.mem_iff _ _).mpr
          ⟨⟨_, _, rfl, describesContract_artifactFile (h.plain c hc), hsource⟩, hat⟩
      rcases exists_partner _ _ (mapM_items _ _ _ hvalues) _ hmem with ⟨w, hw, hdecodes⟩
      rw [hdecode] at hdecodes
      injection hdecodes with hdecodes
      rw [← hdecodes] at hw
      exact ⟨v, hw, by rw [hfull, hname]⟩

end HoldsArtifacts

namespace IsLaidOut

variable {root : FileTree} {folder : String} {entries : List (String × FileTree)}
  {contracts : List Contract} (h : IsLaidOut root folder entries contracts)

include h

theorem holdsArtifacts : HoldsArtifacts root folder entries contracts where
  found := h.found
  distinct := h.distinct
  plain := h.plain
  described := h.described
  only := by
    intro folders name bytes hat hends
    rcases h.only folders name bytes hat hends with ⟨c, hc, hartifact | hdebug | hbuild⟩
    · exact .inl ⟨c, hc, hartifact⟩
    · rw [(List.append_singleton_inj.mp hdebug).2]
      exact .inr (.inl (endsIn_debugFile c))
    · have hsplit : folders ++ [name] = [buildFolder] ++ [c.buildFile] := hbuild
      rw [(List.append_singleton_inj.mp hsplit).1]
      exact .inr (.inr rfl)

/-- Listed are the contracts of which the files are not among the build files. -/
theorem listContracts_eq :
    ∃ names, listContracts root folder = .ok names ∧
      ∀ name, name ∈ names ↔ ∃ c ∈ contracts, buildFolder ∉ c.source ∧ name = c.fullName := by
  rcases h.holdsArtifacts.listContracts_eq with ⟨names, hnames, _, hlisted⟩
  exact ⟨names, hnames, hlisted⟩

/-! ## Opening -/

/-- A file of the artifacts that has been read is there. -/
theorem hasFile_of_load (path : String) (before : List String) (file : String) (v : Json)
    (hload : loadJson root (Path.join folder path) = .ok v)
    (hrelative : path.toList.head? ≠ some '/')
    (hnames : FileTree.pathComponents path = before ++ [file])
    (hplain : ∀ name ∈ before ++ [file], Path.IsPlain name.toList)
    (hfile : file ∉ FileTree.deviceNames) :
    ∃ place, root.locate (Path.join folder path) = .ok place ∧
      root.hasFile (Path.join folder path) = true := by
  rcases file_of_load h.found path _ v hload hrelative hnames hplain with
    ⟨base, bytes, hplace, hread, _, _⟩
  rw [List.reverse_append, List.reverse_singleton, List.singleton_append,
    List.cons_append] at hplace
  have hnone := FileTree.device?_eq_none file (before.reverse ++ base) hfile
  exact ⟨_, hplace, FileTree.hasFile_of_read root _ _ bytes hread hplace hnone⟩

/-- The debug file of a contract points at its build file. -/
theorem buildInfoPath_eq (c : Contract) (hc : c ∈ contracts) (v : Json)
    (hpointer : v.get? "buildInfo" = some (.str c.pointer)) :
    buildInfoPath (Path.join (Path.join folder c.sourceName) c.debugFile) v
      = .ok (Path.normalize (Path.join folder c.buildPath)) := by
  have hplain := h.plain c hc
  have hfolder : folder ≠ "" := by
    rcases (FileTree.lookup_eq_ok _ _ _).mp h.found with ⟨_, hplace, _⟩
    exact ((FileTree.walk_eq_ok _ _ _ _).mp hplace).1
  have hparent : Path.parent (Path.join (Path.join folder c.sourceName) c.debugFile)
      = Path.join folder c.sourceName :=
    Path.parent_join _ _ (Path.join_ne_empty folder _ hfolder)
      (Path.getLast?_join folder _ hplain.sourceName_ne_empty hplain.head?_sourceName
        hplain.getLast?_sourceName) hplain.debugFile.not_mem
  -- The pointer goes up once for every component of the source.
  have hnamed : Path.named c.pointer.toList
      = List.replicate (Path.named c.sourceName.toList).length ['.', '.']
        ++ Path.named c.buildPath.toList := by
    rw [Contract.pointer, Path.named_climb, hplain.named_sourceName, List.length_map]
  have hclimb := Path.normalize_climb folder c.sourceName c.pointer c.buildPath hfolder
    hplain.head?_sourceName (Path.head?_climb _ _ c.head?_buildPath) c.head?_buildPath
    hplain.forall_named hnamed
  have hpointer_ne : c.pointer ≠ "" := by
    intro hempty
    rw [hempty, hplain.named_buildPath] at hnamed
    exact absurd hnamed.symm (List.append_ne_nil_of_right_ne_nil _ (List.cons_ne_nil _ _))
  unfold buildInfoPath
  rw [hpointer, hparent]
  simp only [Option.getD_some, Json.isEmpty, hpointer_ne, decide_false, Json.asText, ok_bind,
    hclimb]
  rfl

/-- A contract is opened by reading its build file. -/
theorem readBuildInfo_eq (c : Contract) (hc : c ∈ contracts) :
    ∃ v, loadJson root (Path.join folder c.buildPath) = .ok v ∧
      readBuildInfo root folder c.fullName = .ok v := by
  have hplain := h.plain c hc
  rcases h.debugged c hc with ⟨debug, hdebug, hpointer⟩
  rcases h.built c hc with ⟨v, hv⟩
  refine ⟨v, hv, ?_⟩
  have hpath : debugPath folder c.sourceName c.name
      = Path.join folder (c.inSource c.debugFile) :=
    Path.join_join folder _ _ hplain.sourceName_ne_empty hplain.head?_sourceName
      hplain.getLast?_sourceName fun hslash =>
        hplain.debugFile.not_mem (List.mem_of_mem_head? hslash)
  rcases h.hasFile_of_load _ c.source c.debugFile debug hdebug (hplain.head?_inSource _)
    (hplain.pathComponents_inSource _ hplain.debugFile)
    (hplain.forall_inSource hplain.debugFile)
    (FileTree.not_mem_deviceNames c.name ".dbg.json" (by decide)) with ⟨_, _, hdebugFile⟩
  rcases h.hasFile_of_load c.buildPath [buildFolder] c.buildFile v hv
    c.head?_buildPath hplain.pathComponents_buildPath hplain.forall_buildPath
    (FileTree.not_mem_deviceNames c.build ".json" (by decide)) with ⟨place, hplace, hbuildFile⟩
  -- The debug file is named in two steps, and its pointer leads to a tidied path.
  rw [← hpath] at hdebug hdebugFile
  have hinfo : buildInfoPath (debugPath folder c.sourceName c.name) debug
      = .ok (Path.normalize (Path.join folder c.buildPath)) :=
    h.buildInfoPath_eq c hc debug hpointer
  rw [← FileTree.hasFile_normalize root place _ hplace] at hbuildFile
  have hload := loadJson_normalize root place _ v hplace hv
  unfold readBuildInfo
  rw [Contract.fullName, ContractName.splitQualified_qualified _ _ hplain.name.1]
  simp only [hdebugFile, hdebug, hinfo, hbuildFile, hload, ok_bind, Bool.not_true,
    Bool.false_eq_true, if_false]

end IsLaidOut

/-- What is listed can be opened.

Let a folder be laid out as the build tool does it, whatever path leads to it and however deep the
sources are. Then the contracts can be listed, and the names in the list are those of the contracts
whose files are not among the build files. Every contract can be opened by its name, and what is read
is the build file of that contract. -/
theorem readBuildInfo_listed (root : FileTree) (folder : String)
    (entries : List (String × FileTree)) (contracts : List Contract)
    (h : IsLaidOut root folder entries contracts) :
    ∃ names, listContracts root folder = .ok names ∧
      (∀ name, name ∈ names ↔ ∃ c ∈ contracts, buildFolder ∉ c.source ∧ name = c.fullName) ∧
      ∀ c ∈ contracts, ∃ v, loadJson root (Path.join folder c.buildPath) = .ok v ∧
        readBuildInfo root folder c.fullName = .ok v := by
  rcases h.listContracts_eq with ⟨names, hnames, hlisted⟩
  exact ⟨names, hnames, hlisted, h.readBuildInfo_eq⟩

/-! ## A folder of artifacts -/

/-- The contracts of a build: one in a source that is deep down, with a colon in its path, and one
that stands among the build files and is left out of the list. -/
def vaultContracts : List Contract :=
  [⟨["contracts", "v1:2", "Vault.sol"], "Vault", "b1"⟩, ⟨["build-info"], "Log", "b2"⟩]

/-- The files that a build leaves behind for a contract, with their names. -/
def Contract.files (c : Contract) : List (List String × Json) :=
  [(c.source ++ [c.artifactFile],
      .obj [("sourceName", .str c.sourceName), ("contractName", .str c.name)]),
    (c.source ++ [c.debugFile], .obj [("buildInfo", .str c.pointer)]),
    ([buildFolder, c.buildFile], .obj [("id", .str c.build)])]

/-- The files of all of them. -/
def vaultFiles : List (List String × List UInt8) :=
  (vaultContracts.flatMap Contract.files).map fun f => (f.1, encodeText f.2.compact)

/-- A working folder with the artifacts in it, and with another folder beside them. -/
def vaultProject : FileTree :=
  .folder [("src", .empty), ("out", .ofFiles vaultFiles)]

/-- Whether a file can be read, as a value that passes a test. -/
def readsAs (root : FileTree) (path : String) (test : Json → Bool) : Bool :=
  (loadJson root path).toOption.any test

theorem readsAs_sound (root : FileTree) (path : String) (test : Json → Bool)
    (h : readsAs root path test = true) : ∃ v, loadJson root path = .ok v ∧ test v = true := by
  unfold readsAs at h
  cases hload : loadJson root path with
  | error e =>
      rw [hload] at h
      exact absurd h Bool.false_ne_true
  | ok v =>
      rw [hload] at h
      exact ⟨v, rfl, h⟩

/-- Whether an object has a member with the given text. -/
def saysOf (name text : String) (v : Json) : Bool := (v.get? name).any (·.isText text)

theorem saysOf_sound (name text : String) (v : Json) (h : saysOf name text v = true) :
    v.get? name = some (.str text) := by
  unfold saysOf at h
  cases hget : v.get? name with
  | none =>
      rw [hget] at h
      exact absurd h Bool.false_ne_true
  | some w =>
      rw [hget, Option.any_some] at h
      rw [Json.eq_str_of_isText h]

theorem lookup_vaultProject :
    vaultProject.lookup "src/../out/" = .ok (.folder (FileTree.ofFiles vaultFiles).entries) := by
  -- The detour leads into the source folder and out of it again.
  have hplace : (vaultProject.locate "src/../out/").toOption
      = some (["out"] ++ FileTree.workingFolder) := by decide +kernel
  rw [FileTree.lookup_eq_ok]
  cases hlocate : vaultProject.locate "src/../out/" with
  | error d =>
      rw [hlocate] at hplace
      exact absurd hplace (by simp only [Except.toOption, reduceCtorEq, not_false_eq_true])
  | ok place =>
      rw [hlocate] at hplace
      injection hplace with hplace
      refine ⟨place, rfl, ?_⟩
      rw [hplace, FileTree.at?, List.reverse_append, List.reverse_singleton,
        FileTree.atNames?_around]
      rfl

theorem isLaidOut_vault :
    IsLaidOut vaultProject "src/../out/" (FileTree.ofFiles vaultFiles).entries
      vaultContracts where
  found := lookup_vaultProject
  distinct := FileTree.hasDistinctNames_ofFiles vaultFiles
  plain := by
    intro c hc
    have hall : ∀ c ∈ vaultContracts, (c.source ≠ [] ∧ (∀ part ∈ c.source, Path.IsPlain part.toList)
        ∧ (':' ∉ c.name.toList ∧ '/' ∉ c.name.toList ∧ '.' ∉ c.name.toList)
        ∧ '/' ∉ c.build.toList) := by decide
    rcases hall c hc with ⟨hne, hsource, hname, hbuild⟩
    exact ⟨hne, hsource, hname, hbuild⟩
  described := by
    intro c hc
    have hall : ∀ c ∈ vaultContracts, readsAs vaultProject
        (Path.join "src/../out/" (c.inSource c.artifactFile)) (fun v =>
          saysOf "sourceName" c.sourceName v && saysOf "contractName" c.name v) = true := by
      decide +kernel
    rcases readsAs_sound _ _ _ (hall c hc) with ⟨v, hv, hsays⟩
    rw [Bool.and_eq_true] at hsays
    exact ⟨v, hv, saysOf_sound _ _ v hsays.1, saysOf_sound _ _ v hsays.2⟩
  debugged := by
    intro c hc
    have hall : ∀ c ∈ vaultContracts, readsAs vaultProject
        (Path.join "src/../out/" (c.inSource c.debugFile)) (saysOf "buildInfo" c.pointer)
          = true := by
      decide +kernel
    rcases readsAs_sound _ _ _ (hall c hc) with ⟨v, hv, hsays⟩
    exact ⟨v, hv, saysOf_sound _ _ v hsays⟩
  built := by
    intro c hc
    have hall : ∀ c ∈ vaultContracts, readsAs vaultProject
        (Path.join "src/../out/" c.buildPath) (fun _ => true) = true := by
      decide +kernel
    rcases readsAs_sound _ _ _ (hall c hc) with ⟨v, hv, _⟩
    exact ⟨v, hv⟩
  -- All files are known, and each belongs to one of the contracts.
  only := by
    intro folders name bytes hat hends
    have hmem := FileTree.mem_of_atNames?_ofFiles vaultFiles _ bytes hat
    have hall : ∀ f ∈ vaultFiles, ∃ c ∈ vaultContracts,
        f.1 = c.source ++ [c.artifactFile] ∨ f.1 = c.source ++ [c.debugFile] ∨
          f.1 = [buildFolder, c.buildFile] := by
      decide +kernel
    exact hall _ hmem

/-- The deep contract is listed, and it can be opened, although the folder is reached on a detour. -/
theorem readBuildInfo_listed_vault :
    IsLaidOut vaultProject "src/../out/" (FileTree.ofFiles vaultFiles).entries vaultContracts ∧
      ∃ names, listContracts vaultProject "src/../out/" = .ok names ∧
        "contracts/v1:2/Vault.sol:Vault" ∈ names ∧
        ∃ v, loadJson vaultProject "src/../out/build-info/b1.json" = .ok v ∧
          readBuildInfo vaultProject "src/../out/" "contracts/v1:2/Vault.sol:Vault" = .ok v := by
  rcases readBuildInfo_listed _ _ _ _ isLaidOut_vault with ⟨names, hnames, hlisted, hopened⟩
  have hvault : ⟨["contracts", "v1:2", "Vault.sol"], "Vault", "b1"⟩ ∈ vaultContracts :=
    List.mem_cons_self
  refine ⟨isLaidOut_vault, names, hnames, ?_, ?_⟩
  · exact (hlisted _).mpr ⟨_, hvault, by decide, rfl⟩
  · exact hopened _ hvault

end StorageLayout.Artifacts
