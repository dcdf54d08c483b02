import StorageLayout.Proofs.CommandLine.Printing
import StorageLayout.Proofs.Unreadable

/-!
# Commands on a Given File

How a command ends that is given the file to read.

The commands that print and list can be given a file with compiler output, and they read it by its
path before they do anything with it. What comes after is a function of the value in the file
(`Opens`). So the file decides how the command ends in one of three ways: a file that is no JSON is
reported in words, an unreadable one ends the command with a defect, and any other file counts by
its value alone.

## Main definitions

* `listNamesOf`, `printArtifact`: What is done with the value in the file.
* `Opens`: A command with its first step and what it does with the value.

## Theorems

* `runCommand_of_opens`: The parts of a command that is given a file.
* `runOn_of_opens`: How its run ends.
* `unreadable_files`: Which files are not reported in words, wherever a file is read.
* `unreadable_files_build`: A command on such a file.
* `unreadable_files_defects`: Files that are not reported.
-/

namespace StorageLayout.CommandLine

open Artifacts (IsUnreadable ReadingEnds ScanFails OpeningFails)

/-- The part of a listing that comes after its file has been read. -/
def listNamesOf (artifact : Json) : Session Unit := do
  let source ← lift (Source.ofArtifact artifact .auto)
  (source.contractNames.mergeSort fun a b => a ≤ b).forM say

/-- The part of a print that comes after its file has been read. -/
def printArtifact (settings : Settings) (artifact : Json) : Session Unit := do
  let (source, fullName) ←
    lift (Source.select artifact settings.contract (.ofString (settings.text mode)))
  let depth := settings.number maxDepth
  let layout ← lift (layoutOf source fullName ⟨.int depth, depth⟩)
  deliver settings fullName layout

/-- A command that reads files, with what it does before it reads a file that it is given and what
it does with the value in it. -/
inductive Opens (settings : Settings) : Command → Session Unit → (Json → Session Unit) → Prop
  | names : Opens settings .names (pure ()) listNamesOf
  | print : Opens settings .print (prepare settings) (printArtifact settings)

/-- The parts of a command that is given a file. -/
theorem runCommand_of_opens (settings : Settings) (command : Command) (first : Session Unit)
    (rest : Json → Session Unit) (path : String)
    (hpath : nonEmpty (settings.text? buildInfo) = some path)
    (h : Opens settings command first rest) :
    runCommand command settings =
      first >>= fun _ => withFiles (Artifacts.loadJson · path) >>= rest := by
  -- Both commands take the build file in the same step, and differ in what they do before and after
  -- it.
  cases h with
  | names =>
      change listNames settings = _
      rw [listNames, hpath, pure_bind]
      simp only [pure_bind]
      rfl
  | print =>
      change printLayout settings = _
      rw [printLayout_eq, makeLayout, findArtifact, hpath]
      simp only [bind_assoc, pure_bind]
      rfl

/-- How the run of a command ends, by how the reading of its file does. -/
def Outcome.ofReading (host : Host) (files : FileTree) (environment : Assoc String String)
    (first : Session Unit) (rest : Json → Session Unit) (c : Console) : Except Error Json → Outcome
  | .ok v => .ofSession host files environment (first >>= fun _ => rest v)
  | .error (.defect d) => ⟨1, c.output, c.errors, c.files, some d⟩
  | .error e => ⟨1, c.output, c.errors ++ Text.stripEscapes s!"Error: {e.message}\n", c.files, none⟩

/-- A command that is given a file ends as the reading of this file does. -/
theorem runOn_of_opens (host : Host) (files : FileTree) (environment : Assoc String String)
    (words : List String) (command : Command) (settings : Settings) (path : String)
    (bytes : List UInt8) (first : Session Unit) (rest : Json → Session Unit) (c : Console)
    (hread : Request.read ⟨files, environment⟩ words = .ok (.run command settings))
    (hpath : nonEmpty (settings.text? buildInfo) = some path)
    (hopens : Opens settings command first rest)
    (hfirst : first.run.run { files, environment, host } = (.ok (), c))
    (hfile : c.files.read path = .ok bytes) :
    ∃ result, ReadingEnds path bytes result ∧
      runOn host files environment words =
        .ofReading host files environment first rest c result := by
  have hends := Artifacts.loadJson_ends c.files path bytes hfile
  refine ⟨Artifacts.loadJson c.files path, hends, ?_⟩
  rw [runOn, hread]
  dsimp only
  rw [runCommand_of_opens settings command first rest path hpath hopens, Outcome.ofSession,
    run_bind, hfirst]
  dsimp only
  rw [run_bind, reads_withFiles]
  -- After the reading only its outcome counts: the rest of the command does not look at the file
  -- again.
  generalize Artifacts.loadJson c.files path = result at hends
  cases hends with
  | value _ =>
      rw [Outcome.ofReading, Outcome.ofSession, run_bind, hfirst]
  | report _ => rfl
  | defect _ => rfl

/-- Which files are not reported in words, wherever a file is read and whatever the host.

A file that is there is read as a value or reported with its path as no JSON, unless its bytes are
no text or it meets a long integer; then, and only then, it gives rise to a defect. The scan of a
folder ends in a defect exactly if the first file in it that is not read as a value is of this kind.
The search for the build file of a contract does exactly if the debug file or the build file is, or
if the name is not qualified, or if the pointer in the debug file is no text. And a command that is
given a file ends as its reading does: without a defect if it is reported, with one if it is
unreadable, and otherwise in a way in which the file has no part but by its value. -/
theorem unreadable_files (host : Host) (files : FileTree) (environment : Assoc String String) :
    (∀ path bytes, files.read path = .ok bytes →
        ReadingEnds path bytes (Artifacts.loadJson files path)) ∧
      (∀ folder d, Artifacts.listContracts files folder = .error (.defect d) ↔
        ScanFails files folder d) ∧
      (∀ folder fullName d, Artifacts.readBuildInfo files folder fullName = .error (.defect d) ↔
        OpeningFails files folder fullName d) ∧
      ∀ words command settings path bytes first rest c,
        Request.read ⟨files, environment⟩ words = .ok (.run command settings) →
        nonEmpty (settings.text? buildInfo) = some path → Opens settings command first rest →
        first.run.run { files, environment, host } = (.ok (), c) → c.files.read path = .ok bytes →
          ∃ result, ReadingEnds path bytes result ∧
            runOn host files environment words =
              .ofReading host files environment first rest c result :=
  ⟨Artifacts.loadJson_ends files, Artifacts.listContracts_eq_defect_iff files,
    Artifacts.readBuildInfo_eq_defect_iff files, runOn_of_opens host files environment⟩

/-- A folder with one file. -/
def buildOf (bytes : List UInt8) : FileTree := .folder [("b.json", .file bytes)]

/-- The bytes of an object, and one that no text has. -/
def strayByte : List UInt8 := [0x7b, 0x7d, 0xff]

theorem isUnreadable_strayByte : IsUnreadable strayByte .undecodable :=
  .undecodable ((Artifacts.textOf?_eq_none strayByte).mp (by decide +kernel))

/-- A command that lists the contracts of such a file ends with a defect. -/
theorem unreadable_files_build :
    ReadingEnds "b.json" strayByte (Artifacts.loadJson (buildOf strayByte) "b.json") ∧
      runOn {} (buildOf strayByte) [] ["names", "--build-info", "b.json"] =
        ⟨1, "", "", buildOf strayByte, some .undecodable⟩ := by
  rcases unreadable_files {} (buildOf strayByte) [] with ⟨hfile, _, _, hrun⟩
  refine ⟨hfile "b.json" strayByte rfl, ?_⟩
  rcases hrun ["names", "--build-info", "b.json"] .names _ "b.json" strayByte _ _
    { files := buildOf strayByte } rfl rfl .names rfl rfl with ⟨result, hends, hresult⟩
  cases hends with
  | value h => exact absurd isUnreadable_strayByte (h _)
  | report h => exact absurd isUnreadable_strayByte (h _)
  | defect h =>
      rw [hresult, h.unique isUnreadable_strayByte]
      rfl

/-- A number of more digits than are read. -/
def longNumber : String := String.ofList (List.replicate (Text.maxDigits + 1) '1')

theorem isUnreadable_longNumber :
    IsUnreadable (Artifacts.encodeText longNumber) .badContent := by
  -- The text is made of the digit one alone, and one digit longer than a number may be.
  have hones : ∀ c ∈ List.replicate (Text.maxDigits + 1) '1', c = '1' :=
    fun c hc => List.eq_of_mem_replicate hc
  refine .longInteger ?_
  rw [longNumber, String.toList_ofList, Artifacts.unifyNewlines_of_not_mem _ fun hc =>
    absurd (hones _ hc) (by decide)]
  refine Json.Parser.meetsLongInteger_of_digits _ (fun c hc => ?_) (by decide) ?_
  · rw [hones c hc]
    rfl
  · rw [List.length_replicate]
    exact Nat.lt_succ_self _

/-- A folder with a contract whose debug file points at a number. -/
def pointerProject : FileTree :=
  .folder [("a.sol", .folder [("A.dbg.json",
    .file (Artifacts.encodeText (Json.obj [("buildInfo", .int 5)]).compact))])]

/-- Not every file is read as a value or reported: the bytes of one are no text, and another one
holds a long integer. And a debug file can be read whose pointer cannot be followed. -/
theorem unreadable_files_defects :
    Artifacts.loadJson (buildOf strayByte) "b.json" = .error (.defect .undecodable) ∧
      Artifacts.loadJson (buildOf (Artifacts.encodeText longNumber)) "b.json" =
        .error (.defect .badContent) ∧
      Artifacts.readBuildInfo pointerProject "." "a.sol:A" = .error (.defect .wrongKind) := by
  refine ⟨?_, ?_, ?_⟩
  · exact (Artifacts.loadJson_eq_defect_iff _ _ _ rfl).mpr ⟨_, rfl, isUnreadable_strayByte⟩
  · exact (Artifacts.loadJson_eq_defect_iff _ _ _ rfl).mpr ⟨_, rfl, isUnreadable_longNumber⟩
  · -- The whole file is evaluated once, for the one thing asked of its pointer.
    have hreads : Artifacts.readsAs pointerProject (Artifacts.debugPath "." "a.sol" "A") (fun v =>
        !(Artifacts.pointerOf v).isEmpty && (Artifacts.pointerOf v).str?.isNone) = true := by
      decide +kernel
    rcases Artifacts.readsAs_sound _ _ _ hreads with ⟨v, hv, hpointer⟩
    rw [Bool.and_eq_true, Bool.not_eq_true'] at hpointer
    refine (Artifacts.readBuildInfo_eq_defect_iff _ _ _ _).mpr
      (.pointer rfl rfl hv hpointer.1 fun s hs => ?_)
    rw [hs] at hpointer
    exact absurd hpointer.2 Bool.false_ne_true

end StorageLayout.CommandLine
