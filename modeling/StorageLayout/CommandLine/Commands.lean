import StorageLayout.Artifacts
import StorageLayout.CommandLine.Arguments
import StorageLayout.Export
import StorageLayout.Json.Printer
import StorageLayout.Render

/-!
# Commands

From a command line to what appears on the two streams and in the files.

A run is a computation over a console, which holds what has been said so far, the files as they are
now, and the environment, which compile commands get. So what is said before an error stays said,
and a file that has been opened stays opened, whatever comes after. Both streams are without
colours.

Two things are not decided here, but by the host that a run takes place on: what a compile command
does to the files, and whether the output takes a text. An output has an encoding, and a text with a
character that the encoding lacks is not taken. None of it appears then, and the run ends.

## Main definitions

* `Host`: What a run depends on besides the files and the environment.
* `Console`: What has been said, and the files.
* `Session`: A step of a run.
* `say`, `note`: Lines on the two streams.
* `printLayout`, `listNames`: The commands.
* `Outcome`: How a run ends.
* `runOn`: Runs a command line.
-/

namespace StorageLayout.CommandLine

/-- What a run depends on besides the files and the environment. -/
structure Host where
  /-- What a compile command does in an environment: the files that it leaves, and its failure. -/
  compile : FileTree → Assoc String String → String → FileTree × Except Error Unit :=
    fun files _ _ => (files, .ok ())
  /-- Why the output, with what it has taken already, does not take a text. A text that was read
  with half of a surrogate pair in it, which texts here do not tell from the replacement character,
  can be refused by every encoding. -/
  refusal? : (output text : String) → Option Defect := fun _ _ => none

/-- What has been said on the two streams, the files as they are, the environment, and the host. -/
structure Console where
  output : String := ""
  errors : String := ""
  files : FileTree
  environment : Assoc String String := []
  host : Host := {}

/-- A step of a run, which may fail and leaves what it did until then. -/
abbrev Session (α : Type) := ExceptT Error (StateM Console) α

/-- A line as the streams have it. -/
def spoken (line : String) : String := Text.stripEscapes (line ++ "\n")

/-- Says a line, if the output takes it. -/
def say (line : String) : Session Unit := do
  let console ← get
  match console.host.refusal? console.output (spoken line) with
  | some d => throw (.defect d)
  | none => set { console with output := console.output ++ spoken line }

/-- Says a line on the stream of errors. There a character that the encoding lacks is written as an
escape, so every text is taken. -/
def note (line : String) : Session Unit :=
  modify fun c => { c with errors := c.errors ++ spoken line }

/-- A step that looks at the files. -/
def withFiles {α : Type} (f : FileTree → Except Error α) : Session α := do
  match f (← get).files with
  | .ok a => return a
  | .error e => throw e

/-- A step that needs nothing. -/
def lift {α : Type} (r : Except Error α) : Session α := withFiles fun _ => r

/-- Writes a file. The devices that stand for the two streams say what is written to them. -/
def writeFile (path : String) (bytes : List UInt8) : Session Unit := do
  let text := (Artifacts.textOf? bytes).getD ""
  let console ← get
  match console.files.deviceAt? path with
  | some "stdout" => set { console with output := console.output ++ text }
  | some "stderr" => set { console with errors := console.errors ++ text }
  | _ =>
    match console.files.write path bytes with
    | .ok files => set { console with files }
    | .error d => throw (.defect d)

/-- Compiles the project. -/
def compileStep (command : String) : Session Unit := do
  note s!"compiling: {command}"
  let console ← get
  let (files, result) := console.host.compile console.files console.environment command
  modify fun c => { c with files }
  lift result

/-- A text that says something. -/
def nonEmpty (text : Option String) : Option String := text.filter (· ≠ "")

/-- The artifact for a contract, and the name to look for in it. Without a file to read it from the
contract is looked up in the artifacts folder. -/
def findArtifact (settings : Settings) : Session (Json × String) := do
  match nonEmpty (settings.text? buildInfo) with
  | some path =>
    let artifact ← withFiles (Artifacts.loadJson · path)
    return (artifact, settings.contract)
  | none =>
    let folder := settings.text artifacts
    let fullName ←
      if ContractName.isQualified settings.contract then pure settings.contract
      else
        let candidates ← withFiles (Artifacts.listContracts · folder)
        lift (ContractName.qualify settings.contract candidates)
    let artifact ← withFiles (Artifacts.readBuildInfo · folder fullName)
    return (artifact, fullName)

/-- Writes the layout to a file. The file is opened, and with it emptied, before the layout is
exported, and it keeps what was written before an integer that is too long. -/
def writeLayout (path : String) (layout : List TypeReference) : Session Unit := do
  writeFile path []
  let exported ← lift (exportForest layout)
  let written := (Json.arr exported).pretty
  writeFile path (Artifacts.encodeText written.text)
  if !written.isComplete then throw (.defect .badContent)
  note s!"Wrote JSON: {path}"

/-- Shows the layout. -/
def showLayout (settings : Settings) (fullName : String) (layout : List TypeReference) :
    Session Unit := do
  if settings.isOn raw then
    let exported ← lift (exportForest layout)
    let written := (Json.arr exported).pretty
    if !written.isComplete then throw (.defect .badContent)
    say written.text
  else
    say s!"layout of {Text.paint .brightGreen fullName}:"
    let lines ← lift (Render.renderForest (settings.isOn hexSlots) 0 layout)
    lines.forM say

/-- Prints the layout of a contract. -/
def printLayout (settings : Settings) : Session Unit := do
  if settings.isOn compile then compileStep (settings.text compileCommand)
  let (artifact, name) ← findArtifact settings
  let (source, fullName) ← lift (Source.select artifact name (.ofString (settings.text mode)))
  let depth := settings.number maxDepth
  let layout ← lift (layoutOf source fullName ⟨.int depth, depth⟩)
  if let some path := nonEmpty (settings.text? jsonOut) then writeLayout path layout
  showLayout settings fullName layout

/-- Lists the contracts of a file, in alphabetical order, or those of the artifacts. -/
def listNames (settings : Settings) : Session Unit := do
  let names ← match nonEmpty (settings.text? buildInfo) with
    | some path =>
      let artifact ← withFiles (Artifacts.loadJson · path)
      let source ← lift (Source.ofArtifact artifact .auto)
      pure (source.contractNames.mergeSort fun a b => a ≤ b)
    | none => withFiles (Artifacts.listContracts · (settings.text artifacts))
  names.forM say

/-- Runs a command. -/
def runCommand (c : Command) (settings : Settings) : Session Unit :=
  match c with
  | .print => printLayout settings
  | .names => listNames settings
  | .explain => say guide

/-- How a run ends. -/
structure Outcome where
  status : Nat
  output : String
  errors : String
  files : FileTree
  /-- A defect, which is not reported in words. -/
  defect : Option Defect := none

/-- What is said about a fault of the command line. Faults in the use of a single option are said
without the usage. -/
def usageText (context : Context) (fault : UsageFault) : String :=
  let usage := s!"{context.usage}\nTry '{context.path} --help' for help.\n\n"
  let error := s!"Error: {fault.text}\n"
  match fault with
  | .noWords => context.help ++ "\n"
  | .needsValue _ | .takesNoValue _ => error
  | _ => usage ++ error

/-- How a run of a command ends. -/
def Outcome.ofSession (host : Host) (files : FileTree) (environment : Assoc String String)
    (session : Session Unit) : Outcome :=
  match session.run.run { files, environment, host } with
  | (.ok (), c) => ⟨0, c.output, c.errors, c.files, none⟩
  | (.error e, c) =>
    match e.reported with
    | .defect d => ⟨1, c.output, c.errors, c.files, some d⟩
    | e => ⟨1, c.output, c.errors ++ Text.stripEscapes s!"Error: {e.message}\n", c.files, none⟩

/-- How a run ends whose command line is refused. -/
def Outcome.ofFault (files : FileTree) (context : Context) (fault : UsageFault) : Outcome :=
  match fault.defect? with
  | some d => ⟨1, "", "", files, some d⟩
  | none => ⟨2, "", Text.stripEscapes (usageText context fault), files, none⟩

/-- Runs a command line on a host. -/
def runOn (host : Host) (files : FileTree) (environment : Assoc String String)
    (words : List String) : Outcome :=
  match Request.read { files, environment } words with
  | .error (context, fault) => .ofFault files context fault
  | .ok (.help context) => .ofSession host files environment (say context.help)
  | .ok (.run c settings) => .ofSession host files environment (runCommand c settings)

end StorageLayout.CommandLine
