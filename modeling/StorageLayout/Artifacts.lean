import StorageLayout.ContractName
import StorageLayout.FileTree
import StorageLayout.Json.Reading

/-!
# Build Artifacts

Reading the files that a build leaves behind.

The artifacts folder has, for every contract, a file with its name and the path of its source, and
beside it a debug file that points at the build file with the compiler output. The contracts are
listed by looking at every file in the folder, so the order of the list is that of the visit: the
files of a folder by name, then its folders by name.

## Main definitions

* `decodeText`: The text of a file.
* `loadJson`: The value in a file.
* `jsonFiles`: The files of a folder that can describe a contract, in order of the visit.
* `listContracts`: The qualified names of all contracts.
* `readBuildInfo`: The build file of a contract.
-/

namespace StorageLayout.Artifacts

/-- A text in which every line ends in a line feed, whichever way its lines ended before. -/
def unifyNewlines : List Char → List Char
  | [] => []
  | '\r' :: '\n' :: rest => '\n' :: unifyNewlines rest
  | '\r' :: rest => '\n' :: unifyNewlines rest
  | c :: rest => c :: unifyNewlines rest

/-- The text that bytes stand for in UTF-8. -/
def textOf? (bytes : List UInt8) : Option String := String.fromUTF8? ⟨bytes.toArray⟩

/-- The text of a file, whose lines end in line feeds. -/
def decodeText (bytes : List UInt8) : Option (List Char) :=
  (textOf? bytes).map fun s => unifyNewlines s.toList

/-- The bytes of a text in UTF-8. -/
def encodeText (s : String) : List UInt8 := s.toUTF8.toList

/-- The value that the bytes of a file stand for; `path` is how the file is called in messages. -/
def decodeJson (path : String) (bytes : List UInt8) : Except Error Json :=
  match decodeText bytes with
  | none => Defect.undecodable.fail
  | some text =>
    match Json.parse (some Text.maxDigits) text with
    | .ok v => .ok v
    | .error (.complaint what remaining) =>
      .error (.invalidJson path what (Json.Parser.placeOf text remaining))
    | .error .hugeInteger => Defect.badContent.fail

/-- The bytes of the file that a path leads to. -/
def readFile (root : FileTree) (path : String) : Except Error (List UInt8) :=
  match root.read path with
  | .ok bytes => .ok bytes
  | .error d => d.fail

/-- The value in the file that a path leads to. -/
def loadJson (root : FileTree) (path : String) : Except Error Json :=
  readFile root path >>= decodeJson path

/-- Whether a name ends in a text. -/
def endsIn (ending name : String) : Bool := ending.toList.isSuffixOf name.toList

/-- Whether a file can describe a contract: debug files have an ending of their own. -/
def describesContract (name : String) : Bool := endsIn ".json" name && !endsIn ".dbg.json" name

/-- The name of the folder that holds build files and no contracts. -/
def buildFolder : String := "build-info"

/-- Entries in ascending order of their names. -/
def byName {α : Type} (entries : List (String × α)) : List (String × α) :=
  entries.mergeSort fun a b => a.1 ≤ b.1

/-- The files among the entries of a folder that can describe a contract, with their paths. -/
def ownFiles (path : String) (entries : List (String × FileTree)) :
    List (String × List UInt8) :=
  (byName entries).filterMap fun e =>
    match e.2 with
    | .file bytes => if describesContract e.1 then some (Path.join path e.1, bytes) else none
    | .folder _ => none

mutual

/-- The files below a folder that can describe a contract, with their paths, in order of the visit:
those of the folder itself, then those of its folders. -/
def jsonFiles (path : String) : FileTree → List (String × List UInt8)
  | .file _ => []
  | .folder entries => ownFiles path entries ++ (byName (filesOfFolders path entries)).flatMap (·.2)

/-- For every folder among entries, the files below it. -/
def filesOfFolders (path : String) :
    List (String × FileTree) → List (String × List (String × List UInt8))
  | [] => []
  | (name, t) :: rest =>
    if t.isFolder && name ≠ buildFolder then
      (name, jsonFiles (Path.join path name) t) :: filesOfFolders path rest
    else filesOfFolders path rest

end

/-- The qualified name in a file that describes a contract. -/
def qualifiedName? (v : Json) : Option String := do
  let source ← v.get? "sourceName"
  let name ← v.get? "contractName"
  return s!"{source.display}:{name.display}"

/-- The qualified names of all contracts in an artifacts folder. -/
def listContracts (root : FileTree) (folder : String) : Except Error (List String) :=
  match root.lookup folder with
  | .ok (.folder entries) => do
    let values ← (jsonFiles folder (.folder entries)).mapM fun f => decodeJson f.1 f.2
    return values.filterMap qualifiedName?
  | _ => .error (.artifactsMissing folder)

/-- The path of a contract's debug file. -/
def debugPath (folder source name : String) : String :=
  Path.join (Path.join folder source) s!"{name}.dbg.json"

/-- The path of the build file that a debug file points at. -/
def buildInfoPath (debug : String) (value : Json) : Except Error String :=
  let pointer := (value.get? "buildInfo").getD .null
  if pointer.isEmpty then .error (.noBuildInfo debug)
  else do
    let pointer ← pointer.asText
    return Path.normalize (Path.join (Path.parent debug) pointer)

/-- The content of the build file of a contract. -/
def readBuildInfo (root : FileTree) (folder fullName : String) : Except Error Json :=
  match ContractName.splitQualified fullName with
  | none => Defect.badContent.fail
  | some (source, name) => do
    let debug := debugPath folder source name
    if !root.hasFile debug then throw (.buildInfoMissing fullName debug)
    let value ← loadJson root debug
    let path ← buildInfoPath debug value
    if !root.hasFile path then throw (.buildInfoMissing fullName path)
    loadJson root path

end StorageLayout.Artifacts
