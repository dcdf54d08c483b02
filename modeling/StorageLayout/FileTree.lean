import StorageLayout.Error
import StorageLayout.Path

/-!
# File Trees

Files and folders, as a value.

Everything the program knows of files goes through a tree: reading, writing, listing. A path is
followed component by component, and every component it passes must be a folder.

The tree of a run is its working folder. Paths can leave it, upwards or by being absolute, so the
tree is looked at within its surroundings, in which there are only devices. A device is no file,
although it can be read and written; nothing is ever in it.

## Main definitions

* `FileTree`: A file or a folder.
* `FileTree.Trail`: A place in a tree.
* `FileTree.walk`: The place that a path leads to.
* `FileTree.around`: The working folder with all that is around it.
* `FileTree.read`, `FileTree.write`: The bytes of a file of the working folder.
-/

namespace StorageLayout

/-- A file with its bytes, or a folder with its entries by name. -/
inductive FileTree where
  | file (bytes : List UInt8)
  | folder (entries : List (String × FileTree))
deriving Inhabited

namespace FileTree

/-- A folder without entries. -/
def empty : FileTree := .folder []

/-- The entries of a folder; none for a file. -/
def entries : FileTree → Assoc String FileTree
  | .file _ => []
  | .folder entries => entries

/-- Whether a tree is a folder. -/
def isFolder : FileTree → Bool
  | .file _ => false
  | .folder _ => true

/-- What stands at a list of names, counted from the top. -/
def atNames? : FileTree → List String → Option FileTree
  | t, [] => some t
  | t, name :: rest => (t.entries.find? name).bind (atNames? · rest)

/-- Puts something at a list of names, in folders that are there. -/
def putAt : FileTree → List String → FileTree → FileTree
  | _, [], new => new
  | t, name :: rest, new =>
    .folder (t.entries.change name fun present => putAt (present.getD empty) rest new)

/-- Takes away what stands at a list of names. -/
def removeAt : FileTree → List String → FileTree
  | t, [] => t
  | t, [name] => .folder (t.entries.filter fun e => e.1 ≠ name)
  | t, name :: rest =>
    .folder (t.entries.change name fun present => removeAt (present.getD empty) rest)

/-! ## Places -/

/-- A place in a tree: the names that lead to it, from the innermost out. -/
abbrev Trail := List String

/-- What stands at a place. -/
def at? (top : FileTree) (trail : Trail) : Option FileTree := top.atNames? trail.reverse

/-- The most bytes that a name can have. -/
def longestName : Nat := 255

/-- The most bytes that a path can have. -/
def longestPath : Nat := 4095

/-- Goes one component further. Above the top there is only the top. -/
def step (top : FileTree) (trail : Trail) (component : String) : Except Defect Trail :=
  match top.at? trail with
  | none => .error .fileMissing
  | some (.file _) => .error .notAFolder
  | some (.folder entries) =>
    if component = "." then .ok trail
    else if component = ".." then .ok trail.tail
    else if component.utf8ByteSize > longestName then .error .longName
    else if Assoc.contains component entries then .ok (component :: trail)
    else .error .fileMissing

/-- The components of a path that name something. -/
def pathComponents (path : String) : List String :=
  ((Path.components path.toList).map String.ofList).filter (· ≠ "")

/-- Whether a path ends in a slash, by which it asks for a folder. -/
def asksForFolder (path : String) : Bool := path.toList.getLast? = some '/'

/-- Where a path starts: an absolute one at the top, any other where one stands. -/
def start (here : Trail) (path : String) : Trail :=
  if path.toList.head? = some '/' then [] else here

/-- The place that a path leads to, if something is there. An empty path leads nowhere, and a text
with a null character is no path. -/
def walk (top : FileTree) (here : Trail) (path : String) : Except Defect Trail :=
  if path = "" then .error .fileMissing
  else if '\x00' ∈ path.toList then .error .badContent
  else if path.utf8ByteSize > longestPath then .error .longName
  else
    let components := pathComponents path ++ (if asksForFolder path then ["."] else [])
    components.foldlM top.step (start here path)

/-- The place of something that may yet have to be made: its folder must be there. What ends in a
slash, or in a dot, can only be a folder. -/
def walkNew (top : FileTree) (here : Trail) (path : String) : Except Defect Trail :=
  if '\x00' ∈ path.toList then .error .badContent
  else if path.utf8ByteSize > longestPath then .error .longName
  else match (pathComponents path).reverse with
    | [] => if path = "" then .error .fileMissing else .error .isFolder
    | last :: before => do
      let folder ← before.reverse.foldlM top.step (start here path)
      match top.at? folder with
      | none => throw .fileMissing
      | some (.file _) => throw .notAFolder
      | some (.folder _) =>
        if asksForFolder path ∨ last = "." ∨ last = ".." then throw .isFolder
        else if last.utf8ByteSize > longestName then throw .longName
        else return last :: folder

/-! ## The working folder and its surroundings -/

/-- The place of the working folder. -/
def workingFolder : Trail := ["work", "tmp"]

/-- A folder of empty files. -/
def folderOf (names : List String) : FileTree := .folder (names.map fun n => (n, .file []))

/-- The names of the devices. -/
def deviceNames : List String := ["null", "zero", "full", "stdin", "stdout", "stderr", "tty"]

/-- What is around the working folder: the devices. -/
def surroundings : FileTree := .folder [("dev", folderOf deviceNames)]

/-- A working folder in its surroundings. -/
def around (root : FileTree) : FileTree := surroundings.putAt workingFolder.reverse root

/-- The working folder in a tree that was made of one and its surroundings. -/
def within (top : FileTree) : FileTree := (top.at? workingFolder).getD empty

/-- The device at a place. -/
def device? (trail : Trail) : Option String :=
  match trail with
  | [name, parent] => if parent = "dev" ∧ name ∈ deviceNames then some name else none
  | _ => none

/-! ## Reading and writing -/

/-- The place that a path leads to from the working folder. -/
def locate (root : FileTree) (path : String) : Except Defect Trail :=
  (around root).walk workingFolder path

/-- What a path leads to. -/
def lookup (root : FileTree) (path : String) : Except Defect FileTree := do
  let trail ← root.locate path
  match (around root).at? trail with
  | some t => return t
  | none => throw .fileMissing

/-- The device that a path leads to. -/
def deviceAt? (root : FileTree) (path : String) : Option String :=
  (root.locate path).toOption.bind device?

/-- Whether a path leads to a file. -/
def hasFile (root : FileTree) (path : String) : Bool :=
  match root.lookup path with
  | .ok (.file _) => (root.deviceAt? path).isNone
  | _ => false

/-- Whether a path leads to a folder. -/
def hasFolder (root : FileTree) (path : String) : Bool :=
  match root.lookup path with
  | .ok (.folder _) => true
  | _ => false

/-- Whether a path leads anywhere. -/
def isPresent (root : FileTree) (path : String) : Bool := (root.lookup path).toOption.isSome

/-- The bytes of the file that a path leads to. -/
def read (root : FileTree) (path : String) : Except Defect (List UInt8) := do
  match ← root.lookup path with
  | .file bytes => if root.deviceAt? path = some "tty" then throw .deviceFault else return bytes
  | .folder _ => throw .isFolder

/-- The working folder after a file has been written, over the one that may be there. A device keeps
nothing; one of them is always full, and no terminal is there to be written to. -/
def write (root : FileTree) (path : String) (bytes : List UInt8) : Except Defect FileTree := do
  let trail ← (around root).walkNew workingFolder path
  match (around root).at? trail with
  | some (.folder _) => throw .isFolder
  | _ =>
    match device? trail with
    | some "tty" => throw .deviceFault
    | some "full" => if bytes.isEmpty then return root else throw .deviceFault
    | some _ => return root
    | none => return ((around root).putAt trail.reverse (.file bytes)).within

end FileTree

end StorageLayout
