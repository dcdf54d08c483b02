import StorageLayout.FileTree
import StorageLayout.Shell.Octets

/-!
# Files around a Shell

The files that commands see and change.

Commands see more than files and folders. A path can pass through links, which stand for other
paths, and files can be programs, which their modes say. Both are kept beside the tree, by place. A
link has an empty file in the tree, so that its folder lists it.

Paths are octets, as all text in a shell; names in the tree are text.

## Main definitions

* `Trouble`: Why something cannot be done with files.
* `World`: Files with links and modes.
* `World.ofFiles`: A working folder on a system with the usual programs.
* `World.walk`: The place that a path leads to.
* `World.put`, `World.remove`, `World.move`: Changes.
* `World.settled`: The tree with the links replaced by what they stand for.
-/

namespace StorageLayout.Shell

open FileTree (Trail)

/-- Why something cannot be done with files. -/
inductive Trouble where
  | missing
  | notFolder
  | folder
  | present
  | notEmpty
  | denied
  | badStream
  | noSpace
  | noDevice
  | invalid
  | busy
  | tooManyLinks
  | longName
deriving Repr, DecidableEq

namespace Trouble

/-- A trouble in words. -/
def text : Trouble → String
  | missing => "No such file or directory"
  | notFolder => "Not a directory"
  | folder => "Is a directory"
  | present => "File exists"
  | notEmpty => "Directory not empty"
  | denied => "Permission denied"
  | badStream => "Bad file descriptor"
  | noSpace => "No space left on device"
  | noDevice => "No such device or address"
  | invalid => "Invalid argument"
  | busy => "Device or resource busy"
  | tooManyLinks => "Too many levels of symbolic links"
  | longName => "File name too long"

/-- The trouble that a defect of a path is. -/
def ofDefect : Defect → Trouble
  | .notAFolder => notFolder
  | .isFolder => folder
  | .badContent => invalid
  | .longName => longName
  | _ => missing

end Trouble

/-- What stands at a place. -/
inductive Kind where
  | file
  | folder
  | device
  | link
deriving Repr, DecidableEq

/-- Files with links and modes. -/
structure World where
  tree : FileTree
  /-- Where links lead. -/
  links : Assoc Trail String := []
  /-- Modes that are not the usual ones. -/
  modes : Assoc Trail Nat := []

namespace World

/-- The names of the programs that commands can run. -/
def programNames : List String :=
  ["[", "awk", "base64", "basename", "cat", "chgrp", "chmod", "chown", "cksum", "cmp", "comm", "cp",
    "cut", "date", "dd", "diff", "dirname", "du", "echo", "egrep", "env", "expr", "false", "fgrep",
    "find", "fold", "grep", "head", "hostname", "id", "install", "join", "kill", "ln", "ls",
    "md5sum", "mkdir", "mktemp", "mv", "nice", "nl", "nohup", "od", "paste", "printenv", "printf",
    "pwd", "readlink", "realpath", "rev", "rm", "rmdir", "sed", "seq", "sh", "sha256sum", "sleep",
    "sort", "split", "stat", "sync", "tac", "tail", "tee", "test", "timeout", "touch", "tr", "true",
    "tty", "uname", "uniq", "wc", "which", "whoami", "xargs", "yes"]

/-- The folders around the working folder. -/
def systemFolders : List (String × FileTree) :=
  let programs := FileTree.folderOf programNames
  [("bin", programs), ("etc", FileTree.folderOf ["passwd"]), ("home", .empty), ("root", .empty),
    ("usr", .folder [("bin", programs)]), ("var", .empty)]

/-- The files of a working folder, and those around it. -/
def ofFiles (files : FileTree) : World where
  tree := .folder (systemFolders ++ files.around.entries)

/-- Follows components from a place. `fuel` bounds how many are passed, those of links among them.
-/
def follow (w : World) (last : Bool) : (fuel : Nat) → Trail → List String → Except Trouble Trail
  | 0, _, _ => throw .tooManyLinks
  | _, here, [] => return here
  | fuel + 1, here, c :: rest => do
    let next ← (w.tree.step here c).mapError Trouble.ofDefect
    match w.links.find? next with
    | some target =>
      if rest.isEmpty && !last then return next
      else w.follow last fuel (FileTree.start here target) (FileTree.pathComponents target ++ rest)
    | none => w.follow last fuel next rest

/-- How many components a path can pass. -/
def walkFuel (components : List String) : Nat := components.length + 512

/-- The components of a path, with one more for a slash at its end. -/
def componentsOf (path : String) : List String :=
  FileTree.pathComponents path ++ (if FileTree.asksForFolder path then ["."] else [])

/-- The place that a path leads to, seen from a folder. `last` says whether a link at its end is
followed. -/
def walk (w : World) (here : Trail) (path : String) (last : Bool) : Except Trouble Trail :=
  if path = "" then throw .missing
  else
    let path := ofOctets path
    if path.utf8ByteSize > FileTree.longestPath then throw .longName
    else
      let components := componentsOf path
      w.follow last (walkFuel components) (FileTree.start here path) components

/-- What stands at a place. -/
def kind? (w : World) (t : Trail) : Option Kind :=
  if (w.links.find? t).isSome then some .link
  else if (FileTree.device? t).isSome then some .device
  else match w.tree.at? t with
    | some (.file _) => some .file
    | some (.folder _) => some .folder
    | none => none

/-- What a path leads to. -/
def kindOf? (w : World) (here : Trail) (path : String) : Option Kind :=
  match w.walk here path true with
  | .ok t => w.kind? t
  | .error _ => none

/-- The place of something that is there or can be made: its folder is there, and its name asks for
no folder. A link that leads nowhere is the place that it stands for. -/
def walkNew (w : World) (here : Trail) (path : String) : Except Trouble Trail :=
  match w.walk here path true with
  | .ok t => .ok t
  | .error .missing =>
    let path := ofOctets path
    match (FileTree.pathComponents path).reverse with
    | [] => throw .missing
    | name :: before => do
      let folder ← w.follow true (walkFuel before) (FileTree.start here path) before.reverse
      match w.kind? folder with
      | some .folder =>
        if name.utf8ByteSize > FileTree.longestName then throw .longName
        else if name = "." || name = ".." then throw .missing
        else if FileTree.asksForFolder path then throw .folder
        else match w.links.find? (name :: folder) with
          | some target =>
            let components := FileTree.pathComponents target
            match components.reverse with
            | [] => throw .missing
            | name :: before => do
              let folder ← w.follow true (walkFuel before) (FileTree.start folder target)
                before.reverse
              return name :: folder
          | none => return name :: folder
      | some _ => throw .notFolder
      | none => throw .missing
  | .error e => .error e

/-- The names in a folder, in ascending order of their bytes. -/
def names (w : World) (t : Trail) : List String :=
  match w.tree.at? t with
  | some (.folder entries) => (entries.map fun e => octets e.1).mergeSort fun a b => a ≤ b
  | _ => []

/-- The bytes of a file. -/
def bytes (w : World) (t : Trail) : List UInt8 :=
  match w.tree.at? t with
  | some (.file bytes) => bytes
  | _ => []

/-- The octets of a file. -/
def content (w : World) (t : Trail) : String := octetsOfBytes (w.bytes t)

/-- Puts something at a place. -/
def put (w : World) (t : Trail) (new : FileTree) : World :=
  { w with tree := w.tree.putAt t.reverse new }

/-- Gives a file its octets. -/
def write (w : World) (t : Trail) (content : String) : World :=
  w.put t (.file (bytesOfOctets content))

/-- Whether a place is another one or below it. -/
def isBelow (t top : Trail) : Bool := top.isSuffixOf t

/-- What is kept of places, without a place and those below it. -/
def forget {α : Type} (t : Trail) (m : Assoc Trail α) : Assoc Trail α :=
  m.filter fun e => !isBelow e.1 t

/-- What is kept of places, with a place and those below it moved. -/
def rename {α : Type} (source target : Trail) (m : Assoc Trail α) : Assoc Trail α :=
  (m.filter fun e => !isBelow e.1 target || isBelow e.1 source).map fun e =>
    if isBelow e.1 source then (e.1.take (e.1.length - source.length) ++ target, e.2) else e

/-- Takes away what stands at a place. -/
def remove (w : World) (t : Trail) : World where
  tree := w.tree.removeAt t.reverse
  links := forget t w.links
  modes := forget t w.modes

/-- Moves what stands at a place. -/
def move (w : World) (source target : Trail) : World :=
  match w.tree.at? source with
  | some moved =>
    { tree := (w.tree.removeAt source.reverse).putAt target.reverse moved
      links := rename source target w.links
      modes := rename source target w.modes }
  | none => w

/-- Makes a link. -/
def link (w : World) (t : Trail) (target : String) : World :=
  { w.put t (.file []) with links := w.links.put t (ofOctets target) }

/-- The folders of programs. -/
def programFolders : List Trail := [["bin"], ["bin", "usr"]]

/-- The mode of what stands at a place. -/
def mode (w : World) (t : Trail) : Nat :=
  match w.modes.find? t with
  | some mode => mode
  | none =>
    match w.kind? t with
    | some .folder => 0o755
    | some .link => 0o777
    | some .device => 0o666
    | _ => if programFolders.contains t.tail then 0o755 else 0o644

/-- Gives a mode to what stands at a place. -/
def setMode (w : World) (t : Trail) (mode : Nat) : World :=
  { w with modes := w.modes.put t mode }

/-- Whether what stands at a place can be run as a program, or passed as a folder. -/
def isExecutable (w : World) (t : Trail) : Bool :=
  w.kind? t = some .folder || (w.kind? t = some .file && w.mode t &&& 0o111 ≠ 0)

/-- The working folder with its links replaced by what they stand for. -/
def settled (w : World) : FileTree :=
  let replace (tree : FileTree) (l : Trail × String) : FileTree :=
    match w.follow true (walkFuel []) l.1.tail (FileTree.pathComponents l.2) with
    | .ok t => match w.tree.at? t with
      | some found => tree.putAt l.1.reverse found
      | none => tree
    | .error _ => tree.removeAt l.1.reverse
  (w.links.foldl replace w.tree).within

end World

end StorageLayout.Shell
