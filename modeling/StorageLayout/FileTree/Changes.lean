import StorageLayout.FileTree

/-!
# Changes of a File Tree

What has to be done to files to turn one tree into another.

A run works on a tree as a value. When it is over, the files are brought to the state of the tree
it left; only what differs is touched.

## Main definitions

* `Change`: One thing to do.
* `changes`: All that has to be done, in order.
-/

namespace StorageLayout.FileTree

/-- One thing to do to files. Paths are lists of names from the top. -/
inductive Change where
  | write (names : List String) (bytes : List UInt8)
  | makeFolder (names : List String)
  | removeFile (names : List String)
  | removeFolder (names : List String)
deriving Repr, DecidableEq

/-- What takes something away. -/
def removal (names : List String) : FileTree → Change
  | .file _ => .removeFile names
  | .folder _ => .removeFolder names

mutual

/-- What has to be done at a place, where `before` stands there now. -/
def changesAt (names : List String) (before : Option FileTree) : FileTree → List Change
  | .file bytes =>
    match before with
    | some (.file old) => if old = bytes then [] else [.write names bytes]
    | some (.folder _) => [.removeFolder names, .write names bytes]
    | none => [.write names bytes]
  | .folder entries =>
    match before with
    | some (.folder old) =>
      let gone := old.filter fun e => !Assoc.contains e.1 entries
      gone.map (fun e => removal (names ++ [e.1]) e.2) ++ changesIn names old entries
    | some (.file _) => .removeFile names :: .makeFolder names :: changesIn names [] entries
    | none => .makeFolder names :: changesIn names [] entries

/-- What has to be done to the entries of a folder. -/
def changesIn (names : List String) (before : Assoc String FileTree) :
    List (String × FileTree) → List Change
  | [] => []
  | (name, t) :: rest =>
    changesAt (names ++ [name]) (before.find? name) t ++ changesIn names before rest

end

/-- What has to be done to turn one tree into another. -/
def changes (before after : FileTree) : List Change := changesAt [] (some before) after

end StorageLayout.FileTree
