import StorageLayout.Shell.Builtin.Folder
import StorageLayout.Utility.Basic

/-!
# Programs that Make and Remove Files

## Main definitions

* `makeFolders`, `removeFolders`: Folders without anything in them.
* `removeFiles`: Files, and folders with all that is in them.
* `touch`: Files that are to be there.
* `changeModes`: What files may be used for.
* `makeLinks`, `readLinks`, `resolvePaths`: Links.
-/

namespace StorageLayout.Shell.Utility

open FileTree (Trail)

/-! ## Making folders -/

/-- The paths that lead to a path from where it begins, each one component longer. -/
def pathSteps (path : String) : List String :=
  let pieces := path.splitOn "/"
  let steps := (List.range pieces.length).map fun n => "/".intercalate (pieces.take (n + 1))
  steps.filter fun s => s ≠ "" && s.toList.getLast? ≠ some '/'

/-- Makes a folder. -/
def makeFolder (path : String) : Step (Except Trouble Unit) := do
  let w ← theWorld
  match placeOf w (← here) path with
  | .error e => return .error e
  | .ok t =>
    if (w.kind? t).isSome then return .error .present
    changeWorld (·.put t .empty)
    return .ok ()

/-- Makes a folder and those that lead to it; says which of them cannot be made. -/
def makeFolderPath (announce : String → Step Unit) :
    List String → Step (Except (String × Trouble) Unit)
  | [] => return .ok ()
  | step :: rest => do
    let w ← theWorld
    match w.kindOf? (← here) step with
    | some .folder => makeFolderPath announce rest
    | some _ => return .error (step, if rest.isEmpty then .present else .notFolder)
    | none =>
      match ← makeFolder step with
      | .ok () =>
        announce step
        makeFolderPath announce rest
      | .error e => return .error (step, e)

/-- Makes folders. -/
def makeFolders : Utility := fun _ arguments =>
  let table : OptionTable :=
    { program := "mkdir", letters := "pvm:Z",
      long := [("parents", 'p'), ("verbose", 'v'), ("mode", 'm')] }
  table.read arguments fun given => do
    if given.operands.isEmpty then return (← table.refuse "missing operand")
    let announce (path : String) : Step Unit := do
      if given.has 'v' then say s!"mkdir: created directory {alwaysQuoted path}\n"
    forOperands given.operands fun path => do
      let made ←
        if given.has 'p' then makeFolderPath announce (pathSteps path)
        else
          match ← makeFolder path with
          | .ok () =>
            announce path
            pure (.ok ())
          | .error e => pure (.error (path, e))
      match made with
      | .ok () => return true
      | .error (path, e) =>
        tell "mkdir" s!"cannot create directory {curlyQuoted path}" e
        return false

/-! ## Removing -/

/-- Removes a folder without anything in it. -/
def removeFolder (path : String) : Step (Except Trouble Unit) := do
  let w ← theWorld
  if (baseName path) = "." then return .error .invalid
  match w.walk (← here) path false with
  | .error e => return .error e
  | .ok t =>
    match w.kind? t with
    | some .folder =>
      if !(w.names t).isEmpty then return .error .notEmpty
      changeWorld (·.remove t)
      return .ok ()
    | _ => return .error .notFolder

/-- The paths that are removed with a path: each without its last component. -/
def parents (path : String) : List String := (pathSteps path).reverse

/-- Removes folders without anything in them. -/
def removeFolders : Utility := fun _ arguments =>
  let table : OptionTable :=
    { program := "rmdir", letters := "pvi",
      long := [("parents", 'p'), ("verbose", 'v'), ("ignore-fail-on-non-empty", 'i')] }
  table.read arguments fun given => do
    if given.operands.isEmpty then return (← table.refuse "missing operand")
    forOperands given.operands fun operand => do
      let rec remove : List String → Step Bool
        | [] => return true
        | path :: rest => do
          if given.has 'v' then say s!"rmdir: removing directory, {alwaysQuoted path}\n"
          match ← removeFolder path with
          | .ok () => remove rest
          | .error e =>
            if e = .notEmpty && given.has 'i' then return true
            tell "rmdir" s!"failed to remove {alwaysQuoted path}" e
            return false
      remove (if given.has 'p' then parents operand else [operand])

mutual

/-- The paths of what is in a tree, with what each is, innermost first. -/
def pathsWithin (path : String) : FileTree → List (String × Bool)
  | .file _ => [(path, false)]
  | .folder entries => pathsWithinAll path entries ++ [(path, true)]

/-- The paths of what is in the entries of a folder. -/
def pathsWithinAll (path : String) : List (String × FileTree) → List (String × Bool)
  | [] => []
  | (name, t) :: rest => pathsWithin (below path (octets name)) t ++ pathsWithinAll path rest

end

/-- Removes files, and folders with all that is in them if that is wanted. -/
def removeFiles : Utility := fun _ arguments =>
  let table : OptionTable :=
    { program := "rm", letters := "rRfidvI",
      long := [("recursive", 'r'), ("force", 'f'), ("dir", 'd'), ("verbose", 'v')] }
  table.read arguments fun given => do
    if given.operands.isEmpty then
      return (← if given.has 'f' then pure 0 else table.refuse "missing operand")
    let force := given.last? ['f', 'i'] = some 'f'
    let recursive := given.has 'r' || given.has 'R'
    forOperands given.operands fun path => do
      let w ← theWorld
      let failed (e : Trouble) : Step Bool := do
        tell "rm" s!"cannot remove {alwaysQuoted path}" e
        return false
      let name := baseName path
      match w.walk (← here) path false with
      | .error e => if force && (e = .missing || e = .notFolder) then return true else failed e
      | .ok t =>
        match w.kind? t with
        | some .folder =>
          if recursive || given.has 'd' then
            if name = "." || name = ".." then
              complain ("rm: refusing to remove '.' or '..' directory: "
                ++ s!"skipping {alwaysQuoted path}\n")
              return false
            else if !recursive && !(w.names t).isEmpty then failed .notEmpty
            else
              if given.has 'v' then
                (pathsWithin path ((w.tree.at? t).getD .empty)).forM fun (p, isFolder) =>
                  say (if isFolder then s!"removed directory {alwaysQuoted p}\n"
                    else s!"removed {alwaysQuoted p}\n")
              changeWorld (·.remove t)
              return true
          else failed .folder
        | some .device => failed .denied
        | _ =>
          if given.last? ['f', 'i'] = some 'i' then return true
          if given.has 'v' then say s!"removed {alwaysQuoted path}\n"
          changeWorld (·.remove t)
          return true

/-! ## Files that are to be there -/

/-- Makes files that are not there. -/
def touch : Utility := fun _ arguments =>
  let table : OptionTable :=
    { program := "touch", letters := "acmhfd:t:r:",
      long := [("no-create", 'c'), ("date", 'd'), ("reference", 'r')] }
  table.read arguments fun given => do
    if given.operands.isEmpty then return (← table.refuse "missing file operand")
    forOperands given.operands fun path => do
      if path = "-" then return true
      let w ← theWorld
      match w.walk (← here) path true with
      | .ok _ => return true
      | .error e =>
        if given.has 'c' then return true
        let folder ← here
        match if e = .missing then w.walkNew folder path else .error e with
        | .ok t =>
          changeWorld (·.write t "")
          return true
        | .error .folder =>
          tell "touch" s!"setting times of {alwaysQuoted path}" .missing
          return false
        | .error e =>
          tell "touch" s!"cannot touch {alwaysQuoted path}" e
          return false

/-! ## Modes -/

/-- The mode that a text makes of another one: digits, or clauses of letters. -/
def modeOf (mask mode : Nat) (text : String) : Option Nat :=
  let cs := text.toList
  if !cs.isEmpty && cs.all isOctalDigit then
    let n := cs.foldl (fun n c => n * 8 + (c.toNat - 48)) 0
    if n ≤ 0o7777 then some n else none
  else
    (text.splitOn ",").foldlM (fun mode clause =>
      let cs := clause.toList
      let forAll := match cs with
        | c :: _ => c = '+' || c = '-' || c = '='
        | [] => false
      (Builtin.applyClause mode cs).map fun new =>
        if forAll then (new &&& (0o7777 - mask)) ||| (mode &&& mask) else new) mode
where
  /-- Whether a character is a digit of base eight. -/
  isOctalDigit (c : Char) : Bool := '0' ≤ c && c ≤ '7'

mutual

/-- The places in a tree, from the top. -/
def placesWithin (t : Trail) : FileTree → List Trail
  | .file _ => [t]
  | .folder entries => t :: placesWithinAll t entries

/-- The places in the entries of a folder. -/
def placesWithinAll (t : Trail) : List (String × FileTree) → List Trail
  | [] => []
  | (name, below) :: rest => placesWithin (name :: t) below ++ placesWithinAll t rest

end

/-- Changes what files may be used for. -/
def changeModes : Utility := fun _ arguments =>
  let table : OptionTable :=
    { program := "chmod", letters := "Rvcf",
      long := [("recursive", 'R'), ("verbose", 'v'), ("changes", 'c'), ("silent", 'f')] }
  -- A mode may begin with a dash.
  let isMode (word : String) : Bool :=
    match word.toList with
    | '-' :: c :: cs => (c :: cs).all fun c => c = 'r' || c = 'w' || c = 'x' || c = 'X'
    | _ => false
  let guarded := match arguments.find? isMode with
    | some mode => "--" :: mode :: arguments.erase mode
    | none => arguments
  let options := arguments.filter fun a => a.toList.head? = some '-' && !isMode a
  let guarded := if guarded.head? = some "--" then
    options.filter (· ≠ "--") ++ "--" :: guarded.tail.filter (!options.contains ·) else guarded
  table.read guarded fun given => do
    match given.operands with
    | [] => table.refuse "missing operand"
    | [mode] => table.refuse s!"missing operand after {curlyQuoted mode}"
    | mode :: paths =>
      let mask := (← theProcess).mask
      if (modeOf mask 0 mode).isNone then
        return (← table.refuse s!"invalid mode: {curlyQuoted mode}")
      forOperands paths fun path => do
        let w ← theWorld
        match w.walk (← here) path true with
        | .error e =>
          if !given.has 'f' then tell "chmod" s!"cannot access {alwaysQuoted path}" e
          return false
        | .ok t =>
          let places := if given.has 'R' then placesWithin t ((w.tree.at? t).getD .empty) else [t]
          changeWorld fun w => places.foldl (fun w t =>
            w.setMode t ((modeOf mask (w.mode t) mode).getD (w.mode t))) w
          return true

/-! ## Links -/

/-- Makes links: paths that stand for others, or further names for files. -/
def makeLinks : Utility := fun _ arguments =>
  let table : OptionTable :=
    { program := "ln", letters := "sfnvrt:Tib",
      long := [("symbolic", 's'), ("force", 'f'), ("no-dereference", 'n'), ("verbose", 'v'),
        ("target-directory", 't'), ("no-target-directory", 'T')] }
  table.read arguments fun given => do
    let symbolic := given.has 's'
    let link (source target : String) : Step Bool := do
      let w ← theWorld
      let kind := if symbolic then "symbolic" else "hard"
      let failed (e : Trouble) : Step Bool := do
        let arrow := if symbolic then "" else s!" => {alwaysQuoted source}"
        let shown := if e = .present || symbolic then "" else arrow
        tell "ln" s!"failed to create {kind} link {alwaysQuoted target}{shown}" e
        return false
      match placeOf w (← here) target with
      | .error e => failed e
      | .ok t =>
        if (w.kind? t).isSome && (!given.has 'f' || w.kind? t = some .folder) then failed .present
        else if symbolic then
          changeWorld fun w => (w.remove t).link t source
          return true
        else
          match w.walk (← here) source true with
          | .error e =>
            tell "ln" s!"failed to access {alwaysQuoted source}" e
            return false
          | .ok s =>
            if w.kind? s = some .folder then
              complain s!"ln: {quotedIfNeeded source}: hard link not allowed for directory\n"
              return false
            changeWorld fun w => (w.write t (w.content s)).setMode t (w.mode s)
            return true
    let inside (folder : String) (sources : List String) : Step Nat :=
      forOperands sources fun source => link source (below folder (baseName source))
    match given.text? 't', given.operands with
    | some folder, sources => inside folder sources
    | none, [] => table.refuse "missing file operand"
    | none, [source] => inside "." [source]
    | none, [source, target] =>
      let isFolder := (← theWorld).kindOf? (← here) target = some .folder
      if isFolder && !given.has 'T' && !given.has 'n' then inside target [source]
      else forOperands [target] (link source)
    | none, operands =>
      let folder := operands.getLast?.getD ""
      let w ← theWorld
      match w.kindOf? (← here) folder with
      | some .folder => inside folder operands.dropLast
      | some _ =>
        tell "ln" s!"target {alwaysQuoted folder}" .notFolder
        return 1
      | none =>
        tell "ln" s!"target {alwaysQuoted folder}" .missing
        return 1

/-- Writes where links lead. -/
def readLinks : Utility := fun _ arguments =>
  let table : OptionTable :=
    { program := "readlink", letters := "fenmqsvz",
      long := [("canonicalize", 'f'), ("canonicalize-existing", 'e'), ("no-newline", 'n')] }
  table.read arguments fun given => do
    if given.operands.isEmpty then return (← table.refuse "missing operand")
    let finish := if given.has 'n' then "" else "\n"
    forOperands given.operands fun path => do
      let w ← theWorld
      if given.has 'f' || given.has 'e' || given.has 'm' then
        let folder ← here
        let found := if given.has 'e' then w.walk folder path true else w.walkNew folder path
        match found with
        | .ok t =>
          say (Builtin.placeText t ++ finish)
          return true
        | .error _ => return false
      else
        match w.walk (← here) path false with
        | .ok t =>
          match w.links.find? t with
          | some target =>
            say (octets target ++ finish)
            return true
          | none => return false
        | .error _ => return false

/-- Writes the paths of files without links in them. -/
def resolvePaths : Utility := fun _ arguments =>
  let table : OptionTable :=
    { program := "realpath", letters := "emsqzLP",
      long := [("canonicalize-existing", 'e'), ("canonicalize-missing", 'm'), ("quiet", 'q')] }
  table.read arguments fun given => do
    if given.operands.isEmpty then return (← table.refuse "missing operand")
    forOperands given.operands fun path => do
      let w ← theWorld
      let folder ← here
      let found := if given.has 'e' then w.walk folder path true else w.walkNew folder path
      match found with
      | .ok t =>
        say (Builtin.placeText t ++ "\n")
        return true
      | .error e =>
        tell "realpath" (quotedIfNeeded path) e
        return false

end StorageLayout.Shell.Utility
