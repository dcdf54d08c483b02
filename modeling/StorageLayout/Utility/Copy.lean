import StorageLayout.Utility.Basic

/-!
# Programs that Copy and Move

Both programs take sources and a target. A target that is a folder gets the sources below it, under
their own names; otherwise there is one source, and the target is its new name.

A folder is copied entry by entry. What was made on the way is remembered: a folder is not copied
into what is a copy of itself, and one source is not copied over another.

## Main definitions

* `Placement`: Where the sources go.
* `Copier`: What copying remembers.
* `copyItem`: Copies a file or a folder.
* `moveItem`: Moves a file or a folder.
* `copyFiles`, `moveFiles`: The programs.
-/

namespace StorageLayout.Shell.Utility

open FileTree (Trail)

/-! ## Where things go -/

/-- Where the sources go. -/
inductive Placement where
  | into (folder : String) (sources : List String)
  | onto (source target : String)
  /-- There is no way to tell, or no place. -/
  | refused (status : Nat)

/-- Why a path is no folder. -/
def folderTrouble (path : String) : Step (Option Trouble) := do
  let w ← theWorld
  match w.walk (← here) path true with
  | .error e => return some e
  | .ok t => return if w.kind? t = some .folder then none else some .notFolder

/-- Where the operands of a program go. -/
def placement (table : OptionTable) (given : GivenOptions) : Step Placement := do
  let refuse (reason : String) : Step Placement := return .refused (← table.refuse reason)
  match given.text? 't', given.operands with
  | _, [] => refuse "missing file operand"
  | some folder, sources =>
    match ← folderTrouble folder with
    | none => return .into folder sources
    | some e =>
      tell table.program s!"target directory {alwaysQuoted folder}" e
      return .refused 1
  | none, [source] => refuse s!"missing destination file operand after {alwaysQuoted source}"
  | none, source :: target :: more =>
    if given.has 'T' then
      match more with
      | [] => return .onto source target
      | extra :: _ => refuse s!"extra operand {alwaysQuoted extra}"
    else
      let folder := (target :: more).getLast?.getD target
      match ← folderTrouble folder with
      | none => return .into folder given.operands.dropLast
      | some e =>
        if more.isEmpty then return .onto source target
        tell table.program s!"target {alwaysQuoted folder}" e
        return .refused 1

/-- The path of a source in a folder. -/
def targetIn (folder source : String) : String :=
  let name := baseName source
  if name = ".." then folder else below folder name

/-! ## Copying -/

/-- What copying remembers. -/
structure Copier where
  program : String
  recursive : Bool
  /-- Whether a link as an operand, and a link below one, is followed. -/
  follows : Bool × Bool
  /-- Whether modes are kept as they are. -/
  exact : Bool := false
  verbose : Bool := false
  /-- Whether what is there is left alone; nothing is said about it. -/
  sparing : Bool := false
  asking : Bool := false
  forced : Bool := false
  /-- Whether links are made in place of copies. -/
  linking : Option Char := none
  /-- The sources that have been copied. -/
  sources : List Trail := []
  /-- The files that copies of operands are in. -/
  targets : List Trail := []
  /-- The folders that have been made. -/
  made : List Trail := []

/-- A step of copying. -/
abbrev Copying := StateT Copier Step

/-- Says what is wrong, and that it did not work. -/
def failing (message : String) : Copying Bool := do
  complain s!"{(← get).program}: {message}\n"
  return false

/-- Whether a person who is asked agrees. -/
def agrees (question : String) : Step Bool := do
  complain question
  match ← readAll 0 with
  | .error _ => return false
  | .ok text =>
    let line := text.toList.takeWhile (· ≠ '\n')
    unread 0 (text.length - line.length - 1)
    return line.head? = some 'y' || line.head? = some 'Y'

/-- Whether what is there is to be left as it is. -/
def isSpared (target : String) : Copying Bool := do
  let copier ← get
  if copier.sparing then return true
  if copier.asking then
    return !(← agrees s!"{copier.program}: overwrite {alwaysQuoted target}? ")
  return false

/-- Says that something has been copied, if that is wanted. -/
def announce (source target : String) : Copying Unit := do
  if (← get).verbose then say s!"{alwaysQuoted source} -> {alwaysQuoted target}\n"

/-- Copies the octets of a file. -/
def copyContent (source target : String) (s : Trail) (present : Option Trail) : Copying Bool := do
  let copier ← get
  let w ← theWorld
  let fresh := present.isNone
  let result ← match copier.linking with
    | some 's' =>
      match placeOf w (← here) target with
      | .ok t => do
        changeWorld (·.link t source)
        pure (.ok ())
      | .error e => pure (.error e)
    | _ =>
      match ← readPath source with
      | .ok content => writePath target content .overwrite
      | .error e => pure (.error e)
  match result with
  | .error e =>
    let e := if e = .folder && present.isNone then .notFolder else e
    failing s!"cannot create regular file {alwaysQuoted target}: {e.text}"
  | .ok () =>
    if let .ok t := (← theWorld).walk (← here) target true then
      let mode := w.mode s
      if copier.exact && w.kind? s = some .file then changeWorld (·.setMode t mode)
      else if fresh && w.kind? s = some .file then
        let mask := (← theProcess).mask
        changeWorld (·.setMode t (mode - (mode &&& mask)))
    return true

/-- Copies a link as a link. -/
def copyLink (source target : String) (s : Trail) : Copying Bool := do
  let w ← theWorld
  match placeOf w (← here) target with
  | .error e => failing s!"cannot create symbolic link {alwaysQuoted target}: {e.text}"
  | .ok t =>
    announce source target
    changeWorld fun w => (w.remove t).link t (octets ((w.links.find? s).getD ""))
    return true

/-- Copies a folder into another one, which is made if it is not there. `recurse` copies an entry.
-/
def copyFolder (recurse : String → String → Copying Bool) (whole : String × String)
    (source target : String) (s : Trail) (present : Bool) : Copying Bool := do
  let copier ← get
  let w ← theWorld
  if copier.made.contains s then
    failing (s!"cannot copy a directory, {alwaysQuoted whole.1}, into itself, "
      ++ alwaysQuoted whole.2)
  else
    let trouble ←
      if present then pure none
      else match placeOf w (← here) target with
        | .error e => pure (some e)
        | .ok t => do
          let mode := w.mode s
          let process ← theProcess
          let mask := if copier.exact then 0 else process.mask
          changeWorld fun w => (w.put t .empty).setMode t (mode - (mode &&& mask))
          modify fun c => { c with made := t :: c.made }
          announce source target
          pure none
    match trouble with
    | some e => failing s!"cannot create directory {alwaysQuoted target}: {e.text}"
    | none =>
      let results ← ((← theWorld).names s).mapM fun name =>
        recurse (below source name) (below target name)
      return results.all id

/-- Copies what is no folder to a path at which nothing is. -/
def copyFresh (isOperand isLink : Bool) (source target : String) (s : Trail) : Copying Bool := do
  let w ← theWorld
  if isLink then copyLink source target s
  else match w.walk (← here) target false with
    | .ok _ => failing s!"not writing through dangling symlink {alwaysQuoted target}"
    | .error _ => do
      announce source target
      let copied ← copyContent source target s none
      if let .ok t := (← theWorld).walk (← here) target true then
        if isOperand then modify fun c => { c with targets := t :: c.targets }
      return copied

/-- Copies what is no folder over what is no folder. -/
def copyOver (isOperand isLink : Bool) (source target : String) (s t : Trail) : Copying Bool := do
  let copier ← get
  let shown := alwaysQuoted target
  if isOperand && copier.targets.contains t then
    failing s!"will not overwrite just-created {shown} with {alwaysQuoted source}"
  else if ← isSpared target then return true
  else if isLink then copyLink source target s
  else
    match copier.linking with
    | none =>
      announce source target
      copyContent source target s (some t)
    | some letter =>
      let kind := if letter = 's' then "symbolic" else "hard"
      if !copier.forced then failing s!"cannot create {kind} link {shown}: File exists"
      else do
        changeWorld (·.remove t)
        announce source target
        copyContent source target s none

/-- Copies what a path leads to, at most `fuel` folders deep. `whole` is the operand that it belongs
to, with where that goes; nothing for the operand itself. -/
def copyItem (whole : Option (String × String)) (source target : String) :
    (fuel : Nat) → Copying Bool
  | 0 => return false
  | fuel + 1 => do
    let copier ← get
    let w ← theWorld
    let folder ← here
    let isOperand := whole.isNone
    let shown := alwaysQuoted target
    match w.walk folder source (if isOperand then copier.follows.1 else copier.follows.2) with
    | .error e => failing s!"cannot stat {alwaysQuoted source}: {e.text}"
    | .ok s =>
      let isLink := w.kind? s = some .link
      let isFolder := w.kind? s = some .folder
      let whole := whole.getD (source, target)
      let recurse (source target : String) : Copying Bool :=
        copyItem (some whole) source target fuel
      if isFolder && !copier.recursive then
        failing s!"-r not specified; omitting directory {alwaysQuoted source}"
      else if isOperand && !isFolder && copier.sources.contains s then do
        complain (s!"{copier.program}: warning: source file {alwaysQuoted source} "
          ++ "specified more than once\n")
        return true
      else
        if isOperand then modify fun c => { c with sources := s :: c.sources }
        match w.walk folder target (!isLink) with
        | .error .missing =>
          if isFolder then copyFolder recurse whole source target s false
          else copyFresh isOperand isLink source target s
        | .error e => failing s!"cannot stat {shown}: {e.text}"
        | .ok t =>
          let isOntoFolder := w.kind? t = some .folder
          if s = t && !isFolder then
            failing s!"{alwaysQuoted source} and {shown} are the same file"
          else if isFolder && !isOntoFolder then
            failing s!"cannot overwrite non-directory {shown} with directory {alwaysQuoted source}"
          else if isFolder then copyFolder recurse whole source target s true
          else if isOntoFolder then
            failing s!"cannot overwrite directory {shown} with non-directory"
          else copyOver isOperand isLink source target s t

/-- How many folders deep folders are copied. -/
def copyDepth : Nat := 512

/-- The options of the program that copies. -/
def copyOptions : OptionTable where
  program := "cp"
  letters := "abdfiHlLnPpRrsS:t:TuvxZQ"
  long := [("archive", 'a'), ("dereference", 'L'), ("no-dereference", 'P'), ("force", 'f'),
    ("interactive", 'i'), ("link", 'l'), ("no-clobber", 'n'), ("parents", 'Q'),
    ("recursive", 'r'), ("symbolic-link", 's'), ("target-directory", 't'),
    ("no-target-directory", 'T'), ("update", 'u'), ("verbose", 'v')]

/-- What copying begins with. -/
def Copier.ofOptions (given : GivenOptions) : Copier :=
  let recursive := given.has 'r' || given.has 'R' || given.has 'a'
  let follows := match given.last? ['L', 'P', 'H', 'd', 'a'] with
    | some 'L' => (true, true)
    | some 'H' => (true, false)
    | some _ => (false, false)
    | none => (!recursive, !recursive)
  { program := "cp", recursive, follows
    exact := given.has 'p' || given.has 'a'
    verbose := given.has 'v'
    sparing := given.last? ['n', 'i', 'f'] = some 'n' || given.has 'u'
    asking := given.last? ['n', 'i'] = some 'i'
    forced := given.has 'f'
    linking := given.last? ['l', 's'] }

/-- Makes the folders that lead to a path below a folder. -/
def makeParents (folder path : String) : Step Unit := do
  let pieces := (folderName path).splitOn "/"
  (List.range pieces.length).forM fun n => do
    let step := below folder ("/".intercalate (pieces.take (n + 1)))
    let w ← theWorld
    if let .ok t := placeOf w (← here) step then
      if (w.kind? t).isNone then changeWorld (·.put t .empty)

/-- Copies files, and folders with all that is in them if that is wanted. -/
def copyFiles : Utility := fun _ arguments =>
  copyOptions.read arguments fun given => do
    let withParents := given.has 'Q'
    let copyAll (pairs : List (String × String)) : Step Nat := do
      let copies : Copying (List Bool) := pairs.mapM fun (source, target) =>
        copyItem none source target copyDepth
      let (results, _) ← copies.run (.ofOptions given)
      return if results.all id then 0 else 1
    match ← placement copyOptions given with
    | .refused n => return n
    | .onto source target =>
      if withParents then copyOptions.refuse "with --parents, the destination must be a directory"
      else copyAll [(source, target)]
    | .into folder sources =>
      if withParents then sources.forM (makeParents folder)
      copyAll (sources.map fun s => (s, if withParents then below folder s else targetIn folder s))

/-! ## Moving -/

/-- The options of the program that moves. -/
def moveOptions : OptionTable where
  program := "mv"
  letters := "bfinS:t:TuvZ"
  long := [("force", 'f'), ("interactive", 'i'), ("no-clobber", 'n'), ("target-directory", 't'),
    ("no-target-directory", 'T'), ("update", 'u'), ("verbose", 'v')]

/-- Moves what stands at a place to another one. -/
def rename (source target : String) (s : Trail) : Copying Bool := do
  let w ← theWorld
  let shown := alwaysQuoted target
  let failed (e : Trouble) : Copying Bool :=
    failing s!"cannot move {alwaysQuoted source} to {shown}: {e.text}"
  match placeOf w (← here) target with
  | .error e => failed e
  | .ok t =>
    let isFolder := w.kind? s = some .folder
    if !isFolder && FileTree.asksForFolder target then failed .notFolder
    else if baseName source = "." || baseName source = ".." then failed .busy
    else if World.isBelow t s && s ≠ t then
      failing (s!"cannot move {alwaysQuoted source} to a subdirectory of itself, " ++ shown)
    else if w.kind? t = some .folder && !(w.names t).isEmpty then failed .notEmpty
    else if w.kind? t = some .device then
      -- A device takes what is written to it, and the file is gone.
      let moved ← copyContent source target s (some t)
      changeWorld (·.remove s)
      return moved
    else
      changeWorld fun w => if s = t then w else (w.remove t).move s t
      if (← get).verbose then say s!"renamed {alwaysQuoted source} -> {shown}\n"
      modify fun c => { c with targets := t :: c.targets }
      return true

/-- Moves a file or a folder. -/
def moveItem (source target : String) : Copying Bool := do
  let copier ← get
  let w ← theWorld
  let folder ← here
  let shown := alwaysQuoted target
  match w.walk folder source false with
  | .error e => failing s!"cannot stat {alwaysQuoted source}: {e.text}"
  | .ok s =>
    let isFolder := w.kind? s = some .folder
    match w.walk folder target false with
    | .error .missing => rename source target s
    | .error e => failing s!"cannot stat {shown}: {e.text}"
    | .ok t =>
      let isOntoFolder := w.kind? t = some .folder
      if s = t && !isFolder then failing s!"{alwaysQuoted source} and {shown} are the same file"
      else if ← isSpared target then return true
      else if isFolder && !isOntoFolder then
        failing s!"cannot overwrite non-directory {shown} with directory {alwaysQuoted source}"
      else if !isFolder && isOntoFolder then
        failing s!"cannot overwrite directory {shown} with non-directory"
      else if copier.targets.contains t then
        failing s!"will not overwrite just-created {shown} with {alwaysQuoted source}"
      else rename source target s

/-- Moves files and folders. -/
def moveFiles : Utility := fun _ arguments =>
  moveOptions.read arguments fun given => do
    let moveAll (pairs : List (String × String)) : Step Nat := do
      let moves : Copying (List Bool) := pairs.mapM fun (source, target) => moveItem source target
      let copier : Copier :=
        { program := "mv", recursive := true, follows := (false, false)
          exact := true
          verbose := given.has 'v'
          sparing := given.last? ['n', 'i', 'f'] = some 'n' || given.has 'u'
          asking := given.last? ['n', 'i', 'f'] = some 'i' }
      let (results, _) ← moves.run copier
      return if results.all id then 0 else 1
    match ← placement moveOptions given with
    | .refused n => return n
    | .onto source target => moveAll [(source, target)]
    | .into folder sources => moveAll (sources.map fun s => (s, targetIn folder s))

end StorageLayout.Shell.Utility
