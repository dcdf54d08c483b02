import StorageLayout.Utility.Sorting

/-!
# Programs that List Files

What is in folders, and what is known of files.

Files have no times here, so that all of them are as old as time itself, and nobody owns them but
the one user that there is.

## Main definitions

* `modeText`: What a file may be used for, in letters.
* `ListStyle`: How entries are listed.
* `listFolders`: Lists files, and what is in folders.
* `showStatus`: What is known of files.
-/

namespace StorageLayout.Shell.Utility

open FileTree (Trail)

/-! ## What is known of a file -/

/-- The letter for a kind of file. -/
def kindLetter (w : World) (t : Trail) : Char :=
  match w.kind? t with
  | some .folder => 'd'
  | some .link => 'l'
  | some .device => 'c'
  | _ => '-'

/-- What a file may be used for, in letters. -/
def modeText (w : World) (t : Trail) : String :=
  let mode := w.mode t
  let letters (bits : Nat) : List Char :=
    [if bits &&& 4 ≠ 0 then 'r' else '-', if bits &&& 2 ≠ 0 then 'w' else '-',
      if bits &&& 1 ≠ 0 then 'x' else '-']
  String.ofList (kindLetter w t :: letters (mode / 64 % 8) ++ letters (mode / 8 % 8)
    ++ letters (mode % 8))

/-- How many octets there are in a file. A folder takes as many as its list of names gets. -/
def sizeOf (w : World) (t : Trail) : Nat :=
  match w.kind? t with
  | some .folder => 4096
  | some .device => 0
  | some .link => (octets ((w.links.find? t).getD "")).length
  | _ => (w.content t).length

/-- How many names a file has. -/
def nameCount (w : World) (t : Trail) : Nat :=
  if w.kind? t = some .folder then
    2 + (w.names t).countP fun name => w.kind? (ofOctets name :: t) = some .folder
  else 1

/-- How many pieces of 1024 octets a file takes. -/
def blockCount (w : World) (t : Trail) : Nat :=
  if w.kind? t = some .link then 0 else (sizeOf w t + 4095) / 4096 * 4

/-! ## Listing -/

/-- How entries are listed. -/
structure ListStyle where
  hidden : Bool := false
  /-- Whether a folder and the one around it are listed in it. -/
  dots : Bool := false
  long : Bool := false
  owner : Bool := true
  group : Bool := true
  numeric : Bool := false
  /-- Whether folders, programs and links are marked, or folders alone. -/
  marks : Bool := false
  folderMarks : Bool := false
  blocks : Bool := false
  quoted : Bool := false
  commas : Bool := false
  /-- The letter for the order of entries. -/
  order : Option Char := none
  reversed : Bool := false
  recursive : Bool := false
  /-- Whether folders are listed like files. -/
  plain : Bool := false
  follows : Bool := false

/-- An entry, as it is called, and its place. -/
abbrev Entry := String × Trail

namespace ListStyle

/-- Whether an entry comes before another one. -/
def before (s : ListStyle) (w : World) (a b : Entry) : Bool :=
  let byName := octetOrder a.1.toList b.1.toList
  let ending (name : String) : List Char :=
    if name.toList.contains '.' then (name.toList.reverse.takeWhile (· ≠ '.')).reverse else []
  let order := match s.order with
    | some 'S' => (compare (sizeOf w b.2) (sizeOf w a.2)).then byName
    | some 'X' => (octetOrder (ending a.1) (ending b.1)).then byName
    | some 'v' => (versionOrder a.1.toList b.1.toList).then byName
    | _ => byName
  (if s.reversed then order.swap else order) ≠ .gt

/-- Entries in order. -/
def sort (s : ListStyle) (w : World) (entries : List Entry) : List Entry :=
  if s.order = some 'U' then entries else entries.mergeSort (s.before w)

/-- An entry's name with its mark. -/
def name (s : ListStyle) (w : World) (e : Entry) : String :=
  let shown := if s.quoted then "\"" ++ e.1 ++ "\"" else e.1
  let mark := match w.kind? e.2 with
    | some .folder => if s.marks || s.folderMarks then "/" else ""
    | some .link => if s.marks && !s.long then "@" else ""
    | some .file => if s.marks && w.isExecutable e.2 then "*" else ""
    | _ => ""
  let target := if s.long then ((w.links.find? e.2).map fun t => " -> " ++ octets t).getD "" else ""
  shown ++ mark ++ target

/-- The lines that entries make. -/
def lines (s : ListStyle) (w : World) (entries : List Entry) : String :=
  let width (f : Entry → Nat) : Nat :=
    (entries.map fun e => (toString (f e)).length).foldl max 0
  let blocks (e : Entry) : String :=
    if s.blocks then padLeft (width fun e => blockCount w e.2) (toString (blockCount w e.2)) ++ " "
    else ""
  let user := if s.numeric then "0" else "root"
  let row (e : Entry) : String :=
    if s.long then
      let names := padLeft (width fun e => nameCount w e.2) (toString (nameCount w e.2))
      let size := padLeft (width fun e => sizeOf w e.2) (toString (sizeOf w e.2))
      let owners := (if s.owner then user ++ " " else "") ++ (if s.group then user ++ " " else "")
      s!"{modeText w e.2} {names} {owners}{size} Jan  1  1970 {s.name w e}"
    else s.name w e
  if s.commas && !s.long then
    if entries.isEmpty then "" else ", ".intercalate (entries.map (s.name w)) ++ "\n"
  else unlines (entries.map fun e => blocks e ++ row e)

/-- What is listed of a folder. -/
def entriesIn (s : ListStyle) (w : World) (t : Trail) : List Entry :=
  let shown := (w.names t).filter fun n => s.hidden || s.dots || n.toList.head? ≠ some '.'
  let dots := if s.dots then [(".", t), ("..", t.tail)] else []
  s.sort w (dots ++ shown.map fun n => (n, ofOctets n :: t))

/-- What is in a folder, and in the folders in it at most `fuel` deep. `headed` says whether the
folder is named, and `first` whether nothing stands before it. -/
def folder (s : ListStyle) (w : World) (headed first : Bool) : (fuel : Nat) → Entry → String
  | 0, _ => ""
  | fuel + 1, (path, t) =>
    let entries := s.entriesIn w t
    let total := (entries.map fun e => blockCount w e.2).foldl (· + ·) 0
    let heading := if headed then (if first then "" else "\n") ++ path ++ ":\n" else ""
    let summary := if s.long || s.blocks then s!"total {total}\n" else ""
    let inner := if !s.recursive then [] else
      entries.filter fun e => e.1 ≠ "." && e.1 ≠ ".." && w.kind? e.2 = some .folder
    heading ++ summary ++ s.lines w entries
      ++ String.join (inner.map fun e => s.folder w headed false fuel (below path e.1, e.2))

end ListStyle

/-- The options of the program that lists. -/
def listOptions : OptionTable where
  program := "ls"
  letters := "1aABcCdfFgGhHiklLmnopqQrRsStuUvxX"
  long := [("all", 'a'), ("almost-all", 'A'), ("directory", 'd'), ("classify", 'F'),
    ("recursive", 'R'), ("reverse", 'r'), ("size", 's'), ("quote-name", 'Q'),
    ("dereference", 'L'), ("human-readable", 'h'), ("inode", 'i'), ("numeric-uid-gid", 'n')]
  misuse := 2

/-- The style that options ask for. -/
def ListStyle.ofOptions (given : GivenOptions) : ListStyle :=
  let long := ['l', 'n', 'g', 'o'].any given.has
  { hidden := given.has 'A', dots := given.has 'a' || given.has 'f'
    long, owner := !given.has 'g', group := !given.has 'o' && !given.has 'G'
    numeric := given.has 'n', marks := given.has 'F', folderMarks := given.has 'p'
    blocks := given.has 's', quoted := given.has 'Q'
    commas := given.last? ['m', '1', 'l', 'C', 'x'] = some 'm'
    order := if given.has 'f' then some 'U' else given.last? ['S', 'X', 'v', 'U', 't']
    reversed := given.has 'r', recursive := given.has 'R', plain := given.has 'd'
    follows := given.has 'L' }

/-- Lists files, and what is in folders. -/
def listFolders : Utility := fun _ arguments =>
  listOptions.read arguments fun given => do
    let s := ListStyle.ofOptions given
    let w ← theWorld
    let here ← here
    let names := if given.operands.isEmpty then ["."] else given.operands
    let found ← names.mapM fun name => do
      let isLinkToFolder := w.kindOf? here name = some .folder && !s.long && !s.marks && !s.plain
      match w.walk here name (s.follows || isLinkToFolder) with
      | .ok t => return some (name, t)
      | .error e =>
        tell "ls" s!"cannot access {alwaysQuoted name}" e
        return none
    let entries := found.filterMap id
    let (folders, files) := entries.partition fun e => !s.plain && w.kind? e.2 = some .folder
    let headed := names.length > 1 || s.recursive
    let parts := (s.sort w folders).zipIdx.map fun (e, n) =>
      s.folder w headed (n = 0 && files.isEmpty) 256 e
    say (s.lines w (s.sort w files) ++ String.join parts)
    return if found.all Option.isSome then 0 else 2

/-! ## What is known of files -/

/-- The kind of a file in words. -/
def kindText (w : World) (t : Trail) : String :=
  match w.kind? t with
  | some .folder => "directory"
  | some .link => "symbolic link"
  | some .device => "character special file"
  | _ => if sizeOf w t = 0 then "regular empty file" else "regular file"

/-- What a letter stands for where a file is described. -/
def statusText (w : World) (path : String) (t : Trail) (letter : Char) : String :=
  match letter with
  | 'n' => path
  | 's' => toString (sizeOf w t)
  | 'a' => String.ofList (Nat.toDigits 8 (w.mode t))
  | 'A' => modeText w t
  | 'F' => kindText w t
  | 'U' | 'G' => "root"
  | 'u' | 'g' => "0"
  | 'h' => toString (nameCount w t)
  | 'b' => toString (2 * blockCount w t)
  | 'B' => "512"
  | 'N' =>
    let target := ((w.links.find? t).map fun l => " -> " ++ alwaysQuoted (octets l)).getD ""
    alwaysQuoted path ++ target
  | 'X' | 'Y' | 'Z' | 'W' => "0"
  | 'x' | 'y' | 'z' => "1970-01-01 00:00:00.000000000 +0000"
  | '%' => "%"
  | _ => "?"

/-- A format with its letters replaced. -/
def fillStatus (w : World) (path : String) (t : Trail) (escapes : Bool) : List Char → String
  | '%' :: c :: rest => statusText w path t c ++ fillStatus w path t escapes rest
  | '\\' :: 'n' :: rest =>
    (if escapes then "\n" else "\\n") ++ fillStatus w path t escapes rest
  | '\\' :: 't' :: rest =>
    (if escapes then "\t" else "\\t") ++ fillStatus w path t escapes rest
  | c :: rest => c.toString ++ fillStatus w path t escapes rest
  | [] => ""

/-- Says what is known of files, in a given form. -/
def showStatus : Utility := fun _ arguments =>
  let table : OptionTable :=
    { program := "stat", letters := "Lftc:P:"
      long := [("dereference", 'L'), ("format", 'c'), ("printf", 'P'), ("terse", 't')] }
  table.read arguments fun given => do
    if given.operands.isEmpty then return (← table.refuse "missing operand")
    let (format, escapes) := match given.last? ['c', 'P'] with
      | some 'P' => ((given.text? 'P').getD "", true)
      | some _ => ((given.text? 'c').getD "" ++ "\n", false)
      | none => ("  File: %n\n  Size: %s\n", false)
    forOperands given.operands fun path => do
      let w ← theWorld
      match w.walk (← here) path (given.has 'L') with
      | .error e =>
        tell "stat" s!"cannot statx {alwaysQuoted path}" e
        return false
      | .ok t =>
        say (fillStatus w path t escapes format.toList)
        return true

end StorageLayout.Shell.Utility
