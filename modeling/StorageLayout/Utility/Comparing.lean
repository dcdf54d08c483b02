import StorageLayout.Utility.Reading

/-!
# Programs that Compare Files

Octet by octet, or line by line.

Two files are compared line by line with the longest list of lines that are in both, in order. What
is between those lines has been changed.

## Main definitions

* `compareOctets`: Where two files differ first.
* `Edit`, `editsOf`: How the lines of a file become those of another.
* `Change`, `changesOf`: The edits that stand together.
* `compareLines`: How two files, or folders, differ.
-/

namespace StorageLayout.Shell.Utility

/-! ## Octets -/

/-- The octets at which two texts differ, with their positions. -/
def differences : (position : Nat) → List Char → List Char → List (Nat × Char × Char)
  | n, a :: as, b :: bs =>
    if a = b then differences (n + 1) as bs else (n, a, b) :: differences (n + 1) as bs
  | _, _, _ => []

/-- A number in base eight. -/
def octalText (n : Nat) : String := String.ofList (Nat.toDigits 8 n)

/-- Says that one of two files ends before the other. -/
def earlyEnd (name text : String) (counted : Bool) : String :=
  if text = "" then s!"cmp: EOF on {name} which is empty\n"
  else
    let lines := text.toList.count '\n'
    let ended := text.toList.getLast? = some '\n'
    let place := if !counted then "" else if ended then s!", line {lines}"
      else s!", in line {lines + 1}"
    s!"cmp: EOF on {name} after byte {text.length}{place}\n"

/-- Compares two files octet by octet. -/
def compareOctets : Utility := fun _ arguments =>
  let table : OptionTable :=
    { program := "cmp", letters := "bi:ln:s", misuse := 2
      long := [("verbose", 'l'), ("quiet", 's'), ("silent", 's'), ("bytes", 'n')] }
  let refuse (reason : String) : Step Nat := do
    complain s!"cmp: {reason}\ncmp: Try 'cmp --help' for more information.\n"
    return 2
  match table.readFrom (arguments.length + 1) arguments with
  | .error reason => refuse reason
  | .ok given => do
    match given.operands with
    | [] => refuse "missing operand after 'cmp'"
    | first :: rest =>
      let second := rest.headD "-"
      match ← readOperand first, ← readOperand second with
      | .error e, _ =>
        if !given.has 's' then tell "cmp" first e
        return 2
      | _, .error e =>
        if !given.has 's' then tell "cmp" second e
        return 2
      | .ok a, .ok b =>
        let limit := (given.text? 'n').bind natural?
        let cut (s : String) : String := match limit with
          | some n => String.ofList (s.toList.take n)
          | none => s
        let (a, b) := (cut a, cut b)
        let found := differences 1 a.toList b.toList
        let shorter := if a.length < b.length then some (first, a)
          else if b.length < a.length then some (second, b) else none
        if given.has 's' then return if found.isEmpty && shorter.isNone then 0 else 1
        if given.has 'l' then
          let width := (toString (min a.length b.length)).length
          found.forM fun (n, x, y) =>
            let octal (c : Char) : String := padLeft 3 (octalText c.toNat)
            say s!"{padLeft width (toString n)} {octal x} {octal y}\n"
          if let some (name, text) := shorter then complain (earlyEnd name text false)
          return if found.isEmpty && shorter.isNone then 0 else 1
        match found, shorter with
        | (n, _) :: _, _ =>
          let line := (a.toList.take (n - 1)).count '\n' + 1
          say s!"{first} {second} differ: byte {n}, line {line}\n"
          return 1
        | [], some (name, text) =>
          complain (earlyEnd name text true)
          return 1
        | [], none => return 0

/-! ## Lines -/

/-- What happens to a line when a file becomes another one. -/
inductive Edit where
  | keep (line : String)
  | delete (line : String)
  | insert (line : String)
deriving Repr, DecidableEq

/-- Lengths of longest common lists of lines: of some lines and every end of the others. -/
def commonRow (line : String) (below : List Nat) (others : List String) : List Nat :=
  match others, below with
  | o :: others, b :: below =>
    let rest := commonRow line below others
    (if line = o then 1 + below.headD 0 else max b (rest.headD 0)) :: rest
  | _, _ => [0]

/-- Lengths of longest common lists for every end of the lines of a file. -/
def commonTable (others : List String) : List String → List (List Nat)
  | [] => [others.map (fun _ => 0) ++ [0]]
  | line :: rest =>
    let below := commonTable others rest
    commonRow line (below.headD []) others :: below

/-- How the lines of a file become those of another. -/
def editsFrom : (fuel : Nat) → List (List Nat) → List String → List String → List Edit
  | 0, _, _, _ => []
  | _, _, as, [] => as.map .delete
  | _, _, [], bs => bs.map .insert
  | fuel + 1, table, a :: as, b :: bs =>
    if a = b then .keep a :: editsFrom fuel (table.tail.map List.tail) as bs
    else
      let afterDelete := (table.getD 1 []).headD 0
      let afterInsert := (table.headD []).getD 1 0
      if afterInsert > afterDelete then
        .insert b :: editsFrom fuel (table.map List.tail) (a :: as) bs
      else .delete a :: editsFrom fuel table.tail as (b :: bs)

/-- How the lines of a file become those of another. -/
def editsOf (before after : List String) : List Edit :=
  editsFrom (before.length + after.length + 1) (commonTable after before) before after

/-- Lines that took the place of others, with how many lines there are before both. -/
structure Change where
  start : Nat
  newStart : Nat
  deleted : List String := []
  inserted : List String := []

/-- The edits that stand together. -/
def changesOf : (line newLine : Nat) → List Edit → List Change
  | _, _, [] => []
  | n, m, .keep _ :: rest => changesOf (n + 1) (m + 1) rest
  | n, m, .delete line :: rest =>
    match changesOf (n + 1) m rest with
    | c :: more =>
      if c.start = n + 1 && c.newStart = m then
        { c with start := n, deleted := line :: c.deleted } :: more
      else { start := n, newStart := m, deleted := [line] } :: c :: more
    | [] => [{ start := n, newStart := m, deleted := [line] }]
  | n, m, .insert line :: rest =>
    match changesOf n (m + 1) rest with
    | c :: more =>
      if c.start = n && c.newStart = m + 1 then
        { c with newStart := m, inserted := line :: c.inserted } :: more
      else { start := n, newStart := m, inserted := [line] } :: c :: more
    | [] => [{ start := n, newStart := m, inserted := [line] }]

/-- Numbers of lines as a range. -/
def rangeText (start count : Nat) : String :=
  if count ≤ 1 then toString (start + count) else s!"{start + 1},{start + count}"

/-- Lines with a mark before each. A last line that has no end is told. -/
def marked (mark : String) (lines : List String) : String :=
  String.join (lines.map fun line =>
    if line.toList.getLast? = some '\n' then mark ++ line
    else mark ++ line ++ "\n\\ No newline at end of file\n")

/-- A change as an instruction and the lines that it is about. -/
def Change.text (c : Change) : String :=
  let letter := if c.deleted.isEmpty then "a" else if c.inserted.isEmpty then "d" else "c"
  rangeText c.start c.deleted.length ++ letter ++ rangeText c.newStart c.inserted.length ++ "\n"
    ++ marked "< " c.deleted
    ++ (if c.deleted.isEmpty || c.inserted.isEmpty then "" else "---\n")
    ++ marked "> " c.inserted

/-- Changes in groups that are near each other. -/
def nearGroups (context : Nat) : List Change → List (List Change)
  | [] => []
  | c :: rest =>
    match nearGroups context rest with
    | (d :: group) :: groups =>
      if d.start ≤ c.start + c.deleted.length + 2 * context then (c :: d :: group) :: groups
      else [c] :: (d :: group) :: groups
    | groups => [c] :: groups

/-- Changes that are near each other, with the lines around them. -/
def unifiedText (context : Nat) (lines : List String) (group : List Change) : String :=
  match group, group.getLast? with
  | first :: _, some last =>
    let start := first.start - context
    let stop := min lines.length (last.start + last.deleted.length + context)
    let newStart := first.newStart - (first.start - start)
    let grown := (group.map fun c => c.inserted.length).foldl (· + ·) 0
    let shrunk := (group.map fun c => c.deleted.length).foldl (· + ·) 0
    let range (start count : Nat) : String :=
      if count = 1 then toString (start + 1)
      else s!"{if count = 0 then start else start + 1},{count}"
    let part (n m : Nat) : String := marked " " ((lines.drop n).take (m - n))
    let (body, position) := group.foldl (fun (text, n) c =>
      (text ++ part n c.start ++ marked "-" c.deleted ++ marked "+" c.inserted,
        c.start + c.deleted.length)) ("", start)
    s!"@@ -{range start (stop - start)} +{range newStart (stop - start + grown - shrunk)} @@\n"
      ++ body ++ part position stop
  | _, _ => ""

/-- How files are compared line by line. -/
structure Comparison where
  brief : Bool := false
  reportsSame : Bool := false
  recursive : Bool := false
  /-- Whether a file that is not there counts as empty. -/
  lenient : Bool := false
  ignoreCase : Bool := false
  /-- Whether blanks do not count: how many there are, or whether there are any. -/
  ignoreAmount : Bool := false
  ignoreBlanks : Bool := false
  unified : Option Nat := none
  labels : List String := []
  /-- The options as they are written before the names of files in a folder. -/
  spelling : String := ""

/-- What counts of a line. -/
def Comparison.relevant (c : Comparison) (line : String) : String :=
  let cs := line.toList
  let cs := if c.ignoreCase then cs.map Char.toLower else cs
  let cs := if c.ignoreBlanks then cs.filter (!isBlankByte ·) else cs
  let cs := if c.ignoreAmount then together (cs.reverse.dropWhile isBlankByte).reverse else cs
  String.ofList cs
where
  /-- Blanks as one blank. -/
  together : List Char → List Char
    | a :: b :: rest =>
      if isBlankByte a && isBlankByte b then together (b :: rest)
      else (if isBlankByte a then ' ' else a) :: together (b :: rest)
    | cs => cs

/-- Compares the texts of two files; says whether they are the same. -/
def Comparison.files (c : Comparison) (heading : String) (a b : String × String) : Step Bool := do
  let before := wholeLines a.2
  let after := wholeLines b.2
  let changes := changesOf 0 0 (editsOf (before.map c.relevant) (after.map c.relevant))
  if changes.isEmpty then
    if c.reportsSame then say s!"Files {a.1} and {b.1} are identical\n"
    return true
  -- The lines themselves stand in the changes, not what counts of them.
  let changes := changes.map fun d =>
    { d with
      deleted := (before.drop d.start).take d.deleted.length
      inserted := (after.drop d.newStart).take d.inserted.length }
  if c.brief then say s!"Files {a.1} and {b.1} differ\n"
  else
    say heading
    match c.unified with
    | none => changes.forM fun d => say d.text
    | some context =>
      let title (n : Nat) (name : String) : String := (c.labels[n]?).getD name
      say s!"--- {title 0 a.1}\n+++ {title 1 b.1}\n"
      (nearGroups context changes).forM fun g => say (unifiedText context before g)
  return false

/-- Compares what two paths lead to, at most `fuel` folders deep. The status is 1 if they differ,
and 2 if they cannot be compared. -/
def Comparison.paths (c : Comparison) (isInner : Bool) (first second : String) :
    (fuel : Nat) → Step Nat
  | 0 => return 2
  | fuel + 1 => do
    let w ← theWorld
    let folder ← here
    let isFolder (path : String) : Bool := path ≠ "-" && w.kindOf? folder path = some .folder
    match isFolder first, isFolder second with
    | true, true =>
      let names (path : String) : List String :=
        ((w.walk folder path true).toOption.map w.names).getD []
      let all := (names first ++ names second).eraseDups.mergeSort fun a b => a ≤ b
      let results ← all.mapM fun name => do
        let inFirst := (names first).contains name
        let inSecond := (names second).contains name
        let (a, b) := (below first name, below second name)
        if inFirst && inSecond then
          if isFolder a && isFolder b && !c.recursive then
            say s!"Common subdirectories: {a} and {b}\n"
            return 0
          else c.paths true a b fuel
        else if c.lenient && !isFolder (if inFirst then a else b) then c.paths true a b fuel
        else
          say s!"Only in {if inFirst then first else second}: {name}\n"
          return 1
      return results.foldl max 0
    | isA, isB =>
      if isInner && (isA || isB) then
        let kind (isFolder : Bool) (path : String) : String :=
          if isFolder then "directory" else
            if ((w.walk folder path true).toOption.map w.content) = some ""
            then "regular empty file" else "regular file"
        say s!"File {first} is a {kind isA first} while file {second} is a {kind isB second}\n"
        return 1
      let left := if isA then below first (baseName second) else first
      let right := if isB then below second (baseName first) else second
      let read (path : String) : Step (Except Trouble String) := do
        match ← readOperand path with
        | .error .missing => return if c.lenient then .ok "" else .error .missing
        | result => return result
      let a ← read left
      let b ← read right
      [(left, a), (right, b)].forM fun (path, text) => match text with
        | .error e => tell "diff" path e
        | .ok _ => return
      match a, b with
      | .ok a, .ok b =>
        let heading := if isInner then s!"diff{c.spelling} {left} {right}\n" else ""
        return if ← c.files heading (left, a) (right, b) then 0 else 1
      | _, _ => return 2

/-- The options of the program that compares line by line. -/
def compareOptions : OptionTable where
  program := "diff"
  letters := "abBdiL:NqrstuU:w"
  long := [("brief", 'q'), ("report-identical-files", 's'), ("recursive", 'r'), ("new-file", 'N'),
    ("ignore-case", 'i'), ("ignore-space-change", 'b'), ("ignore-all-space", 'w'), ("label", 'L'),
    ("text", 'a')]
  misuse := 2

/-- Compares two files, or folders, line by line. -/
def compareLines : Utility := fun _ arguments =>
  let refuse (reason : String) : Step Nat := do
    complain s!"diff: {reason}\ndiff: Try 'diff --help' for more information.\n"
    return 2
  match compareOptions.readFrom (arguments.length + 1) arguments with
  | .error reason => refuse reason
  | .ok given => do
    let options := arguments.filter fun a => a.toList.head? = some '-' && a ≠ "-"
    let unified := match (given.text? 'U').bind natural? with
      | some n => some n
      | none => if given.has 'u' then some 3 else none
    let comparison : Comparison :=
      { brief := given.has 'q', reportsSame := given.has 's', recursive := given.has 'r'
        lenient := given.has 'N', ignoreCase := given.has 'i', ignoreAmount := given.has 'b'
        ignoreBlanks := given.has 'w', unified
        labels := (given.options.filter (·.1 = 'L')).map (·.2)
        spelling := String.join (options.map (" " ++ ·)) }
    match given.operands with
    | [first, second] => comparison.paths false first second 256
    | _ :: _ :: extra :: _ => refuse s!"extra operand '{extra}'"
    | operands => refuse s!"missing operand after '{operands.headD compareOptions.program}'"

end StorageLayout.Shell.Utility
