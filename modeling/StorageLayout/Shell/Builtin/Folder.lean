import StorageLayout.Shell.Builtin.Options

/-!
# Built-in Commands for Folders

Where a process stands, and what files it makes may be used for.

## Main definitions

* `placeText`: A place as an absolute path.
* `changeFolder`: Goes to another folder.
* `printFolder`: Writes where the process stands.
* `changeMask`: Sets the permissions that new files do not get.
-/

namespace StorageLayout.Shell.Builtin

open FileTree (Trail)

/-- A place as an absolute path. -/
def placeText (t : Trail) : String :=
  "/" ++ "/".intercalate (t.reverse.map octets)

/-- Goes to the folder that a path leads to, if it does. -/
def enter (path : String) : Step Bool := do
  let w ← theWorld
  match w.walk (← here) path true with
  | .error _ => return false
  | .ok t =>
    if w.kind? t ≠ some .folder then return false
    let before := placeText (← here)
    changeProcess fun p => { p with folder := t }
    setVariable "OLDPWD" (some before) true
    setVariable "PWD" (some (placeText t)) true
    return true

/-- Whether a path begins at a folder of its own: the top, this folder, or the one around it. -/
def isAnchored (path : String) : Bool :=
  match path.toList with
  | '/' :: _ => true
  | ['.'] | '.' :: '/' :: _ => true
  | ['.', '.'] | '.' :: '.' :: '/' :: _ => true
  | _ => false

/-- The paths at which a folder is looked for, and whether finding it there is worth telling. -/
def candidates (search target : String) : List (String × Bool) :=
  if isAnchored target then [(target, false)]
  else
    let folders := search.splitOn ":"
    let below (folder : String) : String × Bool :=
      if folder = "" then (target, false)
      else (folder ++ (if folder.toList.getLast? = some '/' then "" else "/") ++ target, true)
    if search = "" then [(target, false)] else folders.map below

/-- Goes to another folder: the one named, the one before, or the one at home. -/
def changeFolder (arguments : List String) : Step Nat := do
  let (_, rest) ← takeOptions "LP" arguments
  let target ← match rest with
    | [] => variableText "HOME"
    | "-" :: _ => variableText "OLDPWD"
    | path :: _ => pure path
  let told := rest.head? = some "-"
  let w ← theWorld
  let folder ← here
  let goal := if target = "" then "." else target
  let options := candidates (← variableText "CDPATH") goal
  let found := options.find? fun o => w.kindOf? folder o.1 = some .folder
  let (path, announced) := found.getD (goal, false)
  if ← enter path then
    if told || announced then say (placeText (← here) ++ "\n")
    return 0
  else fault s!"can't cd to {target}"

/-- Writes where the process stands. -/
def printFolder (arguments : List String) : Step Nat := do
  let _ ← takeOptions "LP" arguments
  say (placeText (← here) ++ "\n")
  return 0

/-! ## The mask -/

/-- Permissions in letters. -/
def permissionText (mask : Nat) : String :=
  let letters (bits : Nat) : String :=
    (if bits &&& 4 ≠ 0 then "r" else "") ++ (if bits &&& 2 ≠ 0 then "w" else "")
      ++ (if bits &&& 1 ≠ 0 then "x" else "")
  let allowed := 0o777 - mask
  s!"u={letters (allowed / 64)},g={letters (allowed / 8 % 8)},o={letters (allowed % 8)}"

/-- A mask in digits. -/
def maskText (mask : Nat) : String :=
  String.ofList (['0'] ++ [mask / 64, mask / 8 % 8, mask % 8].map fun n => Char.ofNat (48 + n))

/-- The permission bits of letters. -/
def permissionBits (cs : List Char) : Nat :=
  cs.foldl (fun bits c => bits ||| (match c with
    | 'r' => 0o444
    | 'w' => 0o222
    | 'x' => 0o111
    | _ => 0)) 0

/-- The mode that a clause of letters makes of another one: it says whom it is for, what is done,
and which permissions are meant. -/
def applyClause (mode : Nat) (clause : List Char) : Option Nat :=
  let isWho (c : Char) : Bool := c = 'u' || c = 'g' || c = 'o' || c = 'a'
  let who := clause.takeWhile isWho
  let reach := if who.isEmpty || who.contains 'a' then 0o777
    else (if who.contains 'u' then 0o700 else 0) ||| (if who.contains 'g' then 0o070 else 0)
      ||| (if who.contains 'o' then 0o007 else 0)
  match clause.dropWhile isWho with
  | operator :: letters =>
    if !letters.all fun c => c = 'r' || c = 'w' || c = 'x' || c = 'X' then none
    else
      let letters := letters.map fun c => if c = 'X' && mode &&& 0o111 ≠ 0 then 'x' else c
      let bits := permissionBits letters &&& reach
      match operator with
      | '+' => some (mode ||| bits)
      | '-' => some (mode - (mode &&& bits))
      | '=' => some ((mode - (mode &&& reach)) ||| bits)
      | _ => none
  | [] => none

/-- The mode that clauses of letters make of another one. -/
def applyClauses (mode : Nat) (text : String) : Option Nat :=
  (text.splitOn ",").foldlM (fun mode clause => applyClause mode clause.toList) mode

/-- Sets the permissions that new files do not get, or writes them. -/
def changeMask (arguments : List String) : Step Nat := do
  let (given, rest) ← takeOptions "S" arguments
  let mask := (← theProcess).mask
  match rest with
  | [] =>
    say ((if given.isEmpty then maskText mask else permissionText mask) ++ "\n")
    return 0
  | word :: _ =>
    if word.toList.head?.any Char.isDigit then
      let (n, after) := digitsOf 8 word.toList
      if !after.isEmpty || n > 0o777 then fault s!"Illegal number: {word}"
      changeProcess fun p => { p with mask := n }
    else
      match applyClauses (0o777 - mask) word with
      | some mode => changeProcess fun p => { p with mask := 0o777 - mode }
      | none => fault s!"Illegal mode: {word}"
    return 0

end StorageLayout.Shell.Builtin
