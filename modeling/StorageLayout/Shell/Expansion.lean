import StorageLayout.Shell.Arithmetic
import StorageLayout.Shell.Machine
import StorageLayout.Shell.Pattern

/-!
# Expansion

From words to the texts that commands get.

A word is first expanded to atoms: characters that remember whether they were quoted and whether
they came from an expansion, marks for quotes, and cuts between the positional parameters. Where
fields are wanted, the atoms are then split at the separators, but only at characters that came
from an expansion outside of quotes; what is left is taken as a pattern for paths, where characters
that were quoted are ordinary.

## Main definitions

* `Atom`: A piece of an expanded word.
* `expand`: The atoms of a word.
* `splitFields`: The fields that atoms make.
* `paths`: The paths that a pattern stands for.
* `fieldsOfWords`: The texts that words become as arguments of a command.
* `textOfWord`, `patternOfWord`: What a word becomes where it stays one.
-/

namespace StorageLayout.Shell

open FileTree (Trail)

/-- A piece of an expanded word. -/
inductive Atom where
  /-- A character: whether it was quoted, and whether fields are split at it. -/
  | char (c : Char) (quoted loose : Bool)
  /-- A quote, by which there is a field even if nothing stands in it. -/
  | mark
  /-- The end of a positional parameter; a hard one ends a field even if nothing stands in it. -/
  | cut (hard : Bool)
deriving Repr, DecidableEq

/-- The atoms of the text that an expansion yields. -/
def atomsOf (quoted : Bool) (s : String) : List Atom :=
  s.toList.map fun c => .char c quoted (!quoted)

/-- The text of atoms. -/
def textOfAtoms (atoms : List Atom) : String :=
  String.ofList (atoms.filterMap fun a => match a with
    | .char c _ _ => some c
    | _ => none)

/-- The characters of atoms, and whether they were quoted. -/
def markedOfAtoms (atoms : List Atom) : List Pattern.Marked :=
  atoms.filterMap fun a => match a with
    | .char c quoted _ => some (c, quoted)
    | _ => none

/-! ## Parameters -/

/-- The value of a parameter. -/
inductive ParameterValue where
  | missing
  | text (s : String)
  /-- The positional parameters. -/
  | all (parameters : List String)

/-- The letters of the options that are on, in the order in which they are shown. -/
def optionLetters (options : List Char) : String :=
  String.ofList ("ubaCVvxsnmiIfe".toList.filter options.contains)

/-- The value of a parameter. -/
def parameterValue (name : String) : Step ParameterValue := do
  let p ← theProcess
  match name with
  | "@" | "*" => return .all p.positional
  | "#" => return .text (toString p.positional.length)
  | "?" => return .text (toString p.status)
  | "-" => return .text (optionLetters p.options)
  | "$" => return .text (toString p.number)
  | "!" =>
    match p.jobs.getLast? with
    | some n => return .text (toString n)
    | none => return .missing
  | "0" => return .text p.name
  | _ =>
    if name.toList.all Char.isDigit then
      match p.positional[name.toNat?.getD 0 - 1]? with
      | some value => return .text value
      | none => return .missing
    else
      match ← valueOf? name with
      | some value => return .text value
      | none => return .missing

/-- The positional parameters in one text, between the first of the separators. -/
def joined (parameters : List String) : Step String := do
  let separator := match (← valueOf? "IFS") with
    | none => " "
    | some ifs => String.ofList (ifs.toList.take 1)
  return separator.intercalate parameters

/-- The atoms of positional parameters. -/
def parameterAtoms (splitting quoted eachOne : Bool) (parameters : List String) :
    Step (List Atom) := do
  if splitting && quoted && eachOne then
    let fields := parameters.map fun p => .mark :: atomsOf true p
    return (fields.intersperse [.cut true]).flatten
  else if splitting && !quoted then
    return ((parameters.map (atomsOf false)).intersperse [.cut false]).flatten
  else return atomsOf quoted (← joined parameters)

/-- The text of a parameter's value; nothing if it has none. -/
def ParameterValue.text? : ParameterValue → Step (Option String)
  | .missing => return none
  | .text s => return some s
  | .all [] => return none
  | .all parameters => return some (← joined parameters)

/-- Whether a value counts as missing. -/
def ParameterValue.isMissing (orEmpty : Bool) : ParameterValue → Bool
  | .missing => true
  | .text s => orEmpty && s = ""
  | .all parameters => parameters.isEmpty || (orEmpty && parameters.all (· = ""))

/-- Stops if a parameter has no value and needs one. -/
def requireSet (name : String) (value : ParameterValue) : Step Unit := do
  match value with
  | .missing => if ← isOn 'u' then fault s!"{name}: parameter not set"
  | _ => return

/-- The atoms of a parameter's value. -/
def valueAtoms (splitting quoted : Bool) (name : String) : ParameterValue → Step (List Atom)
  | .missing => return []
  | .text s => return atomsOf quoted s
  | .all parameters => parameterAtoms splitting quoted (name = "@") parameters

/-! ## Home folders -/

/-- The home folder of a user, or of the one who runs the shell. -/
def homeFolder? (user : String) : Step (Option String) :=
  if user = "" then valueOf? "HOME"
  else return if user = "root" then some "/root" else none

/-- A character that was not quoted. -/
def bareChar? : Segment → Option Char
  | .char c false => some c
  | _ => none

/-- Puts a home folder in place of the tilde that a word begins with, and the name after it. In an
assignment the name ends at a colon, too. -/
def expandTilde (assignment : Bool) (w : Word) : Step Word := do
  match w with
  | .char '~' false :: rest =>
    let ends (c : Char) : Bool := c = '/' || (assignment && c = ':')
    let isUser (s : Segment) : Bool := match bareChar? s with
      | some c => !ends c
      | none => false
    let user := String.ofList ((rest.takeWhile isUser).filterMap bareChar?)
    let after := rest.dropWhile isUser
    let closed := match after with
      | [] => true
      | s :: _ => (bareChar? s).isSome
    let home ← if closed then homeFolder? user else pure none
    match home with
    | some home => return home.toList.map (.char · true) ++ after
    | none => return w
  | w => return w

/-- Puts home folders in place of tildes in an assigned word: at its start and after colons. -/
def expandTildes : (fuel : Nat) → Word → Step Word
  | 0, w => return w
  | fuel + 1, w => do
    let isColon (s : Segment) : Bool := match bareChar? s with
      | some c => c = ':'
      | none => false
    let w ← expandTilde true w
    match w.dropWhile (!isColon ·) with
    | colon :: rest => return w.takeWhile (!isColon ·) ++ colon :: (← expandTildes fuel rest)
    | [] => return w

/-! ## Expanding -/

/-- How an expression of arithmetic gets at parameters. -/
def arithmeticAccess (text : String) : Arith.Access Step where
  get name := do
    match ← valueOf? name with
    | none => return 0
    | some s =>
      match valueNumber? s with
      | some n => return n
      | none => fault s!"Illegal number: {s}"
  set name n := assign name (toString n.toInt)
  stop reason := fault s!"arithmetic expression: {reason.text}: \"{text}\""

/-- The value of an arithmetic expression. -/
def arithmeticValue (text : String) : Step String := do
  match Arith.read text with
  | .ok a => return toString (← a.eval (arithmeticAccess text)).toInt
  | .error reason => fault s!"arithmetic expression: {reason.text}: \"{text}\""

mutual

/-- The atoms of the segments of a word. `run` runs a command and gives its output; `splitting` says
whether fields are wanted, and `loose` whether fields are split at characters of the word itself. -/
def expandSegments (run : Command → Step String) (splitting loose : Bool) :
    List Segment → Step (List Atom)
  | [] => return []
  | s :: rest => do
    let first ← expandSegment run splitting loose s
    return first ++ (← expandSegments run splitting loose rest)

/-- The atoms of a segment. -/
def expandSegment (run : Command → Step String) (splitting loose : Bool) :
    Segment → Step (List Atom)
  | .char c quoted => return [.char c quoted (loose && !quoted)]
  | .mark => return [.mark]
  | .output body quoted => do return atomsOf quoted (← run body)
  | .arithmetic body quoted => do
    let text := textOfAtoms (← expandSegments run false false body)
    return atomsOf quoted (← arithmeticValue text)
  | .parameter name use quoted => expandUse run splitting name quoted use

/-- The atoms of a parameter that is used in some way. -/
def expandUse (run : Command → Step String) (splitting : Bool) (name : String) (quoted : Bool) :
    Use → Step (List Atom)
  | .value => do
    let value ← parameterValue name
    requireSet name value
    valueAtoms splitting quoted name value
  | .length => do
    let value ← parameterValue name
    requireSet name value
    return atomsOf quoted (toString ((← value.text?).getD "").length)
  | .fallback orEmpty word => do
    let value ← parameterValue name
    if value.isMissing orEmpty then expandSegments run splitting true word
    else valueAtoms splitting quoted name value
  | .alternative orEmpty word => do
    let value ← parameterValue name
    if value.isMissing orEmpty then return []
    else expandSegments run splitting true word
  | .assign orEmpty word => do
    let value ← parameterValue name
    if value.isMissing orEmpty then
      let text := textOfAtoms (← expandSegments run false false word)
      if !Reader.isName name then fault s!"{name}: bad variable name"
      assign name text
      return atomsOf quoted text
    else valueAtoms splitting quoted name value
  | .require orEmpty word => do
    let value ← parameterValue name
    if value.isMissing orEmpty then
      let text := textOfAtoms (← expandSegments run false false word)
      let standard := if orEmpty then "parameter not set or null" else "parameter not set"
      fault s!"{name}: {if text.isEmpty then standard else text}"
    else valueAtoms splitting quoted name value
  | .trim atEnd longest word => do
    let value ← parameterValue name
    requireSet name value
    let pattern := Pattern.ofMarked (markedOfAtoms (← expandSegments run false false word))
    let text := (← value.text?).getD ""
    return atomsOf quoted (String.ofList (pattern.trim atEnd longest text.toList))
  | .unknown => fault "Bad substitution"

end

/-- The atoms of a word. -/
def expand (run : Command → Step String) (splitting : Bool) (w : Word) : Step (List Atom) := do
  expandSegments run splitting false (← expandTilde false w)

/-! ## Fields -/

/-- What has been gone through of a word that is split into fields. -/
structure Splitting where
  /-- The fields that have ended, the last one first. -/
  done : List (List Pattern.Marked) := []
  /-- The field that has begun. -/
  current : Option (List Pattern.Marked) := none
  /-- Whether a blank has ended a field, and no other separator since. -/
  blank : Bool := false

/-- Ends the field that has begun; if none has, an empty one only if `always`. -/
def Splitting.close (s : Splitting) (always : Bool) : Splitting :=
  match s.current with
  | some field => { s with done := field :: s.done, current := none }
  | none => if always then { s with done := [] :: s.done } else s

/-- Whether a separator is a blank, of which many count as one. -/
def isBlankSeparator (c : Char) : Bool := c = ' ' || c = '\t' || c = '\n'

/-- Goes on with an atom. -/
def Splitting.step (separators : String) (s : Splitting) : Atom → Splitting
  | .mark => { s with current := some (s.current.getD []), blank := false }
  | .cut true => { (s.close true) with blank := false }
  | .cut false => { (s.close false) with blank := false }
  | .char c quoted loose =>
    if loose && separators.toList.contains c then
      if isBlankSeparator c then
        if s.current.isSome then { (s.close false) with blank := true } else s
      else if s.blank then { s with blank := false }
      else { (s.close true) with blank := false }
    else { s with current := some (s.current.getD [] ++ [(c, quoted)]), blank := false }

/-- The fields that atoms make. -/
def splitFields (separators : String) (atoms : List Atom) : List (List Pattern.Marked) :=
  ((atoms.foldl (Splitting.step separators) {}).close false).done.reverse

/-- The text of a field. -/
def fieldText (field : List Pattern.Marked) : String := String.ofList (field.map (·.1))

/-! ## Paths -/

/-- Whether a field may stand for paths. -/
def isPathPattern (field : List Pattern.Marked) : Bool :=
  field.any fun (c, quoted) => !quoted && (c = '*' || c = '?' || c = '[')

/-- A field cut at its slashes. -/
def pathPieces (field : List Pattern.Marked) : List (List Pattern.Marked) :=
  field.foldr (fun m pieces =>
    if m.1 = '/' then [] :: pieces
    else match pieces with
      | [] => [[m]]
      | piece :: rest => (m :: piece) :: rest) [[]]

/-- Whether a pattern can stand for a name that begins with a dot. -/
def allowsDot (p : Pattern) : Bool :=
  match p with
  | .literal '.' :: _ => true
  | _ => false

/-- The names in a folder that a pattern stands for. -/
def namesMatching (w : World) (folder : Trail) (p : Pattern) : List String :=
  ("." :: ".." :: w.names folder).filter fun name =>
    p.accepts name.toList && (allowsDot p || name.toList.head? ≠ some '.')

/-- The paths that begin with a text and go on as patterns say. -/
def pathsFrom (w : World) (here : Trail) (start : String) : List (List Pattern.Marked) → List String
  | [] => [start]
  | piece :: rest =>
    let place := if start = "" then "." else start
    let after (name : String) : String := if rest.isEmpty then name else name ++ "/"
    let pattern := Pattern.ofMarked piece
    if !isPathPattern piece || pattern.isLiteral then
      let name := if isPathPattern piece then fieldText piece else pattern.literalText
      let path := start ++ after name
      if rest.isEmpty then
        match w.walk here path false with
        | .ok _ => [path]
        | .error _ => []
      else pathsFrom w here path rest
    else
      match w.walk here place true with
      | .ok folder =>
        if w.kind? folder ≠ some .folder then []
        else (namesMatching w folder pattern).flatMap fun name =>
          let path := start ++ name
          if rest.isEmpty then [path]
          else if w.kindOf? here path = some .folder then
            pathsFrom w here (path ++ "/") rest
          else []
      | .error _ => []

/-- The paths that a field stands for, in ascending order; the field itself if there are none. -/
def paths (w : World) (here : Trail) (field : List Pattern.Marked) : List String :=
  match (pathsFrom w here "" (pathPieces field)).mergeSort fun a b => a ≤ b with
  | [] => [fieldText field]
  | found => found

/-! ## Words -/

/-- The texts that a word becomes as arguments of a command. -/
def fieldsOfWord (run : Command → Step String) (w : Word) : Step (List String) := do
  let fields := splitFields (← separators) (← expand run true w)
  let literal ← isOn 'f'
  let world ← theWorld
  let folder ← here
  return fields.flatMap fun field =>
    if isPathPattern field && !literal then paths world folder field else [fieldText field]

/-- The texts that words become as arguments of a command. -/
def fieldsOfWords (run : Command → Step String) (ws : List Word) : Step (List String) := do
  let fields ← ws.mapM (fieldsOfWord run)
  return fields.flatten

/-- The text that a word becomes where it stays one. -/
def textOfWord (run : Command → Step String) (w : Word) : Step String := do
  return textOfAtoms (← expand run false w)

/-- The text that an assigned word becomes. -/
def textOfAssigned (run : Command → Step String) (w : Word) : Step String := do
  let w ← expandTildes (w.length + 1) w
  return textOfAtoms (← expandSegments run false false w)

/-- The pattern that a word becomes. -/
def patternOfWord (run : Command → Step String) (w : Word) : Step Pattern := do
  return Pattern.ofMarked (markedOfAtoms (← expand run false w))

/-- The text that a text in the script becomes. -/
def textOfDocument (run : Command → Step String) (w : Word) : Step String := do
  return textOfAtoms (← expandSegments run false false w)

end StorageLayout.Shell
