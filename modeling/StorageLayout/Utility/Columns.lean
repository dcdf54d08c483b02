import StorageLayout.Shell.Escape
import StorageLayout.Shell.Pattern
import StorageLayout.Utility.Reading

/-!
# Programs that Rearrange Lines

Parts of lines, lines side by side, lines of a width, and octets put in place of others.

## Main definitions

* `cutLines`: Parts of every line.
* `pasteLines`: The lines of files side by side.
* `foldLines`: Long lines broken up.
* `Octets.ofWord`: The octets that a word stands for.
* `replaceOctets`: Octets in place of others.
-/

namespace StorageLayout.Shell.Utility

/-! ## Parts of lines -/

/-- A range of positions, counted from one; without an end it has no last position. -/
abbrev Span := Nat × Option Nat

/-- Whether a position is in a range. -/
def Span.contains (s : Span) (n : Nat) : Bool := s.1 ≤ n && s.2.all (n ≤ ·)

/-- Why a word is no list of ranges. -/
def spanFault (fields : Bool) (word : String) : String :=
  if fields then s!"invalid field value {curlyQuoted word}"
  else s!"invalid byte/character position {curlyQuoted word}"

/-- The range that a word stands for. -/
def readSpan (fields : Bool) (word : String) : Except String Span := do
  let cs := word.toList
  let digits := cs.takeWhile Char.isDigit
  let number (cs : List Char) : Nat := ((String.ofList cs).toNat?).getD 0
  let zero := if fields then "fields are numbered from 1"
    else "byte/character positions are numbered from 1"
  match cs.dropWhile Char.isDigit with
  | [] =>
    if number digits = 0 then throw zero
    return (number digits, some (number digits))
  | '-' :: rest =>
    if !rest.all Char.isDigit then
      if rest.all fun c => c.isDigit || c = '-' then
        throw (if fields then "invalid field range" else "invalid byte or character range")
      throw (spanFault fields (String.ofList (rest.dropWhile Char.isDigit)))
    if digits.isEmpty && rest.isEmpty then throw "invalid range with no endpoint: -"
    let low := if digits.isEmpty then 1 else number digits
    if low = 0 then throw zero
    if rest.isEmpty then return (low, none)
    if number rest < low then throw "invalid decreasing range"
    return (low, some (number rest))
  | other => throw (spanFault fields (String.ofList other))

/-- The ranges that a list stands for. -/
def readSpans (fields : Bool) (word : String) : Except String (List Span) :=
  let unified := word.toList.map fun c => if c = ' ' || c = '\t' then ',' else c
  ((String.ofList unified).splitOn ",").mapM (readSpan fields)

/-- How lines are cut. -/
structure Cut where
  spans : List Span
  complement : Bool
  /-- What is between the fields of a line; nothing if octets are counted. -/
  delimiter : Option Char
  /-- Whether lines that are one field are left out. -/
  strict : Bool
  outputDelimiter : Option String

/-- Whether a position is kept. -/
def Cut.keeps (c : Cut) (n : Nat) : Bool := c.spans.any (·.contains n) != c.complement

/-- The octets that are kept of a line, with those together that stand together. -/
def Cut.groups (c : Cut) : (position : Nat) → List Char → List (List Char)
  | _, [] => []
  | n, b :: rest =>
    let others := groups c (n + 1) rest
    if !c.keeps n then others
    else
      let starts := c.spans.any fun s => s.1 = n + 1
      let ends := c.spans.any fun s => s.2 = some n
      match others with
      | group :: more =>
        if c.keeps (n + 1) && !rest.isEmpty && !(starts && ends && c.outputDelimiter.isSome) then
          (b :: group) :: more
        else [b] :: others
      | [] => [[b]]

/-- A line, cut; nothing if it is left out. -/
def Cut.line (c : Cut) (line : String) : Option String :=
  match c.delimiter with
  | none =>
    let groups := (c.groups 1 line.toList).map String.ofList
    some ((c.outputDelimiter.getD "").intercalate groups)
  | some d =>
    let fields := line.splitOn d.toString
    if fields.length = 1 then (if c.strict then none else some line)
    else
      let kept := fields.zipIdx.filterMap fun (field, n) =>
        if c.keeps (n + 1) then some field else none
      some ((c.outputDelimiter.getD d.toString).intercalate kept)

/-- Writes parts of every line. -/
def cutLines : Utility := fun _ arguments =>
  let table : OptionTable :=
    { program := "cut", letters := "b:c:d:f:nszCO:"
      long := [("bytes", 'b'), ("characters", 'c'), ("delimiter", 'd'), ("fields", 'f'),
        ("only-delimited", 's'), ("complement", 'C'), ("output-delimiter", 'O')] }
  table.read arguments fun given => do
    let lists := given.options.filter fun o => o.1 = 'b' || o.1 = 'c' || o.1 = 'f'
    let delimiter := (given.text? 'd').getD "\t"
    match lists with
    | [] => table.refuse "you must specify a list of bytes, characters, or fields"
    | _ :: _ :: _ => table.refuse "only one list may be specified"
    | [(letter, word)] =>
      let fields := letter = 'f'
      if delimiter.length > 1 then
        return (← table.refuse "the delimiter must be a single character")
      if given.has 'd' && !fields then
        return (← table.refuse
          "an input delimiter may be specified only when operating on fields")
      if given.has 's' && !fields then
        return (← table.refuse
          "suppressing non-delimited lines makes sense\n\tonly when operating on fields")
      match readSpans fields word with
      | .error reason => table.refuse reason
      | .ok spans =>
        let cut : Cut :=
          { spans
            complement := given.has 'C'
            delimiter := if fields then some (delimiter.toList.headD '\x00') else none
            strict := given.has 's'
            outputDelimiter := given.text? 'O' }
        forTexts "cut" given.operands fun text =>
          say (unlines ((linesOf text).filterMap cut.line))

/-! ## Lines side by side -/

/-- The delimiters that a word lists, one after another. -/
def delimitersOf : List Char → List String
  | '\\' :: '0' :: rest => "" :: delimitersOf rest
  | '\\' :: 'n' :: rest => "\n" :: delimitersOf rest
  | '\\' :: 't' :: rest => "\t" :: delimitersOf rest
  | '\\' :: c :: rest => c.toString :: delimitersOf rest
  | c :: rest => c.toString :: delimitersOf rest
  | [] => []

/-- Texts with delimiters between them, which come again when they have been used. -/
def joinCycling (delimiters : List String) (texts : List String) : String :=
  let count := delimiters.length
  String.join (texts.zipIdx.map fun (text, n) =>
    if n = 0 then text
    else (if count = 0 then "" else delimiters.getD ((n - 1) % count) "") ++ text)

/-- Takes a line from each of several inputs, some of which are shared: `order` says which input the
columns come from. -/
def takeRow : List Nat → List (List String) → List String × List (List String)
  | [], inputs => ([], inputs)
  | n :: order, inputs =>
    let lines := inputs.getD n []
    let (row, inputs) := takeRow order (inputs.set n lines.tail)
    (lines.headD "" :: row, inputs)

/-- The rows that inputs make, as long as any of them has a line. -/
def rowsOf (order : List Nat) : (fuel : Nat) → List (List String) → List (List String)
  | 0, _ => []
  | fuel + 1, inputs =>
    if inputs.all List.isEmpty then []
    else
      let (row, inputs) := takeRow order inputs
      row :: rowsOf order fuel inputs

/-- Writes the lines of files side by side. -/
def pasteLines : Utility := fun _ arguments =>
  let table : OptionTable :=
    { program := "paste", letters := "d:sz", long := [("delimiters", 'd'), ("serial", 's')] }
  table.read arguments fun given => do
    let names := if given.operands.isEmpty then ["-"] else given.operands
    let delimiters := delimitersOf ((given.text? 'd').getD "\t").toList
    -- The input is shared by all columns that come from it.
    let inputNames := names.filter (· ≠ "-") ++ (if names.contains "-" then ["-"] else [])
    let texts ← inputNames.mapM readOperand
    let failed := (inputNames.zip texts).filterMap fun (name, text) => match text with
      | .error e => some (name, e)
      | .ok _ => none
    if given.has 's' then
      failed.forM fun (name, e) => tell "paste" (quotedIfNeeded name) e
      names.forM fun name =>
        match (inputNames.zip texts).find? (·.1 = name) with
        | some (_, .ok text) => say (joinCycling delimiters (linesOf text) ++ "\n")
        | _ => return
      return if failed.isEmpty then 0 else 1
    else match failed with
      | (name, e) :: _ =>
        tell "paste" (quotedIfNeeded name) e
        return 1
      | [] =>
        let inputs := texts.map fun text => linesOf (text.toOption.getD "")
        let shared := inputNames.length - 1
        let (order, _) := names.foldl (fun (order, next) name =>
          if name = "-" then (order ++ [shared], next) else (order ++ [next], next + 1)) ([], 0)
        let count := (inputs.map List.length).foldl (· + ·) 0
        say (unlines ((rowsOf order count inputs).map (joinCycling delimiters)))
        return 0

/-! ## Lines of a width -/

/-- Breaks a line up: every piece is as wide as it can be, and ends after a blank if `spaces` says
so and there is one. -/
def breakLine (spaces : Bool) (width : Nat) : (fuel : Nat) → List Char → List String
  | 0, cs => [String.ofList cs]
  | fuel + 1, cs =>
    let fitting := fits 0 cs
    if fitting ≥ cs.length then [String.ofList cs]
    else
      let line := cs.take (max fitting 1)
      let upToBlank := (line.reverse.dropWhile (· ≠ ' ')).length
      let count := if spaces && upToBlank > 0 then upToBlank else line.length
      String.ofList (cs.take count) :: breakLine spaces width fuel (cs.drop count)
where
  /-- How many characters fit when some columns are taken. -/
  fits (column : Nat) : List Char → Nat
    | [] => 0
    | c :: cs =>
      let next := if c = '\t' then (column / 8 + 1) * 8 else column + 1
      if next > width then 0 else 1 + fits next cs

/-- Writes lines, with long ones broken up. -/
def foldLines : Utility := fun _ arguments =>
  let table : OptionTable :=
    { program := "fold", letters := "bsw:"
      long := [("bytes", 'b'), ("spaces", 's'), ("width", 'w')] }
  let modern := arguments.map fun word => match word.toList with
    | '-' :: c :: cs => if (c :: cs).all Char.isDigit then "-w" ++ String.ofList (c :: cs) else word
    | _ => word
  table.read modern fun given => do
    let word := (given.text? 'w').getD "80"
    match natural? word with
    | none | some 0 =>
      complain s!"fold: invalid number of columns: {curlyQuoted word}\n"
      return 1
    | some width =>
      forTexts "fold" given.operands fun text => do
        let pieces := (text.splitOn "\n").map fun line =>
          "\n".intercalate (breakLine (given.has 's') width line.length line.toList)
        say ("\n".intercalate pieces)

/-! ## Octets in place of others -/

/-- The octets that a word stands for. -/
inductive OctetItem where
  | these (octets : List Char)
  | kind (k : CharClass)
  /-- An octet, several times; zero times stands for as often as needed. -/
  | again (c : Char) (count : Nat)
deriving Repr, DecidableEq

namespace OctetItem

/-- All octets. -/
def allOctets : List Char := (List.range 256).map Char.ofNat

/-- The octets of an item, of which some come `missing` times. -/
def octets (missing : Nat) : OctetItem → List Char
  | .these cs => cs
  | .kind k => allOctets.filter k.contains
  | .again c 0 => List.replicate missing c
  | .again c n => List.replicate n c

end OctetItem

/-- The characters of a word with its escapes replaced; escaped ones are marked. -/
def markedOctets : (fuel : Nat) → List Char → List (Char × Bool)
  | 0, _ => []
  | _, [] => []
  | fuel + 1, '\\' :: c :: rest =>
    let plain (d : Char) := (d, true) :: markedOctets fuel rest
    match c with
    | 'a' => plain '\x07'
    | 'b' => plain '\x08'
    | 'f' => plain '\x0c'
    | 'n' => plain '\n'
    | 'r' => plain '\r'
    | 't' => plain '\t'
    | 'v' => plain '\x0b'
    | c =>
      if isOctal c then
        let digits := ((c :: rest).take 3).takeWhile isOctal
        (Char.ofNat (octalValue digits % 256), true)
          :: markedOctets fuel ((c :: rest).drop digits.length)
      else plain c
  | fuel + 1, c :: rest => (c, false) :: markedOctets fuel rest

/-- The octets between two. -/
def octetsBetween (low high : Char) : List Char :=
  (List.range (high.toNat + 1 - low.toNat)).map fun n => Char.ofNat (low.toNat + n)

/-- The items of a word. -/
def octetItems : (fuel : Nat) → List (Char × Bool) → Except String (List OctetItem)
  | 0, _ => .ok []
  | _, [] => .ok []
  | fuel + 1, ('[', false) :: (':', false) :: rest =>
    let name := (rest.takeWhile (·.1 ≠ ':')).map (·.1)
    match rest.drop name.length with
    | (':', false) :: (']', false) :: after => do
      match CharClass.ofName? (String.ofList name) with
      | some k => return .kind k :: (← octetItems fuel after)
      | none => throw s!"invalid character class {curlyQuoted (String.ofList name)}"
    | _ => do return .these ['['] :: (← octetItems fuel ((':', false) :: rest))
  | fuel + 1, ('[', false) :: ('=', false) :: (c, _) :: ('=', false) :: (']', false) :: rest => do
    return .these [c] :: (← octetItems fuel rest)
  | fuel + 1, ('[', false) :: (c, _) :: ('*', false) :: rest => do
    let digits := (rest.takeWhile fun d => d.1.isDigit).map (·.1)
    match rest.drop digits.length with
    | (']', false) :: after =>
      let count := if digits.head? = some '0' then octalValue digits
        else ((String.ofList digits).toNat?).getD 0
      return .again c count :: (← octetItems fuel after)
    | _ => return .these ['['] :: (← octetItems fuel ((c, false) :: ('*', false) :: rest))
  | fuel + 1, (low, _) :: ('-', false) :: (high, _) :: rest => do
    if high < low then
      let range := String.ofList [low, '-', high]
      throw s!"range-endpoints of {alwaysQuoted range} are in reverse collating sequence order"
    return .these (octetsBetween low high) :: (← octetItems fuel rest)
  | fuel + 1, (c, _) :: rest => do return .these [c] :: (← octetItems fuel rest)

/-- The items of a word. -/
def Octets.ofWord (word : String) : Except String (List OctetItem) :=
  let marked := markedOctets word.length word.toList
  octetItems marked.length marked

/-- A text in which octets of a set do not follow themselves. -/
def squeeze (set : Char → Bool) : List Char → List Char
  | a :: b :: rest =>
    if a = b && set a then squeeze set (b :: rest) else a :: squeeze set (b :: rest)
  | cs => cs

/-- The octets that stand in place of others; the last one stands in place of all that is left. -/
def replacements (truncate : Bool) (first second : List Char) : List (Char × Char) :=
  match second.getLast? with
  | none => []
  | some last =>
    if truncate then first.zip second
    else first.zip (second ++ List.replicate (first.length - second.length) last)

/-- What is done to octets. -/
structure Replacement where
  complement : Bool
  delete : Bool
  squeezes : Bool
  truncate : Bool

/-- What is done to octets, with the words that say which. -/
def Replacement.apply (r : Replacement) (first : String) (second : Option String) :
    Except String (List Char → List Char) := do
  let items ← Octets.ofWord first
  let listed := items.flatMap (·.octets 0)
  let set := if r.complement then OctetItem.allOctets.filter (!listed.contains ·) else listed
  let others ← (second.map Octets.ofWord).getD (.ok [])
  let fixed := (others.map fun i => (i.octets 0).length).foldl (· + ·) 0
  let otherSet := others.flatMap (·.octets (set.length - fixed))
  let inSet (c : Char) : Bool := set.contains c
  if r.delete then
    let kept (cs : List Char) := cs.filter (!inSet ·)
    return if r.squeezes then fun cs => squeeze otherSet.contains (kept cs) else kept
  match second with
  | none => return squeeze inSet
  | some _ =>
    let allowed : List CharClass := [.lower, .upper]
    if others.any fun i => match i with
      | .kind k => !allowed.contains k
      | _ => false
    then
      throw ("when translating, the only character classes that may appear in\n"
        ++ "string2 are 'upper' and 'lower'")
    if otherSet.isEmpty && !r.truncate then
      throw "when not truncating set1, string2 must be non-empty"
    let table := (replacements r.truncate set otherSet).reverse
    let replace (c : Char) : Char := ((table.find? (·.1 = c)).map (·.2)).getD c
    return fun cs =>
      let new := cs.map replace
      if r.squeezes then squeeze otherSet.contains new else new

/-- Puts octets in place of others, or leaves them out. -/
def replaceOctets : Utility := fun _ arguments =>
  let table : OptionTable :=
    { program := "tr", letters := "cCdst", inOrder := true
      long := [("complement", 'c'), ("delete", 'd'), ("squeeze-repeats", 's'),
        ("truncate-set1", 't')] }
  table.read arguments fun given => do
    let r : Replacement :=
      { complement := given.has 'c' || given.has 'C', delete := given.has 'd'
        squeezes := given.has 's', truncate := given.has 't' }
    let least := if r.delete = r.squeezes then 2 else 1
    let most := if r.delete && !r.squeezes then 1 else 2
    match given.operands with
    | [] => table.refuse "missing operand"
    | first :: rest =>
      if given.operands.length < least then
        let why := if r.delete
          then "Two strings must be given when both deleting and squeezing repeats."
          else "Two strings must be given when translating."
        return (← table.refuse s!"missing operand after {curlyQuoted first}\n{why}")
      if let extra :: _ := given.operands.drop most then
        let why := if most = 1 && given.operands.length = 2
          then "\nOnly one string may be given when deleting without squeezing repeats." else ""
        return (← table.refuse s!"extra operand {curlyQuoted extra}{why}")
      match r.apply first rest.head? with
      | .error reason =>
        complain s!"tr: {reason}\n"
        return 1
      | .ok change =>
        match ← readAll 0 with
        | .error e =>
          tell "tr" "read error" e
          return 1
        | .ok text =>
          say (String.ofList (change text.toList))
          return 0

end StorageLayout.Shell.Utility
