import StorageLayout.Shell.Format
import StorageLayout.Utility.Reading

/-!
# Programs for Sorted Lines

Sorting lines, leaving out lines that are repeated, and comparing sorted files.

Lines are compared by keys, which are parts of lines, each in a manner of its own. Where all keys
are equal the lines themselves decide, unless they may stay as they came.

## Main definitions

* `KeyManner`, `Key`: How parts of lines are compared.
* `Key.read`: The key that a word describes.
* `versionOrder`: The order of texts with numbers in them.
* `sortLines`: Sorts lines.
* `mergeRepeated`: Leaves out repeated lines.
* `compareSorted`: The lines that sorted files share.
-/

namespace StorageLayout.Shell.Utility

/-! ## Orders -/

/-- The order of two texts by their octets. -/
def octetOrder : List Char → List Char → Ordering
  | [], [] => .eq
  | [], _ :: _ => .lt
  | _ :: _, [] => .gt
  | a :: as, b :: bs => if a < b then .lt else if b < a then .gt else octetOrder as bs

/-- What a character counts where texts with numbers are compared. The end of a text comes before
everything but a tilde, and letters come before other characters. -/
def versionWeight : List Char → Int
  | [] => -1
  | c :: _ =>
    if c.isDigit then 0
    else if c.isAlpha then c.toNat
    else if c = '~' then -2
    else c.toNat + 256

/-- The order of two numbers in digits, without zeros at their start. -/
def digitOrder (a b : List Char) : Ordering :=
  (compare a.length b.length).then (octetOrder a b)

/-- The order of texts with numbers in them: numbers are compared by their values. -/
def versionOrderFrom : (fuel : Nat) → List Char → List Char → Ordering
  | 0, _, _ => .eq
  | _, [], [] => .eq
  | fuel + 1, a, b =>
    let isText (cs : List Char) : Bool := cs.head?.any (!·.isDigit)
    if isText a || isText b then
      match compare (versionWeight a) (versionWeight b) with
      | .eq => versionOrderFrom fuel a.tail b.tail
      | order => order
    else
      let a := a.dropWhile (· = '0')
      let b := b.dropWhile (· = '0')
      match digitOrder (a.takeWhile Char.isDigit) (b.takeWhile Char.isDigit) with
      | .eq => versionOrderFrom fuel (a.dropWhile Char.isDigit) (b.dropWhile Char.isDigit)
      | order => order

/-- A name without the endings that begin with a dot and a letter. -/
def withoutEndings : (fuel : Nat) → List Char → List Char
  | 0, cs => cs
  | fuel + 1, cs =>
    let isPart (c : Char) : Bool := c.isAlphanum || c = '~'
    let ending := cs.reverse.takeWhile isPart
    match cs.reverse.drop ending.length with
    | '.' :: before =>
      let starts := ending.getLast?.any fun c => c.isAlpha || c = '~'
      if starts && !before.isEmpty then withoutEndings fuel before.reverse else cs
    | _ => cs

/-- The order of texts with numbers in them; endings of names decide only where nothing else does.
-/
def versionOrder (a b : List Char) : Ordering :=
  let order (a b : List Char) := versionOrderFrom (a.length + b.length + 1) a b
  (order (withoutEndings a.length a) (withoutEndings b.length b)).then (order a b)

/-- The number at the start of a text, and what follows it. What is no number counts as zero. -/
def leadingNumber (cs : List Char) : Rat × List Char :=
  let body := cs.dropWhile fun c => c = ' ' || c = '\t'
  let (negative, body) := match body with
    | '-' :: rest => (true, rest)
    | _ => (false, body)
  let whole := body.takeWhile Char.isDigit
  let (fraction, rest) := match body.drop whole.length with
    | '.' :: rest => (rest.takeWhile Char.isDigit, rest.dropWhile Char.isDigit)
    | rest => ([], rest)
  let digits := ((String.ofList (whole ++ fraction)).toNat?).getD 0
  let value : Rat := (digits : Rat) / ((Nat.pow 10 fraction.length : Nat) : Rat)
  (if negative then -value else value, rest)

/-- The order of two numbers. -/
def rationalOrder (a b : Rat) : Ordering := if a < b then .lt else if b < a then .gt else .eq

/-- The number at the start of a text, which may have an exponent. -/
def scientificNumber? (cs : List Char) : Option Rat :=
  let body := cs.dropWhile isBlankByte
  let (negative, body) := match body with
    | '-' :: rest => (true, rest)
    | '+' :: rest => (false, rest)
    | _ => (false, body)
  (decimalAt? body).map fun (n, e, _) =>
    let value : Rat := if e ≥ 0 then (n : Rat) * ((Nat.pow 10 (min e.toNat 400) : Nat) : Rat)
      else (n : Rat) / ((Nat.pow 10 (min (-e).toNat 400) : Nat) : Rat)
    if negative then -value else value

/-- How much the letter after a number multiplies it. -/
def magnitude (rest : List Char) : Nat :=
  match rest with
  | 'k' :: _ => 1
  | c :: _ => (['K', 'M', 'G', 'T', 'P', 'E', 'Z', 'Y'].findIdx? (· = c)).elim 0 (· + 1)
  | [] => 0

/-- The order of numbers with letters for multiples. -/
def multipleOrder (a b : List Char) : Ordering :=
  let (x, restA) := leadingNumber a
  let (y, restB) := leadingNumber b
  let weight (r : Rat) (rest : List Char) : Int :=
    let sign : Int := if r < 0 then -1 else if r = 0 then 0 else 1
    sign * (magnitude rest + 1)
  (compare (weight x restA) (weight y restB)).then (rationalOrder x y)

/-- The number of the month whose name a text begins with. -/
def monthOf (cs : List Char) : Nat :=
  let name := String.ofList (((cs.dropWhile isBlankByte).take 3).map Char.toUpper)
  let names := ["JAN", "FEB", "MAR", "APR", "MAY", "JUN", "JUL", "AUG", "SEP", "OCT", "NOV", "DEC"]
  (names.findIdx? (· = name)).elim 0 (· + 1)

/-! ## Keys -/

/-- How parts of lines are compared: the letters of options. -/
structure KeyManner where
  letters : List Char := []

namespace KeyManner

/-- Whether a letter was given. -/
def has (m : KeyManner) (c : Char) : Bool := m.letters.contains c

/-- The characters of a text that count. -/
def relevant (m : KeyManner) (cs : List Char) : List Char :=
  let cs := if m.has 'd' then cs.filter fun c => c.isAlphanum || c = ' ' || c = '\t' else cs
  let cs := if m.has 'i' then cs.filter fun c => 32 ≤ c.toNat && c.toNat < 127 else cs
  if m.has 'f' then cs.map Char.toUpper else cs

/-- The order of two parts of lines. -/
def order (m : KeyManner) (a b : List Char) : Ordering :=
  let forward :=
    if m.has 'n' then rationalOrder (leadingNumber a).1 (leadingNumber b).1
    else if m.has 'g' then
      match scientificNumber? a, scientificNumber? b with
      | none, none => .eq
      | none, some _ => .lt
      | some _, none => .gt
      | some x, some y => rationalOrder x y
    else if m.has 'h' then multipleOrder a b
    else if m.has 'M' then compare (monthOf a) (monthOf b)
    else if m.has 'V' then versionOrder a b
    else octetOrder (m.relevant a) (m.relevant b)
  if m.has 'r' then forward.swap else forward

end KeyManner

/-- A part of a line, and how it is compared. Fields and characters count from zero; an end of zero
characters stands for the end of its field. -/
structure Key where
  startField : Nat := 0
  startChar : Nat := 0
  endField : Option Nat := none
  endChar : Nat := 0
  /-- Whether blanks before the start, or before the end, do not count. -/
  blanks : Bool × Bool := (false, false)
  manner : KeyManner := {}

namespace Key

/-- The letters for manners. -/
def mannerLetters : List Char := ['b', 'd', 'f', 'g', 'h', 'i', 'M', 'n', 'R', 'r', 'V']

/-- A count at the start of a text, and what follows it. -/
def countAt (what : String) (cs : List Char) : Except String (Nat × List Char) :=
  let digits := cs.takeWhile Char.isDigit
  if digits.isEmpty then
    .error s!"{what}: invalid count at start of {curlyQuoted (String.ofList cs)}"
  else .ok (((String.ofList digits).toNat?).getD 0, cs.drop digits.length)

/-- A field with a character in it, and the letters after it. -/
def positionAt (word what : String) (least : Nat) (cs : List Char) :
    Except String (Nat × Nat × List Char × List Char) := do
  let faulty (reason : String) : Except String Unit :=
    .error s!"{reason}: invalid field specification {curlyQuoted word}"
  let (field, rest) ← countAt what cs
  if field = 0 then faulty "field number is zero"
  let (char, rest) ← match rest with
    | '.' :: rest => countAt "invalid number after '.'" rest
    | rest => pure (least, rest)
  if char < least then faulty "character offset is zero"
  let letters := rest.takeWhile mannerLetters.contains
  return (field - 1, char, letters, rest.drop letters.length)

/-- The key that a word describes. -/
def read (word : String) : Except String Key := do
  let (startField, startChar, letters, rest) ←
    positionAt word "invalid number at field start" 1 word.toList
  let start : Key :=
    { startField, startChar := startChar - 1, blanks := (letters.contains 'b', false)
      manner := ⟨letters.filter (· ≠ 'b')⟩ }
  match rest with
  | [] => return start
  | ',' :: rest =>
    let (endField, endChar, more, rest) ← positionAt word "invalid number after ','" 0 rest
    if !rest.isEmpty then
      throw s!"stray character in field spec: invalid field specification {curlyQuoted word}"
    return { start with
      endField := some endField
      endChar
      blanks := (letters.contains 'b', more.contains 'b')
      manner := ⟨(letters ++ more).filter (· ≠ 'b')⟩ }
  | _ => throw s!"stray character in field spec: invalid field specification {curlyQuoted word}"

/-- What is left of a line after fields. With a separator every one ends a field; otherwise a field
begins with the blanks before it. -/
def afterFields (separator : Option Char) : (fields : Nat) → List Char → List Char
  | 0, cs => cs
  | n + 1, cs =>
    let isBlank (c : Char) : Bool := c = ' ' || c = '\t'
    match separator with
    | some s => afterFields separator n ((cs.dropWhile (· ≠ s)).drop 1)
    | none => afterFields separator n ((cs.dropWhile isBlank).dropWhile (!isBlank ·))

/-- What is left of a line after the field at which a key ends, or after some of its characters. -/
def afterEnd (separator : Option Char) (skipBlanks : Bool) (fields chars : Nat)
    (cs : List Char) : List Char :=
  let isBlank (c : Char) : Bool := c = ' ' || c = '\t'
  let field := afterFields separator fields cs
  if chars = 0 then
    match separator with
    | some s => field.dropWhile (· ≠ s)
    | none => (field.dropWhile isBlank).dropWhile (!isBlank ·)
  else (if skipBlanks then field.dropWhile isBlank else field).drop chars

/-- The part of a line that a key stands for. -/
def part (k : Key) (separator : Option Char) (line : List Char) : List Char :=
  let start := afterFields separator k.startField line
  let start := if k.blanks.1 then start.dropWhile fun c => c = ' ' || c = '\t' else start
  let start := start.drop k.startChar
  match k.endField with
  | none => start
  | some fields =>
    let after := afterEnd separator k.blanks.2 fields k.endChar line
    start.take (start.length - after.length)

end Key

/-! ## Sorting -/

/-- How lines are sorted. -/
structure SortOrder where
  keys : List Key
  separator : Option Char
  /-- Whether lines with equal keys stay as they came. -/
  stable : Bool
  /-- Whether lines with equal keys are in the other order. -/
  reversed : Bool

/-- The order of two lines by their keys. -/
def SortOrder.byKeys (o : SortOrder) (a b : List Char) : Ordering :=
  o.keys.foldl (fun order k =>
    order.then (k.manner.order (k.part o.separator a) (k.part o.separator b))) .eq

/-- The order of two lines. -/
def SortOrder.order (o : SortOrder) (a b : List Char) : Ordering :=
  (o.byKeys a b).then <|
    if o.stable then .eq
    else if o.reversed then (octetOrder a b).swap
    else octetOrder a b

/-- The order that options ask for. -/
def SortOrder.ofOptions (given : GivenOptions) : Except String SortOrder := do
  let letters := (given.options.map (·.1)).filter Key.mannerLetters.contains
  let words := (given.options.filter (·.1 = 'k')).map (·.2)
  let keys ← words.mapM Key.read
  let general : KeyManner := ⟨letters.filter (· ≠ 'b')⟩
  let blanks := letters.contains 'b'
  let inherit (k : Key) : Key :=
    if k.manner.letters.isEmpty && k.blanks = (false, false) then
      { k with manner := general, blanks := (blanks, blanks) }
    else k
  let separator ← match given.text? 't' with
    | none => pure none
    | some "\\0" => pure (some '\x00')
    | some word =>
      match word.toList with
      | [c] => pure (some c)
      | [] => throw "empty tab"
      | _ => throw s!"multi-character tab {curlyQuoted word}"
  let whole : Key := { manner := general, blanks := (blanks, false) }
  return { keys := if keys.isEmpty then [whole] else keys.map inherit
           separator
           stable := given.has 's' || given.has 'u'
           reversed := letters.contains 'r' }

/-- The lines without those whose keys are equal to those of the line before. -/
def SortOrder.distinct (o : SortOrder) : List (List Char) → List (List Char)
  | a :: b :: rest =>
    if o.byKeys a b = .eq then o.distinct (a :: rest) else a :: o.distinct (b :: rest)
  | lines => lines
termination_by lines => lines.length

/-- The first line that is out of order, with its number. -/
def SortOrder.firstDisorder (o : SortOrder) (strict : Bool) :
    (number : Nat) → List (List Char) → Option (Nat × List Char)
  | n, a :: b :: rest =>
    let order := o.order a b
    if order = .gt || (strict && order = .eq) then some (n + 1, b)
    else o.firstDisorder strict (n + 1) (b :: rest)
  | _, _ => none

/-- The options of the program that sorts. -/
def sortOptions : OptionTable where
  program := "sort"
  letters := "bcCdfghik:mMno:rRsS:t:T:uVzy"
  long := [("ignore-leading-blanks", 'b'), ("dictionary-order", 'd'), ("ignore-case", 'f'),
    ("general-numeric-sort", 'g'), ("human-numeric-sort", 'h'), ("ignore-nonprinting", 'i'),
    ("month-sort", 'M'), ("numeric-sort", 'n'), ("reverse", 'r'), ("version-sort", 'V'),
    ("key", 'k'), ("merge", 'm'), ("output", 'o'), ("stable", 's'), ("field-separator", 't'),
    ("unique", 'u'), ("check", 'c')]
  misuse := 2

/-- Sorts the lines of files, or says whether they are sorted. -/
def sortLines : Utility := fun _ arguments =>
  sortOptions.read arguments fun given => do
    let failed (message : String) : Step Nat := do
      complain s!"sort: {message}\n"
      return 2
    match SortOrder.ofOptions given with
    | .error reason => failed reason
    | .ok order =>
      let names := if given.operands.isEmpty then ["-"] else given.operands
      let w ← theWorld
      let folder ← here
      let missing := names.findSome? fun name =>
        if name = "-" then none
        else match w.walk folder name true with
          | .ok _ => none
          | .error e => some (name, e)
      if let some (name, e) := missing then
        let what := if given.has 'c' || given.has 'C' then "open failed" else "cannot read"
        return (← failed s!"{what}: {quotedIfNeeded name}: {e.text}")
      let texts ← names.mapM readOperand
      match (names.zip texts).findSome? fun (name, t) => match t with
        | .error e => some (name, e)
        | .ok _ => none with
      | some (name, e) => failed s!"read failed: {quotedIfNeeded name}: {e.text}"
      | none =>
        let lines := texts.flatMap fun t => linesOf (t.toOption.getD "")
        let lines := lines.map String.toList
        if given.has 'c' || given.has 'C' then
          match order.firstDisorder (given.has 'u') 1 lines with
          | none => return 0
          | some (n, line) =>
            if given.has 'c' then
              let name := names.headD "-"
              complain s!"sort: {name}:{n}: disorder: {String.ofList line}\n"
            return 1
        else
          let sorted := lines.mergeSort fun a b => order.order a b ≠ .gt
          let sorted := if given.has 'u' then order.distinct sorted else sorted
          let output := unlines (sorted.map String.ofList)
          match given.text? 'o' with
          | none =>
            say output
            return 0
          | some path =>
            match ← writePath path output .overwrite with
            | .ok () => return 0
            | .error e => failed s!"open failed: {quotedIfNeeded path}: {e.text}"

/-! ## Repeated lines -/

/-- Lines in groups of neighbours that are equal by what counts of them. -/
def groupsBy (relevant : String → String) : List String → List (List String)
  | [] => []
  | line :: rest =>
    match groupsBy relevant rest with
    | (other :: group) :: groups =>
      if relevant line = relevant other then (line :: other :: group) :: groups
      else [line] :: (other :: group) :: groups
    | groups => [line] :: groups

/-- The part of a line that counts where repeated lines are looked for. -/
def relevantPart (fields chars : Nat) (width : Option Nat) (ignoreCase : Bool) (line : String) :
    String :=
  let rest := (Key.afterFields none fields line.toList).drop chars
  let rest := match width with
    | some n => rest.take n
    | none => rest
  String.ofList (if ignoreCase then rest.map Char.toLower else rest)

/-- The options of the program that leaves out repeated lines. -/
def uniqueOptions : OptionTable where
  program := "uniq"
  letters := "cdDf:is:uw:z"
  long := [("count", 'c'), ("repeated", 'd'), ("all-repeated", 'D'), ("skip-fields", 'f'),
    ("ignore-case", 'i'), ("skip-chars", 's'), ("unique", 'u'), ("check-chars", 'w')]

/-- Leaves out lines that are repeated. -/
def mergeRepeated : Utility := fun _ arguments =>
  let modern := arguments.map fun word => match word.toList with
    | '-' :: c :: cs => if (c :: cs).all Char.isDigit then "-f" ++ String.ofList (c :: cs) else word
    | _ => word
  uniqueOptions.read modern fun given => do
    let numbers : List (Char × String) :=
      [('f', "number of fields to skip"), ('s', "number of bytes to skip"),
        ('w', "number of bytes to compare")]
    let wrong := numbers.findSome? fun (c, what) =>
      (given.text? c).bind fun word => if (natural? word).isNone then some (word, what) else none
    if let some (word, what) := wrong then
      complain s!"uniq: {word}: invalid {what}\n"
      return 1
    let number (c : Char) : Option Nat := (given.text? c).bind natural?
    let relevant := relevantPart ((number 'f').getD 0) ((number 's').getD 0) (number 'w')
      (given.has 'i')
    let write (group : List String) : String :=
      let isRepeated := group.length > 1
      if given.has 'D' then (if isRepeated then unlines group else "")
      else if (given.has 'd' && !isRepeated) || (given.has 'u' && isRepeated) then ""
      else
        let count := if given.has 'c' then padLeft 7 (toString group.length) ++ " " else ""
        count ++ group.headD "" ++ "\n"
    match given.operands with
    | _ :: _ :: extra :: _ => uniqueOptions.refuse s!"extra operand {curlyQuoted extra}"
    | operands =>
      let name := operands.headD "-"
      match ← readOperand name with
      | .error .folder =>
        tell "uniq" s!"error reading {alwaysQuoted name}" .folder
        return 1
      | .error e =>
        tell "uniq" (quotedIfNeeded name) e
        return 1
      | .ok text =>
        let output := String.join ((groupsBy relevant (linesOf text)).map write)
        match operands.drop 1 with
        | [] | "-" :: _ =>
          say output
          return 0
        | path :: _ =>
          match ← writePath path output .overwrite with
          | .ok () => return 0
          | .error e =>
            tell "uniq" (quotedIfNeeded path) e
            return 1

/-! ## Sorted files -/

/-- The lines of two files, each with the column that it belongs to: the first file, the second, or
both. -/
def columnsOf : (fuel : Nat) → List String → List String → List (Nat × String)
  | 0, _, _ => []
  | _, [], bs => bs.map ((2, ·))
  | _, as, [] => as.map ((1, ·))
  | fuel + 1, a :: as, b :: bs =>
    match octetOrder a.toList b.toList with
    | .eq => (3, a) :: columnsOf fuel as bs
    | .lt => (1, a) :: columnsOf fuel as (b :: bs)
    | .gt => (2, b) :: columnsOf fuel (a :: as) bs

/-- Whether lines are in ascending order. -/
def isAscending : List String → Bool
  | a :: b :: rest => octetOrder a.toList b.toList ≠ .gt && isAscending (b :: rest)
  | _ => true

/-- Writes the lines that sorted files share, and those that they do not, in columns. -/
def compareSorted : Utility := fun _ arguments =>
  let table : OptionTable :=
    { program := "comm", letters := "123zNCO:"
      long := [("check-order", 'C'), ("nocheck-order", 'N'), ("output-delimiter", 'O')] }
  table.read arguments fun given => do
    match given.operands with
    | [] => table.refuse "missing operand"
    | [only] => table.refuse s!"missing operand after {curlyQuoted only}"
    | _ :: _ :: extra :: _ => table.refuse s!"extra operand {curlyQuoted extra}"
    | [first, second] =>
      match ← readOperand first, ← readOperand second with
      | .error e, _ =>
        tell "comm" (quotedIfNeeded first) e
        return 1
      | _, .error e =>
        tell "comm" (quotedIfNeeded second) e
        return 1
      | .ok a, .ok b =>
        let delimiter := (given.text? 'O').getD "\t"
        let isShown (column : Nat) : Bool := !given.has (Char.ofNat (48 + column))
        let indent (column : Nat) : String :=
          String.join (((List.range (column - 1)).filter fun n => isShown (n + 1)).map
            fun _ => delimiter)
        let rows := columnsOf (a.length + b.length + 2) (linesOf a) (linesOf b)
        let shown := rows.filterMap fun (column, line) =>
          if isShown column then some (indent column ++ line ++ "\n") else none
        say (String.join shown)
        let checks := !given.has 'N' && rows.any fun row => row.1 ≠ 3
        let unsorted := [(1, a), (2, b)].filter fun file => !isAscending (linesOf file.2)
        if checks && !unsorted.isEmpty then
          unsorted.forM fun (n, _) => complain s!"comm: file {n} is not in sorted order\n"
          complain "comm: input is not in sorted order\n"
          return 1
        return 0

end StorageLayout.Shell.Utility
