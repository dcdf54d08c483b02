import StorageLayout.Shell.Pattern

/-!
# Regular Expressions

Which parts of a text an expression stands for.

There are two ways to write an expression. In the basic one, brackets, braces and the operators have
a meaning after a backslash; in the extended one they have it without. An expression is first cut
into tokens, for which both ways are alike, and then read into a tree.

A tree is matched by trying everything that it can stand for, in the order in which repetitions take
as much as they can. Of all matches that start first the longest one counts, and the first one found
among those of the same length. So the match of a whole expression is the one that every system
finds; what the groups in it stand for is decided by the order of trying.

## Main definitions

* `Regex`: An expression.
* `Regex.read`: The expression that a text is.
* `Regex.run`: Matches an expression at some place in a text.
* `Regex.find`: The first match in a text.
-/

namespace StorageLayout.Shell

/-- An expression. -/
inductive Regex where
  | empty
  | char (c : Char)
  | any
  | oneOf (negated : Bool) (items : List BracketItem)
  | seq (a b : Regex)
  | alt (a b : Regex)
  | times (a : Regex) (least : Nat) (most : Option Nat)
  | group (number : Nat) (a : Regex)
  /-- What a group stood for. -/
  | again (number : Nat)
  | lineStart
  | lineEnd
  /-- The start of the text, whatever its lines are, or the end. -/
  | textStart
  | textEnd
  /-- A place with a word on one side: before it, after it, or on either. -/
  | wordStart
  | wordEnd
  | wordEdge
  | wordInside
  /-- A place without a word before it, or after it. -/
  | clearBefore
  | clearAfter
deriving Repr, Inhabited

/-- A piece of an expression as it is written. -/
inductive RegexToken where
  | item (r : Regex)
  | opening
  | closing
  | bar
  | times (least : Nat) (most : Option Nat)
deriving Repr, Inhabited

namespace Regex

/-- How expressions are written. -/
structure Dialect where
  extended : Bool := false
  /-- Whether letters after a backslash stand for control characters. -/
  escapes : Bool := false
  /-- Whether operators must have something to work on, and closing brackets something to close. -/
  strict : Bool := false

/-! ## Brackets -/

/-- What brackets list, and what follows them. The first character is never the bracket that closes
them. -/
def bracketItems (d : Dialect) : (fuel : Nat) → (first : Bool) → List Char →
    Except String (List BracketItem × List Char)
  | 0, _, _ => .error "Unmatched [, [^, [:, [., or [="
  | _, true, [] => .error "Invalid regular expression"
  | _, false, [] => .error "Unmatched [, [^, [:, [., or [="
  | fuel + 1, first, c :: rest =>
    if c = ']' && !first then .ok ([], rest)
    else
      let named (mark : Char) : Option (String × List Char) :=
        match rest with
        | m :: rest =>
          if c = '[' && m = mark then
            let name := rest.takeWhile (· ≠ mark)
            match rest.drop name.length with
            | _ :: ']' :: after => some (String.ofList name, after)
            | _ => none
          else none
        | [] => none
      let single (c : Char) (rest : List Char) : Except String (List BracketItem × List Char) :=
        let range (high : Char) (after : List Char) :
            Except String (List BracketItem × List Char) := do
          if high < c then throw "Invalid range end"
          let (items, rest) ← bracketItems d fuel false after
          return (.range c high :: items, rest)
        match rest with
        | '-' :: ']' :: _ | [] | [_] => do
          let (items, rest) ← bracketItems d fuel false rest
          return (.range c c :: items, rest)
        | '-' :: '[' :: '.' :: high :: '.' :: ']' :: after => range high after
        | '-' :: high :: after => range high after
        | rest => do
          let (items, rest) ← bracketItems d fuel false rest
          return (.range c c :: items, rest)
      match named ':' with
      | some (name, after) =>
        match CharClass.ofName? name with
        | some k => do
          let (items, rest) ← bracketItems d fuel false after
          return (.kind k :: items, rest)
        | none => .error "Invalid character class name"
      | none =>
        match (named '=').orElse fun _ => named '.' with
        | some (name, after) => single (name.toList.headD '=') after
        | none =>
          match d.escapes, c, rest with
          | true, '\\', 'n' :: rest => single '\n' rest
          | true, '\\', 't' :: rest => single '\t' rest
          | true, '\\', ']' :: rest => do
            let (items, rest) ← bracketItems d fuel false (']' :: rest)
            return (.range '\\' '\\' :: items, rest)
          | _, _, _ => single c rest

/-- What follows an opening bracket. -/
def bracket (d : Dialect) (cs : List Char) : Except String (Regex × List Char) := do
  let (negated, body) := match cs with
    | '^' :: rest => (true, rest)
    | cs => (false, cs)
  let (items, rest) ← bracketItems d (body.length + 1) true body
  return (.oneOf negated items, rest)

/-! ## Tokens -/

/-- How often something comes, from what follows an opening brace. -/
def interval? (extended : Bool) (cs : List Char) : Option (Nat × Option Nat × List Char) :=
  let number (ds : List Char) : Nat := ((String.ofList ds).toNat?).getD 0
  let low := cs.takeWhile Char.isDigit
  let close (rest : List Char) : Option (List Char) :=
    match extended, rest with
    | true, '}' :: rest => some rest
    | false, '\\' :: '}' :: rest => some rest
    | _, _ => none
  match cs.drop low.length with
  | ',' :: rest =>
    let high := rest.takeWhile Char.isDigit
    (close (rest.drop high.length)).map fun rest =>
      (number low, if high.isEmpty then none else some (number high), rest)
  | rest =>
    if low.isEmpty then none
    else (close rest).map fun rest => (number low, some (number low), rest)

/-- Characters of words. -/
def wordItems : List BracketItem := [.kind .alnum, .range '_' '_']

/-- What a character after a backslash stands for, in both ways of writing. -/
def escaped (d : Dialect) (c : Char) : Regex :=
  match c with
  | 'w' => .oneOf false wordItems
  | 'W' => .oneOf true wordItems
  | 's' => .oneOf false [.kind .space]
  | 'S' => .oneOf true [.kind .space]
  | 'b' => .wordEdge
  | 'B' => .wordInside
  | '<' => .wordStart
  | '>' => .wordEnd
  | '\x60' => .textStart
  | '\x27' => .textEnd
  | c =>
    if c.isDigit && c ≠ '0' then .again (c.toNat - 48)
    else if !d.escapes then .char c
    else
      match c with
      | 'n' => .char '\n'
      | 't' => .char '\t'
      | 'f' => .char '\x0c'
      | 'v' => .char '\x0b'
      | 'r' => .char '\r'
      | 'a' => .char '\x07'
      | c => .char c

/-- Whether what follows closes a group, starts another branch, or is nothing. -/
def isAtEnd (extended : Bool) (cs : List Char) : Bool :=
  match cs with
  | [] => true
  | '\\' :: ')' :: _ | '\\' :: '|' :: _ => !extended
  | ')' :: _ | '|' :: _ => extended
  | _ => false

/-- The tokens of an expression. `atStart` says whether a branch starts. -/
def tokens (d : Dialect) : (fuel : Nat) → (atStart : Bool) → List Char →
    Except String (List RegexToken)
  | 0, _, _ => .ok []
  | _, _, [] => .ok []
  | fuel + 1, atStart, c :: rest =>
    let add (t : RegexToken) (start : Bool) (rest : List Char) : Except String (List RegexToken) :=
      return t :: (← tokens d fuel start rest)
    let item (r : Regex) (rest : List Char) := add (.item r) false rest
    let braces (rest : List Char) (otherwise : Except String (List RegexToken)) :=
      match interval? d.extended rest with
      | some (least, most, rest) =>
        if most.any (· < least) then .error "Invalid content of \\\x7b\\\x7d"
        else add (.times least most) false rest
      | none => otherwise
    match c with
    | '\\' =>
      match rest with
      | [] => .error "Trailing backslash"
      | e :: after =>
        if d.extended then item (escaped d e) after
        else match e with
          | '(' => add .opening true after
          | ')' => add .closing false after
          | '|' => add .bar true after
          | '{' =>
            if atStart then .error "Invalid preceding regular expression"
            else braces after (.error "Unmatched \\\x7b")
          | '+' => if atStart then item (.char '+') after else add (.times 1 none) false after
          | '?' => if atStart then item (.char '?') after else add (.times 0 (some 1)) false after
          | e => item (escaped d e) after
    | '[' => do
      let (r, after) ← bracket d rest
      item r after
    | '.' => item .any rest
    | '*' =>
      if atStart && !d.extended then item (.char '*') rest
      else if atStart && d.strict then .error "Invalid preceding regular expression"
      else if atStart then tokens d fuel true rest
      else add (.times 0 none) false rest
    | '^' =>
      if d.extended || atStart then add (.item .lineStart) true rest else item (.char '^') rest
    | '$' =>
      if d.extended || isAtEnd false rest then item .lineEnd rest else item (.char '$') rest
    | c =>
      if !d.extended then item (.char c) rest
      else match c with
        | '(' => add .opening true rest
        | ')' => add .closing false rest
        | '|' => add .bar true rest
        | '+' => add (.times 1 none) false rest
        | '?' => add (.times 0 (some 1)) false rest
        | '{' =>
          if atStart then .error "Invalid preceding regular expression"
          else braces rest (if d.strict then .error "Unmatched \\\x7b" else item (.char '{') rest)
        | c => item (.char c) rest

/-! ## Reading -/

mutual

/-- Branches, and what follows them. `groups` is how many groups there were before. -/
def branches (d : Dialect) (inside : Bool) : (fuel : Nat) → (groups : Nat) → List RegexToken →
    Except String (Regex × Nat × List RegexToken)
  | 0, _, _ => .error "Regular expression too big"
  | fuel + 1, groups, ts => do
    let (a, groups, rest) ← branch d inside fuel groups .empty ts
    match rest with
    | .bar :: rest =>
      let (b, groups, rest) ← branches d inside fuel groups rest
      return (.alt a b, groups, rest)
    | rest => return (a, groups, rest)

/-- What stands in a branch after what has been read of it. -/
def branch (d : Dialect) (inside : Bool) : (fuel : Nat) → (groups : Nat) → Regex → List RegexToken →
    Except String (Regex × Nat × List RegexToken)
  | 0, _, _, _ => .error "Regular expression too big"
  | fuel + 1, groups, before, ts =>
    match ts with
    | [] | .bar :: _ => .ok (before, groups, ts)
    | .closing :: rest =>
      if inside then .ok (before, groups, ts)
      else if d.extended && !d.strict then
        let (a, rest) := repeated (.char ')') rest
        branch d inside fuel groups (.seq before a) rest
      else .error "Unmatched ) or \\)"
    | .opening :: rest => do
      let number := groups + 1
      let (a, groups, rest) ← branches d true fuel number rest
      match rest with
      | .closing :: rest =>
        let (a, rest) := repeated (.group number a) rest
        branch d inside fuel groups (.seq before a) rest
      | _ => throw "Unmatched ( or \\("
    | .item r :: rest =>
      match r with
      | .again n =>
        if n > groups then .error "Invalid back reference"
        else
          let (a, rest) := repeated r rest
          branch d inside fuel groups (.seq before a) rest
      | r =>
        let (a, rest) := repeated r rest
        branch d inside fuel groups (.seq before a) rest
    | .times _ _ :: rest => branch d inside fuel groups before rest

/-- An expression with the repetitions that follow it. -/
def repeated (a : Regex) : List RegexToken → Regex × List RegexToken
  | .times least most :: rest => repeated (.times a least most) rest
  | rest => (a, rest)

end

/-- The expression that a text is, with the number of its groups. -/
def read (d : Dialect) (text : List Char) : Except String (Regex × Nat) := do
  let ts ← tokens d (text.length + 1) true text
  let (r, groups, rest) ← branches d false (4 * ts.length + 4) 0 ts
  match rest with
  | [] => return (r, groups)
  | _ => throw "Unmatched ) or \\)"

/-! ## Matching -/

/-- A place in a text. -/
structure Spot where
  /-- The character before it. -/
  before : Option Char := none
  rest : List Char
  position : Nat := 0
  /-- What the groups stand for, the youngest first. -/
  groups : List (Nat × List Char) := []

namespace Spot

/-- The place after the next character. -/
def next (s : Spot) (c : Char) (rest : List Char) : Spot :=
  { s with before := some c, rest, position := s.position + 1 }

/-- What a group stands for. -/
def group? (s : Spot) (n : Nat) : Option (List Char) := (s.groups.find? (·.1 = n)).map (·.2)

end Spot

/-- How texts are matched. -/
structure Matching where
  ignoreCase : Bool := false
  /-- Whether lines within the text have a start and an end, too. -/
  byLine : Bool := false

/-- Whether two characters count as the same. -/
def Matching.same (m : Matching) (a b : Char) : Bool :=
  a = b || (m.ignoreCase && a.toLower = b.toLower)

/-- Whether a character is one of those listed. -/
def Matching.lists (m : Matching) (items : List BracketItem) (c : Char) : Bool :=
  items.any (·.contains c)
    || (m.ignoreCase && (items.any (·.contains c.toLower) || items.any (·.contains c.toUpper)))

/-- Whether a character belongs to a word. -/
def isWordChar (c : Char) : Bool := c.isAlphanum || c = '_'

/-- The longer of two matches; the second one is not looked for if the first takes everything. -/
def longer (a : Option Spot) (b : Unit → Option Spot) : Option Spot :=
  match a with
  | none => b ()
  | some s =>
    if s.rest.isEmpty then some s
    else match b () with
      | some t => if t.position > s.position then some t else some s
      | none => some s

/-- Repeats a step that matches something, and goes on with what follows. Past what is needed, a
step must get further. -/
def repeatFrom (step : Spot → (Spot → Option Spot) → Option Spot) (go : Spot → Option Spot)
    (least : Nat) (most : Option Nat) : (fuel : Nat) → (count : Nat) → Spot → Option Spot
  | 0, _, s => go s
  | fuel + 1, count, s =>
    let more :=
      if most.all (count < ·) then
        step s fun t =>
          if t.position > s.position || count < least then
            repeatFrom step go least most fuel (count + 1) t
          else none
      else none
    if count < least then more else longer more fun _ => go s

/-- A place after some text that must come next. -/
def follow (m : Matching) : List Char → Spot → Option Spot
  | [], s => some s
  | c :: cs, s =>
    match s.rest with
    | d :: rest => if m.same c d then follow m cs (s.next d rest) else none
    | [] => none

/-- Matches an expression at a place; `go` matches what follows it. The longest match of both
counts. -/
def run (m : Matching) : Regex → Spot → (Spot → Option Spot) → Option Spot
  | .empty, s, go => go s
  | .char c, s, go =>
    match s.rest with
    | d :: rest => if m.same c d then go (s.next d rest) else none
    | [] => none
  | .any, s, go =>
    match s.rest with
    | d :: rest => go (s.next d rest)
    | [] => none
  | .oneOf negated items, s, go =>
    match s.rest with
    | d :: rest => if m.lists items d != negated then go (s.next d rest) else none
    | [] => none
  | .seq a b, s, go => run m a s fun t => run m b t go
  | .alt a b, s, go => longer (run m a s go) fun _ => run m b s go
  | .times a least most, s, go =>
    repeatFrom (fun s go => run m a s go) go least most (s.rest.length + least + 1) 0 s
  | .group n a, s, go =>
    run m a s fun t =>
      go { t with groups := (n, s.rest.take (t.position - s.position)) :: t.groups }
  | .again n, s, go =>
    match s.group? n with
    | some cs => (follow m cs s).bind go
    | none => none
  | .lineStart, s, go =>
    if s.before.isNone || (m.byLine && s.before = some '\n') then go s else none
  | .lineEnd, s, go =>
    if s.rest.isEmpty || (m.byLine && s.rest.head? = some '\n') then go s else none
  | .textStart, s, go => if s.before.isNone then go s else none
  | .textEnd, s, go => if s.rest.isEmpty then go s else none
  | .wordStart, s, go => if !isBefore s && isAfter s then go s else none
  | .wordEnd, s, go => if isBefore s && !isAfter s then go s else none
  | .wordEdge, s, go => if isBefore s != isAfter s then go s else none
  | .wordInside, s, go => if isBefore s = isAfter s then go s else none
  | .clearBefore, s, go => if isBefore s then none else go s
  | .clearAfter, s, go => if isAfter s then none else go s
where
  /-- Whether a word stands before a place. -/
  isBefore (s : Spot) : Bool := s.before.any isWordChar
  /-- Whether a word stands after a place. -/
  isAfter (s : Spot) : Bool := s.rest.head?.any isWordChar

/-- A match: where it starts, and the place at its end. -/
structure Match where
  start : Spot
  stop : Spot

namespace Match

/-- The text of a match. -/
def text (r : Match) : List Char := r.start.rest.take (r.stop.position - r.start.position)

end Match

/-- The first match at some place or after it. -/
def findFrom (m : Matching) (r : Regex) : List Char → Spot → Option Match
  | [], s => (r.run m s some).map (⟨s, ·⟩)
  | c :: rest, s =>
    match r.run m { s with rest := c :: rest } some with
    | some stop => some ⟨{ s with rest := c :: rest }, stop⟩
    | none => findFrom m r rest (s.next c rest)

/-- The first match at some place or after it. -/
def find (m : Matching) (r : Regex) (s : Spot) : Option Match := findFrom m r s.rest s

end Regex

end StorageLayout.Shell
