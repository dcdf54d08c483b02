import StorageLayout.Shell.Reader

/-!
# The Grammar of Commands

From words and operators to commands.

A script is read one complete command at a time, for what a command does can change how the next
one is read, and a mistake further on does not keep what stands before it from being run. Inside a
compound command lists of commands go on over line breaks up to the word that closes them.

## Main definitions

* `Grammar.list`: Commands up to what closes them.
* `Grammar.single`: A command that is no list.
* `readCommand`: The next complete command of a script.
-/

namespace StorageLayout.Shell

namespace Grammar

open Reader

/-- Stops at a token that does not belong where it stands. -/
def unexpected {α : Type} (t : Token) (expected : Option String) : Read α :=
  fail (.unexpected t.text expected)

/-- Whether a token is an operator. -/
def isOperator (text : String) : Token → Bool
  | .operator t => t == text
  | _ => false

/-- Whether a token is a reserved word. -/
def isKeyword (text : String) : Token → Bool
  | .keyword t => t == text
  | _ => false

/-- Whether a token ends a list of commands that may be empty. -/
def closesList : Token → Bool
  | .endOfFile => true
  | .operator t => t == ")" || t == ";;"
  | .keyword t =>
    ["do", "done", "elif", "else", "esac", "fi", "then", "\x7d"].contains t
  | _ => false

/-- A keyword as messages expect it. -/
def quotedKeyword (text : String) : String := "\"" ++ text ++ "\""

/-- How a list of commands is read. -/
inductive ListStyle where
  /-- A complete command: a line. -/
  | line
  /-- A list that has a command at least. -/
  | filled
  /-- A list that may be empty. -/
  | open_
deriving DecidableEq

/-- Two commands after each other. -/
def join : Option Command → Command → Command
  | none, second => second
  | some first, second => .sequence first second

/-- An assignment that a word makes: the name and what stands after the equals sign. -/
def assignment? (w : Word) : Option (String × Word) :=
  let isPlain (s : Segment) : Bool := match s with
    | .char c false => isNameChar c
    | _ => false
  match w.dropWhile isPlain with
  | .char '=' false :: value =>
    match bareText? (w.takeWhile isPlain) with
    | some name => if isName name then some (name, value) else none
    | none => none
  | _ => none

/-- The names of the built-in commands that no function can have. -/
def specialBuiltins : List String :=
  [".", ":", "break", "continue", "eval", "exec", "exit", "export", "local", "readonly", "return",
    "set", "shift", "times", "trap", "unset"]

/-- What follows a redirection: its target. -/
def redirectTarget (commands : Read Command) (stream : Nat) (kind : RedirectKind) :
    Read Redirect := do
  match kind with
  | .document stripTabs =>
    match ← nextToken commands true with
    | .word w quoted =>
      let r ← get
      let number := r.documents.size
      set { r with
        documents := r.documents.push []
        pending := r.pending ++
          [{ number, delimiter := (plainText? w).getD "", quoted, stripTabs : Pending }] }
      return .document stream number
    | t => unexpected t none
  | .copy =>
    match ← nextToken commands false with
    | .word w _ =>
      match plainText? w with
      | some text =>
        if text = "-" || (text.length = 1 && text.all Char.isDigit) then return .copy stream w
        else fail .badStream
      | none => return .copy stream w
    | t => unexpected t none
  | .file opening =>
    match ← nextToken commands false with
    | .word w _ => return .file stream opening w
    | t => unexpected t none

/-- The redirections that come next. -/
def redirects (commands : Read Command) : (fuel : Nat) → Read (List Redirect)
  | 0 => return []
  | fuel + 1 => do
    match ← readToken commands false true true fuel with
    | .redirection stream kind =>
      let r ← redirectTarget commands stream kind
      return r :: (← redirects commands fuel)
    | t =>
      putBack t
      return []

/-- The parts of a simple command. -/
structure Parts where
  assignments : List (String × Word) := []
  words : List Word := []
  redirects : List Redirect := []

/-- The words up to the end of the list that a loop runs over. -/
def loopWords (commands : Read Command) : (fuel : Nat) → Read (List Word)
  | 0 => return []
  | fuel + 1 => do
    match ← nextToken commands false with
    | .word w _ => return w :: (← loopWords commands fuel)
    | .newline | .operator ";" => return []
    | t => unexpected t none

/-- The patterns of a case up to the parenthesis that ends them. -/
def patterns (commands : Read Command) : (fuel : Nat) → (first : Token) → Read (List Word)
  | 0, _ => return []
  | fuel + 1, first => do
    let w := match first with
      | .word w _ => w
      | .keyword text | .operator text => text.toList.map fun c => .char c false
      | _ => []
    match ← nextToken commands false with
    | .operator "|" =>
      let next ← nextToken commands false
      return w :: (← patterns commands fuel next)
    | .operator ")" => return [w]
    | t => unexpected t (some "\")\"")

mutual

/-- Commands up to what closes them. -/
def list (style : ListStyle) : (fuel : Nat) → Read (Option Command)
  | 0 => return none
  | fuel + 1 => listFrom style none fuel

/-- The commands of a list after those that have been read. -/
def listFrom (style : ListStyle) (before : Option Command) : (fuel : Nat) → Read (Option Command)
  | 0 => return before
  | fuel + 1 => do
    let commands : Read Command := do return (← list .open_ fuel).getD .nothing
    let t ← readToken commands (style ≠ .line) true true fuel
    match t with
    | .newline =>
      readDocuments commands
      return before
    | .endOfFile =>
      readDocuments commands
      putBack t
      return before
    | t =>
      putBack t
      if (style = .open_ || (style = .filled && before.isSome)) && closesList t then
        return before
      let command ← chain fuel
      match ← readToken commands false true false fuel with
      | .operator "&" => listFrom style (some (join before (.background command))) fuel
      | .operator ";" => listFrom style (some (join before command)) fuel
      | .newline =>
        putBack .newline
        listFrom style (some (join before command)) fuel
      | .endOfFile =>
        readDocuments commands
        putBack .endOfFile
        return some (join before command)
      | t =>
        if style = .line then unexpected t none
        putBack t
        return some (join before command)

/-- Pipelines joined by `&&` and `||`. -/
def chain : (fuel : Nat) → Read Command
  | 0 => return .nothing
  | fuel + 1 => do
    let first ← pipeline false fuel
    chainFrom first fuel

/-- What is joined to pipelines that have been read. -/
def chainFrom (before : Command) : (fuel : Nat) → Read Command
  | 0 => return before
  | fuel + 1 => do
    let commands : Read Command := do return (← list .open_ fuel).getD .nothing
    match ← readToken commands false true false fuel with
    | .operator "&&" => chainFrom (.andThen before (← pipeline true fuel)) fuel
    | .operator "||" => chainFrom (.orElse before (← pipeline true fuel)) fuel
    | t =>
      putBack t
      return before

/-- Commands whose streams are joined. -/
def pipeline (lines : Bool) : (fuel : Nat) → Read Command
  | 0 => return .nothing
  | fuel + 1 => do
    let commands : Read Command := do return (← list .open_ fuel).getD .nothing
    let t ← readToken commands lines true true fuel
    let negated := isKeyword "!" t
    if !negated then putBack t
    let first ← single false fuel
    let body ← match ← stages fuel with
      | [] => pure first
      | others => pure (.pipe (first :: others))
    return if negated then .negate body else body

/-- The commands after a bar. -/
def stages : (fuel : Nat) → Read (List Command)
  | 0 => return []
  | fuel + 1 => do
    let commands : Read Command := do return (← list .open_ fuel).getD .nothing
    match ← readToken commands false true false fuel with
    | .operator "|" =>
      let next ← single true fuel
      return next :: (← stages fuel)
    | t =>
      putBack t
      return []

/-- Commands that must be there, and the word that closes them. -/
def closedList (closing : String) : (fuel : Nat) → Read Command
  | 0 => return .nothing
  | fuel + 1 => do
    let body ← list .filled fuel
    let commands : Read Command := do return (← list .open_ fuel).getD .nothing
    match ← readToken commands false true false fuel with
    | .keyword text =>
      if text = closing then return body.getD .nothing
      else unexpected (.keyword text) (some (quotedKeyword closing))
    | t => unexpected t (some (quotedKeyword closing))

/-- A choice after its `if` or `elif`. -/
def branches : (fuel : Nat) → Read Command
  | 0 => return .nothing
  | fuel + 1 => do
    let condition ← closedList "then" fuel
    let yes ← list .filled fuel
    let commands : Read Command := do return (← list .open_ fuel).getD .nothing
    match ← readToken commands false true false fuel with
    | .keyword "elif" => return .branch condition (yes.getD .nothing) (← branches fuel)
    | .keyword "else" => return .branch condition (yes.getD .nothing) (← closedList "fi" fuel)
    | .keyword "fi" => return .branch condition (yes.getD .nothing) .nothing
    | t => unexpected t (some (quotedKeyword "fi"))

/-- The cases of a choice by pattern. -/
def cases : (fuel : Nat) → Read (List (List Word × Command))
  | 0 => return []
  | fuel + 1 => do
    let commands : Read Command := do return (← list .open_ fuel).getD .nothing
    match ← readToken commands true true false fuel with
    | .keyword "esac" => return []
    | t =>
      let first ← if isOperator "(" t then nextToken commands false else pure t
      let alternatives ← patterns commands fuel first
      let body ← list .open_ fuel
      match ← readToken commands true true false fuel with
      | .keyword "esac" => return [(alternatives, body.getD .nothing)]
      | .operator ";;" => return (alternatives, body.getD .nothing) :: (← cases fuel)
      | t => unexpected t (some "\";;\"")

/-- The body of a loop over fields. -/
def loopOver (line : Nat) : (fuel : Nat) → Read Command
  | 0 => return .nothing
  | fuel + 1 => do
    let commands : Read Command := do return (← list .open_ fuel).getD .nothing
    let name ← match ← nextToken commands false with
      | .word w false =>
        match bareText? w with
        | some name => if isName name then pure name else fail .badLoopName
        | none => fail .badLoopName
      | _ => fail .badLoopName
    let words ← match ← readToken commands true true true fuel with
      | .keyword "in" => do
        let words ← loopWords commands fuel
        pure (some words)
      | .operator ";" => pure none
      | t => do
        putBack t
        pure none
    match ← readToken commands true true true fuel with
    | .keyword "do" => return .forEach line name words (← closedList "done" fuel)
    | t => unexpected t (some (quotedKeyword "do"))

/-- A compound command with the redirections after it. -/
def compound (first : Token) : (fuel : Nat) → Read Command
  | 0 => return .nothing
  | fuel + 1 => do
    let commands : Read Command := do return (← list .open_ fuel).getD .nothing
    let line := (← get).line
    match first with
    | .operator "(" =>
      let body ← list .filled fuel
      match ← readToken commands false true false fuel with
      | .operator ")" => return .apart line (body.getD .nothing) (← redirects commands fuel)
      | t => unexpected t (some "\")\"")
    | _ =>
      let body ← match first with
        | .keyword "if" => branches fuel
        | .keyword "while" => do
          let condition ← closedList "do" fuel
          pure (.loop true condition (← closedList "done" fuel))
        | .keyword "until" => do
          let condition ← closedList "do" fuel
          pure (.loop false condition (← closedList "done" fuel))
        | .keyword "for" => loopOver line fuel
        | .keyword "case" => do
          match ← nextToken commands false with
          | .word subject _ =>
            match ← readToken commands true true true fuel with
            | .keyword "in" => pure (.choose line subject (← cases fuel))
            | t => unexpected t (some (quotedKeyword "in"))
          | t => unexpected t (some "word")
        | _ => closedList "\x7d" fuel
      match ← redirects commands fuel with
      | [] => return body
      | rs => return .redirected line body rs

/-- A command that is no list: a compound one, a function, or a simple one. -/
def single (lines : Bool) : (fuel : Nat) → Read Command
  | 0 => return .nothing
  | fuel + 1 => do
    let commands : Read Command := do return (← list .open_ fuel).getD .nothing
    let t ← readToken commands lines true true fuel
    match t with
    | .word _ _ | .redirection _ _ =>
      let line := (← get).line
      putBack t
      simple line {} true fuel
    | .operator "(" => compound t fuel
    | .keyword k =>
      if k ∈ ["if", "while", "until", "for", "case", "\x7b"] then compound t fuel
      else unexpected t none
    | t => unexpected t none

/-- A simple command, after the parts that have been read. `leading` says that words may still be
assignments. -/
def simple (line : Nat) (parts : Parts) (leading : Bool) : (fuel : Nat) → Read Command
  | 0 => return .nothing
  | fuel + 1 => do
    let commands : Read Command := do return (← list .open_ fuel).getD .nothing
    match ← readToken commands false false leading fuel with
    | .word w quoted =>
      match if leading then assignment? w else none with
      | some a => simple line { parts with assignments := parts.assignments ++ [a] } true fuel
      | none =>
        let named := parts.words = [] && parts.assignments = [] && parts.redirects.isEmpty
        let next ← nextToken commands false
        if named && isOperator "(" next then
          match ← nextToken commands false with
          | .operator ")" =>
            match if quoted then none else bareText? w with
            | some name =>
              if isName name && !(specialBuiltins.contains name) then
                return .function name (← single true fuel)
              else fail .badFunctionName
            | none => fail .badFunctionName
          | t => unexpected t (some "\")\"")
        else
          putBack next
          simple line { parts with words := parts.words ++ [w] } false fuel
    | .redirection stream kind =>
      let r ← redirectTarget commands stream kind
      simple line { parts with redirects := parts.redirects ++ [r] } leading fuel
    | t =>
      putBack t
      return .simple line parts.assignments parts.words parts.redirects

end

end Grammar

/-- How many steps reading a script may take. Every step takes a character, or passes to one of a
few that do. -/
def readingFuel (r : Reader) : Nat := 16 * r.rest.length + 64

/-- The next complete command of a script; nothing at its end. -/
def readCommand : Read (Option Command) := do
  let r ← get
  let fuel := readingFuel r
  let commands : Read Command := do return (← Grammar.list .open_ fuel).getD .nothing
  match ← Reader.nextToken commands false with
  | .endOfFile => return none
  | t =>
    Reader.putBack t
    return some ((← Grammar.list .line fuel).getD .nothing)

end StorageLayout.Shell
