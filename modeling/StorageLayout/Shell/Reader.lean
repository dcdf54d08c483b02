import StorageLayout.Shell.Command

/-!
# Reading Words

From the text of a script to words, operators and redirections.

A reader goes through the text character by character and counts lines. What a character means
depends on the quotes around it: between double quotes only the dollar sign, the backquote and the
backslash keep their meaning, and a word in braces, an arithmetic expression and a text in the
script have rules of their own.

Commands stand inside of words, too, where a command's output is wanted, so that reading words
needs a way to read commands. It is a parameter here; the grammar of commands provides it.

## Main definitions

* `Token`: A word, an operator or a redirection.
* `SyntaxFault`: Why a script cannot be read.
* `Reader`: Where the reader is.
* `Read`: A step of reading.
* `Reader.readToken`: The next token.
-/

namespace StorageLayout.Shell

/-- What a redirection does, as its operator says. -/
inductive RedirectKind where
  | file (opening : Opening)
  | copy
  /-- A text in the script, whose lines may lose the tabs they begin with. -/
  | document (stripTabs : Bool)
deriving Repr, DecidableEq

/-- A word, an operator or a redirection. -/
inductive Token where
  | endOfFile
  | newline
  | operator (text : String)
  /-- A word that the grammar reserves. -/
  | keyword (text : String)
  | redirection (stream : Nat) (kind : RedirectKind)
  /-- A word, and whether anything in it was quoted. -/
  | word (w : Word) (quoted : Bool)

instance : Inhabited Token := ⟨.endOfFile⟩

/-- A token as messages show it. -/
def Token.text : Token → String
  | .endOfFile => "end of file"
  | .newline => "newline"
  | .operator text => "\"" ++ text ++ "\""
  | .keyword text => "\"" ++ text ++ "\""
  | .redirection _ _ => "redirection"
  | .word _ _ => "word"

/-- Why a script cannot be read. -/
inductive Misreading where
  | unexpected (found : String) (expected : Option String)
  | unterminatedQuote
  | missingBrace
  | missingParentheses
  | unterminatedBackquote
  | badLoopName
  | badFunctionName
  | badStream
deriving Repr, DecidableEq

/-- A misreading in words. -/
def Misreading.text : Misreading → String
  | .unexpected found none => s!"{found} unexpected"
  | .unexpected found (some expected) => s!"{found} unexpected (expecting {expected})"
  | .unterminatedQuote => "Unterminated quoted string"
  | .missingBrace => "Missing '\x7d'"
  | .missingParentheses => "Missing '))'"
  | .unterminatedBackquote => "EOF in backquote substitution"
  | .badLoopName => "Bad for loop variable"
  | .badFunctionName => "Bad function name"
  | .badStream => "Bad fd number"

/-- Why a script cannot be read, and in which line. -/
structure SyntaxFault where
  line : Nat
  what : Misreading
deriving Repr, DecidableEq

/-- A text in the script that has been announced and not been read. -/
structure Pending where
  number : Nat
  delimiter : String
  quoted : Bool
  stripTabs : Bool

/-- Where a reader is. -/
structure Reader where
  rest : List Char
  line : Nat := 1
  /-- A token that was put back. -/
  held : Option Token := none
  pending : List Pending := []
  /-- The texts in the script that have been read, by number. -/
  documents : Array Word := #[]
  /-- Words that stand for the text of commands. -/
  aliases : Assoc String String := []

/-- A step of reading. -/
abbrev Read := StateT Reader (Except SyntaxFault)

namespace Reader

/-- Stops with a misreading. -/
def fail {α : Type} (what : Misreading) : Read α := do
  throw ⟨(← get).line, what⟩

/-- Drops line breaks that a backslash hides. -/
def joinLines : (line : Nat) → List Char → Nat × List Char
  | line, '\\' :: '\n' :: rest => joinLines (line + 1) rest
  | line, cs => (line, cs)

/-- The next character, which is not taken. -/
def peek : Read (Option Char) := do
  let r ← get
  let (line, rest) := joinLines r.line r.rest
  set { r with line, rest }
  return rest.head?

/-- Takes a character as it is, where a backslash hides nothing. -/
def takeRaw : Read (Option Char) := do
  let r ← get
  match r.rest with
  | [] => return none
  | c :: rest =>
    set { r with rest, line := if c = '\n' then r.line + 1 else r.line }
    return some c

/-- Takes a character. -/
def take : Read (Option Char) := do
  let _ ← peek
  takeRaw

/-- Takes a given character, if it is next. -/
def takeIf (c : Char) : Read Bool := do
  if (← peek) = some c then
    let _ ← take
    return true
  else return false

/-- Takes characters while they satisfy `p`. -/
def takeWhile (p : Char → Bool) : (fuel : Nat) → Read (List Char)
  | 0 => return []
  | fuel + 1 => do
    match ← peek with
    | some c =>
      if p c then
        let _ ← take
        return c :: (← takeWhile p fuel)
      else return []
    | none => return []

/-! ## Characters -/

/-- Characters that end a word unless they are quoted. -/
def endsWord (c : Char) : Bool :=
  c == ' ' || c == '\t' || c == '\n' || c == ';' || c == '&' || c == '|' || c == '<' || c == '>'
    || c == '(' || c == ')'

/-- Characters that a parameter's name can begin with. -/
def startsName (c : Char) : Bool := c.isAlpha || c == '_'

/-- Characters of a parameter's name. -/
def isNameChar (c : Char) : Bool := c.isAlphanum || c == '_'

/-- Characters that are parameters of their own. -/
def isSpecial (c : Char) : Bool :=
  c == '@' || c == '*' || c == '#' || c == '?' || c == '-' || c == '$' || c == '!' || c.isDigit

/-- Whether a text can be the name of a variable. -/
def isName (s : String) : Bool :=
  match s.toList with
  | [] => false
  | c :: cs => startsName c && cs.all isNameChar

/-! ## Words -/

/-- What ends the part of a word that is read. -/
inductive Closing where
  /-- A blank or an operator. -/
  | blank
  /-- A closing brace, after a parameter's name. -/
  | brace
  /-- A double quote. -/
  | quote
  /-- Two closing parentheses. -/
  | parentheses
  /-- The end of a text in the script. -/
  | document
deriving Repr, DecidableEq

/-- How a part of a word is read. -/
structure Style where
  closing : Closing
  /-- Whether the part stands between double quotes, or is read as if it did. -/
  quoted : Bool
  /-- Whether dollar signs and backquotes mean nothing. -/
  literal : Bool := false

/-- Characters that a backslash makes ordinary in a part that is quoted. -/
def Style.escapes (style : Style) (c : Char) : Bool :=
  c == '\\' || c == '\x60' || c == '$' || (c == '"' && style.closing ≠ .document)
    || (c == '\x7d' && style.closing = .brace)

/-- The characters up to an apostrophe, as they are. -/
def singleQuoted : (fuel : Nat) → Read Word
  | 0 => fail .unterminatedQuote
  | fuel + 1 => do
    match ← takeRaw with
    | none => fail .unterminatedQuote
    | some '\x27' => return []
    | some c => return .char c true :: (← singleQuoted fuel)

/-- The text up to a backquote. A backslash is dropped before the characters it makes ordinary. -/
def backquoted (quoted : Bool) : (fuel : Nat) → Read (List Char)
  | 0 => fail .unterminatedBackquote
  | fuel + 1 => do
    match ← take with
    | none => fail .unterminatedBackquote
    | some '\x60' => return []
    | some '\\' =>
      match ← takeRaw with
      | none => fail .unterminatedBackquote
      | some c =>
        let rest ← backquoted quoted fuel
        if c == '\\' || c == '\x60' || c == '$' || (quoted && c == '"') then return c :: rest
        else return '\\' :: c :: rest
    | some c => return c :: (← backquoted quoted fuel)

/-- The commands between backquotes. `commands` reads commands up to the end of a text. -/
def backquote (commands : Read Command) (quoted : Bool) : Read Segment := do
  let r ← get
  let text ← backquoted quoted (r.rest.length + 1)
  let after ← get
  set { after with rest := text, line := 1, held := none, pending := [] }
  let body ← commands
  let inner ← get
  set { after with documents := inner.documents }
  return .output body quoted

/-- The commands up to a closing parenthesis. Texts in the script that they announce and do not
reach are empty. -/
def parenthesized (commands : Read Command) : Read Command := do
  let before ← get
  set { before with held := none, pending := [] }
  let body ← commands
  let after ← get
  set { after with held := none, pending := before.pending }
  match after.held.getD .endOfFile with
  | .operator ")" => return body
  | t => fail (.unexpected t.text (some "\")\""))

/-- The operator between a parameter's name and the word after it: the way the value is used, once
the word is known, and whether the word is read without regard to double quotes around it. -/
def useOperator : Read (Option ((Word → Use) × Bool)) := do
  let orEmpty ← takeIf ':'
  match ← peek with
  | some '-' => let _ ← take; return some (Use.fallback orEmpty, false)
  | some '=' => let _ ← take; return some (Use.assign orEmpty, false)
  | some '?' => let _ ← take; return some (Use.require orEmpty, false)
  | some '+' => let _ ← take; return some (Use.alternative orEmpty, false)
  | some '%' =>
    if orEmpty then return none
    let _ ← take
    return some (Use.trim true (← takeIf '%'), true)
  | some '#' =>
    if orEmpty then return none
    let _ ← take
    return some (Use.trim false (← takeIf '#'), true)
  | _ => return none

/-- The name of a parameter in braces, and whether its length is asked for. -/
def braceName : Read (Option (String × Bool)) := do
  let r ← get
  let fuel := r.rest.length
  let plain (c : Char) : Read (Option String) := do
    if startsName c then return some (String.ofList (← takeWhile isNameChar fuel))
    else if c.isDigit then return some (String.ofList (← takeWhile Char.isDigit fuel))
    else if isSpecial c then
      let _ ← take
      return some c.toString
    else return none
  match ← peek with
  | none => return none
  | some '#' =>
    let _ ← take
    match ← peek with
    | some '\x7d' | none => return some ("#", false)
    | some c =>
      let before ← get
      match ← plain c with
      | none => return some ("#", false)
      | some name =>
        if isNameChar c || (← peek) = some '\x7d' then return some (name, true)
        else
          set before
          return some ("#", false)
  | some c => return (← plain c).map (·, false)

mutual

/-- The segments up to what closes them, which is taken unless it is a blank or an operator. `depth`
counts open parentheses, and `inner` says whether a quote is open between braces. -/
def segments (commands : Read Command) (style : Style) :
    (fuel : Nat) → (depth : Nat) → (inner : Bool) → Read Word
  | 0, _, _ => return []
  | fuel + 1, depth, inner => do
    let more (s : Segment) : Read Word := do
      return s :: (← segments commands style fuel depth inner)
    match ← peek with
    | none =>
      match style.closing with
      | .blank | .document => return []
      | .brace => if inner then fail .unterminatedQuote else fail .missingBrace
      | .quote => fail .unterminatedQuote
      | .parentheses => fail .missingParentheses
    | some c =>
      if style.closing = .blank && endsWord c then return []
      let _ ← take
      if c = '\\' then
        match ← takeRaw with
        | none => more (.char '\\' true)
        | some d =>
          if style.quoted && !style.escapes d then
            return .char '\\' true :: .char d true :: (← segments commands style fuel depth inner)
          else more (.char d true)
      else if c = '$' && !style.literal then
        let s ← dollar commands style.quoted fuel
        return s ++ (← segments commands style fuel depth inner)
      else if c = '\x60' && !style.literal then
        let s ← backquote commands style.quoted
        more s
      else if c = '"' then
        match style.closing with
        | .quote => return []
        | .document | .parentheses => more (.char c true)
        | .brace =>
          if style.quoted then
            return .mark :: (← segments commands style fuel depth !inner)
          else doubleQuote commands style fuel depth inner
        | .blank => doubleQuote commands style fuel depth inner
      else if c = '\x27' && !style.quoted then
        let r ← get
        let s ← singleQuoted (r.rest.length + 1)
        return .mark :: s ++ (← segments commands style fuel depth inner)
      else if c = '\x7d' && style.closing = .brace && !inner then return []
      else if style.closing = .parentheses && c = '(' then
        return .char c true :: (← segments commands style fuel (depth + 1) inner)
      else if style.closing = .parentheses && c = ')' then
        if depth > 0 then
          return .char c true :: (← segments commands style fuel (depth - 1) inner)
        else if ← takeIf ')' then return []
        else more (.char c true)
      else more (.char c style.quoted)

/-- A part between double quotes, and what follows it. Where nothing but all positional parameters
stand between them, the quotes make no field of their own. -/
def doubleQuote (commands : Read Command) (style : Style) :
    (fuel : Nat) → (depth : Nat) → (inner : Bool) → Read Word
  | 0, _, _ => return []
  | fuel + 1, depth, inner => do
    let within := { closing := .quote, quoted := true, literal := style.literal : Style }
    let s ← segments commands within fuel 0 false
    let rest ← segments commands style fuel depth inner
    match s with
    | [.parameter "@" .value true] => return s ++ rest
    | _ => return .mark :: s ++ rest

/-- What a dollar sign begins. -/
def dollar (commands : Read Command) (quoted : Bool) : (fuel : Nat) → Read Word
  | 0 => return []
  | fuel + 1 => do
    match ← peek with
    | some '(' =>
      let _ ← take
      if ← takeIf '(' then
        let body ← segments commands { closing := .parentheses, quoted := true } fuel 0 false
        return [.arithmetic body quoted]
      else
        let body ← parenthesized commands
        return [.output body quoted]
    | some '\x7b' =>
      let _ ← take
      return [← braces commands quoted fuel]
    | some c =>
      if startsName c then
        let r ← get
        let name ← takeWhile isNameChar (r.rest.length + 1)
        return [.parameter (String.ofList name) .value quoted]
      else if isSpecial c then
        let _ ← take
        return [.parameter c.toString .value quoted]
      else return [.char '$' true]
    | none => return [.char '$' true]

/-- A parameter in braces, after the opening one. What makes no sense is read to the closing brace,
and is an error only when it is used. -/
def braces (commands : Read Command) (quoted : Bool) : (fuel : Nat) → Read Segment
  | 0 => return .mark
  | fuel + 1 => do
    let rest (quoted : Bool) : Read Word :=
      segments commands { closing := .brace, quoted } fuel 0 false
    match ← braceName with
    | none =>
      let _ ← rest quoted
      return .parameter "" .unknown quoted
    | some (name, true) =>
      if ← takeIf '\x7d' then return .parameter name .length quoted
      let _ ← rest quoted
      return .parameter name .unknown quoted
    | some (name, false) =>
      if ← takeIf '\x7d' then return .parameter name .value quoted
      match ← useOperator with
      | some (use, bare) => return .parameter name (use (← rest (quoted && !bare))) quoted
      | none =>
        let _ ← rest quoted
        return .parameter name .unknown quoted

end

/-! ## Texts in the script -/

/-- A line of a text without the tabs it begins with, if they are to go. -/
def shownLine (p : Pending) (cs : List Char) : List Char :=
  if p.stripTabs then cs.dropWhile (· = '\t') else cs

/-- Whether a line ends in a backslash that hides its end. -/
def isContinued (cs : List Char) : Bool := (cs.reverse.takeWhile (· = '\\')).length % 2 == 1

/-- The lines of a text up to its delimiter, and what follows it. Where quotes are none, a line that
is continued is not compared with the delimiter. -/
def documentLines (p : Pending) : (fuel : Nat) → (continued : Bool) → List Char →
    List Char × List Char
  | 0, _, cs => (cs, [])
  | _, _, [] => ([], [])
  | fuel + 1, continued, cs =>
    let line := cs.takeWhile (· ≠ '\n')
    let rest := (cs.dropWhile (· ≠ '\n')).drop 1
    let shown := if continued then line else shownLine p line
    if !continued && shown = p.delimiter.toList then ([], rest)
    else
      let (body, after) := documentLines p fuel (!p.quoted && isContinued line) rest
      let ending := if line.length < cs.length then ['\n'] else []
      (shown ++ ending ++ body, after)

/-- Reads the texts that have been announced, once the line that announces them ends. -/
def readDocuments (commands : Read Command) : Read Unit := do
  let announced := (← get).pending
  modify fun r => { r with pending := [] }
  for p in announced do
    let r ← get
    let (body, rest) := documentLines p (r.rest.length + 1) false r.rest
    let taken := r.rest.take (r.rest.length - rest.length)
    let w ← if p.quoted then pure (body.map fun c => .char c true) else do
      set { r with rest := body, held := none }
      segments commands { closing := .document, quoted := true } (body.length + 2) 0 false
    modify fun inner =>
      { r with
        rest
        pending := []
        line := r.line + taken.count '\n'
        documents := inner.documents.set! p.number w }

/-! ## Tokens -/

/-- Skips blanks, and a comment up to the end of its line. -/
def skipBlanks : (fuel : Nat) → Read Unit
  | 0 => return
  | fuel + 1 => do
    match ← peek with
    | some ' ' | some '\t' =>
      let _ ← take
      skipBlanks fuel
    | some '#' => modify fun r => { r with rest := r.rest.dropWhile (· ≠ '\n') }
    | _ => return

/-- The redirection after its first character. -/
def redirection (c : Char) (stream : Option Nat) : Read Token := do
  if c = '>' then
    let kind ←
      if ← takeIf '>' then pure (.file .append)
      else if ← takeIf '|' then pure (.file .overwrite)
      else if ← takeIf '&' then pure .copy
      else pure (.file .write)
    return .redirection (stream.getD 1) kind
  else
    let kind ←
      if ← takeIf '<' then pure (.document (← takeIf '-'))
      else if ← takeIf '&' then pure .copy
      else if ← takeIf '>' then pure (.file .readWrite)
      else pure (.file .read)
    return .redirection (stream.getD 0) kind

/-- Whether a segment comes from quoting. -/
def isQuoting : Segment → Bool
  | .mark => true
  | .char _ quoted => quoted
  | _ => false

/-- The next token of the text. `literal` reads the delimiter of a text in the script, where dollar
signs mean nothing. -/
def scanToken (commands : Read Command) (literal : Bool) : Read Token := do
  let r ← get
  let fuel := r.rest.length + 2
  skipBlanks fuel
  match ← peek with
  | none => return .endOfFile
  | some c =>
    if endsWord c then
      let _ ← take
      if c = '\n' then return .newline
      else if c = '<' || c = '>' then redirection c none
      else if c = '&' || c = '|' || c = ';' then
        if ← takeIf c then return .operator (String.ofList [c, c])
        else return .operator c.toString
      else return .operator c.toString
    else
      let w ← segments commands { closing := .blank, quoted := false, literal } fuel 0 false
      match w, ← peek with
      | [.char d false], some e =>
        if d.isDigit && (e = '<' || e = '>') then
          let _ ← take
          redirection e (some (d.toNat - 48))
        else return .word w false
      | _, _ => return .word w (w.any isQuoting)

/-- The next token, or the one that was put back. -/
def nextToken (commands : Read Command) (literal : Bool) : Read Token := do
  match (← get).held with
  | some t =>
    modify fun r => { r with held := none }
    return t
  | none => scanToken commands literal

/-- The words that the grammar reserves. -/
def keywords : List String :=
  ["!", "case", "do", "done", "elif", "else", "esac", "fi", "for", "if", "in", "then", "until",
    "while", "\x7b", "\x7d"]

/-- A word that is reserved, as a keyword. -/
def Token.reserve (t : Token) : Token :=
  match t with
  | .word w false =>
    match bareText? w with
    | some text => if text ∈ keywords then .keyword text else t
    | none => t
  | t => t

/-- Puts the text of an alias in place of a word. It is not looked at for the same alias again. -/
def openAlias (t : Token) : Read Bool := do
  let r ← get
  match t with
  | .word w false =>
    match (bareText? w).bind fun name => (r.aliases.find? name).map (name, ·) with
    | some (name, text) =>
      let blank := if text.toList.getLast? = some ' ' then [] else [' ']
      set { r with
        rest := text.toList ++ blank ++ r.rest
        aliases := r.aliases.filter (·.1 ≠ name) }
      return true
    | none => return false
  | _ => return false

/-- The next token. `lines` skips line breaks before it, `reserved` takes reserved words for what
they are, and `named` replaces aliases. -/
def readToken (commands : Read Command) (lines reserved named : Bool) : (fuel : Nat) → Read Token
  | 0 => return .endOfFile
  | fuel + 1 => do
    let t ← nextToken commands false
    match t with
    | .newline =>
      if lines then
        readDocuments commands
        readToken commands lines reserved named fuel
      else return t
    | t =>
      let t := if reserved then Token.reserve t else t
      if !named then return t
      else if ← openAlias t then readToken commands false reserved named fuel
      else return t

/-- Puts a token back. -/
def putBack (t : Token) : Read Unit := modify fun r => { r with held := some t }

end Reader

end StorageLayout.Shell
