import StorageLayout.Shell.Arithmetic
import StorageLayout.Shell.World

/-!
# Conditions

What can be asked of texts, numbers and files.

A condition is a list of words. Which of them are operators depends on where they stand: a word
that looks like an operator is an operand where no operator makes sense. So a condition is read and
answered in one go, word by word.

## Main definitions

* `ConditionFault`: Why a condition has no answer.
* `Condition.unary`, `Condition.binary`: The questions.
* `Condition.holds`: Whether a condition holds.
-/

namespace StorageLayout.Shell

open FileTree (Trail)

/-- Why a condition has no answer. -/
inductive ConditionFault where
  | unexpected (word : String)
  | argumentExpected (operator : String)
  | unclosed
  | badNumber (word : String)
deriving Repr, DecidableEq

/-- A fault in words. -/
def ConditionFault.text : ConditionFault → String
  | .unexpected word => if word = "" then "unexpected operator" else s!"{word}: unexpected operator"
  | .argumentExpected operator => s!"{operator}: argument expected"
  | .unclosed => "closing paren expected"
  | .badNumber word => s!"Illegal number: {word}"

namespace Condition

/-- What a word is in a condition. -/
inductive Token where
  | finish
  | operand
  | unary (letter : Char)
  | binary (operator : String)
  | not
  | both
  | either
  | openParen
  | closeParen
deriving Repr, DecidableEq

/-- The letters of questions about one word. -/
def unaryLetters : List Char :=
  ['r', 'w', 'x', 'e', 'f', 'd', 'c', 'b', 'p', 'u', 'g', 'k', 's', 't', 'z', 'n', 'h', 'O', 'G',
    'L', 'S']

/-- The operators between two words. -/
def binaryOperators : List String :=
  ["=", "!=", "<", ">", "-eq", "-ne", "-ge", "-gt", "-le", "-lt", "-nt", "-ot", "-ef"]

/-- The operator that a word looks like. -/
def operator? (word : String) : Option Token :=
  match word with
  | "!" => some .not
  | "-a" => some .both
  | "-o" => some .either
  | "(" => some .openParen
  | ")" => some .closeParen
  | _ =>
    if binaryOperators.contains word then some (.binary word)
    else match word.toList with
      | ['-', letter] => if unaryLetters.contains letter then some (.unary letter) else none
      | _ => none

/-- Whether a word is an operator between two others. -/
def isBinary (word : String) : Bool := binaryOperators.contains word

/-- Whether the words after one that looks like a question make it an operand. -/
def areForOperand : List String → Bool
  | [] => true
  | [_] => false
  | word :: _ => isBinary word

/-- What the first of the words is. -/
def lex : List String → Token
  | [] => .finish
  | word :: rest =>
    match operator? word with
    | some (.unary letter) => if areForOperand rest then .operand else .unary letter
    | some .openParen => if rest.isEmpty then .operand else .openParen
    | some t => t
    | none => .operand

/-! ## Questions -/

/-- Whether a path leads to something for which a question has an answer. -/
def ofPath (w : World) (here : Trail) (path : String) (last : Bool) (p : Trail → Bool) : Bool :=
  match w.walk here path last with
  | .ok t => p t
  | .error _ => false

/-- The number that a word is. -/
def number (word : String) : Except ConditionFault Int :=
  match integer? word with
  | some n => .ok n
  | none => .error (.badNumber word)

/-- The answer to a question about one word. No stream leads to a terminal. -/
def unary (w : World) (here : Trail) (letter : Char) (word : String) :
    Except ConditionFault Bool :=
  let ask (p : Trail → Bool) : Except ConditionFault Bool := .ok (ofPath w here word true p)
  match letter with
  | 'z' => .ok (word = "")
  | 'n' => .ok (word ≠ "")
  | 't' => (number word).map fun _ => false
  | 'r' | 'w' | 'e' | 'O' | 'G' => ask fun _ => true
  | 'x' => ask w.isExecutable
  | 'f' => ask fun t => w.kind? t = some .file
  | 'd' => ask fun t => w.kind? t = some .folder
  | 'c' => ask fun t => w.kind? t = some .device
  | 's' => ask fun t => w.kind? t = some .folder || !(w.bytes t).isEmpty
  | 'h' | 'L' => .ok (ofPath w here word false fun t => w.kind? t = some .link)
  | 'k' => ask fun t => w.mode t &&& 0o1000 ≠ 0
  | 'g' => ask fun t => w.mode t &&& 0o2000 ≠ 0
  | 'u' => ask fun t => w.mode t &&& 0o4000 ≠ 0
  | _ => .ok false

/-- The answer to a question about two words. No file is newer than another one. -/
def binary (w : World) (here : Trail) (operator first second : String) :
    Except ConditionFault Bool :=
  let compare (p : Int → Int → Bool) : Except ConditionFault Bool := do
    let a ← number first
    let b ← number second
    return p a b
  match operator with
  | "=" => .ok (first = second)
  | "!=" => .ok (first ≠ second)
  | "<" => .ok (first < second)
  | ">" => .ok (second < first)
  | "-eq" => compare (· == ·)
  | "-ne" => compare (· != ·)
  | "-ge" => compare (· ≥ ·)
  | "-gt" => compare (· > ·)
  | "-le" => compare (· ≤ ·)
  | "-lt" => compare (· < ·)
  | "-ef" => .ok (ofPath w here first true fun t => ofPath w here second true (t == ·))
  | _ => .ok false

/-! ## Reading -/

/-- An answer, and the words from the last one that was looked at on. -/
abbrev Answer := Except ConditionFault (Bool × List String)

mutual

/-- Conditions of which one must hold. -/
def anyOf (w : World) (here : Trail) : (fuel : Nat) → Token → List String → Answer
  | 0, _, words => return (false, words)
  | fuel + 1, t, words => do
    let (first, words) ← allOf w here fuel t words
    match lex words.tail with
    | .either =>
      let words := words.drop 2
      let (second, words) ← anyOf w here fuel (lex words) words
      return (first || second, words)
    | _ => return (first, words)

/-- Conditions that must all hold. -/
def allOf (w : World) (here : Trail) : (fuel : Nat) → Token → List String → Answer
  | 0, _, words => return (false, words)
  | fuel + 1, t, words => do
    let (first, words) ← negated w here fuel t words
    match lex words.tail with
    | .both =>
      let words := words.drop 2
      let (second, words) ← allOf w here fuel (lex words) words
      return (first && second, words)
    | _ => return (first, words)

/-- A condition that may have to fail. -/
def negated (w : World) (here : Trail) : (fuel : Nat) → Token → List String → Answer
  | 0, _, words => return (false, words)
  | fuel + 1, t, words =>
    match t with
    | .not => do
      let next := lex words.tail
      let words := if next = .finish then words else words.tail
      let (answer, words) ← negated w here fuel next words
      return (!answer, words)
    | t => simple w here fuel t words

/-- A single question, or a condition in parentheses. -/
def simple (w : World) (here : Trail) : (fuel : Nat) → Token → List String → Answer
  | 0, _, words => return (false, words)
  | fuel + 1, t, words =>
    match t with
    | .finish => return (false, words)
    | .openParen => do
      let inner := words.tail
      match lex inner with
      | .closeParen => return (false, inner)
      | t =>
        let (answer, words) ← anyOf w here fuel t inner
        if lex words.tail = .closeParen then return (answer, words.tail) else throw .unclosed
    | .unary letter =>
      match words.tail with
      | [] => throw (.argumentExpected (words.headD ""))
      | word :: rest => do
        let answer ← unary w here letter word
        return (answer, word :: rest)
    | _ =>
      match lex words.tail with
      | .binary operator =>
        match words.drop 2 with
        | [] => throw (.argumentExpected operator)
        | word :: rest => do
          let answer ← binary w here operator (words.headD "") word
          return (answer, word :: rest)
      | _ => return (words.headD "" ≠ "", words)

end

/-- Whether the words of a condition hold, when the first of them is taken for a token. -/
def holdsFrom (w : World) (here : Trail) (t : Token) (words : List String) :
    Except ConditionFault Bool := do
  let (answer, rest) ← anyOf w here (8 * words.length + 16) t words
  match rest with
  | word :: _ :: _ => throw (.unexpected word)
  | _ => return answer

/-- Whether a condition holds. Three words with an operator in the middle are always a question
about the other two; three or four words can be in parentheses or negated as a whole. -/
def holds (w : World) (here : Trail) (words : List String) : Except ConditionFault Bool :=
  let whole (words : List String) : Except ConditionFault Bool :=
    if words.headD "" = "(" && words.getLast? = some ")" then
      let inner := words.tail.dropLast
      holdsFrom w here (lex inner) inner
    else if words.headD "" = "!" then
      (holdsFrom w here (lex words.tail) words.tail).map (!·)
    else holdsFrom w here (lex words) words
  match words with
  | [] => .ok false
  | [_, operator, _] =>
    if isBinary operator then holdsFrom w here .operand words else whole words
  | [_, _, _, _] => whole words
  | _ => holdsFrom w here (lex words) words

end Condition

end StorageLayout.Shell
