import StorageLayout.Utility.Basic
import StorageLayout.Utility.Regex

/-!
# Expressions as Arguments

A program that evaluates its arguments as an expression.

Every argument is an operand or an operator. Operands are texts; those that are numbers count as
numbers where that matters. An expression holds if its value is neither empty nor zero.

## Main definitions

* `Evaluation.Fault`: Why an expression has no value.
* `Evaluation.disjunction`: The value of what words begin with.
* `evaluate`: The program.
-/

namespace StorageLayout.Shell.Utility

namespace Evaluation

/-- Why an expression has no value. -/
inductive Fault where
  | unexpected (word : String)
  | missingAfter (word : String)
  | unclosed (word : String)
  | notANumber
  | zeroDivisor
  | badExpression (reason : String)

/-- A fault in words. -/
def Fault.text : Fault → String
  | unexpected word => s!"syntax error: unexpected argument {curlyQuoted word}"
  | missingAfter word => s!"syntax error: missing argument after {curlyQuoted word}"
  | unclosed word => s!"syntax error: expecting ')' after {curlyQuoted word}"
  | notANumber => "non-integer argument"
  | zeroDivisor => "division by zero"
  | badExpression reason => reason

/-- The number that a text is. -/
def number? (s : String) : Option Int :=
  match s.toList with
  | '-' :: cs => (natural? (String.ofList cs)).map fun n => -(n : Int)
  | _ => (natural? s).map Int.ofNat

/-- Whether a value does not hold. -/
def isNull (s : String) : Bool := s = "" || number? s = some 0

/-- The number that a text must be. -/
def number (s : String) : Except Fault Int :=
  match number? s with
  | some n => .ok n
  | none => .error .notANumber

/-- A truth value as a text. -/
def truth (b : Bool) : String := if b then "1" else "0"

/-- What an expression matches at the start of a text: its group, or how many characters. -/
def matchStart (text pattern : String) : Except Fault String :=
  match Regex.read { escapes := false } (charactersOf pattern) with
  | .error reason => .error (.badExpression reason)
  | .ok (r, groups) =>
    match r.run {} { rest := charactersOf text } some with
    | some stop =>
      if groups > 0 then .ok (lineOfCharacters ((stop.group? 1).getD []))
      else .ok (toString stop.position)
    | none => .ok (if groups > 0 then "" else "0")

/-- The value of a comparison. -/
def compared (operator a b : String) : String :=
  let order := match number? a, number? b with
    | some x, some y => compare x y
    | _, _ => if a < b then .lt else if b < a then .gt else .eq
  truth (match operator with
    | "<" => order = .lt
    | "<=" => order ≠ .gt
    | "=" | "==" => order = .eq
    | "!=" => order ≠ .eq
    | ">=" => order ≠ .lt
    | _ => order = .gt)

/-- The value of a calculation. -/
def calculated (operator a b : String) : Except Fault String := do
  let x ← number a
  let y ← number b
  match operator with
  | "+" => return toString (x + y)
  | "-" => return toString (x - y)
  | "*" => return toString (x * y)
  | _ =>
    if y = 0 then throw .zeroDivisor
    return toString (if operator = "/" then x.tdiv y else x.tmod y)

/-- What has been read: a value, the words that are left, and the last word. -/
abbrev Answer := Except Fault (String × List String × String)

/-- Applies operators of a level to a value and the values after it. -/
def chain (operators : List String) (apply : String → String → String → Except Fault String)
    (operand : List String → String → Answer) :
    (fuel : Nat) → String → List String → String → Answer
  | 0, a, words, before => .ok (a, words, before)
  | fuel + 1, a, words, before =>
    match words with
    | operator :: rest =>
      if operators.contains operator then do
        let (b, rest, before) ← operand rest operator
        chain operators apply operand fuel (← apply operator a b) rest before
      else .ok (a, words, before)
    | [] => .ok (a, words, before)

/-- Three words after a keyword. -/
def isKeyword (word : String) : Bool :=
  word = "match" || word = "substr" || word = "index" || word = "length"

mutual

/-- An operand. -/
def operand : (fuel : Nat) → List String → (before : String) → Answer
  | 0, _, before => .error (.missingAfter before)
  | _, [], before => .error (.missingAfter before)
  | fuel + 1, word :: rest, _ => do
    if word = "+" then
      match rest with
      | quoted :: rest => return (quoted, rest, quoted)
      | [] => throw (.missingAfter word)
    else if word = "(" then
      let (a, rest, before) ← disjunction fuel rest word
      match rest with
      | ")" :: rest => return (a, rest, ")")
      | _ => throw (.unclosed before)
    else if word = ")" then throw (.unexpected word)
    else if !isKeyword word then return (word, rest, word)
    else
      let (a, rest, before) ← operand fuel rest word
      let characters := charactersOf a
      if word = "length" then return (toString characters.length, rest, before)
      let (b, rest, before) ← operand fuel rest before
      if word = "match" then return (← matchStart a b, rest, before)
      if word = "index" then
        let set := charactersOf b
        let found := (characters.findIdx? set.contains).elim 0 (· + 1)
        return (toString found, rest, before)
      let (c, rest, before) ← operand fuel rest before
      match number? b, number? c with
      | some start, some length =>
        if start ≤ 0 || length ≤ 0 then return ("", rest, before)
        let part := (characters.drop (start.toNat - 1)).take length.toNat
        return (lineOfCharacters part, rest, before)
      | _, _ => return ("", rest, before)

/-- Matches. -/
def matching : (fuel : Nat) → List String → (before : String) → Answer
  | 0, _, before => .error (.missingAfter before)
  | fuel + 1, words, before => do
    let (a, rest, before) ← operand fuel words before
    chain [":"] (fun _ a b => matchStart a b) (fun ws before => operand fuel ws before)
      words.length a rest before

/-- Products. -/
def product : (fuel : Nat) → List String → (before : String) → Answer
  | 0, _, before => .error (.missingAfter before)
  | fuel + 1, words, before => do
    let (a, rest, before) ← matching fuel words before
    chain ["*", "/", "%"] calculated (fun ws before => matching fuel ws before)
      words.length a rest before

/-- Sums. -/
def sum : (fuel : Nat) → List String → (before : String) → Answer
  | 0, _, before => .error (.missingAfter before)
  | fuel + 1, words, before => do
    let (a, rest, before) ← product fuel words before
    chain ["+", "-"] calculated (fun ws before => product fuel ws before) words.length a rest before

/-- Comparisons. -/
def comparison : (fuel : Nat) → List String → (before : String) → Answer
  | 0, _, before => .error (.missingAfter before)
  | fuel + 1, words, before => do
    let (a, rest, before) ← sum fuel words before
    chain ["<", "<=", "=", "==", "!=", ">=", ">"] (fun o a b => .ok (compared o a b))
      (fun ws before => sum fuel ws before) words.length a rest before

/-- Values that both hold. -/
def conjunction : (fuel : Nat) → List String → (before : String) → Answer
  | 0, _, before => .error (.missingAfter before)
  | fuel + 1, words, before => do
    let (a, rest, before) ← comparison fuel words before
    chain ["&"] (fun _ a b => .ok (if isNull a || isNull b then "0" else a))
      (fun ws before => comparison fuel ws before) words.length a rest before

/-- Values of which one holds. -/
def disjunction : (fuel : Nat) → List String → (before : String) → Answer
  | 0, _, before => .error (.missingAfter before)
  | fuel + 1, words, before => do
    let (a, rest, before) ← conjunction fuel words before
    let either (a b : String) : String := if !isNull a then a else if isNull b then "0" else b
    chain ["|"] (fun _ a b => .ok (either a b))
      (fun ws before => conjunction fuel ws before) words.length a rest before

end

/-- The value of an expression. -/
def value (words : List String) : Except Fault String := do
  let (a, rest, _) ← disjunction (10 * words.length + 10) words ""
  match rest with
  | [] => return a
  | word :: _ => throw (.unexpected word)

end Evaluation

/-- Evaluates the arguments as an expression. -/
def evaluate : Utility := fun _ arguments => do
  let words := if arguments.head? = some "--" then arguments.tail else arguments
  if words.isEmpty then
    complain "expr: missing operand\nTry 'expr --help' for more information.\n"
    return 2
  match Evaluation.value words with
  | .error fault =>
    complain s!"expr: {fault.text}\n"
    return 2
  | .ok a =>
    say (a ++ "\n")
    return if Evaluation.isNull a then 1 else 0

end StorageLayout.Shell.Utility
