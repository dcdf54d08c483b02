/-!
# Arithmetic

Arithmetic expressions over words of 64 bits.

An expression is read into a tree before it is evaluated, so that the part of a condition that does
not count changes nothing. Binary operators group to the left and bind as in most languages;
assignments group to the right and stand where an expression begins.

## Main definitions

* `Arith`: An expression.
* `ArithFault`: Why an expression has no value.
* `Arith.read`: The expression that a text is.
* `Arith.eval`: The value of an expression.
* `integer?`: The number that a text is.
-/

namespace StorageLayout.Shell

/-- Operators between two numbers. -/
inductive BinaryOp where
  | mul | div | rem | add | sub | shl | shr | lt | le | gt | ge | eq | ne | band | bxor | bor
deriving Repr, DecidableEq

/-- How loosely an operator binds. -/
def BinaryOp.level : BinaryOp → Nat
  | .mul | .div | .rem => 0
  | .add | .sub => 1
  | .shl | .shr => 2
  | .lt | .le | .gt | .ge => 3
  | .eq | .ne => 4
  | .band => 5
  | .bxor => 6
  | .bor => 7

/-- Operators before a number. -/
inductive UnaryOp where
  | neg | not | complement
deriving Repr, DecidableEq

/-- An expression. -/
inductive Arith where
  | number (n : Int64)
  | parameter (name : String)
  | unary (op : UnaryOp) (a : Arith)
  | binary (op : BinaryOp) (a b : Arith)
  | both (a b : Arith)
  | either (a b : Arith)
  | choose (condition yes no : Arith)
  /-- Sets a parameter, to a value or to what an operator makes of the present value and it. -/
  | assign (name : String) (op : Option BinaryOp) (a : Arith)

/-- Why an expression has no value. -/
inductive ArithFault where
  | expectingPrimary
  | expectingEnd
  | expectingParenthesis
  | expectingColon
  | divisionByZero
deriving Repr, DecidableEq

/-- A fault in words. -/
def ArithFault.text : ArithFault → String
  | .expectingPrimary => "expecting primary"
  | .expectingEnd => "expecting EOF"
  | .expectingParenthesis => "expecting ')'"
  | .expectingColon => "expecting ':'"
  | .divisionByZero => "division by zero"

/-! ## Numbers -/

/-- The greatest number. -/
def greatest : Int := 9223372036854775807

/-- The least number. -/
def least : Int := -9223372036854775808

/-- The value of a digit in any base up to 36. -/
def digitValue (c : Char) : Nat :=
  if c.isDigit then c.toNat - 48
  else if c.isLower then c.toNat - 87
  else if c.isUpper then c.toNat - 55
  else 99

/-- The digits of a base that characters begin with, and the characters after them. -/
def digitsOf (base : Nat) (cs : List Char) : Nat × List Char :=
  let isDigit (c : Char) : Bool := digitValue c < base
  ((cs.takeWhile isDigit).foldl (fun n c => n * base + digitValue c) 0, cs.dropWhile isDigit)

/-- The number that characters begin with: its base is shown by what it begins with if `anyBase`. -/
def naturalOf (anyBase : Bool) (cs : List Char) : Nat × List Char :=
  match anyBase, cs with
  | true, '0' :: x :: d :: rest =>
    if (x = 'x' || x = 'X') && digitValue d < 16 then digitsOf 16 (d :: rest)
    else digitsOf 8 cs
  | true, '0' :: _ => digitsOf 8 cs
  | _, _ => digitsOf 10 cs

/-- Blanks around numbers. -/
def isBlankByte (c : Char) : Bool := c == ' ' || (9 ≤ c.toNat && c.toNat ≤ 13)

/-- The number at the start of a text, after blanks and a sign, and what follows it; nothing without
a digit. -/
def integerAt? (anyBase : Bool) (cs : List Char) : Option (Int × List Char) :=
  let body := cs.dropWhile isBlankByte
  let (negative, unsigned) := match body with
    | '-' :: rest => (true, rest)
    | '+' :: rest => (false, rest)
    | rest => (false, rest)
  match unsigned with
  | c :: _ =>
    if c.isDigit then
      let (n, rest) := naturalOf anyBase unsigned
      some (if negative then -(n : Int) else n, rest)
    else none
  | [] => none

/-- The number that a text is, in base ten, with blanks around it. -/
def integer? (s : String) : Option Int :=
  match integerAt? false s.toList with
  | some (n, rest) => if rest.all isBlankByte && least ≤ n && n ≤ greatest then some n else none
  | none => none

/-- The number that the value of a parameter is, in any base. A value that is blank is zero. -/
def valueNumber? (s : String) : Option Int64 :=
  match integerAt? true s.toList with
  | some (n, rest) =>
    if rest.all isBlankByte && least ≤ n && n ≤ greatest then some (Int64.ofInt n) else none
  | none => if s.toList.all isBlankByte then some 0 else none

/-! ## Reading -/

/-- A part of an expression. -/
inductive ArithToken where
  | number (n : Int64)
  | name (s : String)
  | binary (op : BinaryOp)
  | assign (op : Option BinaryOp)
  | not
  | complement
  | both
  | either
  | question
  | colon
  | openParen
  | closeParen
  /-- A character that means nothing. -/
  | bad
deriving Repr, DecidableEq

/-- Characters of a name. -/
def isArithName (c : Char) : Bool := c.isAlphanum || c == '_'

/-- The parts of an expression. -/
def arithTokens : (fuel : Nat) → List Char → List ArithToken
  | 0, _ => []
  | _, [] => []
  | fuel + 1, c :: rest =>
    let operator (op : BinaryOp) (rest : List Char) : List ArithToken :=
      match rest with
      | '=' :: rest => .assign (some op) :: arithTokens fuel rest
      | rest => .binary op :: arithTokens fuel rest
    if c = ' ' || c = '\t' || c = '\n' then arithTokens fuel rest
    else if c.isDigit then
      let (n, after) := naturalOf true (c :: rest)
      .number (Int64.ofInt (min n greatest)) :: arithTokens fuel after
    else if isArithName c then
      let name := (c :: rest).takeWhile isArithName
      .name (String.ofList name) :: arithTokens fuel ((c :: rest).dropWhile isArithName)
    else match c, rest with
      | '=', '=' :: rest => .binary .eq :: arithTokens fuel rest
      | '=', rest => .assign none :: arithTokens fuel rest
      | '>', '=' :: rest => .binary .ge :: arithTokens fuel rest
      | '>', '>' :: rest => operator .shr rest
      | '>', rest => .binary .gt :: arithTokens fuel rest
      | '<', '=' :: rest => .binary .le :: arithTokens fuel rest
      | '<', '<' :: rest => operator .shl rest
      | '<', rest => .binary .lt :: arithTokens fuel rest
      | '|', '|' :: rest => .either :: arithTokens fuel rest
      | '|', rest => operator .bor rest
      | '&', '&' :: rest => .both :: arithTokens fuel rest
      | '&', rest => operator .band rest
      | '!', '=' :: rest => .binary .ne :: arithTokens fuel rest
      | '!', rest => .not :: arithTokens fuel rest
      | '(', rest => .openParen :: arithTokens fuel rest
      | ')', rest => .closeParen :: arithTokens fuel rest
      | '*', rest => operator .mul rest
      | '/', rest => operator .div rest
      | '%', rest => operator .rem rest
      | '+', rest => operator .add rest
      | '-', rest => operator .sub rest
      | '~', rest => .complement :: arithTokens fuel rest
      | '^', rest => operator .bxor rest
      | '?', rest => .question :: arithTokens fuel rest
      | ':', rest => .colon :: arithTokens fuel rest
      | _, _ => [.bad]

namespace Arith

/-- What is read of parts: an expression, and the parts after it. -/
abbrev Reading := Except ArithFault (Arith × List ArithToken)

mutual

/-- A number, a parameter, or what has an operator before it. -/
def primary : (fuel : Nat) → List ArithToken → Reading
  | 0, _ => throw .expectingPrimary
  | fuel + 1, tokens =>
    let unary (op : UnaryOp) (rest : List ArithToken) : Reading := do
      let (a, rest) ← primary fuel rest
      return (.unary op a, rest)
    match tokens with
    | .number n :: rest => return (.number n, rest)
    | .name s :: rest => return (.parameter s, rest)
    | .binary .add :: rest => primary fuel rest
    | .binary .sub :: rest => unary .neg rest
    | .not :: rest => unary .not rest
    | .complement :: rest => unary .complement rest
    | .openParen :: rest => do
      let (a, rest) ← assignment fuel rest
      match rest with
      | .closeParen :: rest => return (a, rest)
      | _ => throw .expectingParenthesis
    | _ => throw .expectingPrimary

/-- What operators that bind tighter than a level make of an expression. -/
def binaryFrom (level : Nat) (a : Arith) : (fuel : Nat) → List ArithToken → Reading
  | 0, tokens => return (a, tokens)
  | fuel + 1, tokens =>
    match tokens with
    | .binary op :: rest =>
      if op.level < level then do
        let (b, rest) ← primary fuel rest
        let (b, rest) ← binaryFrom op.level b fuel rest
        binaryFrom level (.binary op a b) fuel rest
      else return (a, tokens)
    | _ => return (a, tokens)

/-- Expressions that must all hold. -/
def conjunction : (fuel : Nat) → List ArithToken → Reading
  | 0, _ => throw .expectingPrimary
  | fuel + 1, tokens => do
    let (a, rest) ← primary fuel tokens
    let (a, rest) ← binaryFrom 8 a fuel rest
    match rest with
    | .both :: rest =>
      let (b, rest) ← conjunction fuel rest
      return (.both a b, rest)
    | _ => return (a, rest)

/-- Expressions of which one must hold. -/
def disjunction : (fuel : Nat) → List ArithToken → Reading
  | 0, _ => throw .expectingPrimary
  | fuel + 1, tokens => do
    let (a, rest) ← conjunction fuel tokens
    match rest with
    | .either :: rest =>
      let (b, rest) ← disjunction fuel rest
      return (.either a b, rest)
    | _ => return (a, rest)

/-- A choice between two expressions. -/
def choice : (fuel : Nat) → List ArithToken → Reading
  | 0, _ => throw .expectingPrimary
  | fuel + 1, tokens => do
    let (a, rest) ← disjunction fuel tokens
    match rest with
    | .question :: rest =>
      let (b, rest) ← assignment fuel rest
      match rest with
      | .colon :: rest =>
        let (c, rest) ← choice fuel rest
        return (.choose a b c, rest)
      | _ => throw .expectingColon
    | _ => return (a, rest)

/-- An assignment, or an expression without one. -/
def assignment : (fuel : Nat) → List ArithToken → Reading
  | 0, _ => throw .expectingPrimary
  | fuel + 1, tokens =>
    match tokens with
    | .name s :: .assign op :: rest => do
      let (a, rest) ← assignment fuel rest
      return (.assign s op a, rest)
    | tokens => choice fuel tokens

end

/-- The expression that a text is. -/
def read (s : String) : Except ArithFault Arith := do
  let tokens := arithTokens (s.toList.length + 1) s.toList
  let (a, rest) ← assignment (8 * tokens.length + 16) tokens
  if rest.isEmpty then return a else throw .expectingEnd

/-! ## Evaluation -/

/-- What an operator makes of two numbers; nothing where it divides by zero. -/
def applyBinary (op : BinaryOp) (a b : Int64) : Option Int64 :=
  let truth (p : Bool) : Option Int64 := some (if p then 1 else 0)
  match op with
  | .mul => some (a * b)
  | .div => if b = 0 then none else some (a / b)
  | .rem => if b = 0 then none else some (a % b)
  | .add => some (a + b)
  | .sub => some (a - b)
  | .shl => some (a <<< b)
  | .shr => some (a >>> b)
  | .lt => truth (a < b)
  | .le => truth (a ≤ b)
  | .gt => truth (b < a)
  | .ge => truth (b ≤ a)
  | .eq => truth (a = b)
  | .ne => truth (a ≠ b)
  | .band => some (a &&& b)
  | .bxor => some (a ^^^ b)
  | .bor => some (a ||| b)

/-- What an operator makes of a number. -/
def applyUnary (op : UnaryOp) (a : Int64) : Int64 :=
  match op with
  | .neg => -a
  | .not => if a = 0 then 1 else 0
  | .complement => ~~~a

/-- What an evaluation needs of its surroundings. -/
structure Access (m : Type → Type) where
  /-- The value of a parameter. -/
  get : String → m Int64
  /-- Sets a parameter. -/
  set : String → Int64 → m Unit
  /-- Stops. -/
  stop : ArithFault → m Int64

/-- The value of an expression. -/
def eval {m : Type → Type} [Monad m] (access : Access m) : Arith → m Int64
  | .number n => return n
  | .parameter name => access.get name
  | .unary op a => do return applyUnary op (← eval access a)
  | .binary op a b => do
    let x ← eval access a
    let y ← eval access b
    match applyBinary op x y with
    | some n => return n
    | none => access.stop .divisionByZero
  | .both a b => do
    if (← eval access a) = 0 then return 0
    return if (← eval access b) = 0 then 0 else 1
  | .either a b => do
    if (← eval access a) ≠ 0 then return 1
    return if (← eval access b) = 0 then 0 else 1
  | .choose condition yes no => do
    if (← eval access condition) ≠ 0 then eval access yes else eval access no
  | .assign name op a => do
    let x ← eval access a
    match op with
    | none =>
      access.set name x
      return x
    | some op =>
      match applyBinary op (← access.get name) x with
      | some n =>
        access.set name n
        return n
      | none => access.stop .divisionByZero

end Arith

end StorageLayout.Shell
