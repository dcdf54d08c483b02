import Mathlib.Tactic.Linarith
import Mathlib.Tactic.NormNum
import StorageLayout.Ast.Declarations
import StorageLayout.Proofs.ArrayLength
import StorageLayout.Proofs.Ast.Literals

/-!
# Bounds of Arrays in Syntax Trees

When the length of an array is the one that the compiler has found.

A tree gives the bound of an array twice. The node of the array's type has the expression that was
written as the bound, and its description has the number that the expression was folded to. The
number is the bound, and only the length expression of a literal is looked at before it. So the two
have to be compared for the literals that are read as integers.

Such a literal has the value that it is read as (`value_of_integer?`), but a unit can follow it,
which the node of the literal keeps in a member that is not looked at. Then the length is too small
by the factor of the unit: it is `2` for an array of `2 minutes`. All other literals are refused and
leave the length to the description, which has it right whatever the unit is, if its digits can be
read at all. `arrayLength_folded` says exactly this.

## Main definitions

* `LengthExpression`: What can be written as the bound of an array, with its node and its value.
* `IsFixedArray`: The node of a fixed array type.

## Theorems

* `arrayLength_eq`: The length that is read, for every expression.
* `arrayLength_folded`: When it is the number that the expression was folded to.
* `arrayLength_minutes`: It is not for an array of `2 minutes`.
-/

namespace StorageLayout.Ast

/-- What can be written as the bound of an array: a number with or without a unit, or any other
constant expression. -/
inductive LengthExpression where
  | literal (number : NumberLiteral) (unit : Option Denomination)
  | constant
deriving DecidableEq

namespace LengthExpression

/-- The node of an expression. Only a literal has a value there, which is its text. -/
def IsNode : LengthExpression → Record → Prop
  | .literal number unit, node =>
      node.find? "nodeType" = some (.str "Literal") ∧
        node.find? "value" = some (.str (String.ofList number.text)) ∧
        node.get "subdenomination" = unit.elim .null (fun u => .str u.name)
  | .constant, node => node.get "value" = .null

/-- What the number of a literal is multiplied by. -/
def factor : LengthExpression → Nat
  | .literal _ unit => unit.elim 1 Denomination.factor
  | .constant => 1

/-- The compiler can have folded an expression to a number. A literal has one value, and nothing is
said of other expressions. -/
def Denotes : LengthExpression → Nat → Prop
  | .literal number unit, n => number.value * (unit.elim 1 Denomination.factor : Nat) = n
  | .constant, _ => True

instance (e : LengthExpression) (n : Nat) : Decidable (e.Denotes n) :=
  match e with
  | .literal number unit =>
      inferInstanceAs
        (Decidable (number.value * (unit.elim 1 Denomination.factor : Nat) = (n : Rat)))
  | .constant => isTrue trivial

/-- The integer that the node of an expression is read as, if it is read. -/
def integer? : LengthExpression → Option Nat
  | .literal number _ => number.integer?
  | .constant => none

/-- What is read of an expression is its value without the unit. -/
theorem integer_mul_factor {e : LengthExpression} {n value : Nat} (hread : e.integer? = some n)
    (hvalue : e.Denotes value) : n * e.factor = value := by
  cases e with
  | constant => exact absurd hread (by simp only [integer?, reduceCtorEq, not_false_eq_true])
  | literal number unit =>
      rw [Denotes, number.value_of_integer? n hread] at hvalue
      exact_mod_cast hvalue

theorem factor_pos (e : LengthExpression) : 0 < e.factor := by
  have hunit : ∀ unit : Denomination, 0 < unit.factor := by
    intro unit
    cases unit <;> decide
  cases e with
  | constant => exact Nat.one_pos
  | literal number unit =>
      cases unit with
      | none => exact Nat.one_pos
      | some unit => exact hunit unit

/-- The value without the unit is the value exactly if the unit does not count. -/
theorem integer_eq_iff {e : LengthExpression} {n value : Nat} (hread : e.integer? = some n)
    (hvalue : e.Denotes value) : n = value ↔ e.factor = 1 ∨ value = 0 := by
  have hmul := integer_mul_factor hread hvalue
  have hpos := e.factor_pos
  constructor
  · intro heq
    -- A unit multiplies the literal, which shows unless the product is zero.
    rcases Nat.eq_zero_or_pos value with hzero | hvaluePos
    · exact .inr hzero
    · rw [heq] at hmul
      exact .inl (Nat.eq_of_mul_eq_mul_left hvaluePos (by omega))
  · rintro (hone | hzero)
    · rw [hone, Nat.mul_one] at hmul
      exact hmul
    · rw [hzero] at hmul ⊢
      rcases Nat.mul_eq_zero.mp hmul with h | h
      · exact h
      · omega

theorem literalLength?_of_isNode {e : LengthExpression} {node : Record} (h : e.IsNode node) :
    literalLength? (.obj node) = e.integer?.map Int.ofNat := by
  cases e with
  | literal number unit =>
      have hvalue : Json.get? "value" (.obj node)
          = some (.str (String.ofList number.text)) := h.2.1
      unfold literalLength?
      rw [hvalue]
      change (Text.prefixed (String.ofList number.text).toList).toOption = _
      rw [String.toList_ofList, prefixed_text]
      rfl
  | constant =>
      -- A constant has no value of its own in the tree, so no literal is found.
      have hnone : ∀ text, Json.get? "value" (.obj node) ≠ some (.str text) := by
        intro text htext
        have hget : node.get "value" = .str text := by
          change (node.find? "value").getD .null = _
          have hfind : node.find? "value" = some (.str text) := htext
          rw [hfind, Option.getD_some]
        rw [IsNode, hget] at h
        exact absurd h (by simp only [reduceCtorEq, not_false_eq_true])
      unfold literalLength?
      split
      · rename_i text htext
        exact absurd htext (hnone text)
      · rfl

end LengthExpression

/-- The node of a fixed array type: it has an expression for the length, and the description of the
type ends in the bound. -/
structure IsFixedArray (typeNode expression : Record) (digits : List Char) : Prop where
  kind : typeNode.find? "nodeType" = some (.str "ArrayTypeName")
  length : typeNode.find? "length" = some (.obj expression)
  numeral : IsNumeral digits
  described : ∃ (description : Record) (before : String),
    typeNode.find? "typeDescriptions" = some (.obj description) ∧
      description.find? "typeString" = some (.str (before ++ "[" ++ String.ofList digits ++ "]"))

section Lengths

variable {typeNode expression : Record} {digits : List Char} {e : LengthExpression}
variable (harray : IsFixedArray typeNode expression digits) (he : e.IsNode expression)

include harray he

/-- The length of a fixed array is the integer that its expression is read as, or else the number
that the expression was folded to. -/
theorem arrayLength_eq :
    arrayLength typeNode =
      match e.integer? with
      | some n => .ok (.int n)
      | none =>
        if digits.length ≤ Text.maxDigits then .ok (.int (numeralValue digits))
        else Defect.badContent.fail := by
  rcases harray.described with ⟨description, before, hdescription, htext⟩
  have hlength : typeNode.get "length" = .obj expression := by
    rw [Record.get, harray.length, Option.getD_some]
  have hget : typeNode.get "typeDescriptions" = .obj description := by
    rw [Record.get, hdescription, Option.getD_some]
  have horEmpty : typeNode.orEmpty "typeDescriptions" = .ok description := by
    unfold Record.orEmpty
    rw [hget]
    -- An empty description counts as one without members, which it is.
    cases description with
    | nil => rfl
    | cons member members => rfl
  have hlabel : description.getText "typeString"
      = .str (before ++ "[" ++ String.ofList digits ++ "]") := by
    rw [Record.getText, htext, Option.getD_some]
  unfold arrayLength
  simp only [hlength, Json.isNull, Bool.false_eq_true, if_false,
    LengthExpression.literalLength?_of_isNode he]
  cases e.integer? with
  | some n => rfl
  | none =>
      simp only [Option.map_none, horEmpty, ok_bind, hlabel, Json.asText]
      rw [boundOfLabel?_of_ends _ digits (labelEndsIn_append before digits harray.numeral)]
      exact lengthOfDigits_eq digits harray.numeral

/-- The length of a literal that is read is the bound only if the unit does not count. -/
theorem arrayLength_eq_bound_of_integer {n : Nat} (hread : e.integer? = some n)
    (hvalue : e.Denotes (numeralValue digits)) :
    arrayLength typeNode = .ok (.int (numeralValue digits)) ↔
      e.factor = 1 ∨ numeralValue digits = 0 := by
  rw [arrayLength_eq harray he, hread, ← LengthExpression.integer_eq_iff hread hvalue]
  constructor
  · intro heq
    injection heq with heq
    injection heq with heq
    exact Int.ofNat_inj.mp heq
  · intro heq
    rw [heq]

/-- The length of any other expression is the bound if the bound can be read. -/
theorem arrayLength_eq_bound_of_not_integer (hread : e.integer? = none) :
    arrayLength typeNode = .ok (.int (numeralValue digits)) ↔
      digits.length ≤ Text.maxDigits := by
  rw [arrayLength_eq harray he, hread]
  by_cases hlength : digits.length ≤ Text.maxDigits
  · refine iff_of_true ?_ hlength
    exact if_pos hlength
  · refine iff_of_false (fun heq => ?_) hlength
    simp only [if_neg hlength] at heq
    exact absurd heq (by simp only [Defect.fail, reduceCtorEq, not_false_eq_true])

/-- The shape of a fixed array has the length that is read. -/
theorem shape_of_arrayLength (index : Index) (element n : Json)
    (helement : childId typeNode "baseType" = .ok element) (hn : arrayLength typeNode = .ok n) :
    index.shape (.obj typeNode) = .ok (.fixedArray n element) := by
  have hkind : (typeNode.get "nodeType").isText "ArrayTypeName" = true := by
    rw [Record.get, harray.kind, Option.getD_some]
    rfl
  -- A length that is null would make the array a dynamic one.
  have hsome : n.isNull = false := by
    have hlength := hn
    rw [arrayLength_eq harray he] at hlength
    split at hlength
    · injection hlength with hlength
      rw [← hlength]
      rfl
    · split at hlength
      · injection hlength with hlength
        rw [← hlength]
        rfl
      · exact absurd hlength (by simp only [Defect.fail, reduceCtorEq, not_false_eq_true])
  unfold Index.shape
  simp only [Json.members?, hkind, if_true, hn, helement, ok_bind, arrayShape, hsome]
  rfl

end Lengths

/-- The length of a fixed array is the bound that the compiler has found, exactly if either its
expression is a literal that is read as an integer and no unit changes its value, or it is anything
else and the digits of the bound are not too many to be read.

A literal that is read gives its value without the unit. In all other cases there is the bound or,
if its digits are too many, no length at all. -/
theorem arrayLength_folded {typeNode expression : Record} {digits : List Char}
    {e : LengthExpression} (harray : IsFixedArray typeNode expression digits)
    (he : e.IsNode expression) (hvalue : e.Denotes (numeralValue digits)) :
    (arrayLength typeNode = .ok (.int (numeralValue digits)) ↔
      ((∃ n, e.integer? = some n) ∧ (e.factor = 1 ∨ numeralValue digits = 0)) ∨
        (e.integer? = none ∧ digits.length ≤ Text.maxDigits)) ∧
      (∀ n, e.integer? = some n →
        arrayLength typeNode = .ok (.int n) ∧ n * e.factor = numeralValue digits) ∧
      (e.integer? = none → Text.maxDigits < digits.length →
        arrayLength typeNode = Defect.badContent.fail) ∧
      ∀ (index : Index) (element n : Json), childId typeNode "baseType" = .ok element →
        arrayLength typeNode = .ok n →
        index.shape (.obj typeNode) = .ok (.fixedArray n element) := by
  refine ⟨?_, ?_, ?_, ?_⟩
  · -- The reader sees the literal without its unit, or nothing but the bound that stands in the
    -- type.
    cases hread : e.integer? with
    | some n =>
        rw [arrayLength_eq_bound_of_integer harray he hread hvalue]
        simp only [Option.some.injEq, exists_eq', true_and, reduceCtorEq, false_and, or_false]
    | none =>
        rw [arrayLength_eq_bound_of_not_integer harray he hread]
        simp only [reduceCtorEq, exists_false, false_and, true_and, false_or]
  · intro n hread
    refine ⟨?_, LengthExpression.integer_mul_factor hread hvalue⟩
    rw [arrayLength_eq harray he, hread]
  · intro hread hlong
    rw [arrayLength_eq harray he, hread]
    exact if_neg (Nat.not_le.mpr hlong)
  · intro index element n helement hn
    exact shape_of_arrayLength harray he index element n helement hn

/-- The node of an array type. -/
def arrayNode (value : String) (unit : Json) (bound : String) : Record :=
  [("id", .int 2), ("nodeType", .str "ArrayTypeName"),
    ("length", .obj [("nodeType", .str "Literal"), ("value", .str value),
      ("subdenomination", unit)]),
    ("baseType", .obj [("id", .int 3), ("nodeType", .str "ElementaryTypeName")]),
    ("typeDescriptions", .obj [("typeString", .str ("uint256[" ++ bound ++ "]"))])]

/-- The literal with the text `0x1F`. -/
def thirtyOne : NumberLiteral :=
  .hexadecimal ⟨⟨⟨1, by decide⟩, false⟩, [(false, ⟨⟨15, by decide⟩, true⟩)]⟩

/-- The literal with the text `2`. -/
def two : NumberLiteral := .decimal (.whole ⟨⟨⟨2, by decide⟩, false⟩, []⟩) none

example : String.ofList thirtyOne.text = "0x1F" := by decide

theorem isFixedArray_arrayNode (value : String) (unit : Json) (bound : List Char)
    (h : IsNumeral bound) : IsFixedArray (arrayNode value unit (String.ofList bound))
      [("nodeType", .str "Literal"), ("value", .str value), ("subdenomination", unit)] bound :=
  ⟨rfl, rfl, h, _, "uint256", rfl, rfl⟩

/-- An array of `0x1F` numbers has the length 31. -/
theorem arrayLength_folded_hexadecimal :
    arrayLength (arrayNode "0x1F" .null "31") = .ok (.int 31) ∧
      ∀ index : Index, index.shape (.obj (arrayNode "0x1F" .null "31"))
        = .ok (.fixedArray (.int 31) (.int 3)) := by
  have harray := isFixedArray_arrayNode "0x1F" .null ['3', '1'] (by decide)
  have he : (LengthExpression.literal thirtyOne none).IsNode
      [("nodeType", .str "Literal"), ("value", .str "0x1F"), ("subdenomination", .null)] :=
    ⟨rfl, rfl, rfl⟩
  have hvalue : (LengthExpression.literal thirtyOne none).Denotes (numeralValue ['3', '1']) := by
    decide +kernel
  rcases arrayLength_folded harray he hvalue with ⟨hiff, _, _, hshape⟩
  have hlength := hiff.mpr (.inl ⟨⟨31, rfl⟩, .inl rfl⟩)
  exact ⟨hlength, fun index => hshape index (.int 3) _ rfl hlength⟩

/-- An array of `2 minutes` numbers has 120 of them, and the length that is read is 2. -/
theorem arrayLength_minutes :
    (LengthExpression.literal two (some .minutes)).IsNode [("nodeType", .str "Literal"),
        ("value", .str "2"), ("subdenomination", .str "minutes")] ∧
      (LengthExpression.literal two (some .minutes)).Denotes (numeralValue ['1', '2', '0']) ∧
      IsFixedArray (arrayNode "2" (.str "minutes") "120") [("nodeType", .str "Literal"),
        ("value", .str "2"), ("subdenomination", .str "minutes")] ['1', '2', '0'] ∧
      numeralValue ['1', '2', '0'] = 120 ∧
      ∀ index : Index, index.shape (.obj (arrayNode "2" (.str "minutes") "120"))
        = .ok (.fixedArray (.int 2) (.int 3)) := by
  refine ⟨⟨rfl, rfl, rfl⟩, ?_, isFixedArray_arrayNode _ _ _ (by decide), by decide, ?_⟩
  · decide +kernel
  · intro index
    rfl

end StorageLayout.Ast
