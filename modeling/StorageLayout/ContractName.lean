import StorageLayout.Json.Reading

/-!
# Contract Names

Qualified names of contracts, and finding one for a bare name.

A qualified name is the path of the source, a colon and the name of the contract. The path may
hold colons itself, so the name is what follows the last one. A name without a colon is bare: it
stands for the one qualified name that ends in it.

## Main definitions

* `isQualified`: Whether a name has a path.
* `bareName`: The name without its path.
* `splitQualified`: The path and the name.
* `qualify`: The qualified name that a name stands for, among candidates.
* `candidates`, `refuse`: Candidates and names that are given as values.
-/

namespace StorageLayout.ContractName

/-- Whether a name has a path. -/
def isQualified (name : String) : Bool := ':' ∈ name.toList

/-- The characters after the last colon; all, when there is none. -/
def afterLastColon (cs : List Char) : List Char := (cs.reverse.takeWhile (· ≠ ':')).reverse

/-- The name of a contract without its path. -/
def bareName (name : String) : String := String.ofList (afterLastColon name.toList)

/-- The path and the bare name of a qualified name; nothing for a bare one. -/
def splitQualified (name : String) : Option (String × String) :=
  let cs := name.toList
  match (cs.reverse.dropWhile (· ≠ ':')) with
  | [] => none
  | _ :: path => some (String.ofList path.reverse, bareName name)

/-- The qualified name that a name stands for. A qualified name stands for itself, whether it is a
candidate or not; a bare name stands for the one candidate that ends in it. -/
def qualify (name : String) (candidates : List String) : Except Error String :=
  if isQualified name then .ok name
  else match candidates.filter fun c => bareName c = name with
    | [] => .error (.noContractNamed name)
    | [found] => .ok found
    | found => .error (.ambiguousName name found)

/-- The candidates among which a name is looked for, when they are given as a value: whatever going
through it yields, which must be texts. -/
def candidates (v : Json) : Except Error (List String) := do
  let listed ← v.elements
  listed.mapM fun c =>
    match c.str? with
    | some s => .ok s
    | none => Defect.notAnObject.fail

/-- The qualified name that a name stands for, among the candidates that a value gives. The value is
not looked at for a qualified name. -/
def qualifyIn (name : String) (v : Json) : Except Error String :=
  if isQualified name then .ok name else candidates v >>= qualify name

/-- What is wrong with a name that is no text. A list or an object is at least looked for. -/
def refuse {α : Type} (name : Json) : Except Error α :=
  match name with
  | .arr items =>
    if items.any (·.isText ":") then Defect.wrongKind.fail
    else do
      let text ← name.shown
      .error (.noContractNamed text)
  | .obj members =>
    if (Assoc.find? ":" members).isSome then Defect.wrongKind.fail
    else do
      let text ← name.shown
      .error (.noContractNamed text)
  | _ => Defect.wrongKind.fail

end StorageLayout.ContractName
