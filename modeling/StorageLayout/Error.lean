import StorageLayout.Json.Inspect
import StorageLayout.Json.Parser

/-!
# Errors

Everything that can keep a layout from being made, and how it is said.

An error names its cause; the wording is in `Error.message` alone. Most causes are reported to
the user. A `Defect` is not: it arises where a reader takes the shape of the data for granted,
such as a member that compilers always write, and the data is of another shape.

## Main definitions

* `Defect`: The ways in which data or files break what a reader takes for granted.
* `EntryFault`: What is wrong with a storage entry.
* `Error`: All causes.
* `Error.message`: The wording.
* `Error.reported`, `Error.raise`: The error that is reported, and failing with it.
* `Json.shown`: A value as part of a line, if it can be shown.
-/

namespace StorageLayout

/-- Data or a file is not what a reader takes for granted. -/
inductive Defect where
  /-- An object lacks a member. -/
  | missingMember
  /-- A value is of a kind that the operation on it does not have. -/
  | wrongKind
  /-- A value that must be an object is none. -/
  | notAnObject
  /-- A value is of the right kind, but not one that can be used; a path can be such a value. -/
  | badContent
  /-- A number is too great for what it is needed for; an infinity always is. -/
  | tooGreat
  /-- The bytes of a file are no text. -/
  | undecodable
  | fileMissing
  | isFolder
  | notAFolder
  /-- A name in a path, or the path as a whole, is too long. -/
  | longName
  /-- A device cannot be opened, or takes nothing. -/
  | deviceFault
deriving Repr, DecidableEq

/-- What is wrong with a storage entry. -/
inductive EntryFault where
  | missing (member : String)
  /-- The entry is no object. -/
  | notAnObject (entry : Json)
  | badNumeral (text : String)
  | longNumeral (digits : Nat)
  /-- Null, a list or an object stands where a number is needed. -/
  | noNumber (value : Json)
  /-- The result that is no number stands where a whole number is needed. -/
  | notANumber

/-- A reason why a layout cannot be made. -/
inductive Error where
  | noSources
  | noContracts
  | noAst (path : String)
  | contractsNotAnObject (source : String)
  | badEntry (entry : Json) (fault : EntryFault)
  | missingChild (nodeType id : Json) (field : String)
  | unreadableNodeLength (id : Json)
  | unreadableTypeLength (key : Json)
  | noStorageLayout (fullName : String)
  | notAnArtifact
  | invalidJson (path : String) (what : Json.Parser.Complaint) (place : Json.Parser.Place)
  | noBuildInfo (path : String)
  | negativeSlot (slot : Json)
  | contractMissing (fullName : String)
  | noContractNamed (name : String)
  | artifactsMissing (folder : String)
  | buildInfoMissing (fullName path : String)
  | ambiguousName (name : String) (candidates : List String)
  | unresolved (key : Json)
  | nestedTooDeep (limit : Json)
  | unknownMode (mode : String)
  | depthOutOfRange (limit : Json)
  | compileFailed (command output : String)
  | defect (defect : Defect)

/-- Fails with a defect. -/
def Defect.fail {α : Type} (d : Defect) : Except Error α := .error (.defect d)

/-- The name of a value's kind, as messages have it. -/
def Json.kindName : Json → String
  | .null => "NoneType"
  | .bool _ => "bool"
  | .int _ => "int"
  | .real _ => "float"
  | .str _ => "str"
  | .arr _ => "list"
  | .obj _ => "dict"

/-- A text in quotes, cut to 200 characters. -/
def shortQuote (s : String) : String := String.ofList ((Text.quotedChars s.toList).take 200)

/-- What is wrong with an entry, in words. -/
def EntryFault.text : EntryFault → String
  | .missing member => Text.quoted member
  | .notAnObject (.str _) => "string indices must be integers, not 'str'"
  | .notAnObject (.arr _) => "list indices must be integers or slices, not str"
  | .notAnObject entry => s!"'{entry.kindName}' object is not subscriptable"
  | .badNumeral text => s!"invalid literal for int() with base 10: {shortQuote text}"
  | .longNumeral digits =>
    s!"Exceeds the limit ({Text.maxDigits} digits) for integer string conversion: "
      ++ s!"value has {digits} digits; use sys.set_int_max_str_digits() to increase the limit"
  | .noNumber value =>
    "int() argument must be a string, a bytes-like object or a real number, "
      ++ s!"not '{value.kindName}'"
  | .notANumber => "cannot convert float NaN to integer"

/-- An error in words. A defect has none. -/
def Error.message : Error → String
  | .noSources => "Compiler output has no 'sources' section"
  | .noContracts => "Compiler output has no 'contracts' section"
  | .noAst path => s!"Source '{path}' carries no AST"
  | .contractsNotAnObject source => s!"Contracts of '{source}' are not an object"
  | .badEntry entry fault => s!"Bad storage entry {entry.inspect}: {fault.text}"
  | .missingChild nodeType id field =>
    s!"{nodeType.display} node {id.display} has no {field}"
  | .unreadableNodeLength id => s!"Cannot read the length of array node {id.display}"
  | .unreadableTypeLength key => s!"Cannot read the length of array type {key.display}"
  | .noStorageLayout fullName =>
    s!"{fullName} has no storageLayout; enable it in outputSelection"
  | .notAnArtifact => "Build artifact must be a JSON object"
  | .invalidJson path what place => s!"{path} is not valid JSON: {what.message place}"
  | .noBuildInfo path => s!"{path} does not point at a build-info file"
  | .negativeSlot slot => s!"Slot must be non-negative, got {slot.display}"
  | .contractMissing fullName => s!"Contract {fullName} not found in compiler output"
  | .noContractNamed name => s!"No contract named {name}"
  | .artifactsMissing folder => s!"Artifacts directory {folder} does not exist; compile first"
  | .buildInfoMissing fullName path => s!"Cannot get buildInfo from {fullName}: {path} is missing"
  | .ambiguousName name candidates =>
    s!"more than one path found for {name} ({candidates.length} candidates), "
      ++ s!"please use full path like \"contracts/target.sol:{name}\""
  | .unresolved key =>
    s!"Declaration {key.inspect} is referenced but missing from the compiler output"
  | .nestedTooDeep limit =>
    s!"Type nesting deeper than {limit.display} levels; is a struct referencing itself?"
  | .unknownMode mode => s!"Unknown mode: {mode}"
  | .depthOutOfRange limit => s!"max_depth must be between 1 and 128, got {limit.display}"
  | .compileFailed command output => s!"\x60{command}\x60 failed:\n{output}"
  | .defect _ => ""

/-- Whether all values that the wording of an error needs can be shown. -/
def Error.isSayable : Error → Bool
  | .badEntry value _ | .unreadableNodeLength value | .unreadableTypeLength value
  | .negativeSlot value | .unresolved value | .nestedTooDeep value | .depthOutOfRange value =>
    value.isShowable
  | .missingChild nodeType id _ => nodeType.isShowable && id.isShowable
  | _ => true

/-- The error that is reported: one that cannot be said is a defect. -/
def Error.reported (e : Error) : Error := if e.isSayable then e else .defect .badContent

/-- Fails with an error as it is reported. -/
def Error.raise {α : Type} (e : Error) : Except Error α := .error e.reported

theorem Error.raise_of_isSayable {α : Type} (e : Error) (h : e.isSayable = true) :
    (e.raise : Except Error α) = .error e := by
  rw [Error.raise, Error.reported, if_pos h]

theorem Error.raise_of_not_isSayable {α : Type} (e : Error) (h : e.isSayable = false) :
    (e.raise : Except Error α) = Defect.badContent.fail := by
  rw [Error.raise, Error.reported, h]
  rfl

/-- A value as part of a line, if it can be shown. -/
def Json.shown (v : Json) : Except Error String :=
  if v.isShowable then .ok v.display else Defect.badContent.fail

end StorageLayout
