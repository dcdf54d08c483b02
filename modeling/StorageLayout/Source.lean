import StorageLayout.Ast.Declarations
import StorageLayout.ContractName
import StorageLayout.Emitted.Declarations

/-!
# Sources of Declarations

The two kinds of compiler output behind one interface, and the choice between them.

A source lists contracts, gives the storage of one, and answers what the resolver asks while it
expands types: the members of a struct and the element of an array or mapping, by key.

An artifact is a build file that holds compiler output under `output`, or the output itself. In
the mode `auto` emitted layouts are used if the output has any, and then only for a contract that
has one; another contract is read from the syntax trees, because output selection can differ from
file to file.

## Main definitions

* `Mode`: Which kind of compiler output to read.
* `Source`: One kind of compiler output, indexed.
* `Source.ofArtifact`: The source that a mode picks for an artifact.
* `Source.select`: The source and the qualified name for one contract.
-/

namespace StorageLayout

/-- Which kind of compiler output to read. -/
inductive Mode where
  | auto
  | ast
  | layout
  /-- Any other word, which is refused when it is used. -/
  | unknown (word : String)
deriving Repr, DecidableEq

/-- The mode that a word names. -/
def Mode.ofString (word : String) : Mode :=
  if word = "auto" then .auto
  else if word = "ast" then .ast
  else if word = "layout" then .layout
  else .unknown word

/-- One kind of compiler output, indexed. -/
inductive Source where
  /-- Syntax trees: the shapes of types, without slots. -/
  | ast (index : Ast.Index)
  /-- Emitted layouts: slots included. -/
  | layout (index : Emitted.Index)

namespace Source

/-- The qualified names of the contracts, in order of their occurrence. -/
def contractNames : Source → List String
  | .ast index => index.contracts.keys
  | .layout index => index.contracts.keys

/-- The variables of a contract. -/
def storage : Source → String → Except Error (List Declaration)
  | .ast index => index.storage
  | .layout index => index.storage

/-- The members of the struct with a key. -/
def members : Source → Json → Except Error (List Declaration)
  | .ast index => index.members
  | .layout index => index.members

/-- The element or value type with a key. -/
def element : Source → Json → Except Error Declaration
  | .ast index => index.element
  | .layout index => index.element

/-- Whether compiler output has an emitted layout for any contract. -/
def hasEmittedLayout (output : Json) : Bool :=
  (output.record? "contracts").any fun units =>
    units.any fun unit => unit.2.members?.any fun (named : Record) =>
      named.any fun c => (c.2.get? "storageLayout").isSome

/-- The compiler output in an artifact. -/
def outputOf (artifact : Json) : Json := (artifact.get? "output").getD artifact

/-- The source that a mode picks for an artifact. -/
def ofArtifact (artifact : Json) (mode : Mode) : Except Error Source :=
  if !artifact.isObject then .error .notAnArtifact
  else
    let output := outputOf artifact
    let readAst := Source.ast <$> Ast.Index.ofOutput output
    let readLayout := Source.layout <$> Emitted.Index.ofOutput output
    match mode with
    | .auto => if hasEmittedLayout output then readLayout else readAst
    | .layout => readLayout
    | .ast => readAst
    | .unknown word => .error (.unknownMode word)

/-- Whether a source of emitted layouts has nothing to say about a contract that it lists: the
contract is an object, but its layout is none. A contract that it does not list is left to the
source, whose complaint is the right one. -/
def lacksLayout (index : Emitted.Index) (fullName : String) : Bool :=
  (index.contracts.find? fullName).any fun contract =>
    contract.isObject && (contract.record? "storageLayout").isNone

/-- The source and the qualified name for one contract. -/
def select (artifact : Json) (name : String) (mode : Mode) : Except Error (Source × String) := do
  let source ← ofArtifact artifact mode
  let fullName ← ContractName.qualify name source.contractNames
  match mode, source with
  | .auto, .layout index =>
    if lacksLayout index fullName then
      let source ← ofArtifact artifact .ast
      let fullName ← ContractName.qualify name source.contractNames
      return (source, fullName)
    else return (source, fullName)
  | _, _ => return (source, fullName)

end Source

end StorageLayout
