import StorageLayout.CommandLine.Parameter

/-!
# Help

The pages of help, and the guide to reading layouts.

## Main definitions

* `Context.usage`: The line that says how a context is called.
* `Context.help`: The page of help of a context.
* `guide`: The guide to reading layouts.
-/

namespace StorageLayout.CommandLine

/-- The line that says how a context is called. -/
def Context.usage : Context → String
  | .program => "Usage: layoutlens [OPTIONS] COMMAND [ARGS]..."
  | .command .print => "Usage: layoutlens print [OPTIONS] CONTRACT_NAME"
  | .command .names => "Usage: layoutlens names [OPTIONS]"
  | .command .explain => "Usage: layoutlens explain [OPTIONS]"

/-- The lines of help after the usage. -/
def Context.helpLines : Context → List String
  | .program =>
    ["  layoutlens: Print the storage layout of compiled Solidity contracts.",
      "",
      "Options:",
      "  -h, --help  Show this message and exit.",
      "",
      "Commands:",
      "  explain  Print a short guide to reading the output.",
      "  names    List fully-qualified contract names.",
      "  print    Print the storage layout of CONTRACT_NAME (bare name or..."]
  | .command .print =>
    ["  Print the storage layout of CONTRACT_NAME (bare name or path:Name).",
      "",
      "Options:",
      "  --artifacts DIRECTORY      Hardhat artifacts directory.  [default:",
      "                             artifacts]",
      "  --build-info FILE          Read this build-info / solc output file instead",
      "                             of the artifacts.",
      "  --mode [auto|ast|layout]   ast: type shape only; layout: compiler",
      "                             storageLayout with slots.  [default: auto]",
      "  --max-depth INTEGER RANGE  Give up on types nested deeper than this.",
      "                             [default: 64; 1<=x<=128]",
      "  --compile / --no-compile   Compile before reading artifacts.",
      "  --compile-command TEXT     [default: npx hardhat compile --quiet]",
      "  --json PATH                Write JSON layout.",
      "  --raw                      Print JSON instead of the tree.",
      "  --hex                      Show slots as 32-byte words.",
      "  -h, --help                 Show this message and exit."]
  | .command .names =>
    ["  List fully-qualified contract names.",
      "",
      "Options:",
      "  --artifacts DIRECTORY  [default: artifacts]",
      "  --build-info FILE",
      "  -h, --help             Show this message and exit."]
  | .command .explain =>
    ["  Print a short guide to reading the output.",
      "",
      "Options:",
      "  -h, --help  Show this message and exit."]

/-- The page of help of a context. -/
def Context.help (context : Context) : String :=
  "\n".intercalate (context.usage :: "" :: context.helpLines)

/-- The guide to reading layouts. -/
def guide : String :=
  "\n".intercalate
    ["Reading a layout:",
      "",
      "• name [slot:offset][type]",
      "    layout mode: slot/offset come from the compiler's storageLayout.",
      "    Struct members show slots relative to the start of the struct.",
      "",
      "• name [id][type]",
      "    ast mode: only the type shape is known, id is the AST node id.",
      "    Slots are not computed.",
      "",
      "• Children (indented, \"- \"):",
      "    struct       its members, in declaration order",
      "    T[N] / T[]   the shape of ONE element (struct members, or nothing",
      "                 for elementary T); length is shown in JSON output",
      "    mapping      the shape of the value; key type is in JSON key_type",
      "    nested       a single \"[]\" (array) or \"[key]\" (mapping) child",
      "",
      "• Contract-typed fields, enums and constants:",
      "    contract references are not expanded; constant and immutable",
      "    variables occupy no storage and are left out.",
      ""]

end StorageLayout.CommandLine
