import StorageLayout.Shell.Builtin.Options
import StorageLayout.Shell.Format

/-!
# Built-in Commands that Write

Writing texts and formatted values.

## Main definitions

* `echo`: Writes its arguments.
* `printFormatted`: Puts values into a format.
-/

namespace StorageLayout.Shell.Builtin

/-- The text of arguments with blanks between them. An escape can end it before the line ends. -/
def echoText : List String → Bool → String
  | [], newline => if newline then "\n" else ""
  | word :: rest, newline =>
    let (text, ended) := unescape word
    if ended then text
    else if rest.isEmpty then text ++ (if newline then "\n" else "")
    else text ++ " " ++ echoText rest newline

/-- Writes its arguments, with their escapes replaced. -/
def echo (arguments : List String) : Step Nat := do
  match arguments with
  | "-n" :: rest => say (echoText rest false)
  | arguments => say (echoText arguments true)
  return 0

/-- Puts values into a format. What is wrong with values is said before anything is written. -/
def printFormatted (arguments : List String) : Step Nat := do
  let (_, rest) ← takeOptions "" arguments
  match rest with
  | [] => fault "usage: printf format [arg ...]"
  | format :: values =>
    let formatted := formatAll format values
    formatted.warnings.forM warn
    match formatted.failure with
    | none =>
      say (String.ofList formatted.output)
      return if formatted.warnings.isEmpty then 0 else 1
    | some reason =>
      warn reason
      say (String.ofList formatted.output)
      setStatus 2
      throw .fault

end StorageLayout.Shell.Builtin
