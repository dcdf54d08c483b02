/-!
# Path Text

Joining and tidying paths as texts, without looking at files.

## Main definitions

* `Path.join`: A path below another.
* `Path.parent`: The path of the folder that holds something.
* `Path.normalize`: A path without the components that lead nowhere.
-/

namespace StorageLayout.Path

/-- Splits a text at every slash. -/
def components : List Char → List (List Char)
  | [] => [[]]
  | c :: rest =>
    if c = '/' then [] :: components rest
    else match components rest with
      | [] => [[c]]
      | first :: others => (c :: first) :: others

/-- A path below another. An absolute path is below none and stands for itself. -/
def join (base path : String) : String :=
  if path.toList.head? = some '/' then path
  else if base = "" ∨ base.toList.getLast? = some '/' then base ++ path
  else base ++ "/" ++ path

/-- A text without the slashes at its end. -/
def dropFinalSlashes (cs : List Char) : List Char := (cs.reverse.dropWhile (· = '/')).reverse

/-- The path of the folder that holds something: what stands before the last slash. -/
def parent (path : String) : String :=
  let head := (path.toList.reverse.dropWhile (· ≠ '/')).reverse
  let shorter := dropFinalSlashes head
  String.ofList (if shorter = [] then head else shorter)

/-- Adds a component to a path, which is held last component first: an empty one and `.` add
nothing, `..` takes the last component back if there is one to take. -/
def addComponent (absolute : Bool) (done : List (List Char)) (c : List Char) :
    List (List Char) :=
  if c = [] ∨ c = ['.'] then done
  else if c = ['.', '.'] then
    match done with
    | [] => if absolute then [] else [c]
    | last :: before => if last = ['.', '.'] then c :: done else before
  else c :: done

/-- The slashes that a tidied path begins with: two stay two, three and more are one. -/
def leadingSlashes (cs : List Char) : List Char :=
  match (cs.takeWhile (· = '/')).length with
  | 0 => []
  | 2 => ['/', '/']
  | _ => ['/']

/-- A path without empty components and without `.`, and with every `..` resolved that follows a
component. What remains of nothing is the current folder. -/
def normalize (path : String) : String :=
  let cs := path.toList
  let slashes := leadingSlashes cs
  let kept := ((components cs).foldl (addComponent (slashes ≠ [])) []).reverse
  let text := slashes ++ List.intercalate ['/'] kept
  String.ofList (if text = [] then ['.'] else text)

end StorageLayout.Path
