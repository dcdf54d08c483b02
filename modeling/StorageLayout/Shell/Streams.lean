import StorageLayout.Shell.Machine

/-!
# Opening Streams

What a path, opened in some way, becomes as a stream of a process.

## Main definitions

* `openPath`: Opens what a path leads to.
* `copyStream`: Lets a stream go where another one goes.
-/

namespace StorageLayout.Shell

open FileTree (Trail)

/-- Whether a stream can be written to that is opened in some way. -/
def Opening.writes : Opening → Bool
  | .read => false
  | _ => true

/-- Whether a stream can be read that is opened in some way. -/
def Opening.reads : Opening → Bool
  | .read | .readWrite => true
  | _ => false

/-- Opens the file at a place, which is there. -/
def openFile (place : Trail) (opening : Opening) : Step (Except Trouble Nat) := do
  if opening = .write || opening = .overwrite then changeWorld (·.write place "")
  let index ← openStream
    { channel := .file place
      append := opening = .append
      readable := opening.reads
      writable := opening.writes }
  return .ok index

/-- How many null characters the device that has nothing else is good for. -/
def nullCount : Nat := 4096

/-- Opens a device. Those that stand for streams of the process lead where these lead. -/
def openDevice (name : String) (opening : Opening) : Step (Except Trouble Nat) := do
  let again (n : Nat) : Step (Except Trouble Nat) := do
    match ← stream? n with
    | none => return .error .missing
    | some (index, f) =>
      match f.channel with
      | .file place => openFile place opening
      | _ => return .ok index
  match name with
  | "stdin" => again 0
  | "stdout" => again 1
  | "stderr" => again 2
  | "tty" => return .error .noDevice
  | "full" => return .ok (← openStream { channel := .full })
  | "zero" =>
    if opening = .read then
      let content := String.ofList (List.replicate nullCount '\x00')
      return .ok (← openStream { channel := .supply, content, writable := false })
    else return .ok (← openStream { channel := .nowhere })
  | _ => return .ok (← openStream { channel := .nowhere })

/-- Opens what a path leads to. A file that is not there is made unless it is only read; one that is
there may be protected from being written over. -/
def openPath (path : String) (opening : Opening) : Step (Except Trouble Nat) := do
  let w ← theWorld
  let folder ← here
  let found := if opening = .read then w.walk folder path true else w.walkNew folder path
  match found with
  | .error e => return .error e
  | .ok place =>
    match w.kind? place with
    | some .device => openDevice (place.headD "") opening
    | some .folder =>
      if opening = .read then
        return .ok (← openStream { channel := .folder, writable := false })
      else return .error .folder
    | some _ =>
      if opening = .write && (← isOn 'C') then return .error .present
      openFile place opening
    | none =>
      changeWorld (·.write place "")
      openFile place opening

/-- Lets a stream go where another one goes. -/
def copyStream (target source : Nat) : Step (Except Trouble Unit) := do
  match ← stream? source with
  | some (index, _) =>
    bindStream target index
    return .ok ()
  | none => return .error .badStream

/-- The octets of the file that a path leads to, as programs read it. -/
def readPath (path : String) : Step (Except Trouble String) := do
  match ← openPath path .read with
  | .error e => return .error e
  | .ok index =>
    match (← get).files[index]? with
    | some f => remaining f
    | none => return .error .badStream

/-- Gives octets to the file that a path leads to. -/
def writePath (path content : String) (opening : Opening) : Step (Except Trouble Unit) := do
  match ← openPath path opening with
  | .error e => return .error e
  | .ok index =>
    keepingStreams do
      bindStream 1 index
      writeTo 1 content

end StorageLayout.Shell
