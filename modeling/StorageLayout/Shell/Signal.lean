/-!
# Signals

What processes can be told from outside, and what becomes of them then.

## Main definitions

* `signalName`: The name of a signal.
* `signalNumber?`: The signal that a word names.
* `signalObituary`: What is said of a process that a signal has ended.
-/

namespace StorageLayout.Shell

/-- The names of the signals, from the end of a process on, which counts as one. -/
def signalNames : List String :=
  ["EXIT", "HUP", "INT", "QUIT", "ILL", "TRAP", "ABRT", "BUS", "FPE", "KILL", "USR1", "SEGV",
    "USR2", "PIPE", "ALRM", "TERM", "16", "CHLD", "CONT", "STOP", "TSTP", "TTIN", "TTOU", "URG",
    "XCPU", "XFSZ", "VTALRM", "PROF", "WINCH", "IO", "PWR", "SYS", "32", "33", "RTMIN"]
    ++ (List.range 15).map (fun n => s!"RTMIN+{n + 1}")
    ++ (List.range 14).map (fun n => s!"RTMAX-{14 - n}") ++ ["RTMAX"]

/-- The name of a signal. -/
def signalName (n : Nat) : String := (signalNames[n]?).getD (toString n)

/-- The signal that a word names: by number, or by name in letters of any case. -/
def signalNumber? (word : String) : Option Nat :=
  if word ≠ "" && word.toList.all Char.isDigit then
    match word.toNat? with
    | some n => if n < signalNames.length then some n else none
    | none => none
  else signalNames.findIdx? (· = String.ofList (word.toList.map Char.toUpper))

/-- What is said of a process that a signal has ended; nothing of some. -/
def signalObituary (n : Nat) : Option String :=
  match n with
  | 1 => some "Hangup"
  | 2 | 13 => none
  | 3 => some "Quit"
  | 4 => some "Illegal instruction"
  | 5 => some "Trace/breakpoint trap"
  | 6 => some "Aborted"
  | 7 => some "Bus error"
  | 8 => some "Floating point exception"
  | 9 => some "Killed"
  | 10 => some "User defined signal 1"
  | 11 => some "Segmentation fault"
  | 12 => some "User defined signal 2"
  | 14 => some "Alarm clock"
  | 15 => some "Terminated"
  | _ => some s!"Signal {n}"

/-- Signals that do nothing to a process which does not expect them. -/
def isHarmless (n : Nat) : Bool := n = 0 || n = 17 || n = 18 || n = 23 || n = 28

end StorageLayout.Shell
