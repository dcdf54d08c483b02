import StorageLayout.Assoc

/-!
# Shell Commands

The structure of shell commands and of the words in them.

A word is kept as segments, because quoting decides what may still happen to each: what a parameter
or a command yields is split into fields outside of quotes only, and a star is a pattern only
there. A quote that opens is a segment, too, for it makes a field even where nothing stands in it.

## Main definitions

* `Segment`: A piece of a word.
* `Use`: What is done with the value of a parameter.
* `Redirect`: Where a stream of a command goes.
* `Command`: A command.
-/

namespace StorageLayout.Shell

/-- How a redirection opens its file. -/
inductive Opening where
  | read
  | write
  /-- Writes even where files are protected from being written over. -/
  | overwrite
  | append
  | readWrite
deriving Repr, DecidableEq

mutual

/-- A piece of a word. -/
inductive Segment where
  | char (c : Char) (quoted : Bool)
  /-- A quote that opens. -/
  | mark
  | parameter (name : String) (use : Use) (quoted : Bool)
  /-- What a command writes. -/
  | output (body : Command) (quoted : Bool)
  /-- The value of an arithmetic expression. -/
  | arithmetic (body : List Segment) (quoted : Bool)

/-- What is done with the value of a parameter. `orEmpty` says that an empty value counts as none.
-/
inductive Use where
  | value
  | length
  /-- A word stands in for a missing value. -/
  | fallback (orEmpty : Bool) (word : List Segment)
  /-- A word becomes the value if there is none. -/
  | assign (orEmpty : Bool) (word : List Segment)
  /-- A missing value is an error, which the word describes. -/
  | require (orEmpty : Bool) (word : List Segment)
  /-- A word stands in for a value that is there. -/
  | alternative (orEmpty : Bool) (word : List Segment)
  /-- What matches a pattern is taken away at one end. -/
  | trim (atEnd longest : Bool) (pattern : List Segment)
  /-- Something that cannot be done. -/
  | unknown

/-- Where a stream goes. -/
inductive Redirect where
  | file (stream : Nat) (opening : Opening) (target : List Segment)
  /-- To where another stream goes. -/
  | copy (stream : Nat) (target : List Segment)
  /-- From a text in the script, by its number. -/
  | document (stream : Nat) (number : Nat)

/-- A command. Lines count from one. -/
inductive Command where
  | nothing
  /-- Assignments, then a program or built-in command with its arguments. -/
  | simple (line : Nat) (assignments : List (String × List Segment)) (words : List (List Segment))
      (redirects : List Redirect)
  | sequence (first second : Command)
  | andThen (first second : Command)
  | orElse (first second : Command)
  | negate (body : Command)
  | pipe (stages : List Command)
  | background (body : Command)
  /-- Commands that keep to themselves what they set. -/
  | apart (line : Nat) (body : Command) (redirects : List Redirect)
  /-- A compound command with redirections. -/
  | redirected (line : Nat) (body : Command) (redirects : List Redirect)
  | branch (condition yes no : Command)
  /-- Repeats the body while the condition holds, or until it does. -/
  | loop (whileHolds : Bool) (condition body : Command)
  /-- Repeats the body for every field of the words, or for every positional parameter. -/
  | forEach (line : Nat) (name : String) (words : Option (List (List Segment))) (body : Command)
  /-- The first case with a pattern that matches the subject. -/
  | choose (line : Nat) (subject : List Segment) (cases : List (List (List Segment) × Command))
  | function (name : String) (body : Command)

end

instance : Inhabited Command := ⟨.nothing⟩

instance : Inhabited Segment := ⟨.mark⟩

/-- A word before anything in it is expanded. -/
abbrev Word := List Segment

/-- The characters of a word without anything to expand; nothing for any other word. Quotes do not
matter. -/
def plainText? : Word → Option String
  | [] => some ""
  | .mark :: rest => plainText? rest
  | .char c _ :: rest => (plainText? rest).map (c.toString ++ ·)
  | _ :: _ => none

/-- The text of a word without quotes and without anything to expand. -/
def bareText? : Word → Option String
  | [] => some ""
  | .char c false :: rest => (bareText? rest).map (c.toString ++ ·)
  | _ :: _ => none

end StorageLayout.Shell
