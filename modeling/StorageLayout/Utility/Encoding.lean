import StorageLayout.Utility.Reading

/-!
# Programs that Write Octets as Text

## Main definitions

* `dumpOctets`: Octets as numbers, or as characters.
* `encodeBase64`: Octets in letters of which there are 64.
* `checksumFiles`: Sums by which files can be told apart.
-/

namespace StorageLayout.Shell.Utility

/-! ## Dumps -/

/-- How octets are written: as characters, or as numbers of some octets each. -/
inductive DumpKind where
  | characters
  | names
  | numbers (size base : Nat) (signed : Bool)
deriving Repr, DecidableEq

namespace DumpKind

/-- How many octets are written together. -/
def size : DumpKind → Nat
  | .characters | .names => 1
  | .numbers size _ _ => size

/-- How wide the numbers of a kind are. -/
def width : DumpKind → Nat
  | .characters | .names => 3
  | .numbers size base signed =>
    let greatest := Nat.pow 256 size - 1
    (Nat.toDigits base greatest).length + (if signed then 1 else 0)

/-- The names of control characters. -/
def controlNames : List String :=
  ["nul", "soh", "stx", "etx", "eot", "enq", "ack", "bel", "bs", "ht", "nl", "vt", "ff", "cr", "so",
    "si", "dle", "dc1", "dc2", "dc3", "dc4", "nak", "syn", "etb", "can", "em", "sub", "esc", "fs",
    "gs", "rs", "us", "sp"]

/-- Octets in base eight, with three digits. -/
def threeDigits (n : Nat) : String :=
  String.ofList ([n / 64, n / 8 % 8, n % 8].map fun d => Char.ofNat (48 + d))

/-- A character as it is written in a dump. -/
def characterText (c : Char) : String :=
  match c with
  | '\x00' => "\\0"
  | '\x07' => "\\a"
  | '\x08' => "\\b"
  | '\t' => "\\t"
  | '\n' => "\\n"
  | '\x0b' => "\\v"
  | '\x0c' => "\\f"
  | '\r' => "\\r"
  | c => if 32 ≤ c.toNat && c.toNat < 127 then c.toString else threeDigits c.toNat

/-- Octets that are written together, without what is missing at the end of a file. -/
def text (k : DumpKind) (octets : List Char) : String :=
  match k with
  | .characters => characterText (octets.headD '\x00')
  | .names =>
    let n := (octets.headD '\x00').toNat % 128
    if n = 127 then "del" else (controlNames[n]?).getD (Char.ofNat n).toString
  | .numbers size base signed =>
    let n := octets.foldr (fun c n => n * 256 + c.toNat) 0
    let limit := Nat.pow 256 size
    if base = 10 then
      toString (if signed && 2 * n ≥ limit then (n : Int) - limit else (n : Int))
    else
      let digits := Nat.toDigits base n
      String.ofList (List.replicate (k.width - digits.length) '0' ++ digits)

/-- Octets in pieces of a size. -/
def pieces (size : Nat) : (fuel : Nat) → List Char → List (List Char)
  | 0, _ => []
  | _, [] => []
  | fuel + 1, cs => cs.take size :: pieces size fuel (cs.drop size)

/-- A line of a dump. -/
def line (k : DumpKind) (octets : List Char) : String :=
  String.join ((pieces k.size octets.length octets).map fun p => " " ++ padLeft k.width (k.text p))

/-- The kinds that a word asks for. -/
def ofWord (word : String) : Except String (List DumpKind) := go word.length word.toList
where
  /-- The kinds that letters ask for. -/
  go : (fuel : Nat) → List Char → Except String (List DumpKind)
    | 0, _ => .ok []
    | _, [] => .ok []
    | fuel + 1, c :: rest => do
      let digits := rest.takeWhile Char.isDigit
      let (size, rest) := match rest with
        | 'C' :: rest => (1, rest)
        | 'S' :: rest => (2, rest)
        | 'I' :: rest => (4, rest)
        | 'L' :: rest => (8, rest)
        | rest => (if digits.isEmpty then 4 else ((String.ofList digits).toNat?).getD 0,
          rest.drop digits.length)
      let more ← go fuel rest
      if size = 0 || size > 8 then
        throw (s!"invalid type string {curlyQuoted word};\nthis system doesn't provide a "
          ++ s!"{size}-byte integral type")
      match c with
      | 'c' => return .characters :: more
      | 'a' => return .names :: more
      | 'o' => return .numbers size 8 false :: more
      | 'x' => return .numbers size 16 false :: more
      | 'u' => return .numbers size 10 false :: more
      | 'd' => return .numbers size 10 true :: more
      | c =>
        throw (s!"invalid character '{c}' in type string {curlyQuoted word}")

end DumpKind

/-- A position in some base; nothing if positions are not written. -/
def addressText (base : Char) (n : Nat) : String :=
  let digits (base : Nat) (width : Nat) : String :=
    let ds := Nat.toDigits base n
    String.ofList (List.replicate (width - ds.length) '0' ++ ds)
  match base with
  | 'd' => digits 10 7
  | 'x' => digits 16 6
  | 'n' => ""
  | _ => digits 8 7

/-- The lines of a dump. A line like the one before it is left out, and a star stands for all such.
-/
def dumpLines (kinds : List DumpKind) (base : Char) (all : Bool) (position : Nat)
    (before : Option (List Char)) (starred : Bool) : List (List Char) → List String
  | [] => [addressText base position]
  | octets :: rest =>
    let next := position + octets.length
    if !all && before = some octets && octets.length = 16 && !rest.isEmpty then
      (if starred then [] else ["*"]) ++ dumpLines kinds base all next before true rest
    else
      let address := addressText base position
      let shown := kinds.zipIdx.map fun (k, n) =>
        (if n = 0 then address else padLeft address.length "") ++ k.line octets
      shown ++ dumpLines kinds base all next (some octets) false rest

/-- Writes octets as numbers, or as characters. -/
def dumpOctets : Utility := fun _ arguments =>
  let table : OptionTable :=
    { program := "od", letters := "A:abcdij:loN:st:vxw:"
      long := [("address-radix", 'A'), ("skip-bytes", 'j'), ("read-bytes", 'N'), ("format", 't'),
        ("output-duplicates", 'v')] }
  table.read arguments fun given => do
    let ofLetter (c : Char) (word : String) : Except String (List DumpKind) :=
      match c with
      | 't' => DumpKind.ofWord word
      | 'a' => .ok [.names]
      | 'b' => .ok [.numbers 1 8 false]
      | 'c' => .ok [.characters]
      | 'd' => .ok [.numbers 2 10 false]
      | 'i' => .ok [.numbers 4 10 true]
      | 'l' => .ok [.numbers 8 10 true]
      | 'o' => .ok [.numbers 2 8 false]
      | 's' => .ok [.numbers 2 10 true]
      | 'x' => .ok [.numbers 2 16 false]
      | _ => .ok []
    match given.options.mapM fun o => ofLetter o.1 o.2 with
    | .error reason =>
      complain s!"od: {reason}\n"
      return 1
    | .ok kinds =>
      let kinds := if kinds.flatten.isEmpty then [.numbers 2 8 false] else kinds.flatten
      let names := if given.operands.isEmpty then ["-"] else given.operands
      let texts ← names.mapM readOperand
      (names.zip texts).forM fun (name, text) => match text with
        | .error e => tell "od" (quotedIfNeeded name) (if e = .folder then .folder else e)
        | .ok _ => return
      let octets := (String.join (texts.map fun t => t.toOption.getD "")).toList
      let start := ((given.text? 'j').bind amount?).getD 0
      let octets := octets.drop start
      let octets := match (given.text? 'N').bind amount? with
        | some n => octets.take n
        | none => octets
      let base := ((given.text? 'A').bind fun w => w.toList.head?).getD 'o'
      let failed := texts.any fun t => t.toOption.isNone
      if !(failed && octets.isEmpty) then
        let rows := DumpKind.pieces 16 octets.length octets
        let lines := dumpLines kinds base (given.has 'v') start none false rows
        say (unlines (if base = 'n' then lines.dropLast else lines))
      return if failed then 1 else 0

/-! ## Letters of which there are 64 -/

/-- The letters. -/
def base64Letters : List Char :=
  "ABCDEFGHIJKLMNOPQRSTUVWXYZabcdefghijklmnopqrstuvwxyz0123456789+/".toList

/-- Octets in letters, four for every three. -/
def toBase64 : List Char → List Char
  | a :: b :: c :: rest =>
    let n := a.toNat * 65536 + b.toNat * 256 + c.toNat
    [n / 262144, n / 4096 % 64, n / 64 % 64, n % 64].map (base64Letters.getD · 'A')
      ++ toBase64 rest
  | [a, b] =>
    let n := a.toNat * 65536 + b.toNat * 256
    ([n / 262144, n / 4096 % 64, n / 64 % 64].map (base64Letters.getD · 'A')) ++ ['=']
  | [a] =>
    let n := a.toNat * 65536
    ([n / 262144, n / 4096 % 64].map (base64Letters.getD · 'A')) ++ ['=', '=']
  | [] => []

/-- The octets that letters stand for, and whether all of them do. -/
def ofBase64 : List Char → List Char × Bool
  | a :: b :: c :: d :: rest =>
    let value (c : Char) : Option Nat := base64Letters.findIdx? (· = c)
    let octet (n : Nat) : Char := Char.ofNat (n % 256)
    match value a, value b, value c, value d with
    | some a, some b, some c, some d =>
      let n := a * 262144 + b * 4096 + c * 64 + d
      let (others, good) := ofBase64 rest
      (octet (n / 65536) :: octet (n / 256) :: octet n :: others, good)
    | some a, some b, some c, none =>
      let n := a * 262144 + b * 4096 + c * 64
      ([octet (n / 65536), octet (n / 256)], d = '=' && rest.isEmpty)
    | some a, some b, none, none =>
      ([octet ((a * 262144 + b * 4096) / 65536)], c = '=' && d = '=' && rest.isEmpty)
    | _, _, _, _ => ([], false)
  | [] => ([], true)
  | _ => ([], false)

/-- Writes octets in letters, or the octets that letters stand for. -/
def encodeBase64 : Utility := fun _ arguments =>
  let table : OptionTable :=
    { program := "base64", letters := "diw:"
      long := [("decode", 'd'), ("ignore-garbage", 'i'), ("wrap", 'w')] }
  table.read arguments fun given => do
    match given.operands with
    | _ :: extra :: _ => table.refuse s!"extra operand {curlyQuoted extra}"
    | operands =>
      let name := operands.headD "-"
      match ← readOperand name with
      | .error e =>
        tell "base64" (if e = .folder then "read error" else quotedIfNeeded name) e
        return 1
      | .ok text =>
        if given.has 'd' then
          let letters := text.toList.filter fun c => c ≠ '\n'
            && !(given.has 'i' && !base64Letters.contains c && c ≠ '=')
          let (octets, good) := ofBase64 letters
          say (String.ofList octets)
          if !good then complain "base64: invalid input\n"
          return if good then 0 else 1
        else
          let letters := toBase64 text.toList
          match natural? ((given.text? 'w').getD "76") with
          | none =>
            let word := (given.text? 'w').getD ""
            complain s!"base64: invalid wrap size: {curlyQuoted word}\n"
            return 1
          | some 0 =>
            say (String.ofList letters)
            return 0
          | some width =>
            say (unlines ((DumpKind.pieces width letters.length letters).map String.ofList))
            return 0

/-! ## Checksums -/

/-- A step of a cyclic redundancy check of 32 bits. -/
def checksumStep (crc : UInt32) (octet : UInt8) : UInt32 :=
  (List.range 8).foldl (fun crc _ =>
    if crc &&& 0x80000000 ≠ 0 then (crc <<< 1) ^^^ 0x04c11db7 else crc <<< 1)
    (crc ^^^ (octet.toUInt32 <<< 24))

/-- The octets of a number, the least one first, without zeros at its end. -/
def lengthOctets : (fuel : Nat) → Nat → List UInt8
  | 0, _ => []
  | _, 0 => []
  | fuel + 1, n => UInt8.ofNat n :: lengthOctets fuel (n / 256)

/-- The checksum of a text: a cyclic redundancy check of its octets and its length. -/
def checksum (text : String) : UInt32 :=
  let octets := bytesOfOctets text ++ lengthOctets 16 text.length
  (octets.foldl checksumStep 0).complement

/-- Writes checksums of files. -/
def checksumFiles : Utility := fun _ arguments =>
  let table : OptionTable := { program := "cksum", letters := "" }
  table.read arguments fun given => do
    let names := if given.operands.isEmpty then ["-"] else given.operands
    forOperands names fun name => do
      match ← readOperand name with
      | .error e =>
        tell "cksum" (quotedIfNeeded name) e
        return false
      | .ok text =>
        let shown := if given.operands.isEmpty then "" else " " ++ name
        say s!"{(checksum text).toNat} {text.length}{shown}\n"
        return true

end StorageLayout.Shell.Utility
