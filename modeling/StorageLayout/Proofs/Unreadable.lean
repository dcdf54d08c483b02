import Mathlib.Tactic.Common
import StorageLayout.Proofs.Artifacts
import StorageLayout.Proofs.Json.LongInteger

/-!
# Files That Are Not Read

Which files are refused, and which of them are refused in words.

A file that is no JSON is reported with its path, and with the place in it that is complained about.
Two kinds of files are not: the bytes of one are no text, and those of the other are a text in which
an integer of too many digits is met before any complaint. Reading them ends in a defect, and
nothing else in the bytes of a file does (`decodeJson_ends`).

Every other reader comes by its files through this one. The scan of a folder ends in a defect
exactly if the first file that it cannot read is of these kinds (`listContracts_eq_defect_iff`).
Finding the build file of a contract can also fail at what the debug file says: that it has a
pointer is looked at, but that the pointer is a text is taken for granted
(`readBuildInfo_eq_defect_iff`).

## Main definitions

* `IsUnreadable`: The bytes of a file give rise to a defect.
* `ReadingEnds`: How the reading of a file ends.
* `ScanFails`, `OpeningFails`: Where the readers of artifacts meet a defect.

## Theorems

* `textOf?_eq_some`: The texts of bytes.
* `decodeJson_ends`, `loadJson_ends`: How a file is read.
* `loadJson_eq_defect_iff`: The files that are not reported.
* `listContracts_eq_defect_iff`: Where the scan of a folder ends in a defect.
* `readBuildInfo_eq_defect_iff`: Where the search for a build file does.
-/

namespace StorageLayout.Artifacts

open Json.Parser (MeetsLongInteger)

/-- The bytes of a file give rise to a defect when it is read. -/
inductive IsUnreadable : List UInt8 → Defect → Prop
  /-- They are no text. -/
  | undecodable {bytes : List UInt8} (h : ∀ s, bytes ≠ encodeText s) :
      IsUnreadable bytes .undecodable
  /-- They are a text in which a long integer is met. -/
  | longInteger {s : String} (h : MeetsLongInteger (unifyNewlines s.toList)) :
      IsUnreadable (encodeText s) .badContent

/-- How the reading of a file ends: in a value, in a report of what is wrong, or in a defect. -/
inductive ReadingEnds (path : String) (bytes : List UInt8) : Except Error Json → Prop
  | value {v : Json} (h : ∀ d, ¬ IsUnreadable bytes d) : ReadingEnds path bytes (.ok v)
  | report {what : Json.Parser.Complaint} {place : Json.Parser.Place}
      (h : ∀ d, ¬ IsUnreadable bytes d) :
      ReadingEnds path bytes (.error (.invalidJson path what place))
  | defect {d : Defect} (h : IsUnreadable bytes d) : ReadingEnds path bytes (.error (.defect d))

/-! ## The text of a file -/

/-- The bytes of an array, from one of them on. -/
theorem toListLoop_eq (b : ByteArray) (i : Nat) (read : List UInt8) :
    ByteArray.toList.loop b i read = read.reverse ++ b.data.toList.drop i := by
  fun_induction ByteArray.toList.loop b i read with
  | case1 i read h ih =>
      have hlength : i < b.data.size := h
      have hbyte : b.get! i = b.data[i] := getElem!_pos b.data i hlength
      rw [ih, List.drop_eq_getElem_cons hlength, List.reverse_cons, List.append_assoc, hbyte]
      rfl
  | case2 i read h =>
      rw [List.drop_of_length_le (Nat.not_lt.mp h), List.append_nil]

/-- Bytes stand for a text if they are those of the text. -/
theorem textOf?_eq_some (bytes : List UInt8) (s : String) :
    textOf? bytes = some s ↔ bytes = encodeText s := by
  have hlist : s.toUTF8.toList = s.toUTF8.data.toList := toListLoop_eq s.toUTF8 0 []
  rw [encodeText, hlist, textOf?, String.fromUTF8?]
  constructor
  · intro h
    -- Bytes are a text if they are valid, and then they are those of this text.
    split at h
    · cases h
      rfl
    · cases h
  · rintro rfl
    exact dif_pos s.isValidUTF8

theorem textOf?_eq_none (bytes : List UInt8) :
    textOf? bytes = none ↔ ∀ s, bytes ≠ encodeText s := by
  rw [Option.eq_none_iff_forall_ne_some]
  exact forall_congr' fun s => not_congr (textOf?_eq_some bytes s)

theorem encodeText_inj {s t : String} (h : encodeText s = encodeText t) : s = t := by
  have hs := (textOf?_eq_some _ s).mpr rfl
  rw [h, (textOf?_eq_some _ t).mpr rfl] at hs
  exact (Option.some.inj hs).symm

/-- A text is unreadable for its integers only. -/
theorem isUnreadable_encodeText (s : String) (d : Defect) :
    IsUnreadable (encodeText s) d ↔
      d = .badContent ∧ MeetsLongInteger (unifyNewlines s.toList) := by
  constructor
  · intro h
    generalize hbytes : encodeText s = bytes at h
    cases h with
    -- These bytes are those of a text, so only its content can be at fault.
    | undecodable h => exact absurd hbytes.symm (h s)
    | longInteger h =>
        rw [encodeText_inj hbytes]
        exact ⟨rfl, h⟩
  · rintro ⟨rfl, h⟩
    exact .longInteger h

/-- Bytes give rise to one defect at most. -/
theorem IsUnreadable.unique {bytes : List UInt8} {d e : Defect} (hd : IsUnreadable bytes d)
    (he : IsUnreadable bytes e) : d = e := by
  cases hd with
  | undecodable h =>
      cases he with
      | undecodable _ => rfl
      | longInteger _ => exact absurd rfl (h _)
  | longInteger h => exact ((isUnreadable_encodeText _ e).mp he).1.symm

/-- A text without carriage returns has its lines ended as they are. -/
theorem unifyNewlines_of_not_mem (cs : List Char) (h : '\r' ∉ cs) : unifyNewlines cs = cs := by
  induction cs with
  | nil => rfl
  | cons c cs ih =>
      rw [List.mem_cons, not_or] at h
      rw [unifyNewlines, ih h.2]
      · exact fun _ hc _ => h.1 hc.symm
      · exact fun hc => h.1 hc.symm

/-! ## One file -/

/-- A file is read, it is reported, or it is unreadable. -/
theorem decodeJson_ends (path : String) (bytes : List UInt8) :
    ReadingEnds path bytes (decodeJson path bytes) := by
  unfold decodeJson decodeText
  rcases htext : textOf? bytes with _ | s
  · exact .defect (.undecodable ((textOf?_eq_none bytes).mp htext))
  · have hbytes := (textOf?_eq_some bytes s).mp htext
    rw [hbytes]
    dsimp only [Option.map_some]
    have hmeets := Json.Parser.parse_eq_hugeInteger_iff (unifyNewlines s.toList)
    rcases hparse : Json.parse (some Text.maxDigits) (unifyNewlines s.toList) with fault | v
    · -- Of the two faults of a text, the long integer is the one that is no complaint.
      cases fault with
      | hugeInteger => exact .defect (.longInteger (hmeets.mp hparse))
      | complaint what remaining =>
          refine .report fun d hd => ?_
          have hlong := hmeets.mpr ((isUnreadable_encodeText s d).mp hd).2
          rw [hparse] at hlong
          cases hlong
    · -- Had the text met a long integer, then it would not have been read.
      refine .value fun d hd => ?_
      have hlong := hmeets.mpr ((isUnreadable_encodeText s d).mp hd).2
      rw [hparse] at hlong
      cases hlong

theorem decodeJson_eq_defect_iff (path : String) (bytes : List UInt8) (d : Defect) :
    decodeJson path bytes = .error (.defect d) ↔ IsUnreadable bytes d := by
  have hends := decodeJson_ends path bytes
  generalize decodeJson path bytes = result at hends
  cases hends with
  | value h => exact ⟨nofun, fun hd => absurd hd (h d)⟩
  | report h => exact ⟨nofun, fun hd => absurd hd (h d)⟩
  -- Two readings of the same bytes that both fail for this reason give the same defect.
  | defect h =>
      constructor
      · intro heq
        cases heq
        exact h
      · intro hd
        rw [h.unique hd]

theorem loadJson_of_read (root : FileTree) (path : String) (bytes : List UInt8)
    (h : root.read path = .ok bytes) : loadJson root path = decodeJson path bytes := by
  rw [loadJson, readFile, h]
  rfl

/-- How a file that is there is read. -/
theorem loadJson_ends (root : FileTree) (path : String) (bytes : List UInt8)
    (h : root.read path = .ok bytes) : ReadingEnds path bytes (loadJson root path) := by
  rw [loadJson_of_read root path bytes h]
  exact decodeJson_ends path bytes

/-- What is a file can be read. -/
theorem read_of_hasFile (root : FileTree) (path : String) (h : root.hasFile path = true) :
    ∃ bytes, root.read path = .ok bytes := by
  rw [FileTree.hasFile] at h
  split at h
  · rename_i bytes hfound
    refine ⟨bytes, ?_⟩
    rw [FileTree.read, hfound, ok_bind]
    dsimp only
    rw [Option.isNone_iff_eq_none.mp h]
    rfl
  · cases h

/-- The files that are not reported. -/
theorem loadJson_eq_defect_iff (root : FileTree) (path : String) (d : Defect)
    (hfile : root.hasFile path = true) :
    loadJson root path = .error (.defect d) ↔
      ∃ bytes, root.read path = .ok bytes ∧ IsUnreadable bytes d := by
  rcases read_of_hasFile root path hfile with ⟨bytes, hread⟩
  rw [loadJson_of_read root path bytes hread, decodeJson_eq_defect_iff]
  constructor
  · exact fun h => ⟨bytes, hread, h⟩
  · rintro ⟨bytes', hread', h⟩
    rw [hread] at hread'
    cases hread'
    exact h

/-! ## The files of a folder -/

/-- The first file of a folder that cannot be read is unreadable. -/
def ScanFails (root : FileTree) (folder : String) (d : Defect) : Prop :=
  ∃ entries before path bytes after, root.lookup folder = .ok (.folder entries) ∧
    jsonFiles folder (.folder entries) = before ++ (path, bytes) :: after ∧
    (∀ f ∈ before, ∃ v, decodeJson f.1 f.2 = .ok v) ∧ IsUnreadable bytes d

/-- Where the scan of a folder ends in a defect. -/
theorem listContracts_eq_defect_iff (root : FileTree) (folder : String) (d : Defect) :
    listContracts root folder = .error (.defect d) ↔ ScanFails root folder d := by
  unfold listContracts ScanFails
  split
  · rename_i entries hfound
    -- Only the reading of a file can fail: after it the names are taken from the values that were
    -- read. And the first file that cannot be read ends the scan, whatever stands in the files
    -- after it.
    rw [bind_eq_error, or_iff_left (fun ⟨_, _, h⟩ => by cases h), mapM_eq_error]
    constructor
    · rintro ⟨before, ⟨path, bytes⟩, after, hfiles, hbefore, h⟩
      exact ⟨entries, before, path, bytes, after, hfound, hfiles, hbefore,
        (decodeJson_eq_defect_iff path bytes d).mp h⟩
    · rintro ⟨entries', before, path, bytes, after, hfound', hfiles, hbefore, h⟩
      rw [hfound] at hfound'
      cases hfound'
      exact ⟨before, (path, bytes), after, hfiles, hbefore,
        (decodeJson_eq_defect_iff path bytes d).mpr h⟩
  · -- Without such a folder no file is opened.
    rename_i hmissing
    refine ⟨nofun, ?_⟩
    rintro ⟨entries, _, _, _, _, hfound, _⟩
    exact absurd hfound (hmissing entries)

/-! ## The build file of a contract -/

/-- The pointer in a debug file. -/
def pointerOf (v : Json) : Json := (v.get? "buildInfo").getD .null

/-- The search for a build file meets a defect. -/
inductive OpeningFails (root : FileTree) (folder fullName : String) : Defect → Prop
  /-- The name is not qualified. -/
  | unqualified (h : ContractName.splitQualified fullName = none) :
      OpeningFails root folder fullName .badContent
  /-- The debug file is unreadable. -/
  | debug {source name : String} {bytes : List UInt8} {d : Defect}
      (hname : ContractName.splitQualified fullName = some (source, name))
      (hfile : root.hasFile (debugPath folder source name) = true)
      (hread : root.read (debugPath folder source name) = .ok bytes) (h : IsUnreadable bytes d) :
      OpeningFails root folder fullName d
  /-- The pointer in it says something and is no text. -/
  | pointer {source name : String} {v : Json}
      (hname : ContractName.splitQualified fullName = some (source, name))
      (hfile : root.hasFile (debugPath folder source name) = true)
      (hv : loadJson root (debugPath folder source name) = .ok v)
      (hgiven : (pointerOf v).isEmpty = false) (h : ∀ s, pointerOf v ≠ .str s) :
      OpeningFails root folder fullName .wrongKind
  /-- The build file is unreadable. -/
  | build {source name path : String} {v : Json} {bytes : List UInt8} {d : Defect}
      (hname : ContractName.splitQualified fullName = some (source, name))
      (hfile : root.hasFile (debugPath folder source name) = true)
      (hv : loadJson root (debugPath folder source name) = .ok v)
      (hpath : buildInfoPath (debugPath folder source name) v = .ok path)
      (hbuild : root.hasFile path = true)
      (hread : root.read path = .ok bytes) (h : IsUnreadable bytes d) :
      OpeningFails root folder fullName d

/-- The steps of the search. -/
theorem readBuildInfo_of_split (root : FileTree) (folder fullName source name : String)
    (hname : ContractName.splitQualified fullName = some (source, name)) :
    readBuildInfo root folder fullName =
      if root.hasFile (debugPath folder source name) then
        loadJson root (debugPath folder source name) >>= fun v =>
          buildInfoPath (debugPath folder source name) v >>= fun path =>
            if root.hasFile path then loadJson root path
            else .error (.buildInfoMissing fullName path)
      else .error (.buildInfoMissing fullName (debugPath folder source name)) := by
  rw [readBuildInfo, hname]
  dsimp only
  rcases root.hasFile (debugPath folder source name) with _ | _
  · rfl
  · refine congrArg (loadJson root (debugPath folder source name) >>= ·) (funext fun v => ?_)
    refine congrArg (buildInfoPath (debugPath folder source name) v >>= ·) (funext fun path => ?_)
    rcases root.hasFile path with _ | _ <;> rfl

theorem asText_eq_defect_iff (v : Json) (d : Defect) :
    v.asText = .error (.defect d) ↔ d = .wrongKind ∧ ∀ s, v ≠ .str s := by
  cases v with
  | str s => exact ⟨nofun, fun h => absurd rfl (h.2 s)⟩
  | null | bool _ | int _ | real _ | arr _ | obj _ =>
      exact ⟨fun h => by cases h; exact ⟨rfl, nofun⟩, fun h => by rw [h.1]; rfl⟩

/-- A pointer is followed if it is a text. -/
theorem buildInfoPath_eq_defect_iff (debug : String) (v : Json) (d : Defect) :
    buildInfoPath debug v = .error (.defect d) ↔
      d = .wrongKind ∧ (pointerOf v).isEmpty = false ∧ ∀ s, pointerOf v ≠ .str s := by
  rw [buildInfoPath, ← pointerOf]
  split
  · rename_i hempty
    exact ⟨nofun, fun h => absurd hempty (by rw [h.2.1]; exact Bool.false_ne_true)⟩
  · rename_i hgiven
    rw [Bool.not_eq_true] at hgiven
    rw [bind_eq_error, or_iff_left (fun ⟨_, _, h⟩ => by cases h), asText_eq_defect_iff]
    exact and_congr_right fun _ => ⟨fun h => ⟨hgiven, h⟩, fun h => h.2⟩

/-- Where the search for a build file ends in a defect. -/
theorem readBuildInfo_eq_defect_iff (root : FileTree) (folder fullName : String) (d : Defect) :
    readBuildInfo root folder fullName = .error (.defect d) ↔
      OpeningFails root folder fullName d := by
  constructor
  · intro h
    -- The steps are taken in the order of the code, and the constructor says at which one it ended.
    rcases hsplit : ContractName.splitQualified fullName with _ | ⟨source, name⟩
    · rw [readBuildInfo, hsplit] at h
      cases h
      exact .unqualified hsplit
    · rw [readBuildInfo_of_split root folder fullName source name hsplit] at h
      split at h
      · rename_i hfile
        rcases (bind_eq_error _ _ _).mp h with hdebug | ⟨v, hv, hrest⟩
        · rcases (loadJson_eq_defect_iff root _ d hfile).mp hdebug with ⟨bytes, hread, hbytes⟩
          exact .debug hsplit hfile hread hbytes
        · rcases (bind_eq_error _ _ _).mp hrest with hpointer | ⟨path, hpath, hbuild⟩
          · rcases (buildInfoPath_eq_defect_iff _ v d).mp hpointer with ⟨rfl, hgiven, htext⟩
            exact .pointer hsplit hfile hv hgiven htext
          · split at hbuild
            · rename_i hfile'
              rcases (loadJson_eq_defect_iff root path d hfile').mp hbuild with
                ⟨bytes, hread, hbytes⟩
              exact .build hsplit hfile hv hpath hfile' hread hbytes
            · cases hbuild
      · cases h
  · intro h
    -- In the other direction each constructor holds what is needed to come as far as its own step.
    cases h with
    | unqualified h =>
        rw [readBuildInfo, h]
        rfl
    | debug hsplit hfile hread h =>
        rw [readBuildInfo_of_split _ _ _ _ _ hsplit, if_pos hfile,
          (loadJson_eq_defect_iff root _ d hfile).mpr ⟨_, hread, h⟩]
        rfl
    | pointer hsplit hfile hv hgiven htext =>
        rw [readBuildInfo_of_split _ _ _ _ _ hsplit, if_pos hfile, hv, ok_bind,
          (buildInfoPath_eq_defect_iff _ _ _).mpr ⟨rfl, hgiven, htext⟩]
        rfl
    | build hsplit hfile hv hpath hfile' hread h =>
        rw [readBuildInfo_of_split _ _ _ _ _ hsplit, if_pos hfile, hv, ok_bind, hpath, ok_bind,
          if_pos hfile']
        exact (loadJson_eq_defect_iff root _ d hfile').mpr ⟨_, hread, h⟩

end StorageLayout.Artifacts
