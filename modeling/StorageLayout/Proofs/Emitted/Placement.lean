import Mathlib.Algebra.Order.Group.Unbundled.Abs
import Mathlib.Data.Rat.Floor
import Mathlib.Tactic.Linarith
import StorageLayout.Proofs.Emitted.Reading
import StorageLayout.Proofs.Numeral
import StorageLayout.Proofs.TreeForm

/-!
# Slots and Offsets

What an entry with given values for slot and offset is read to.

Compilers write a slot as a numeral and an offset as a number, but any value can stand in a file.
Those that denote an integer are taken as that integer, whatever their kind: integers, truth values,
numbers without a fraction and numerals. Other texts, null, lists, objects and the result that is no
number are refused, with an error that shows the entry.

Two kinds of numbers are treated in neither way. A number with a fraction denotes no integer but is
taken: the fraction is cut off (`IsCutTo`). An infinity is no fault of an entry but a defect. So is
an error that cannot be said because the entry holds an integer that is too long to be shown.

`Placement` lists these cases for the two values of an entry, by conditions on the values alone. The
slot is looked at before the offset, so that a fault of the offset is met only if the slot is taken.

## Main definitions

* `Denotes`: The integer that a value denotes.
* `IsCutTo`: What is left of a number with a fraction.
* `Taken`, `Unreadable`, `IsInfinite`: The values by what becomes of them.
* `Placement`: What an entry is read to.
* `Index.ReadsList`: The readings of a list of entries.

## Theorems

* `isCutTo_truncate`: Cutting off a fraction.
* `wholeNumber_of_taken`, `wholeNumber_cases`: What becomes of a value.
* `placement_of_entry`: What becomes of an entry.
* `Index.readsList_split`: An entry in a list is read by itself.
* `Index.readsList_placement`: What a list of entries is read to, by one of them.
* `Index.entry_fraction`: A slot that is not the number of its entry, and an infinity.
-/

namespace StorageLayout.Emitted

/-- The integer that a value denotes. -/
inductive Denotes : Json → Int → Prop
  | int (n : Int) : Denotes (.int n) n
  | bool (b : Bool) : Denotes (.bool b) (if b then 1 else 0)
  | negativeZero : Denotes (.real .negativeZero) 0
  | whole (n : Int) : Denotes (.real (.finite n)) n
  | numeral {s : String} {negative : Bool} {ds : List Nat}
      (h : Text.IsDecimal s.toList negative ds) :
      Denotes (.str s) (Text.withSign negative (Text.valueOfDigits ds))

/-- A numeral has more digits than are read. -/
inductive IsTooLong : Json → Prop
  | numeral {s : String} {negative : Bool} {ds : List Nat}
      (h : Text.IsDecimal s.toList negative ds) (hlong : Text.maxDigits < ds.length) :
      IsTooLong (.str s)

/-- What is left of a number with a fraction: the integer next to it on zero's side. -/
inductive IsCutTo : Json → Int → Prop
  | fraction {q : Rat} {n : Int} (hless : |(n : Rat)| < |q|) (hnear : |q - n| < 1) :
      IsCutTo (.real (.finite q)) n

/-- A value is taken as an integer. -/
inductive Taken : Json → Int → Prop
  | exact {v : Json} {n : Int} (h : Denotes v n) (hshort : ¬ IsTooLong v) : Taken v n
  | cut {v : Json} {n : Int} (h : IsCutTo v n) : Taken v n

/-- A value is refused, for a reason. A text is refused if it is no numeral or has too many digits;
which of the two is found first is left open. -/
inductive Unreadable : Json → EntryFault → Prop
  | text {s : String} {fault : EntryFault}
      (h : ∀ negative ds, Text.IsDecimal s.toList negative ds → Text.maxDigits < ds.length)
      (hfault : fault = .badNumeral s ∨ ∃ digits, fault = .longNumeral digits) :
      Unreadable (.str s) fault
  | nan : Unreadable (.real .nan) .notANumber
  | null : Unreadable .null (.noNumber .null)
  | list (items : List Json) : Unreadable (.arr items) (.noNumber (.arr items))
  | object (members : Record) : Unreadable (.obj members) (.noNumber (.obj members))

/-- A value is an infinity. -/
inductive IsInfinite : Json → Prop
  | infinity (negative : Bool) : IsInfinite (.real (.infinity negative))

/-- What an entry is read to, by the values of its slot and its offset. -/
inductive Placement (fields : Record) (slot offset : Json) : Except Error Declaration → Prop
  /-- Both values denote integers: the declaration is placed there. -/
  | exact {n m : Int} {d : Declaration} (hslot : Denotes slot n) (hoffset : Denotes offset m)
      (hshort : ¬ IsTooLong slot ∧ ¬ IsTooLong offset)
      (hd : d.slot = .int n ∧ d.offset = .int m) : Placement fields slot offset (.ok d)
  /-- A value has lost its fraction: the declaration is placed elsewhere. -/
  | cut {n m : Int} {d : Declaration} (hcut : IsCutTo slot n ∨ IsCutTo offset m)
      (hslot : Taken slot n) (hoffset : Taken offset m)
      (hd : d.slot = .int n ∧ d.offset = .int m) : Placement fields slot offset (.ok d)
  /-- A value is refused. -/
  | refused {fault : EntryFault}
      (h : Unreadable slot fault ∨ (∃ n, Taken slot n) ∧ Unreadable offset fault)
      (hshown : (Json.obj fields).isShowable = true) :
      Placement fields slot offset (.error (.badEntry (.obj fields) fault))
  /-- A value is refused, but the entry cannot be shown. -/
  | unsayable {fault : EntryFault}
      (h : Unreadable slot fault ∨ (∃ n, Taken slot n) ∧ Unreadable offset fault)
      (hhidden : (Json.obj fields).isShowable = false) :
      Placement fields slot offset (.error (.defect .badContent))
  /-- A value is an infinity. -/
  | infinite (h : IsInfinite slot ∨ (∃ n, Taken slot n) ∧ IsInfinite offset) :
      Placement fields slot offset (.error (.defect .tooGreat))

/-! ## Values -/

/-- Cutting off a fraction leaves the integer next to the number on zero's side. -/
theorem isCutTo_truncate (q : Rat) (h : ∀ n : Int, q ≠ n) :
    IsCutTo (.real (.finite q)) (Binary64.truncate q) := by
  unfold Binary64.truncate
  -- Towards zero is up for a negative number and down for the others.
  by_cases hneg : q < 0
  · have hbelow : q < q.ceil := lt_of_le_of_ne Rat.le_ceil (h _)
    have habove : (q.ceil : Rat) < q + 1 := Rat.ceil_lt
    have hsign : q.ceil ≤ 0 := Rat.ceil_le_iff.mpr hneg.le
    have hsign' : (q.ceil : Rat) ≤ 0 := by exact_mod_cast hsign
    rw [if_pos hneg]
    refine .fraction ?_ ?_
    · rw [abs_of_nonpos hsign', abs_of_neg hneg]
      linarith
    · rw [abs_of_neg (by linarith)]
      linarith
  · have hbelow : (q.floor : Rat) < q := lt_of_le_of_ne (Rat.floor_le q) (h _).symm
    have habove : q - 1 < q.floor := Rat.lt_floor
    have hsign : 0 ≤ q.floor := Rat.le_floor_iff.mpr (by exact_mod_cast not_lt.mp hneg)
    have hsign' : (0 : Rat) ≤ q.floor := by exact_mod_cast hsign
    rw [if_neg hneg]
    refine .fraction ?_ ?_
    · rw [abs_of_nonneg hsign', abs_of_nonneg (not_lt.mp hneg)]
      exact hbelow
    · rw [abs_of_pos (by linarith)]
      linarith

/-- A text that is no numeral of a length that is read is refused. -/
theorem unreadable_of_decimal (s : String) (fault : Text.NumeralFault)
    (h : Text.decimal s.toList = .error fault) :
    ∃ reason, wholeNumber (.str s) = .error (.entry reason) ∧ Unreadable (.str s) reason := by
  -- Either the text is no numeral, or it is one with too many digits.
  have hnone : ∀ negative ds, Text.IsDecimal s.toList negative ds →
      Text.maxDigits < ds.length := by
    intro negative ds hnumeral
    by_contra hshort
    rw [(Text.decimal_eq_ok_iff s.toList _).mpr
      ⟨negative, ds, hnumeral, Nat.not_lt.mp hshort, rfl⟩] at h
    exact absurd h (by simp only [reduceCtorEq, not_false_eq_true])
  cases fault with
  | malformed => exact ⟨.badNumeral s, by rw [wholeNumber, h], .text hnone (.inl rfl)⟩
  | tooLong digits =>
      exact ⟨.longNumeral digits, by rw [wholeNumber, h], .text hnone (.inr ⟨digits, rfl⟩)⟩

/-- A text that is read is not too long. -/
theorem not_isTooLong_of_decimal (s : String) (n : Int) (h : Text.decimal s.toList = .ok n) :
    ¬ IsTooLong (.str s) := by
  rintro ⟨hnumeral, hlong⟩
  rw [Text.decimal_of_isDecimal s.toList _ _ hnumeral, if_pos hlong] at h
  exact absurd h (by simp only [reduceCtorEq, not_false_eq_true])

/-- A value is taken, refused or an infinity. -/
theorem wholeNumber_cases (v : Json) :
    (∃ n, wholeNumber v = .ok n ∧ Taken v n) ∨
      (∃ fault, wholeNumber v = .error (.entry fault) ∧ Unreadable v fault) ∨
      wholeNumber v = .error .infinite ∧ IsInfinite v := by
  have hshort : ∀ w : Json, (∀ s, w ≠ .str s) → ¬ IsTooLong w := by
    rintro w hw ⟨_, _⟩
    exact hw _ rfl
  cases v with
  | null => exact .inr (.inl ⟨_, rfl, .null⟩)
  | arr items => exact .inr (.inl ⟨_, rfl, .list items⟩)
  | obj members => exact .inr (.inl ⟨_, rfl, .object members⟩)
  | int n => exact .inl ⟨n, rfl, .exact (.int n) (hshort _ (by simp))⟩
  | bool b => exact .inl ⟨_, rfl, .exact (.bool b) (hshort _ (by simp))⟩
  | str s =>
      cases hread : Text.decimal s.toList with
      | error fault => exact .inr (.inl (unreadable_of_decimal s fault hread))
      | ok n =>
          rcases (Text.decimal_eq_ok_iff s.toList n).mp hread with
            ⟨negative, ds, hnumeral, hlength, hn⟩
          exact .inl ⟨n, by rw [wholeNumber, hread], .exact (hn ▸ .numeral hnumeral)
            (not_isTooLong_of_decimal s n hread)⟩
  | real r =>
      cases r with
      | nan => exact .inr (.inl ⟨_, rfl, .nan⟩)
      | infinity negative => exact .inr (.inr ⟨rfl, .infinity negative⟩)
      | negativeZero => exact .inl ⟨0, rfl, .exact .negativeZero (hshort _ (by simp))⟩
      | finite q =>
          refine .inl ⟨Binary64.truncate q, rfl, ?_⟩
          -- A whole number is taken as it is, and any other is cut.
          by_cases hwhole : ∃ n : Int, q = n
          · rcases hwhole with ⟨n, hn⟩
            rw [hn, truncate_intCast]
            exact .exact (.whole n) (hshort _ (by simp))
          · exact .cut (isCutTo_truncate q fun n hn => hwhole ⟨n, hn⟩)

/-- There is only one integer next to a number on zero's side. -/
theorem isCutTo_unique (v : Json) (n m : Int) (h : IsCutTo v n) (h' : IsCutTo v m) : n = m := by
  cases h with
  | @fraction q n hless hnear =>
      cases h' with
      | fraction hless' hnear' =>
          have hn := abs_lt.mp hnear
          have hm := abs_lt.mp hnear'
          -- Both stand on the same side of the number, so that they differ by less than one.
          have hclose : (n : Rat) < m + 1 ∧ (m : Rat) < n + 1 := by
            by_cases hneg : q < 0
            · rw [abs_of_neg hneg] at hless hless'
              have hn' := (abs_lt.mp hless).1
              have hm' := (abs_lt.mp hless').1
              constructor <;> linarith
            · rw [abs_of_nonneg (not_lt.mp hneg)] at hless hless'
              have hn' := (abs_lt.mp hless).2
              have hm' := (abs_lt.mp hless').2
              constructor <;> linarith
          have hnm : n < m + 1 := by exact_mod_cast hclose.1
          have hmn : m < n + 1 := by exact_mod_cast hclose.2
          omega

/-- A number with something left of it when its fraction is cut off has a fraction. -/
theorem IsCutTo.ne_intCast (q : Rat) (n k : Int) (h : IsCutTo (.real (.finite q)) n) : q ≠ k := by
  intro hq
  cases h with
  | fraction hless hnear =>
      rw [hq] at hless hnear
      have hless' : |n| < |k| := by exact_mod_cast hless
      have hnear' : |k - n| < 1 := by exact_mod_cast hnear
      rw [Int.abs_lt_one_iff, sub_eq_zero] at hnear'
      rw [hnear'] at hless'
      exact absurd hless' (lt_irrefl _)

/-- What a value that is taken is read as. -/
theorem wholeNumber_of_taken (v : Json) (n : Int) (h : Taken v n) : wholeNumber v = .ok n := by
  cases h with
  | cut h =>
      obtain ⟨q, hq⟩ : ∃ q, v = .real (.finite q) := by
        cases h
        exact ⟨_, rfl⟩
      rw [hq] at h ⊢
      -- There is one integer that a number can be cut to.
      have htruncate := isCutTo_truncate q fun k => h.ne_intCast q n k
      rw [isCutTo_unique _ n _ h htruncate]
      rfl
  | exact h hshort =>
      cases h with
      | int n => rfl
      | bool b => rfl
      | negativeZero => rfl
      | whole n => exact congrArg Except.ok (truncate_intCast n)
      | @numeral s negative ds hnumeral =>
          have hlength : ¬ Text.maxDigits < ds.length :=
            fun hlong => hshort (.numeral hnumeral hlong)
          unfold wholeNumber
          simp only [Text.decimal_of_isDecimal s.toList negative ds hnumeral, hlength, if_false]

/-- Two values that are taken place a declaration. -/
theorem placement_of_taken (fields : Record) (slot offset : Json) (n m : Int) (d : Declaration)
    (hslot : Taken slot n) (hoffset : Taken offset m)
    (hd : d.slot = .int n ∧ d.offset = .int m) : Placement fields slot offset (.ok d) := by
  cases hslot with
  | cut h => exact .cut (.inl h) (.cut h) hoffset hd
  | exact hn hshort =>
      cases hoffset with
      | cut h => exact .cut (.inr h) (.exact hn hshort) (.cut h) hd
      | exact hm hshort' => exact .exact hn hm ⟨hshort, hshort'⟩ hd

/-- A fault of an entry as it is reported. -/
theorem placement_of_unreadable (fields : Record) (slot offset : Json) (fault : EntryFault)
    (h : Unreadable slot fault ∨ (∃ n, Taken slot n) ∧ Unreadable offset fault) :
    Placement fields slot offset
      (.error (Error.reported (.badEntry (.obj fields) fault))) := by
  unfold Error.reported
  by_cases hshown : (Json.obj fields).isShowable = true
  · rw [if_pos (show Error.isSayable (.badEntry (.obj fields) fault) = true from hshown)]
    exact .refused h hshown
  · rw [if_neg (show ¬ Error.isSayable (.badEntry (.obj fields) fault) = true from hshown)]
    exact .unsayable h (Bool.not_eq_true _ ▸ hshown)

namespace Index

variable (index : Index)

/-- The readings of a list of entries: as the storage of a contract, and as the members of a
struct. -/
inductive ReadsList (items : List Json) : Except Error (List Declaration) → Prop
  | storage {fullName : String} {contract : Json} {layout : Record}
      (hcontract : index.contracts.find? fullName = some contract)
      (hlayout : contract.record? "storageLayout" = some layout)
      (hitems : layout.get "storage" = .arr items) : ReadsList items (index.storage fullName)
  | members {key : Json} {record : Record} (hrecord : index.typeRecord key = .ok (.obj record))
      (hitems : record.getList "members" = .arr items) : ReadsList items (index.members key)

/-! ## Entries -/

section Elementary

variable (fields : Record) (key label : String) (slot offset : Json) (record : Record)

/-- An entry of an elementary type is read by its slot and its offset. -/
theorem entry_elementary (hkey : fields.find? "type" = some (.str key))
    (hlabel : fields.find? "label" = some (.str label)) (hslot : fields.find? "slot" = some slot)
    (hoffset : (fields.find? "offset").getD (.int 0) = offset)
    (hrecord : index.typeRecord (.str key) = .ok (.obj record))
    (hshape : shape (.str key) record = .ok .elementary) :
    index.entry (.obj fields) = do
      let n ← entryNumber (.obj fields) slot
      let m ← entryNumber (.obj fields) offset
      return { label := .str label, type := .str key, typeName := typeName (.str key) record,
               id := fields.get "astId", slot := .int n, offset := .int m } := by
  unfold entry
  simp only [Json.members?, entryMember, hkey, hlabel, hslot, hoffset, hrecord, hshape, ok_bind,
    Json.asRecord, Declaration.withShape]

/-- What becomes of an entry, by the values of its slot and its offset. -/
theorem placement_of_entry (hkey : fields.find? "type" = some (.str key))
    (hlabel : fields.find? "label" = some (.str label)) (hslot : fields.find? "slot" = some slot)
    (hoffset : (fields.find? "offset").getD (.int 0) = offset)
    (hrecord : index.typeRecord (.str key) = .ok (.obj record))
    (hshape : shape (.str key) record = .ok .elementary) :
    Placement fields slot offset ((index.entry (.obj fields)).mapError Error.reported) := by
  rw [index.entry_elementary fields key label slot offset record hkey hlabel hslot hoffset hrecord
    hshape]
  unfold entryNumber
  rcases wholeNumber_cases slot with ⟨n, hn, htaken⟩ | ⟨fault, hn, hfault⟩ | ⟨hn, hinfinite⟩
  · -- The slot is taken, and it is for the offset to decide.
    rcases wholeNumber_cases offset with ⟨m, hm, htaken'⟩ | ⟨fault, hm, hfault⟩ | ⟨hm, hinfinite⟩
    · rw [hn, hm]
      exact placement_of_taken fields slot offset n m _ htaken htaken' ⟨rfl, rfl⟩
    · rw [hn, hm]
      exact placement_of_unreadable fields slot offset fault (.inr ⟨⟨n, htaken⟩, hfault⟩)
    · rw [hn, hm]
      exact .infinite (.inr ⟨⟨n, htaken⟩, hinfinite⟩)
  · rw [hn]
    exact placement_of_unreadable fields slot offset fault (.inl hfault)
  · rw [hn]
    exact .infinite (.inl hinfinite)

end Elementary

/-- What a list of entries is read to, whichever it is. -/
theorem readsList_eq (items : List Json) (run : Except Error (List Declaration))
    (h : index.ReadsList items run) : run = items.mapM index.entry := by
  -- The members of a struct and the storage of a contract are read by the same loop, apart from an
  -- empty list.
  cases h with
  | @members key record hrecord hitems =>
      rw [members, hrecord, ok_bind, Json.asRecord, ok_bind, hitems]
      rfl
  | @storage fullName contract layout hcontract hlayout hitems =>
      unfold storage
      rw [hcontract]
      cases contract with
      | null => exact absurd hlayout (by simp [Json.record?, Json.get?, Json.members?])
      | _ =>
          simp only [hlayout, hitems]
          cases items with
          | nil => rfl
          | cons item rest => rfl

/-- What is reported of two steps is what is reported of each. -/
theorem mapError_bind {α β : Type} (g : Error → Error) (x : Except Error α)
    (f : α → Except Error β) :
    (x >>= f).mapError g = x.mapError g >>= fun a => (f a).mapError g := by
  cases x <;> rfl

/-- In a list that holds an entry the entry is read by itself, after those before it. -/
theorem readsList_split (before after : List Json) (value : Json)
    (run : Except Error (List Declaration)) (h : index.ReadsList (before ++ value :: after) run) :
    run.mapError Error.reported = do
      let ds ← (before.mapM index.entry).mapError Error.reported
      let d ← (index.entry value).mapError Error.reported
      let es ← (after.mapM index.entry).mapError Error.reported
      return ds ++ d :: es := by
  rw [index.readsList_eq _ run h, List.mapM_append, List.mapM_cons]
  simp only [bind_assoc, pure_bind, mapError_bind]
  rfl

/-- Slots and offsets are taken or refused. If both values are taken, the entry is read to a
declaration that is placed at what they are read as. That is what they denote except for a number
with a fraction, which denotes no integer. In the storage of a contract and among the members of a
struct the entry is read in the same way. -/
theorem readsList_placement (fields : Record) (key label : String) (slot offset : Json)
    (record : Record) (hkey : fields.find? "type" = some (.str key))
    (hlabel : fields.find? "label" = some (.str label)) (hslot : fields.find? "slot" = some slot)
    (hoffset : (fields.find? "offset").getD (.int 0) = offset)
    (hrecord : index.typeRecord (.str key) = .ok (.obj record))
    (hshape : shape (.str key) record = .ok .elementary) :
    ∃ result, (index.entry (.obj fields)).mapError Error.reported = result ∧
      Placement fields slot offset result ∧
      (∀ n m, Taken slot n → Taken offset m →
        ∃ d, result = .ok d ∧ d.slot = .int n ∧ d.offset = .int m) ∧
      ∀ before after run, index.ReadsList (before ++ .obj fields :: after) run →
        run.mapError Error.reported = do
          let ds ← (before.mapM index.entry).mapError Error.reported
          let d ← result
          let es ← (after.mapM index.entry).mapError Error.reported
          return ds ++ d :: es := by
  refine ⟨_, rfl, ?_, ?_, fun before after => index.readsList_split before after (.obj fields)⟩
  · exact index.placement_of_entry fields key label slot offset record hkey hlabel hslot hoffset
      hrecord hshape
  · intro n m hn hm
    rw [index.entry_elementary fields key label slot offset record hkey hlabel hslot hoffset
      hrecord hshape]
    unfold entryNumber
    rw [wholeNumber_of_taken slot n hn, wholeNumber_of_taken offset m hm]
    exact ⟨_, rfl, rfl, rfl⟩

/-- A variable of an elementary type with a slot and an offset. -/
def wordEntry (slot offset : Json) : Record :=
  [("astId", .int 2), ("label", .str "count"), ("offset", offset), ("slot", slot),
    ("type", .str "t_uint256")]

/-- An elementary type. -/
def wordRecord : Record :=
  [("encoding", .str "inplace"), ("label", .str "uint256"), ("numberOfBytes", .str "32")]

/-- A contract with one variable of an elementary type. -/
def wordIndex (slot offset : Json) : Index where
  contracts := [("a.sol:A", .obj [("storageLayout", .obj [
    ("storage", .arr [.obj (wordEntry slot offset)])])])]
  types := [(.text "t_uint256", ⟨.str "t_uint256", .obj wordRecord⟩)]

/-- A numeral with blanks, a sign, an underscore and digits of two scripts, and a number without a
fraction. -/
theorem readsList_placement_scripts :
    ∃ d, ((wordIndex (.str " +1_२\n") (.real (.finite 3))).storage "a.sol:A").mapError
        Error.reported = .ok [d] ∧ d.slot = .int 12 ∧ d.offset = .int 3 := by
  have hblanks : ∀ c, Text.isNumeralBlank c = true → Text.IsBlankText [c] :=
    fun c hc _ hx => List.mem_singleton.mp hx ▸ hc
  -- Blanks around it, a sign, an underscore and a digit of another script.
  have hnumeral : Text.IsDecimal ([' '] ++ (['+'] ++ (['1', '_', '२'] ++ ['\n']))) false [1, 2] :=
    .numeral (hblanks ' ' (by decide)) .plus (.grouped (by decide) (.one (by decide)))
      (hblanks '\n' (by decide))
  have hdenotes : Denotes (.str " +1_२\n") 12 := .numeral (s := " +1_२\n") hnumeral
  have hslot : Taken (.str " +1_२\n") 12 :=
    .exact hdenotes (not_isTooLong_of_decimal _ 12 (by decide))
  have hoffset : Taken (.real (.finite 3)) 3 := .exact (.whole 3) nofun
  rcases readsList_placement (wordIndex (.str " +1_२\n") (.real (.finite 3)))
    (wordEntry (.str " +1_२\n") (.real (.finite 3))) "t_uint256" "count" _ _ wordRecord
    rfl rfl rfl rfl rfl rfl with ⟨result, _, _, htaken, hlists⟩
  rcases htaken 12 3 hslot hoffset with ⟨d, hd, hplaced⟩
  have hstorage : (wordIndex (.str " +1_२\n") (.real (.finite 3))).ReadsList
      [.obj (wordEntry (.str " +1_२\n") (.real (.finite 3)))]
      ((wordIndex (.str " +1_२\n") (.real (.finite 3))).storage "a.sol:A") :=
    .storage rfl rfl rfl
  have hread := hlists [] [] _ hstorage
  rw [hd] at hread
  exact ⟨d, hread, hplaced⟩

/-- A number with a fraction is taken though it denotes no integer, and an infinity is neither taken
nor a fault of its entry. -/
theorem entry_fraction :
    (∃ d, (wordIndex (.real (.finite (3 / 2))) (.int 0)).entry
        (.obj (wordEntry (.real (.finite (3 / 2))) (.int 0))) = .ok d ∧ d.slot = .int 1 ∧
      ∀ n, ¬ Denotes (.real (.finite (3 / 2))) n) ∧
    ((wordIndex (.int 0) (.real (.infinity false))).entry
        (.obj (wordEntry (.int 0) (.real (.infinity false))))).mapError Error.reported
      = .error (.defect .tooGreat) := by
  have htruncated : Binary64.truncate (3 / 2) = 1 := by decide +kernel
  refine ⟨⟨_, rfl, congrArg Json.int htruncated, ?_⟩, rfl⟩
  intro n hn
  generalize hq : (3 / 2 : Rat) = q at hn
  cases hn with
  | whole n =>
      have hden : (3 / 2 : Rat).den = 1 := by rw [hq, Rat.den_intCast]
      exact absurd hden (by decide +kernel)

end Index

end StorageLayout.Emitted
