import Mathlib.Algebra.Group.Nat.Even
import Mathlib.Data.List.Induction
import Mathlib.Data.Nat.Digits.Defs
import StorageLayout.Proofs.Presentation

/-!
# Slots and Their Words

The word of a slot stands for the slot, and words are ordered as slots are.

A word is made in three steps. The number is taken apart into its bytes, the bytes are filled up
with zeros in front, and what comes out is written in hexadecimal. The first step and the last one
are the work of a library, of which only two things are known: it gives the shortest bytes that
there are (`IsShortest`), and it writes two lower-case digits for each byte (`IsHexWriter`). This is
enough, because no other bytes are as short (`IsShortest.eq_bigEndian`).

In the end a word is the number at a fixed width (`hexBytes_eq`). The zeros in front do not change
its value, and the width is that of 32 bytes as long as the number fits into them. So a word can be
read back, and of two words of one width the one of the smaller number comes first: where they
differ for the first time, it has the smaller digit.

A slot below zero has no word, whichever it is. The complaint names the number, so it is only made
if the number can be written in base ten. If it cannot, writing it is what fails
(`hexOfValue_exceptions`).

## Main definitions

* `valueOfBytes`: The number that bytes stand for.
* `IsShortest`: The shortest bytes of a number.
* `IsHexWriter`: Bytes are written as two lower-case digits each.
* `readHex?`: The number that hexadecimal digits stand for.

## Theorems

* `bigEndian_isShortest`, `IsShortest.eq_bigEndian`: There are shortest bytes, and no others.
* `length_bigEndian_le_iff`: How many bytes a number needs.
* `hexBytes_eq`: Bytes in hexadecimal are their number at a fixed width.
* `readHex?_hexWord`: A number is read back from its digits.
* `hexWord_lt_of_lt`: Digits of one width are ordered as their numbers.
* `hexOfValue_negative`: A slot below zero has no word.
* `hexOfValue_word`: The words of slots.
* `hexOfValue_exceptions`: The slots of which nothing of this holds.
-/

namespace StorageLayout.Slot

/-! ## Bytes -/

/-- The number that bytes stand for, the most significant first. -/
def valueOfBytes (bytes : List UInt8) : Nat := Nat.ofDigits 256 (bytes.reverse.map UInt8.toNat)

/-- Bytes are the shortest that stand for a number. There is at least one. -/
structure IsShortest (n : Nat) (bytes : List UInt8) : Prop where
  value : valueOfBytes bytes = n
  ne_nil : bytes ≠ []
  length_le : ∀ other, other ≠ [] → valueOfBytes other = n → bytes.length ≤ other.length

/-- Bytes are written in hexadecimal: two lower-case digits for each, after a prefix. -/
def IsHexWriter (encode : List UInt8 → String) : Prop :=
  ∀ bytes, encode bytes = "0x" ++ String.ofList
    (bytes.flatMap fun b => [Nat.digitChar (b.toNat / 16), Nat.digitChar (b.toNat % 16)])

theorem valueOfBytes_append (bytes : List UInt8) (b : UInt8) :
    valueOfBytes (bytes ++ [b]) = 256 * valueOfBytes bytes + b.toNat := by
  rw [valueOfBytes, List.reverse_concat, List.map_cons, Nat.ofDigits_cons, valueOfBytes]
  exact Nat.add_comm _ _

/-- Zeros in front do not count. -/
theorem valueOfBytes_padWord (bytes : List UInt8) :
    valueOfBytes (padWord bytes) = valueOfBytes bytes := by
  have hzeros : ∀ k, Nat.ofDigits 256 (List.replicate k 0) = 0 := fun k => by
    rw [Nat.ofDigits_replicate_zero]
  rw [valueOfBytes, padWord, List.reverse_append, List.map_append, Nat.ofDigits_append,
    List.reverse_replicate, List.map_replicate]
  rw [show UInt8.toNat 0 = 0 from rfl, hzeros, Nat.mul_zero, Nat.add_zero, valueOfBytes]

theorem valueOfBytes_lt (bytes : List UInt8) : valueOfBytes bytes < 256 ^ bytes.length := by
  have hbound := Nat.ofDigits_lt_base_pow_length (b := 256)
    (l := bytes.reverse.map UInt8.toNat) (by omega) (by
      intro d hd
      rcases List.mem_map.mp hd with ⟨b, _, hb⟩
      rw [← hb]
      exact b.toNat_lt)
  rw [List.length_map, List.length_reverse] at hbound
  exact hbound

/-- Bytes of one number and of one length are the same. -/
theorem eq_of_valueOfBytes (bytes other : List UInt8) (hlength : bytes.length = other.length)
    (hvalue : valueOfBytes bytes = valueOfBytes other) : bytes = other := by
  -- From the last byte on, because the value of a longer word is 256 times that of the bytes before
  -- it plus the last one.
  induction bytes using List.reverseRecOn generalizing other with
  | nil => exact (List.length_eq_zero_iff.mp hlength.symm).symm
  | append_singleton rest b ih =>
      rcases List.eq_nil_or_concat other with hnil | ⟨rest', b', hother⟩
      · rw [hnil] at hlength
        simp at hlength
      · rw [hother, List.concat_eq_append] at hlength hvalue ⊢
        rw [valueOfBytes_append, valueOfBytes_append] at hvalue
        have hb := b.toNat_lt
        have hb' := b'.toNat_lt
        rw [List.length_append, List.length_append, List.length_singleton, List.length_singleton,
          Nat.add_right_cancel_iff] at hlength
        have hlast : b = b' := UInt8.toNat_inj.mp (by omega)
        rw [ih rest' hlength (by omega), hlast]

theorem valueOfBytes_significantBytes (n : Nat) : valueOfBytes (significantBytes n) = n := by
  induction n using significantBytes.induct with
  | case1 =>
      rw [significantBytes, if_pos rfl]
      rfl
  | case2 n hn ih =>
      rw [significantBytes, if_neg hn, valueOfBytes_append, ih, UInt8.toNat_ofNat']
      omega

/-- How many bytes a number needs. -/
theorem length_significantBytes_le_iff (n k : Nat) :
    (significantBytes n).length ≤ k ↔ n < 256 ^ k := by
  -- The induction is that of the code: every step divides `n` by 256, and allows one byte less.
  induction n using significantBytes.induct generalizing k with
  | case1 => simp [significantBytes]
  | case2 n hn ih =>
      rw [significantBytes, if_neg hn, List.length_append, List.length_singleton]
      cases k with
      | zero =>
          rw [Nat.pow_zero]
          omega
      | succ k =>
          rw [Nat.add_le_add_iff_right, ih, Nat.pow_succ]
          omega

theorem length_bigEndian_le_iff (n k : Nat) (hk : 0 < k) :
    (bigEndian n).length ≤ k ↔ n < 256 ^ k := by
  unfold bigEndian
  split
  · rename_i hn
    rw [hn, List.length_singleton]
    exact ⟨fun _ => Nat.pow_pos (by omega), fun _ => hk⟩
  · exact length_significantBytes_le_iff n k

/-- The bytes of a number are the shortest. -/
theorem bigEndian_isShortest (n : Nat) : IsShortest n (bigEndian n) := by
  -- Zero has no significant byte and is written as one zero byte, so it is a case of its own.
  refine ⟨?_, ?_, ?_⟩
  · unfold bigEndian
    split
    · rename_i hn
      rw [hn]
      rfl
    · exact valueOfBytes_significantBytes n
  · unfold bigEndian
    split
    · exact List.cons_ne_nil _ _
    · rename_i hn
      rw [significantBytes, if_neg hn]
      exact List.append_ne_nil_of_right_ne_nil _ (List.cons_ne_nil _ _)
  · -- A list of `k` bytes has a value below `256 ^ k`, and every such value has at most `k` bytes.
    intro other hother hvalue
    rw [length_bigEndian_le_iff n _ (List.length_pos_of_ne_nil hother), ← hvalue]
    exact valueOfBytes_lt other

/-- No other bytes are as short. -/
theorem IsShortest.eq_bigEndian (n : Nat) (bytes : List UInt8) (h : IsShortest n bytes) :
    bytes = bigEndian n := by
  have hshortest := bigEndian_isShortest n
  refine eq_of_valueOfBytes _ _ (Nat.le_antisymm ?_ ?_) (h.value.trans hshortest.value.symm)
  · exact h.length_le _ hshortest.ne_nil hshortest.value
  · exact hshortest.length_le _ h.ne_nil h.value

/-! ## Digits -/

/-- The lower-case hexadecimal digits. -/
def lowerDigits : List Char := "0123456789abcdef".toList

/-- The number that hexadecimal digits stand for, the most significant first. -/
def readHex? (digits : List Char) : Option Nat :=
  (digits.mapM Text.hexValue?).map fun ds => Nat.ofDigits 16 ds.reverse

/-- What is known of a single digit. -/
theorem hexDigit_spec (d : Fin 16) :
    Text.hexDigit d = Nat.digitChar d ∧ Text.hexDigit d ∈ lowerDigits ∧
      Text.hexValue? (Text.hexDigit d) = some d := by
  revert d
  decide

theorem hexDigit_lt_of_lt (d e : Fin 16) (h : d < e) : Text.hexDigit d < Text.hexDigit e := by
  revert d e
  decide

/-- A number is read back from its last digits, as far as they go. -/
theorem readHex?_hexWord (width n : Nat) :
    readHex? (Text.hexWord width n) = some (n % 16 ^ width) := by
  -- The digits are written from the last on, hence the value of the reversed list.
  have hread : ∃ ds, (Text.hexWord width n).mapM Text.hexValue? = some ds ∧
      Nat.ofDigits 16 ds.reverse = n % 16 ^ width := by
    induction width generalizing n with
    | zero => exact ⟨[], rfl, by rw [Nat.pow_zero, Nat.mod_one]; rfl⟩
    | succ w ih =>
        rcases ih (n / 16) with ⟨ds, hds, hvalue⟩
        have hdigit := (hexDigit_spec ⟨n % 16, Nat.mod_lt _ (by omega)⟩).2.2
        refine ⟨ds ++ [n % 16], ?_, ?_⟩
        · rw [Text.hexWord, List.mapM_append, hds, List.mapM_cons, hdigit]
          rfl
        · rw [List.reverse_concat, Nat.ofDigits_cons, hvalue, Nat.pow_succ, Nat.mul_comm _ 16,
            Nat.mod_mul]
  rcases hread with ⟨ds, hds, hvalue⟩
  rw [readHex?, hds, ← hvalue]
  rfl

theorem mem_lowerDigits_of_hexWord (width n : Nat) :
    ∀ c ∈ Text.hexWord width n, c ∈ lowerDigits := by
  induction width generalizing n with
  | zero => exact fun c hc => absurd hc List.not_mem_nil
  | succ w ih =>
      intro c hc
      rw [Text.hexWord, List.mem_append, List.mem_singleton] at hc
      rcases hc with hc | hc
      · exact ih _ c hc
      · rw [hc]
        exact (hexDigit_spec ⟨n % 16, Nat.mod_lt _ (by omega)⟩).2.1

/-- Texts of one length are compared where they differ for the first time. -/
theorem append_lt_append (xs ys : List Char) (hlength : xs.length = ys.length) (x y : Char)
    (h : xs < ys ∨ xs = ys ∧ x < y) : xs ++ [x] < ys ++ [y] := by
  -- Of two texts of one length the first character that differs decides, be it in `xs` and `ys` or
  -- the one put behind them.
  induction xs generalizing ys with
  | nil =>
      have hnil := List.length_eq_zero_iff.mp hlength.symm
      rw [hnil] at h ⊢
      rcases h with h | ⟨_, h⟩
      · exact absurd h (List.not_lt_nil _)
      · exact List.cons_lt_cons_iff.mpr (.inl h)
  | cons a xs ih =>
      cases ys with
      | nil => simp at hlength
      | cons b ys =>
          rw [List.length_cons, List.length_cons, Nat.add_right_cancel_iff] at hlength
          rw [List.cons_append, List.cons_append, List.cons_lt_cons_iff]
          rw [List.cons_lt_cons_iff, List.cons.injEq] at h
          rcases h with (h | ⟨hab, h⟩) | ⟨⟨hab, heq⟩, h⟩
          · exact .inl h
          · exact .inr ⟨hab, ih ys hlength (.inl h)⟩
          · exact .inr ⟨hab, ih ys hlength (.inr ⟨heq, h⟩)⟩

/-- Digits of one width are ordered as their numbers are. -/
theorem hexWord_lt_of_lt (width n m : Nat) (h : n < m) (hm : m < 16 ^ width) :
    Text.hexWord width n < Text.hexWord width m := by
  induction width generalizing n m with
  | zero =>
      rw [Nat.pow_zero] at hm
      omega
  | succ w ih =>
      rw [Nat.pow_succ] at hm
      refine append_lt_append _ _ (by rw [Text.length_hexWord, Text.length_hexWord]) _ _ ?_
      -- Either the digits before the last ones decide, or they are the same.
      rcases Nat.lt_or_ge (n / 16) (m / 16) with hless | hge
      · exact .inl (ih _ _ hless (by omega))
      · have hsame : n / 16 = m / 16 := by omega
        exact .inr ⟨by rw [hsame], hexDigit_lt_of_lt ⟨n % 16, Nat.mod_lt _ (by omega)⟩
          ⟨m % 16, Nat.mod_lt _ (by omega)⟩ (show n % 16 < m % 16 by omega)⟩

/-! ## Words -/

/-- Bytes in hexadecimal are their number at a fixed width. -/
theorem hexBytes_eq (bytes : List UInt8) :
    Text.hexBytes bytes = Text.hexWord (2 * bytes.length) (valueOfBytes bytes) := by
  -- Digits are taken off at the end, so the last byte comes first.
  induction bytes using List.reverseRecOn with
  | nil => rfl
  | append_singleton rest b ih =>
      have hb := b.toNat_lt
      have hdigits : valueOfBytes (rest ++ [b]) % 16 = b.toNat % 16 ∧
          valueOfBytes (rest ++ [b]) / 16 % 16 = b.toNat / 16 % 16 ∧
          valueOfBytes (rest ++ [b]) / 16 / 16 = valueOfBytes rest := by
        rw [valueOfBytes_append]
        omega
      rw [List.length_append, List.length_singleton, Nat.mul_add, Text.hexWord, Text.hexWord,
        hdigits.1, hdigits.2.1, hdigits.2.2, ← ih]
      simp [Text.hexBytes, Text.hexWord]

/-- There is one way of writing bytes in hexadecimal. -/
theorem IsHexWriter.eq_hexBytes (encode : List UInt8 → String) (h : IsHexWriter encode)
    (bytes : List UInt8) : encode bytes = "0x" ++ String.ofList (Text.hexBytes bytes) := by
  -- A byte is below 256, so that the two divisions by 16 leave its two digits.
  have hbyte : ∀ b : UInt8, Text.hexWord 2 b.toNat
      = [Nat.digitChar (b.toNat / 16), Nat.digitChar (b.toNat % 16)] := by
    intro b
    have hb := b.toNat_lt
    have hhigh := (hexDigit_spec ⟨b.toNat / 16, by omega⟩).1
    have hlow := (hexDigit_spec ⟨b.toNat % 16, by omega⟩).1
    simp only at hhigh hlow
    rw [← hhigh, ← hlow, Text.hexWord, Text.hexWord, Text.hexWord,
      Nat.mod_eq_of_lt (show b.toNat / 16 < 16 by omega)]
    rfl
  rw [h bytes, Text.hexBytes, funext hbyte]

/-- A word is the number of its slot at a fixed width. -/
theorem word_eq (n : Nat) :
    word n = "0x" ++ String.ofList (Text.hexWord (2 * (padWord (bigEndian n)).length) n) := by
  rw [word, hexBytes_eq, valueOfBytes_padWord, (bigEndian_isShortest n).value]

/-- The digits of a word are those of 32 bytes if the number fits into them, and more if not. -/
theorem length_padWord_bigEndian (n : Nat) :
    32 ≤ (padWord (bigEndian n)).length ∧
      ((padWord (bigEndian n)).length = 32 ↔ n < 256 ^ 32) := by
  rw [length_padWord, ← length_bigEndian_le_iff n 32 (by omega)]
  omega

/-- Words of 32 bytes are ordered as their slots are. -/
theorem word_lt_of_lt (n m : Nat) (h : n < m) (hm : m < 256 ^ 32) : word n < word m := by
  have hdigits : (256 : Nat) ^ 32 = 16 ^ (2 * 32) := by decide
  rw [word_eq, word_eq, (length_padWord_bigEndian n).2.mpr (Nat.lt_trans h hm),
    (length_padWord_bigEndian m).2.mpr hm]
  rw [hdigits] at hm
  simp only [String.lt_iff, String.toList_append, String.toList_ofList]
  exact List.append_left_lt (hexWord_lt_of_lt _ n m h hm)

/-- A slot below zero has no word. The complaint is made if the slot can be written. -/
theorem hexOfValue_negative (n : Int) (h : n < 0) :
    (Text.isWritable n = true → hexOfValue (.int n) = .error (.negativeSlot (.int n))) ∧
      (Text.isWritable n = false → hexOfValue (.int n) = Defect.badContent.fail) := by
  have hsayable : Error.isSayable (.negativeSlot (.int n)) = Text.isWritable n := by
    rw [Error.isSayable, Json.isShowable]
  rw [hexOfValue, if_pos h, ← hsayable]
  exact ⟨Error.raise_of_isSayable _, Error.raise_of_not_isSayable _⟩

/-- The words of slots.

Let the library give the shortest bytes of a number, and write two lower-case digits for a byte.
Then the word of a slot is what it makes of the padded bytes. It consists of an even number of
lower-case digits after the prefix, at least 64 and no more than that for a number of 256 bits, and
the number is read back from them. Words of such numbers are ordered as the numbers are. Every slot
below zero is refused as such if the number can be written, and otherwise because it cannot. -/
theorem hexOfValue_word (bytesOf : Nat → List UInt8) (encode : List UInt8 → String)
    (hbytes : ∀ n, IsShortest n (bytesOf n)) (hencode : IsHexWriter encode) :
    (∀ n : Nat, hexOfValue (.int n) = .ok (encode (padWord (bytesOf n))) ∧
      ∃ digits, encode (padWord (bytesOf n)) = "0x" ++ String.ofList digits ∧
        (∀ c ∈ digits, c ∈ lowerDigits) ∧ Even digits.length ∧ 64 ≤ digits.length ∧
        (digits.length = 64 ↔ n < 2 ^ 256) ∧ readHex? digits = some n) ∧
    (∀ n m : Nat, n < m → m < 2 ^ 256 →
      encode (padWord (bytesOf n)) < encode (padWord (bytesOf m))) ∧
    ∀ n : Int, n < 0 →
      (Text.isWritable n = true → hexOfValue (.int n) = .error (.negativeSlot (.int n))) ∧
      (Text.isWritable n = false → hexOfValue (.int n) = Defect.badContent.fail) := by
  -- Whatever library makes the bytes and writes them: what comes out is the word of the model.
  have hword : ∀ n, encode (padWord (bytesOf n)) = word n := by
    intro n
    rw [hencode.eq_hexBytes, (hbytes n).eq_bigEndian]
    rfl
  have hbits : (256 : Nat) ^ 32 = 2 ^ 256 := by decide
  refine ⟨fun n => ?_, fun n m hnm hm => ?_, hexOfValue_negative⟩
  · have hlength := length_padWord_bigEndian n
    rw [hbits] at hlength
    rw [hword]
    refine ⟨?_, _, word_eq n, mem_lowerDigits_of_hexWord _ _, ?_, ?_, ?_, ?_⟩
    · rw [hexOfValue, if_neg (by omega), Int.toNat_natCast]
    · rw [Text.length_hexWord]
      exact even_two_mul _
    · rw [Text.length_hexWord]
      omega
    · rw [Text.length_hexWord, ← hlength.2]
      omega
    · -- The word is as wide as its number needs, so nothing is cut off when it is read back.
      have hfits : n < 256 ^ (padWord (bigEndian n)).length := by
        have hlt := valueOfBytes_lt (padWord (bigEndian n))
        rw [valueOfBytes_padWord, (bigEndian_isShortest n).value] at hlt
        exact hlt
      rw [readHex?_hexWord, Nat.pow_mul, Nat.mod_eq_of_lt hfits]
  · rw [← hbits] at hm
    rw [hword, hword]
    exact word_lt_of_lt n m hnm hm

/-- The bytes of a number and their digits, as the library gives them. -/
theorem hexOfValue_word_carry :
    hexOfValue (.int 255) = .ok ("0x" ++ String.ofList (List.replicate 62 '0' ++ ['f', 'f'])) ∧
      word 255 < word 256 ∧
      hexOfValue (.int (-1)) = .error (.negativeSlot (.int (-1))) := by
  have hencode : IsHexWriter fun bytes => "0x" ++ String.ofList
      (bytes.flatMap fun b => [Nat.digitChar (b.toNat / 16), Nat.digitChar (b.toNat % 16)]) :=
    fun _ => rfl
  rcases hexOfValue_word bigEndian _ bigEndian_isShortest hencode with ⟨hwords, hordered, hnegative⟩
  have hlibrary : ∀ n, "0x" ++ String.ofList ((padWord (bigEndian n)).flatMap fun b =>
      [Nat.digitChar (b.toNat / 16), Nat.digitChar (b.toNat % 16)]) = word n :=
    fun n => hencode.eq_hexBytes _ _
  simp only [hlibrary] at hwords hordered
  refine ⟨?_, hordered 255 256 (by decide) (by decide),
    (hnegative (-1) (by decide)).1 (Json.isShowable_int (-1) (by decide))⟩
  refine (hwords 255).1.trans (congrArg Except.ok ?_)
  decide +kernel

/-- Below zero nothing of this holds. A slot of too many digits is not even named in a complaint, and
where there is no word, there is none that could come before the word of a greater slot. -/
theorem hexOfValue_exceptions :
    hexOfValue (.int (-Text.leastTooLong)) = Defect.badContent.fail ∧
      (-1 : Int) < 0 ∧ (0 : Int) < 2 ^ 256 ∧ ∀ w, hexOfValue (.int (-1)) ≠ .ok w := by
  have hlong : Text.isWritable (-Text.leastTooLong) = false := by
    rw [Text.isWritable, decide_eq_false_iff_not, Int.natAbs_neg, Int.natAbs_natCast]
    exact Nat.lt_irrefl _
  have hnegative : -(Text.leastTooLong : Int) < 0 := by
    have hpos := Text.leastTooLong_pos
    omega
  refine ⟨(hexOfValue_negative _ hnegative).2 hlong, by decide, by decide, fun w hw => ?_⟩
  rw [(hexOfValue_negative (-1) (by decide)).1 (Json.isShowable_int (-1) (by decide))] at hw
  cases hw

end StorageLayout.Slot
