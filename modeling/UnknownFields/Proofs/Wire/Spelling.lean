import Mathlib.Tactic
import UnknownFields.Wire.WellFormed

/-!
The spellings of a number: one to ten bytes of which all but the last have their top bit set. A
number has many spellings, because groups at the end may be zero and because a tenth group reaches
beyond the sixty-fourth bit. Both readers of numbers accept the spellings and nothing else, so they
agree wherever the careful one succeeds.
-/

namespace UnknownFields.Varint

/-- The sum of the groups of seven bits that some bytes carry, the lowest group first. -/
def groupSum : Bytes → Nat
  | [] => 0
  | byte :: rest => byte.toNat % 128 + 128 * groupSum rest

/-- The last byte of a spelling ends it, and no other byte does. -/
inductive Shaped : Bytes → Prop where
  | last {byte : UInt8} (ends : byte.toNat < 128) : Shaped [byte]
  | more {byte : UInt8} {rest : Bytes} (goesOn : 128 ≤ byte.toNat) (shaped : Shaped rest) :
      Shaped (byte :: rest)

/-- The bytes are one of the ways to write the number. -/
structure Spells (spelled : Bytes) (value : UInt64) : Prop where
  shaped : Shaped spelled
  length_le : spelled.length ≤ 10
  toNat_eq : value.toNat = groupSum spelled % 2 ^ 64

theorem Shaped.length_pos {spelled : Bytes} (h : Shaped spelled) : 0 < spelled.length := by
  cases h <;> simp

theorem spells_single {byte : UInt8} (h : byte.toNat < 128) : Spells [byte] byte.toUInt64 := by
  refine ⟨.last h, Nat.le_add_left 1 9, ?_⟩
  rw [UInt8.toNat_toUInt64, groupSum, groupSum]
  omega

theorem exists_shaped (count : Nat) {number : Nat} (h : number < 128 ^ (count + 1)) :
    ∃ spelled, Shaped spelled ∧ spelled.length ≤ count + 1 ∧ groupSum spelled = number := by
  have hbyte {low : Nat} (hlow : low < 256) : low.toUInt8.toNat = low := by
    rw [Nat.toUInt8_eq, UInt8.toNat_ofNat']
    exact Nat.mod_eq_of_lt hlow
  induction count generalizing number with
  | zero =>
      have hlast := hbyte (show number < 256 by omega)
      refine ⟨[number.toUInt8], .last (by omega), Nat.le_refl 1, ?_⟩
      rw [groupSum, groupSum, hlast]
      omega
  | succ count ih =>
      rw [pow_succ] at h
      obtain ⟨spelled, hshaped, hlength, hsum⟩ := ih (show number / 128 < 128 ^ (count + 1) by omega)
      have hfirst := hbyte (show 128 + number % 128 < 256 by omega)
      refine ⟨(128 + number % 128).toUInt8 :: spelled, .more (by omega) hshaped, ?_, ?_⟩
      · rw [List.length_cons]
        omega
      · rw [groupSum, hfirst, hsum]
        omega

/-- Every number has a spelling. -/
theorem exists_spells (value : UInt64) : ∃ spelled, Spells spelled value := by
  have hvalue := value.toNat_lt
  obtain ⟨spelled, hshaped, hlength, hsum⟩ := exists_shaped 9 (show value.toNat < 128 ^ 10 by omega)
  refine ⟨spelled, hshaped, hlength, ?_⟩
  rw [hsum, Nat.mod_eq_of_lt hvalue]

/-- Some spelling of at most `count` bytes is at the front of the input, or the number goes on
behind each of its first `count` bytes. -/
theorem shaped_or_continued (count : Nat) (input : Bytes) :
    (∃ spelled tail, input = spelled ++ tail ∧ Shaped spelled ∧ spelled.length ≤ count) ∨
      ∀ byte ∈ input.take count, 128 ≤ byte.toNat := by
  induction count generalizing input with
  | zero => exact Or.inr (by simp)
  | succ count ih =>
      cases input with
      | nil => exact Or.inr (by simp)
      | cons byte rest =>
          by_cases hbyte : byte.toNat < 128
          · exact Or.inl ⟨[byte], rest, rfl, .last hbyte, by simp⟩
          · rcases ih rest with ⟨spelled, tail, rfl, hshaped, hlength⟩ | hcontinued
            · refine Or.inl ⟨byte :: spelled, tail, rfl, .more (not_lt.mp hbyte) hshaped, ?_⟩
              rw [List.length_cons]
              omega
            · refine Or.inr fun other hother => ?_
              rw [List.take_succ_cons, List.mem_cons] at hother
              rcases hother with rfl | hother
              · omega
              · exact hcontinued other hother

/-! ### Words as numbers -/

theorem continues_iff (byte : UInt8) : continues byte = true ↔ 128 ≤ byte.toNat := by
  simp [continues, UInt8.le_iff_toNat_le]

theorem toNat_group (byte : UInt8) : (group byte).toNat = byte.toNat % 128 := by
  rw [group, UInt8.toNat_toUInt64, UInt8.toNat_and]
  exact Nat.and_two_pow_sub_one_eq_mod byte.toNat 7

theorem topBit_eq_zero_iff (byte : UInt8) : byte &&& 0x80 = 0 ↔ byte.toNat < 128 := by
  have hall : ∀ n < 256, n &&& 128 = 0 ↔ n < 128 := by decide +kernel
  rw [← UInt8.toNat_inj, UInt8.toNat_and]
  exact hall byte.toNat byte.toNat_lt

/-- A group that is put above all bits of a number is added to it, as far as there is room. -/
theorem toNat_or_shiftLeft {low word : UInt64} {shift : Nat} (hshift : shift < 64)
    (hlow : low.toNat < 2 ^ shift) :
    (low ||| (word <<< shift.toUInt64)).toNat = (low.toNat + 2 ^ shift * word.toNat) % 2 ^ 64 := by
  have hamount : shift.toUInt64.toNat % 64 = shift := by
    rw [Nat.toUInt64_eq, UInt64.toNat_ofNat']
    omega
  have hpow : (2 : Nat) ^ 64 = 2 ^ shift * 2 ^ (64 - shift) := by
    rw [← pow_add]
    congr 1
    omega
  have hhigh : word.toNat * 2 ^ shift % 2 ^ 64 = 2 ^ shift * (word.toNat % 2 ^ (64 - shift)) := by
    rw [hpow, mul_comm, Nat.mul_mod_mul_left]
  rw [UInt64.toNat_or, UInt64.toNat_shiftLeft, hamount, Nat.shiftLeft_eq, hhigh, Nat.or_comm,
    ← Nat.two_pow_add_eq_or_of_lt hlow, add_comm low.toNat, hpow]
  rw [Nat.mod_mul, Nat.mul_add_mod, Nat.mod_eq_of_lt hlow, Nat.mul_add_div (Nat.two_pow_pos _),
    Nat.div_eq_of_lt hlow, Nat.add_zero, add_comm]

theorem toNat_value (spelled : Bytes) : (value spelled).toNat = groupSum spelled % 2 ^ 64 := by
  induction spelled with
  | nil => rfl
  | cons byte rest ih =>
      rw [value, groupSum, UInt64.toNat_add, UInt64.toNat_mul, toNat_group, ih]
      simp [Nat.add_mod, Nat.mul_mod]

/-! ### The reader that expects well-formed input -/

theorem spelling_of_shaped {spelled : Bytes} (h : Shaped spelled) {count : Nat}
    (hcount : spelled.length ≤ count) (tail : Bytes) : spelling count (spelled ++ tail) = spelled := by
  induction h generalizing count with
  | @last byte ends =>
      obtain ⟨count, rfl⟩ := Nat.exists_eq_add_of_le' hcount
      have hcontinues : continues byte = false := by
        rw [← Bool.not_eq_true, continues_iff]
        omega
      simp [spelling, hcontinues]
  | @more byte rest goesOn shaped ih =>
      obtain ⟨count, rfl⟩ := Nat.exists_eq_add_of_le' (Nat.le_trans (Nat.le_add_left 1 _) hcount)
      rw [List.cons_append, spelling, if_pos ((continues_iff byte).mpr goesOn),
        ih (Nat.le_of_succ_le_succ hcount)]

theorem spelling_of_continued {count : Nat} {input : Bytes}
    (h : ∀ byte ∈ input.take count, 128 ≤ byte.toNat) : spelling count input = input.take count := by
  induction count generalizing input with
  | zero => rfl
  | succ count ih =>
      cases input with
      | nil => rfl
      | cons byte rest =>
          rw [List.take_succ_cons] at h ⊢
          have hbyte : continues byte = true := (continues_iff byte).mpr (h byte List.mem_cons_self)
          rw [spelling, if_pos hbyte, ih fun other hother => h other (List.mem_cons_of_mem _ hother)]

theorem terminated_of_shaped {spelled : Bytes} (h : Shaped spelled) : terminated spelled = true := by
  induction h with
  | @last byte ends => simp [terminated, continues, UInt8.le_iff_toNat_le, ends]
  | @more byte rest goesOn shaped ih =>
      cases shaped <;> simpa [terminated] using ih

theorem terminated_of_continued {bytes : Bytes} (h : ∀ byte ∈ bytes, 128 ≤ byte.toNat) :
    terminated bytes = false := by
  cases hlast : bytes.getLast? with
  | none => simp [terminated, hlast]
  | some byte =>
      have hbyte := (continues_iff byte).mpr (h byte (List.mem_of_getLast? hlast))
      simp [terminated, hlast, hbyte]

/-- Every spelling is read, in both modes, and nothing behind it is touched. -/
theorem decode_of_spells {spelled : Bytes} {number : UInt64} (h : Spells spelled number)
    (mode : Mode) (tail : Bytes) : decode mode (spelled ++ tail) = .ok (number, spelled.length) := by
  have hnumber : value spelled = number := by
    rw [← UInt64.toNat_inj, toNat_value, h.toNat_eq]
  have hempty : spelled ++ tail ≠ [] := by
    simp [List.length_pos_iff.mp h.shaped.length_pos]
  simp only [decode, spelling_of_shaped h.shaped h.length_le, maxLength,
    Mode.expect_of_holds mode _ hempty,
    Mode.expect_of_holds mode _ (terminated_of_shaped h.shaped), hnumber]
  rfl

theorem decode_strict_of_continued {input : Bytes}
    (h : ∀ byte ∈ input.take 10, 128 ≤ byte.toNat) :
    decode .strict input = .error
      (if input = [] then .emptyVarint else .unterminatedVarint (input.take 10).length) := by
  by_cases hinput : input = []
  · simp [decode, hinput, Mode.expect, bind, Except.bind]
  · have hspelled : spelling maxLength input = input.take 10 := spelling_of_continued h
    simp [decode, hinput, hspelled, terminated_of_continued h, Mode.expect, bind, Except.bind]

end UnknownFields.Varint

namespace UnknownFields.WellFormed

open Varint

/-! ### The reader that trusts nothing -/

/-- The groups up to and with byte `index`, when those before it add up to `low`. -/
def accumulate (index : Nat) (low : UInt64) (byte : UInt8) : UInt64 :=
  low ||| (group byte <<< (7 * index).toUInt64)

theorem readVarintFrom_cons {index : Nat} (hindex : index < 10) (low : UInt64) (byte : UInt8)
    (rest : Bytes) :
    readVarintFrom index low (byte :: rest) =
      if byte.toNat < 128 then .ok (accumulate index low byte, index + 1)
      else readVarintFrom (index + 1) (accumulate index low byte) rest := by
  have hmax : ¬index = maxLength := by
    rw [maxLength]
    omega
  simp only [readVarintFrom, if_neg hmax, topBit_eq_zero_iff]
  rfl

theorem toNat_accumulate {index : Nat} (hindex : index < 10) {low : UInt64}
    (hlow : low.toNat < 2 ^ (7 * index)) (byte : UInt8) :
    (accumulate index low byte).toNat =
      (low.toNat + 2 ^ (7 * index) * (byte.toNat % 128)) % 2 ^ 64 := by
  rw [accumulate, toNat_or_shiftLeft (by omega) hlow, toNat_group]

/-- Below the tenth byte nothing is dropped. -/
theorem accumulate_lt {index : Nat} (hindex : index < 9) {low : UInt64}
    (hlow : low.toNat < 2 ^ (7 * index)) (byte : UInt8) :
    (accumulate index low byte).toNat = low.toNat + 2 ^ (7 * index) * (byte.toNat % 128) ∧
      (accumulate index low byte).toNat < 2 ^ (7 * (index + 1)) := by
  have hgroup : byte.toNat % 128 < 128 := Nat.mod_lt _ (by decide)
  have hpow : 2 ^ (7 * (index + 1)) = 2 ^ (7 * index) * 128 := by
    rw [Nat.mul_succ, pow_add]
    rfl
  have hbound : 2 ^ (7 * (index + 1)) ≤ 2 ^ 64 := Nat.pow_le_pow_right (by decide) (by omega)
  have hsum : low.toNat + 2 ^ (7 * index) * (byte.toNat % 128) < 2 ^ (7 * (index + 1)) := by
    rw [hpow]
    calc low.toNat + 2 ^ (7 * index) * (byte.toNat % 128)
        < 2 ^ (7 * index) + 2 ^ (7 * index) * (byte.toNat % 128) := Nat.add_lt_add_right hlow _
      _ = 2 ^ (7 * index) * (byte.toNat % 128 + 1) := by ring
      _ ≤ 2 ^ (7 * index) * 128 := Nat.mul_le_mul_left _ hgroup
  rw [toNat_accumulate (by omega) hlow, Nat.mod_eq_of_lt (hsum.trans_le hbound)]
  exact ⟨rfl, hsum⟩

/-- The groups of some bytes, put by their bits above a number that has `index` groups. -/
def join (index : Nat) (low : UInt64) : Bytes → UInt64
  | [] => low
  | byte :: rest => join (index + 1) (accumulate index low byte) rest

/-- Groups do not overlap, so to put them together is to add them up. -/
theorem toNat_join {bytes : Bytes} {index : Nat} {low : UInt64} (hindex : index + bytes.length ≤ 10)
    (hlow : low.toNat < 2 ^ (7 * index)) :
    (join index low bytes).toNat = (low.toNat + 2 ^ (7 * index) * groupSum bytes) % 2 ^ 64 := by
  induction bytes generalizing index low with
  | nil => exact (Nat.mod_eq_of_lt low.toNat_lt).symm
  | cons byte rest ih =>
      rw [List.length_cons] at hindex
      by_cases hrest : rest = []
      -- The last group may reach beyond the sixty-fourth bit, and only this one.
      · subst hrest
        exact toNat_accumulate (by omega) hlow byte
      · have hpos := List.length_pos_iff.mpr hrest
        obtain ⟨hvalue, hlt⟩ := accumulate_lt (by omega) hlow byte
        rw [join, ih (by omega) hlt, hvalue, groupSum, Nat.mul_succ, pow_add]
        congr 1
        ring

theorem readVarintFrom_of_shaped {spelled : Bytes} (h : Shaped spelled) (index : Nat) (low : UInt64)
    (hindex : index + spelled.length ≤ 10) (tail : Bytes) :
    readVarintFrom index low (spelled ++ tail) =
      .ok (join index low spelled, index + spelled.length) := by
  induction h generalizing index low with
  | @last byte ends =>
      rw [List.length_singleton] at hindex
      rw [List.cons_append, readVarintFrom_cons hindex, if_pos ends, List.length_singleton]
      rfl
  | @more byte rest goesOn shaped ih =>
      rw [List.length_cons] at hindex
      have hpos := shaped.length_pos
      rw [List.cons_append, readVarintFrom_cons (by omega), if_neg (by omega), ih _ _ (by omega),
        List.length_cons, Nat.add_right_comm, Nat.add_assoc, join]

theorem readVarintFrom_of_continued {index : Nat} {low : UInt64} {input : Bytes} (hindex : index ≤ 10)
    (h : ∀ byte ∈ input.take (10 - index), 128 ≤ byte.toNat) :
    readVarintFrom index low input =
      .error (if index + input.length ≤ 10 then .truncatedVarint else .varintTooLong) := by
  induction input generalizing index low with
  | nil => simp [readVarintFrom, hindex]
  | cons byte rest ih =>
      by_cases hmax : index = 10
      · simp [readVarintFrom, hmax, maxLength]
      · have htake : (byte :: rest).take (10 - index) = byte :: rest.take (10 - (index + 1)) := by
          rw [show 10 - index = 10 - (index + 1) + 1 by omega, List.take_succ_cons]
        rw [htake] at h
        have hbyte := h byte List.mem_cons_self
        rw [readVarintFrom_cons (by omega), if_neg (by omega),
          ih (by omega) fun other hother => h other (List.mem_cons_of_mem _ hother),
          List.length_cons, Nat.add_right_comm, Nat.add_assoc]

theorem toNat_join_zero {bytes : Bytes} (h : bytes.length ≤ 10) :
    (join 0 0 bytes).toNat = groupSum bytes % 2 ^ 64 := by
  rw [toNat_join (by omega) (by decide)]
  simp

/-- Every spelling is read, and nothing behind it is touched. -/
theorem readVarint_of_spells {spelled : Bytes} {number : UInt64} (h : Spells spelled number)
    (tail : Bytes) : readVarint (spelled ++ tail) = .ok (number, spelled.length) := by
  have hnumber : join 0 0 spelled = number := by
    rw [← UInt64.toNat_inj, toNat_join_zero h.length_le, h.toNat_eq]
  have hlength : 0 + spelled.length ≤ 10 := by
    rw [Nat.zero_add]
    exact h.length_le
  rw [readVarint, readVarintFrom_of_shaped h.shaped 0 0 hlength, hnumber, Nat.zero_add]

theorem readVarint_of_continued {input : Bytes} (h : ∀ byte ∈ input.take 10, 128 ≤ byte.toNat) :
    readVarint input =
      .error (if input.length ≤ 10 then .truncatedVarint else .varintTooLong) := by
  rw [readVarint, readVarintFrom_of_continued (by decide) h, Nat.zero_add]

/-- A number that is read is spelled by the bytes that it takes. -/
theorem spells_of_readVarint {input : Bytes} {number : UInt64} {length : Nat}
    (h : readVarint input = .ok (number, length)) :
    ∃ spelled tail, input = spelled ++ tail ∧ spelled.length = length ∧ Spells spelled number := by
  rcases shaped_or_continued 10 input with ⟨spelled, tail, rfl, hshaped, hlength⟩ | hcontinued
  · have hspells : Spells spelled (value spelled) := ⟨hshaped, hlength, toNat_value spelled⟩
    rw [readVarint_of_spells hspells] at h
    cases h
    exact ⟨spelled, tail, rfl, rfl, hspells⟩
  · rw [readVarint_of_continued hcontinued] at h
    cases h

theorem continued_of_readVarint {input : Bytes} {reason : Malformation}
    (h : readVarint input = .error reason) : ∀ byte ∈ input.take 10, 128 ≤ byte.toNat := by
  rcases shaped_or_continued 10 input with ⟨spelled, tail, rfl, hshaped, hlength⟩ | hcontinued
  · rw [readVarint_of_spells ⟨hshaped, hlength, toNat_value spelled⟩] at h
    cases h
  · exact hcontinued

end UnknownFields.WellFormed
