import UnknownFields.Proofs.Wire.Spelling

/-!
The two readers of numbers side by side, with numbers told by the positions of their bytes. A number
is at the front of an input if one of the first ten bytes ends it. Both readers take it then, and
nothing else. Where no number is at the front the careful reader says why, the strict one stops, and
the lenient one takes ten bytes, or what there is, for a number.
-/

namespace UnknownFields.Varint

/-- A number of `length` bytes is at the front of the input: all of them but the last have their top
bit set. -/
structure AtFront (input : Bytes) (length : Nat) : Prop where
  length_pos : 1 ≤ length
  length_le_ten : length ≤ 10
  length_le : length ≤ input.length
  goesOn : ∀ index < length - 1, 128 ≤ (input.getD index 0).toNat
  ends : (input.getD (length - 1) 0).toNat < 128

/-- The sum of the low seven bits of the first `count` bytes, each at the place of its position. -/
def placeSum (input : Bytes) (count : Nat) : Nat :=
  ∑ index ∈ Finset.range count, (input.getD index 0 &&& 127).toNat * 128 ^ index

variable {input : Bytes} {length : Nat} {value : UInt64}

theorem shaped_singleton_iff (byte : UInt8) : Shaped [byte] ↔ byte.toNat < 128 := by
  constructor
  · rintro (h | ⟨_, hrest⟩)
    · exact h
    · cases hrest
  · exact .last

theorem shaped_cons_iff {byte : UInt8} {rest : Bytes} (h : rest ≠ []) :
    Shaped (byte :: rest) ↔ 128 ≤ byte.toNat ∧ Shaped rest := by
  constructor
  · rintro (_ | ⟨hbyte, hrest⟩)
    · exact absurd rfl h
    · exact ⟨hbyte, hrest⟩
  · rintro ⟨hbyte, hrest⟩
    exact .more hbyte hrest

theorem shaped_take_succ_iff (h : length < input.length) :
    Shaped (input.take (length + 1)) ↔
      (∀ index < length, 128 ≤ (input.getD index 0).toNat) ∧ (input.getD length 0).toNat < 128 := by
  induction length generalizing input with
  | zero =>
      obtain ⟨byte, rest, rfl⟩ := List.exists_cons_of_length_pos h
      rw [List.take_succ_cons, List.take_zero, shaped_singleton_iff]
      simp
  | succ length ih =>
      obtain ⟨byte, rest, rfl⟩ := List.exists_cons_of_length_pos (Nat.zero_lt_of_lt h)
      have hrest : length < rest.length := Nat.lt_of_succ_lt_succ h
      have htake : rest.take (length + 1) ≠ [] := by
        rw [← List.length_pos_iff, List.length_take]
        omega
      rw [List.take_succ_cons, shaped_cons_iff htake, ih hrest, Nat.forall_lt_succ_left, and_assoc]
      rfl

theorem atFront_iff_shaped :
    AtFront input length ↔ length ≤ 10 ∧ length ≤ input.length ∧ Shaped (input.take length) := by
  cases length with
  | zero =>
      constructor
      · intro h
        exact absurd h.length_pos (by omega)
      · rintro ⟨_, _, h⟩
        cases h
  | succ length =>
      constructor
      · intro h
        exact ⟨h.length_le_ten, h.length_le, (shaped_take_succ_iff h.length_le).mpr ⟨h.goesOn, h.ends⟩⟩
      · rintro ⟨hten, hlength, hshaped⟩
        obtain ⟨hgoesOn, hends⟩ := (shaped_take_succ_iff hlength).mp hshaped
        exact ⟨Nat.le_add_left 1 _, hten, hlength, hgoesOn, hends⟩

theorem placeSum_cons (byte : UInt8) (rest : Bytes) (count : Nat) :
    placeSum (byte :: rest) (count + 1) = byte.toNat % 128 + 128 * placeSum rest count := by
  have hbyte : (byte &&& 127).toNat = byte.toNat % 128 := by
    rw [← toNat_group, group, UInt8.toNat_toUInt64]
  have hrest : ∀ index ∈ Finset.range count,
      ((byte :: rest).getD (index + 1) 0 &&& 127).toNat * 128 ^ (index + 1) =
        128 * ((rest.getD index 0 &&& 127).toNat * 128 ^ index) := by
    intro index _
    rw [List.getD_cons_succ, pow_succ]
    ring
  calc placeSum (byte :: rest) (count + 1)
      = ∑ index ∈ Finset.range count,
          ((byte :: rest).getD (index + 1) 0 &&& 127).toNat * 128 ^ (index + 1) +
            (byte &&& 127).toNat * 128 ^ 0 := Finset.sum_range_succ' _ _
    _ = 128 * placeSum rest count + byte.toNat % 128 := by
        rw [Finset.sum_congr rfl hrest, ← Finset.mul_sum, hbyte, pow_zero, mul_one, placeSum]
    _ = byte.toNat % 128 + 128 * placeSum rest count := Nat.add_comm _ _

theorem groupSum_take (input : Bytes) (count : Nat) :
    groupSum (input.take count) = placeSum input count := by
  induction count generalizing input with
  | zero => rfl
  | succ count ih =>
      cases input with
      | nil => simp [placeSum, groupSum]
      | cons byte rest => rw [List.take_succ_cons, groupSum, ih, placeSum_cons]

/-- What is at the front is a spelling, of the number to which its groups add up. -/
theorem spells_take_iff (hlength : length ≤ input.length) :
    Spells (input.take length) value ↔
      AtFront input length ∧ value.toNat = placeSum input length % 2 ^ 64 := by
  have htake : (input.take length).length = length := List.length_take_of_le hlength
  rw [atFront_iff_shaped, ← groupSum_take]
  constructor
  · intro h
    exact ⟨⟨htake ▸ h.length_le, hlength, h.shaped⟩, h.toNat_eq⟩
  · rintro ⟨⟨hten, _, hshaped⟩, hvalue⟩
    exact ⟨hshaped, htake.trans_le hten, hvalue⟩

theorem readVarint_eq_ok_iff_spells :
    WellFormed.readVarint input = .ok (value, length) ↔
      length ≤ input.length ∧ Spells (input.take length) value := by
  constructor
  · intro h
    obtain ⟨spelled, tail, rfl, rfl, hspells⟩ := WellFormed.spells_of_readVarint h
    rw [List.take_left, List.length_append]
    exact ⟨Nat.le_add_right _ _, hspells⟩
  · rintro ⟨hlength, hspells⟩
    have h := WellFormed.readVarint_of_spells hspells (input.drop length)
    rwa [List.take_append_drop, List.length_take_of_le hlength] at h

/-- The careful reader takes the number at the front of its input, and no other bytes. -/
theorem readVarint_eq_ok_iff :
    WellFormed.readVarint input = .ok (value, length) ↔
      AtFront input length ∧ value.toNat = placeSum input length % 2 ^ 64 := by
  rw [readVarint_eq_ok_iff_spells]
  constructor
  · rintro ⟨hlength, hspells⟩
    exact (spells_take_iff hlength).mp hspells
  · intro h
    exact ⟨h.1.length_le, (spells_take_iff h.1.length_le).mpr h⟩

theorem decode_of_readVarint (h : WellFormed.readVarint input = .ok (value, length)) (mode : Mode) :
    decode mode input = .ok (value, length) := by
  obtain ⟨spelled, tail, rfl, rfl, hspells⟩ := WellFormed.spells_of_readVarint h
  exact decode_of_spells hspells mode tail

/-- Without a number at the front, the first ten bytes all go on. -/
theorem continued_of_not_atFront (h : ¬∃ length, AtFront input length) :
    ∀ byte ∈ input.take 10, 128 ≤ byte.toNat := by
  rcases shaped_or_continued 10 input with ⟨spelled, tail, rfl, hshaped, hten⟩ | hcontinued
  · refine absurd ⟨spelled.length, atFront_iff_shaped.mpr ⟨hten, ?_, ?_⟩⟩ h
    · rw [List.length_append]
      exact Nat.le_add_right _ _
    · rwa [List.take_left]
  · exact hcontinued

theorem value_eq_join {bytes : Bytes} (h : bytes.length ≤ 10) :
    Varint.value bytes = WellFormed.join 0 0 bytes := by
  rw [← UInt64.toNat_inj, toNat_value, WellFormed.toNat_join_zero h]

theorem decode_lenient_of_continued (h : ∀ byte ∈ input.take 10, 128 ≤ byte.toNat) :
    decode .lenient input =
      .ok (WellFormed.join 0 0 (input.take 10), (input.take 10).length) := by
  have hspelled : spelling maxLength input = input.take 10 := spelling_of_continued h
  have hten : (input.take 10).length ≤ 10 := List.length_take_le 10 input
  rw [← value_eq_join hten, ← hspelled]
  rfl

theorem toNat_join_take (input : Bytes) :
    (WellFormed.join 0 0 (input.take 10)).toNat = placeSum input (min 10 input.length) % 2 ^ 64 := by
  rw [WellFormed.toNat_join_zero (List.length_take_le 10 input), List.take_eq_take_min, groupSum_take]

/-- **The readers of numbers agree.** The careful reader takes the number at the front of its input,
and its value is the sum of the groups of seven bits modulo `2 ^ 64`. The other reader takes the same
number then, in both modes. Where no number is at the front, it stops in strict mode; in lenient mode
it takes ten bytes, or what there is, puts their groups together by their bits, and so comes to their
sum again; and the careful reader says whether there are bytes behind the tenth. -/
theorem readers_agree (input : Bytes) :
    (∀ value length, WellFormed.readVarint input = .ok (value, length) ↔
      AtFront input length ∧ value.toNat = placeSum input length % 2 ^ 64) ∧
    (∀ value length, WellFormed.readVarint input = .ok (value, length) →
      ∀ mode, decode mode input = .ok (value, length)) ∧
    ((¬∃ length, AtFront input length) →
      decode .strict input = .error
        (if input = [] then .emptyVarint else .unterminatedVarint (min 10 input.length)) ∧
      decode .lenient input =
        .ok (WellFormed.join 0 0 (input.take 10), min 10 input.length) ∧
      (WellFormed.join 0 0 (input.take 10)).toNat =
        placeSum input (min 10 input.length) % 2 ^ 64 ∧
      WellFormed.readVarint input = .error
        (if input.length ≤ 10 then .truncatedVarint else .varintTooLong)) := by
  refine ⟨fun _ _ => readVarint_eq_ok_iff, fun _ _ => decode_of_readVarint, fun h => ?_⟩
  have hcontinued := continued_of_not_atFront h
  rw [← List.length_take]
  exact ⟨decode_strict_of_continued hcontinued, decode_lenient_of_continued hcontinued,
    List.length_take ▸ toNat_join_take input, WellFormed.readVarint_of_continued hcontinued⟩

/-- A number of ten bytes whose last group reaches beyond the sixty-fourth bit, and eleven bytes none
of which ends a number. -/
theorem readers_agree_overflow :
    WellFormed.readVarint (.replicate 9 0xff ++ [0x7f, 0x00]) = .ok (0xffffffffffffffff, 10) ∧
    (∀ mode, decode mode (.replicate 9 0xff ++ [0x7f, 0x00]) = .ok (0xffffffffffffffff, 10)) ∧
    decode .strict (.replicate 11 0xff) = .error (.unterminatedVarint 10) ∧
    decode .lenient (.replicate 11 0xff) = .ok (0xffffffffffffffff, 10) ∧
    WellFormed.readVarint (.replicate 11 0xff) = .error .varintTooLong := by
  have hfront : AtFront (.replicate 9 0xff ++ [0x7f, 0x00]) 10 :=
    ⟨by decide, by decide, by decide, by decide, by decide⟩
  have hnone : ¬∃ length, AtFront (.replicate 11 0xff) length := by
    rintro ⟨length, h⟩
    have hbytes : ∀ index < 11, 128 ≤ ((List.replicate 11 (0xff : UInt8)).getD index 0).toNat := by
      decide
    exact absurd h.ends (not_lt.mpr (hbytes _ (by have := h.length_le_ten; omega)))
  obtain ⟨hreads, hdecodes, _⟩ := readers_agree (.replicate 9 0xff ++ [0x7f, 0x00])
  obtain ⟨hstrict, hlenient, _, hcareful⟩ := (readers_agree (.replicate 11 0xff)).2.2 hnone
  have hread := (hreads 0xffffffffffffffff 10).mpr ⟨hfront, by decide⟩
  exact ⟨hread, hdecodes _ _ hread, hstrict, hlenient, hcareful⟩

end UnknownFields.Varint
