import Mathlib.Tactic
import UnknownFields.Text.Hex

/-!
Hexadecimal text as a relation between texts and bytes. A byte string has many texts: each digit above
nine comes in two cases, and white space may stand anywhere. Reading accepts these texts and nothing
else, gives back the bytes, and otherwise says what is wrong with the digits: their number first, then
the first of them that is none.
-/

namespace UnknownFields.Hex

/-- The byte is a digit with this value. -/
inductive Digit : UInt8 → Nat → Prop where
  | decimal {byte : UInt8} {value : Nat} (small : value < 10)
      (toNat_eq : byte.toNat = '0'.toNat + value) : Digit byte value
  | lower {byte : UInt8} {above : Nat} (small : above < 6)
      (toNat_eq : byte.toNat = 'a'.toNat + above) : Digit byte (10 + above)
  | upper {byte : UInt8} {above : Nat} (small : above < 6)
      (toNat_eq : byte.toNat = 'A'.toNat + above) : Digit byte (10 + above)

def IsDigit (byte : UInt8) : Prop := ∃ value, Digit byte value

/-- The digits are one of the ways to write the bytes, two digits for each of them. -/
inductive Spells : Bytes → Bytes → Prop where
  | nil : Spells [] []
  | cons {high low byte : UInt8} {above below : Nat} {digits bytes : Bytes}
      (high_digit : Digit high above) (low_digit : Digit low below)
      (toNat_eq : byte.toNat = 16 * above + below) (rest : Spells digits bytes) :
      Spells (high :: low :: digits) (byte :: bytes)

def Blank (byte : UInt8) : Prop :=
  ∃ char ∈ [' ', '\t', '\n', '\x0c', '\r'], byte.toNat = char.toNat

/-- The text is what is kept, with white space anywhere in between and around. -/
inductive Spaced : Bytes → Bytes → Prop where
  | nil : Spaced [] []
  | blank {byte : UInt8} {kept text : Bytes} (skipped : Blank byte) (rest : Spaced kept text) :
      Spaced kept (byte :: text)
  | keep {byte : UInt8} {kept text : Bytes} (shown : ¬Blank byte) (rest : Spaced kept text) :
      Spaced (byte :: kept) (byte :: text)

/-- This is the first byte that is no digit, and its position. -/
structure FirstBad (bytes : Bytes) (byte : UInt8) (position : Nat) : Prop where
  getElem?_eq : bytes[position]? = some byte
  not_digit : ¬IsDigit byte
  before : ∀ earlier ∈ bytes.take position, IsDigit earlier

/-- What reading makes of the digits. -/
inductive Outcome (digits : Bytes) : Except Error Bytes → Prop where
  | spelled {bytes : Bytes} (spells : Spells digits bytes) : Outcome digits (.ok bytes)
  | odd (odd_length : Odd digits.length) : Outcome digits (.error .oddLength)
  | bad {byte : UInt8} {position : Nat} (even_length : Even digits.length)
      (first_bad : FirstBad digits byte position) :
      Outcome digits (.error (.invalidDigit byte position))

variable {byte : UInt8} {digits bytes text : Bytes}

/-! ### Digits -/

theorem Digit.lt {value : Nat} (h : Digit byte value) : value < 16 := by
  cases h <;> omega

theorem toNat_distance {first : UInt8} (h : first.toNat ≤ byte.toNat) :
    (byte - first).toNat = byte.toNat - first.toNat :=
  UInt8.toNat_sub_of_le _ _ (UInt8.le_iff_toNat_le.mpr h)

/-- The value of a letter, from its distance to the first letter of its case. -/
theorem toNat_letter {first : UInt8} (hfirst : first.toNat ≤ byte.toNat)
    (hsix : byte.toNat < first.toNat + 6) :
    (byte - first + 10).toNat = 10 + (byte.toNat - first.toNat) := by
  have hten : (10 : UInt8).toNat = 10 := rfl
  rw [UInt8.toNat_add, toNat_distance hfirst, hten]
  omega

theorem Digit.of_digitValue? {value : UInt8} (h : digitValue? byte = some value) :
    Digit byte value.toNat := by
  simp only [digitValue?, UInt8.le_iff_toNat_le, UInt8.reduceToNat] at h
  split_ifs at h with hdecimal hlower hupper
  · cases h
    have hvalue : (byte - 0x30).toNat = byte.toNat - 48 := toNat_distance hdecimal.1
    rw [hvalue]
    exact .decimal (by omega) (by simp only [Char.reduceToNat]; omega)
  · cases h
    have hvalue : (byte - 0x61 + 10).toNat = 10 + (byte.toNat - 97) :=
      toNat_letter hlower.1 (Nat.lt_succ_of_le hlower.2)
    rw [hvalue]
    exact .lower (by omega) (by simp only [Char.reduceToNat]; omega)
  · cases h
    have hvalue : (byte - 0x41 + 10).toNat = 10 + (byte.toNat - 65) :=
      toNat_letter hupper.1 (Nat.lt_succ_of_le hupper.2)
    rw [hvalue]
    exact .upper (by omega) (by simp only [Char.reduceToNat]; omega)

theorem Digit.exists_digitValue? {value : Nat} (h : Digit byte value) :
    ∃ found, digitValue? byte = some found ∧ found.toNat = value := by
  simp only [digitValue?, UInt8.le_iff_toNat_le, UInt8.reduceToNat]
  cases h with
  | decimal small toNat_eq =>
      have hbyte : byte.toNat = 48 + value := toNat_eq
      have hvalue : (byte - 0x30).toNat = byte.toNat - 48 :=
        toNat_distance (hbyte ▸ Nat.le_add_right _ _)
      exact ⟨_, if_pos (by omega), by omega⟩
  | @lower above small toNat_eq =>
      have hbyte : byte.toNat = 97 + above := toNat_eq
      have hvalue : (byte - 0x61 + 10).toNat = 10 + (byte.toNat - 97) :=
        toNat_letter (hbyte ▸ Nat.le_add_right _ _) (hbyte ▸ Nat.add_lt_add_left small _)
      exact ⟨_, (if_neg (by omega)).trans (if_pos (by omega)), by omega⟩
  | @upper above small toNat_eq =>
      have hbyte : byte.toNat = 65 + above := toNat_eq
      have hvalue : (byte - 0x41 + 10).toNat = 10 + (byte.toNat - 65) :=
        toNat_letter (hbyte ▸ Nat.le_add_right _ _) (hbyte ▸ Nat.add_lt_add_left small _)
      exact ⟨_, (if_neg (by omega)).trans ((if_neg (by omega)).trans (if_pos (by omega))), by omega⟩

theorem digitValue?_of_not_isDigit (h : ¬IsDigit byte) : digitValue? byte = none := by
  cases hvalue : digitValue? byte with
  | none => rfl
  | some value => exact absurd ⟨_, .of_digitValue? hvalue⟩ h

/-! ### The first bad byte -/

theorem firstBad_zero_iff {first : UInt8} {rest : Bytes} :
    FirstBad (first :: rest) byte 0 ↔ first = byte ∧ ¬IsDigit byte :=
  ⟨fun h => ⟨by simpa using h.getElem?_eq, h.not_digit⟩,
    fun h => ⟨by simpa using h.1, h.2, by simp⟩⟩

theorem firstBad_succ_iff {first : UInt8} {rest : Bytes} {position : Nat} :
    FirstBad (first :: rest) byte (position + 1) ↔ IsDigit first ∧ FirstBad rest byte position := by
  constructor
  · rintro ⟨hget, hbad, hbefore⟩
    rw [List.take_succ_cons, List.forall_mem_cons] at hbefore
    exact ⟨hbefore.1, by simpa using hget, hbad, hbefore.2⟩
  · rintro ⟨hfirst, hget, hbad, hbefore⟩
    refine ⟨by simpa using hget, hbad, ?_⟩
    rw [List.take_succ_cons, List.forall_mem_cons]
    exact ⟨hfirst, hbefore⟩

theorem isDigit_or_firstBad (digits : Bytes) :
    (∀ digit ∈ digits, IsDigit digit) ∨ ∃ byte position, FirstBad digits byte position := by
  induction digits with
  | nil => exact Or.inl (by simp)
  | cons first rest ih =>
      by_cases hfirst : IsDigit first
      · rcases ih with hrest | ⟨byte, position, hbad⟩
        · exact Or.inl (List.forall_mem_cons.mpr ⟨hfirst, hrest⟩)
        · exact Or.inr ⟨byte, position + 1, firstBad_succ_iff.mpr ⟨hfirst, hbad⟩⟩
      · exact Or.inr ⟨first, 0, firstBad_zero_iff.mpr ⟨rfl, hfirst⟩⟩

/-! ### Pairs -/

theorem toNat_pair {above below : UInt8} (habove : above.toNat < 16) (hbelow : below.toNat < 16) :
    (16 * above + below).toNat = 16 * above.toNat + below.toNat := by
  simp only [UInt8.toNat_add, UInt8.toNat_mul, UInt8.reduceToNat]
  omega

theorem Spells.length_eq (h : Spells digits bytes) : digits.length = 2 * bytes.length := by
  induction h with
  | nil => rfl
  | cons _ _ _ _ ih =>
      simp only [List.length_cons, ih]
      omega

theorem Spells.isDigit (h : Spells digits bytes) : ∀ digit ∈ digits, IsDigit digit := by
  induction h with
  | nil => simp
  | cons high_digit low_digit _ _ ih =>
      exact List.forall_mem_cons.mpr ⟨⟨_, high_digit⟩,
        List.forall_mem_cons.mpr ⟨⟨_, low_digit⟩, ih⟩⟩

/-- An even number of digits spells something. -/
theorem exists_bytes_of_isDigit : (digits : Bytes) → Even digits.length →
    (∀ digit ∈ digits, IsDigit digit) → ∃ bytes, Spells digits bytes
  | [], _, _ => ⟨[], .nil⟩
  | [_], heven, _ => absurd heven (by simp)
  | high :: low :: rest, heven, hdigits => by
    obtain ⟨⟨above, hhigh⟩, hdigits⟩ := List.forall_mem_cons.mp hdigits
    obtain ⟨⟨below, hlow⟩, hdigits⟩ := List.forall_mem_cons.mp hdigits
    have heven : Even rest.length := by simpa [Nat.even_add_one] using heven
    obtain ⟨bytes, hspells⟩ := exists_bytes_of_isDigit rest heven hdigits
    have hlt := hhigh.lt
    have hlt' := hlow.lt
    refine ⟨UInt8.ofNat (16 * above + below) :: bytes, .cons hhigh hlow ?_ hspells⟩
    exact UInt8.toNat_ofNat_of_lt (by rw [UInt8.size]; omega)

theorem Spells.decodePairs_eq (h : Spells digits bytes) (start : Nat) :
    decodePairs start digits = .ok bytes := by
  induction h generalizing start with
  | nil => rfl
  | cons high_digit low_digit toNat_eq _ ih =>
      obtain ⟨above, habove, rfl⟩ := high_digit.exists_digitValue?
      obtain ⟨below, hbelow, rfl⟩ := low_digit.exists_digitValue?
      rw [← toNat_pair high_digit.lt low_digit.lt, UInt8.toNat_inj] at toNat_eq
      simp only [decodePairs, habove, hbelow, ih, toNat_eq, ok_bind, pure_eq_ok]

theorem FirstBad.decodePairs_eq : {digits : Bytes} → {position : Nat} → Even digits.length →
    FirstBad digits byte position → (start : Nat) →
    decodePairs start digits = .error (.invalidDigit byte (start + position))
  | [], _, _, h, _ => by cases h.getElem?_eq
  | [_], _, heven, _, _ => absurd heven (by simp)
  -- The bad byte is the high digit of this pair, its low digit, or behind the pair.
  | high :: low :: rest, 0, _, h, start => by
    obtain ⟨rfl, hhigh⟩ := firstBad_zero_iff.mp h
    simp only [decodePairs, digitValue?_of_not_isDigit hhigh, Nat.add_zero]
  | high :: low :: rest, 1, _, h, start => by
    obtain ⟨⟨_, hhigh⟩, h⟩ := firstBad_succ_iff.mp h
    obtain ⟨rfl, hlow⟩ := firstBad_zero_iff.mp h
    obtain ⟨above, habove, _⟩ := hhigh.exists_digitValue?
    simp only [decodePairs, habove, digitValue?_of_not_isDigit hlow]
  | high :: low :: rest, position + 2, heven, h, start => by
    obtain ⟨⟨_, hhigh⟩, h⟩ := firstBad_succ_iff.mp h
    obtain ⟨⟨_, hlow⟩, h⟩ := firstBad_succ_iff.mp h
    obtain ⟨above, habove, _⟩ := hhigh.exists_digitValue?
    obtain ⟨below, hbelow, _⟩ := hlow.exists_digitValue?
    have heven : Even rest.length := by simpa [Nat.even_add_one] using heven
    have hplace : start + 2 + position = start + (position + 2) := by omega
    simp only [decodePairs, habove, hbelow, h.decodePairs_eq heven (start + 2), hplace, error_bind]

/-! ### White space -/

theorem isBlank_iff : isBlank byte = true ↔ Blank byte := by
  simp [isBlank, Blank, ← UInt8.toNat_inj]

theorem spaced_iff : Spaced digits text ↔ (text.filter fun byte => !isBlank byte) = digits := by
  constructor
  · intro h
    induction h with
    | nil => rfl
    | blank skipped _ ih => rw [List.filter_cons_of_neg (by simpa using isBlank_iff.mpr skipped), ih]
    | keep shown _ ih => rw [List.filter_cons_of_pos (by simpa using isBlank_iff.not.mpr shown), ih]
  · rintro rfl
    induction text with
    | nil => exact .nil
    | cons byte text ih =>
        by_cases hbyte : Blank byte
        · rw [List.filter_cons_of_neg (by simpa using isBlank_iff.mpr hbyte)]
          exact .blank hbyte ih
        · rw [List.filter_cons_of_pos (by simpa using isBlank_iff.not.mpr hbyte)]
          exact .keep hbyte ih

/-! ### Texts -/

theorem decode_of_spaced (h : Spaced digits text) :
    decode text = if digits.length % 2 = 1 then .error .oddLength else decodePairs 0 digits := by
  rw [decode, spaced_iff.mp h]

theorem exists_outcome (digits : Bytes) : ∃ result, Outcome digits result := by
  rcases Nat.even_or_odd digits.length with heven | hodd
  · rcases isDigit_or_firstBad digits with hdigits | ⟨byte, position, hbad⟩
    · obtain ⟨bytes, hspells⟩ := exists_bytes_of_isDigit digits heven hdigits
      exact ⟨_, .spelled hspells⟩
    · exact ⟨_, .bad heven hbad⟩
  · exact ⟨_, .odd hodd⟩

theorem Outcome.decode_eq {result : Except Error Bytes} (h : Outcome digits result)
    (hspaced : Spaced digits text) : decode text = result := by
  rw [decode_of_spaced hspaced]
  cases h with
  | spelled spells =>
      rw [if_neg (by rw [spells.length_eq]; omega), spells.decodePairs_eq]
  | odd odd_length => rw [if_pos (Nat.odd_iff.mp odd_length)]
  | bad even_length first_bad =>
      rw [if_neg (by rw [Nat.even_iff.mp even_length]; omega),
        first_bad.decodePairs_eq even_length, Nat.zero_add]

theorem decode_eq_iff {result : Except Error Bytes} (h : Spaced digits text) :
    decode text = result ↔ Outcome digits result := by
  constructor
  · rintro rfl
    obtain ⟨result, hresult⟩ := exists_outcome digits
    rwa [hresult.decode_eq h]
  · exact fun houtcome => houtcome.decode_eq h

/-! ### Writing -/

theorem digit_digitChar {value : Nat} (h : value < 16) :
    Digit (UInt8.ofNat (Nat.digitChar value).toNat) value := by
  have hdecimal : ∀ n < 10, (UInt8.ofNat (Nat.digitChar n).toNat).toNat = '0'.toNat + n := by decide
  have hlower : ∀ n < 6, (UInt8.ofNat (Nat.digitChar (10 + n)).toNat).toNat = 'a'.toNat + n := by
    decide
  by_cases hsmall : value < 10
  · exact .decimal hsmall (hdecimal value hsmall)
  · obtain ⟨above, rfl⟩ := Nat.exists_eq_add_of_le (not_lt.mp hsmall)
    exact .lower (by omega) (hlower above (by omega))

/-- What is written is one of the ways to write the bytes. -/
theorem spells_encodeChars (bytes : Bytes) :
    Spells ((encodeChars bytes).map fun char => UInt8.ofNat char.toNat) bytes := by
  induction bytes with
  | nil => exact .nil
  | cons byte bytes ih =>
      have hbyte := byte.toNat_lt
      exact .cons (digit_digitChar (by omega)) (digit_digitChar (by omega)) (by omega) ih

/-- **Hexadecimal text is read exactly.** Every text is some bytes with white space in between. If
these are digits, in even number, reading gives the bytes that they spell, and it gives bytes in no
other case. If they are odd in number, this is reported whatever they are; otherwise the first that is
no digit is, with its position among them. So what is written for some bytes is read back as these,
and so is every other way to write them, wherever white space is put. -/
theorem decode_exact :
    (∀ text, ∃ digits, (∀ others, Spaced others text ↔ others = digits) ∧
      (∀ bytes, decode text = .ok bytes ↔ Spells digits bytes) ∧
      ((∃ bytes, decode text = .ok bytes) ↔
        Even digits.length ∧ ∀ digit ∈ digits, IsDigit digit) ∧
      (decode text = .error .oddLength ↔ Odd digits.length) ∧
      ∀ byte position, decode text = .error (.invalidDigit byte position) ↔
        Even digits.length ∧ FirstBad digits byte position) ∧
    ∀ bytes, Spells ((encodeChars bytes).map fun char => UInt8.ofNat char.toNat) bytes ∧
      ∀ digits text, Spells digits bytes → Spaced digits text → decode text = .ok bytes := by
  refine ⟨fun text => ?_, fun bytes => ⟨spells_encodeChars bytes, fun digits text hspells hspaced =>
    (Outcome.spelled hspells).decode_eq hspaced⟩⟩
  have hspaced : Spaced (text.filter fun byte => !isBlank byte) text := spaced_iff.mpr rfl
  refine ⟨_, fun others => spaced_iff.trans eq_comm, ?_, ?_, ?_, ?_⟩
  · intro bytes
    rw [decode_eq_iff hspaced]
    exact ⟨fun | .spelled spells => spells, .spelled⟩
  · simp only [decode_eq_iff hspaced]
    constructor
    · rintro ⟨bytes, ⟨hspells⟩⟩
      exact ⟨hspells.length_eq ▸ even_two_mul _, hspells.isDigit⟩
    · rintro ⟨heven, hdigits⟩
      obtain ⟨bytes, hspells⟩ := exists_bytes_of_isDigit _ heven hdigits
      exact ⟨bytes, .spelled hspells⟩
  · rw [decode_eq_iff hspaced]
    exact ⟨fun | .odd odd_length => odd_length, .odd⟩
  · intro byte position
    rw [decode_eq_iff hspaced]
    exact ⟨fun | .bad even_length first_bad => ⟨even_length, first_bad⟩, fun h => .bad h.1 h.2⟩

/-- Digits in both cases, with white space between the digits of a pair. -/
theorem decode_exact_mixed_case :
    Spells [0x30, 0x61, 0x39, 0x46] [0x0a, 0x9f] ∧
    Spaced [0x30, 0x61, 0x39, 0x46] [0x20, 0x30, 0x0a, 0x61, 0x39, 0x46, 0x09] ∧
    decode [0x20, 0x30, 0x0a, 0x61, 0x39, 0x46, 0x09] = .ok [0x0a, 0x9f] := by
  have hspells : Spells [0x30, 0x61, 0x39, 0x46] [0x0a, 0x9f] :=
    .cons (@Digit.decimal _ 0 (by decide) rfl) (@Digit.lower _ 0 (by decide) rfl) rfl
      (.cons (@Digit.decimal _ 9 (by decide) rfl) (@Digit.upper _ 5 (by decide) rfl) rfl .nil)
  have hspaced : Spaced [0x30, 0x61, 0x39, 0x46] [0x20, 0x30, 0x0a, 0x61, 0x39, 0x46, 0x09] :=
    spaced_iff.mpr (by decide)
  exact ⟨hspells, hspaced, (decode_exact.2 _).2 _ _ hspells hspaced⟩

end UnknownFields.Hex
