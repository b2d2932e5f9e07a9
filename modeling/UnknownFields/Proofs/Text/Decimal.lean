import Mathlib.Data.List.DropRight
import Mathlib.Tactic
import UnknownFields.Text.Blank
import UnknownFields.Text.Decimal

/-!
Numbers as decimal text, and texts without the white space around them, both as relations. Reading
finds the number of a numeral if it is below the bound, and nothing in any other text. The text of a
number, as it is printed, is one of its numerals.
-/

namespace UnknownFields

namespace Text

/-- The core is the text without the white space at its ends. -/
structure Trims (text core : List Char) : Prop where
  surrounded : ∃ before behind, text = before ++ core ++ behind ∧
    (∀ char ∈ before, isBlank char = true) ∧ ∀ char ∈ behind, isBlank char = true
  head_shown : ∀ char ∈ core.head?, isBlank char = false
  last_shown : ∀ char ∈ core.getLast?, isBlank char = false

variable {text core : List Char}

theorem dropWhile_of_shown (h : ∀ char ∈ text.head?, isBlank char = false) :
    text.dropWhile isBlank = text := by
  cases text with
  | nil => rfl
  | cons first rest => exact List.dropWhile_cons_of_neg (by simpa using h first rfl)

theorem head_shown_dropWhile (text : List Char) :
    ∀ char ∈ (text.dropWhile isBlank).head?, isBlank char = false := by
  intro char hchar
  have hhead := List.head?_dropWhile_not isBlank text
  rwa [Option.mem_def.mp hchar] at hhead

theorem Trims.trim_eq (h : Trims text core) : trim text = core := by
  obtain ⟨before, behind, rfl, hbefore, hbehind⟩ := h.surrounded
  rw [trim, List.append_assoc, List.dropWhile_append_of_pos hbefore]
  by_cases hcore : core = []
  · rw [hcore, List.nil_append, List.dropWhile_eq_nil_iff.mpr hbehind]
    rfl
  · have hshown : ∀ char ∈ (core ++ behind).head?, isBlank char = false := by
      rw [List.head?_append_of_ne_nil _ hcore]
      exact h.head_shown
    rw [dropWhile_of_shown hshown, List.reverse_append,
      List.dropWhile_append_of_pos (by simpa using hbehind),
      dropWhile_of_shown (by simpa [List.head?_reverse] using h.last_shown), List.reverse_reverse]

theorem trims_trim (text : List Char) : Trims text (trim text) := by
  have hback : trim text = (text.dropWhile isBlank).rdropWhile isBlank := rfl
  rw [hback]
  refine ⟨⟨text.takeWhile isBlank, (text.dropWhile isBlank).rtakeWhile isBlank, ?_, ?_, ?_⟩, ?_, ?_⟩
  · rw [List.append_assoc, List.rdropWhile_append_rtakeWhile, List.takeWhile_append_dropWhile]
  · exact fun char hchar => List.mem_takeWhile_imp hchar
  · exact fun char hchar => List.mem_rtakeWhile_imp hchar
  · intro char hchar
    obtain ⟨removed, hremoved⟩ := List.rdropWhile_prefix isBlank (text.dropWhile isBlank)
    apply head_shown_dropWhile text char
    rw [← hremoved, List.head?_append, Option.mem_def.mp hchar]
    rfl
  · intro char hchar
    rw [List.rdropWhile, List.getLast?_reverse] at hchar
    exact head_shown_dropWhile _ char hchar

theorem trims_iff : Trims text core ↔ trim text = core :=
  ⟨Trims.trim_eq, fun h => h ▸ trims_trim text⟩

end Text

namespace Decimal

/-- Decimal digits, at least one of them, with or without a plus sign in front, and their value. -/
inductive Numeral : List Char → Nat → Prop where
  | unsigned {digits : List Char} (nonempty : digits ≠ [])
      (all_digits : ∀ char ∈ digits, char.isDigit = true) :
      Numeral digits (Nat.ofDigitChars 10 digits 0)
  | signed {digits : List Char} (nonempty : digits ≠ [])
      (all_digits : ∀ char ∈ digits, char.isDigit = true) :
      Numeral ('+' :: digits) (Nat.ofDigitChars 10 digits 0)

variable {bound value number : Nat} {text digits : List Char}

theorem digitValue?_eq (char : Char) :
    digitValue? char = if char.isDigit then some (char.toNat - '0'.toNat) else none := by
  simp [digitValue?, Char.isDigit, Char.le_def]

theorem le_ofDigitChars (digits : List Char) (value : Nat) :
    value ≤ Nat.ofDigitChars 10 digits value := by
  rw [Nat.ofDigitChars_eq_ofDigitChars_zero]
  exact (Nat.le_mul_of_pos_left _ (by positivity)).trans (Nat.le_add_right _ _)

theorem readDigits_eq_ok_iff (h : value < bound) :
    readDigits bound value digits = .ok number ↔
      (∀ char ∈ digits, char.isDigit = true) ∧ Nat.ofDigitChars 10 digits value = number ∧
        number < bound := by
  induction digits generalizing value with
  | nil =>
      simp only [readDigits, Except.ok.injEq, Nat.ofDigitChars_nil, List.not_mem_nil, false_imp_iff,
        implies_true, true_and]
      exact ⟨fun heq => ⟨heq, heq ▸ h⟩, And.left⟩
  | cons char rest ih =>
      rw [readDigits, digitValue?_eq, List.forall_mem_cons, Nat.ofDigitChars_cons]
      generalize char.toNat - '0'.toNat = digit
      by_cases hdigit : char.isDigit = true
      · simp only [hdigit, if_true, true_and]
        split_ifs with hlt
        · exact ih hlt
        · -- What is too large stays so, whatever digits follow.
          have hle := le_ofDigitChars rest (10 * value + digit)
          simp only [false_iff, not_and]
          omega
      · simp [hdigit]

theorem readMagnitude_eq_ok_iff (h : 0 < bound) :
    readMagnitude bound digits = .ok number ↔
      digits ≠ [] ∧ (∀ char ∈ digits, char.isDigit = true) ∧ Nat.ofDigitChars 10 digits 0 = number ∧
        number < bound := by
  cases digits with
  | nil => simp [readMagnitude]
  | cons char rest =>
      rw [readMagnitude, readDigits_eq_ok_iff h]
      · simp
      · simp

theorem read_of_unsigned {first : Char} {rest : List Char} (h : first ≠ '+') :
    read bound (first :: rest) = readMagnitude bound (first :: rest) := by
  rw [read]
  · simp
  · simpa using h

theorem read_eq_ok_iff (h : 0 < bound) :
    read bound text = .ok number ↔ Numeral text number ∧ number < bound := by
  constructor
  · intro hread
    unfold read at hread
    split at hread
    · cases hread
    · obtain ⟨hnonempty, hdigits, rfl, hlt⟩ := (readMagnitude_eq_ok_iff h).mp hread
      exact ⟨.signed hnonempty hdigits, hlt⟩
    · obtain ⟨hnonempty, hdigits, rfl, hlt⟩ := (readMagnitude_eq_ok_iff h).mp hread
      exact ⟨.unsigned hnonempty hdigits, hlt⟩
  · rintro ⟨hnumeral, hlt⟩
    cases hnumeral with
    | signed nonempty all_digits =>
        exact (readMagnitude_eq_ok_iff h).mpr ⟨nonempty, all_digits, rfl, hlt⟩
    | unsigned nonempty all_digits =>
        obtain ⟨first, rest, rfl⟩ := List.exists_cons_of_ne_nil nonempty
        have hfirst := all_digits first List.mem_cons_self
        rw [read_of_unsigned (by rintro rfl; cases hfirst)]
        exact (readMagnitude_eq_ok_iff h).mpr ⟨nonempty, all_digits, rfl, hlt⟩

/-! ### Printed numbers -/

theorem toList_toString (number : Nat) : (toString number).toList = Nat.toDigits 10 number :=
  Nat.toList_repr

theorem isDigit_of_mem_toString {char : Char} (h : char ∈ (toString number).toList) :
    char.isDigit = true := by
  rw [toList_toString] at h
  exact Nat.isDigit_of_mem_toDigits (by decide) (by decide) h

theorem numeral_toString (number : Nat) : Numeral (toString number).toList number := by
  have hvalue : Nat.ofDigitChars 10 (toString number).toList 0 = number := by
    rw [toList_toString, Nat.ofDigitChars_ten_toDigits]
  have hnonempty : (toString number).toList ≠ [] := by
    rw [toList_toString]
    exact Nat.toDigits_ne_nil
  have hnumeral := Numeral.unsigned hnonempty fun _ => isDigit_of_mem_toString
  rwa [hvalue] at hnumeral

/-- A printed number is read with or without signs. -/
theorem readSigned_toString (h : number < bound) :
    readSigned bound (toString number).toList = .ok number := by
  rw [readSigned, (read_eq_ok_iff (by omega)).mpr ⟨numeral_toString number, h⟩]
  intro digits hminus
  have hdigit : '-'.isDigit = true := isDigit_of_mem_toString (hminus ▸ List.mem_cons_self)
  cases hdigit

end Decimal

end UnknownFields
