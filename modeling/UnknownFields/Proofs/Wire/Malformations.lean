import UnknownFields.Proofs.Wire.LeftOpen

/-!
What the check says about malformed bytes, and how far that can be relied on. The items in front of the
position that it names are in order, so there is nothing wrong before it. Most malformations stay
whatever is put behind the bytes: only a number or a payload that is cut off, and a group that is not
closed, may be completed. Well-formed bytes in front move the position and change nothing else.
-/

namespace UnknownFields

/-- The malformations that no further bytes can cure. -/
def Malformation.Final : Malformation → Prop
  | varintTooLong | tagOutOfRange | fieldNumberZero | invalidWireType _ | unexpectedEndGroup
  | mismatchedEndGroup _ _ => True
  | truncatedVarint | truncatedPayload | unterminatedGroup _ => False

namespace WellFormed

/-! ### Reading from more input -/

/-- Why reading fails: the input is cut off, or no further bytes help. -/
inductive Fails {α : Type} (read : Bytes → Except Malformation α) (input : Bytes) :
    Malformation → Prop where
  | truncatedVarint : Fails read input .truncatedVarint
  | truncatedPayload : Fails read input .truncatedPayload
  | final {reason : Malformation} (is_final : reason.Final)
      (lasts : ∀ more, read (input ++ more) = .error reason) : Fails read input reason

variable {input : Bytes} {reason : Malformation}

theorem readVarint_fails (h : readVarint input = .error reason) : Fails readVarint input reason := by
  have hcontinued := continued_of_readVarint h
  rw [readVarint_of_continued hcontinued] at h
  split_ifs at h with hlength
  · cases h
    exact .truncatedVarint
  · cases h
    refine .final trivial fun more => ?_
    have hlong : 10 < input.length := not_le.mp hlength
    have htake : (input ++ more).take 10 = input.take 10 :=
      List.take_append_of_le_length hlong.le
    have hmore : ¬(input ++ more).length ≤ 10 := by
      rw [List.length_append]
      omega
    rw [readVarint_of_continued (by rwa [htake]), if_neg hmore]

theorem skip_fails {length : Nat} (h : skip input length = .error reason) :
    reason = .truncatedPayload := by
  rw [skip] at h
  split_ifs at h
  cases h
  rfl

theorem readPayload_fails {field code : Nat} (h : readPayload field code input = .error reason) :
    Fails (readPayload field code) input reason := by
  have hnumber {type : WireType} (htype : WireType.ofCode? code = some type)
      (hreads : type = .varint ∨ type = .delimited) (hread : readVarint input = .error reason) :
      Fails (readPayload field code) input reason := by
    cases readVarint_fails hread with
    | truncatedVarint => exact .truncatedVarint
    | truncatedPayload => exact .truncatedPayload
    | final is_final lasts =>
        refine .final is_final fun more => ?_
        rw [readPayload, htype]
        rcases hreads with rfl | rfl <;> simp only [lasts more, error_bind]
  cases htype : WireType.ofCode? code with
  | none =>
      rw [readPayload, htype] at h
      cases h
      refine .final trivial fun more => ?_
      rw [readPayload, htype]
      rfl
  | some type =>
      rw [readPayload, htype] at h
      cases type with
      | varint =>
          rcases bind_eq_error.mp h with hread | ⟨_, _, h⟩
          · exact hnumber htype (Or.inl rfl) hread
          · cases h
      | delimited =>
          rcases bind_eq_error.mp h with hread | ⟨_, _, h⟩
          · exact hnumber htype (Or.inr rfl) hread
          · rcases bind_eq_error.mp h with hskip | ⟨_, _, h⟩
            · rw [skip_fails hskip]
              exact .truncatedPayload
            · cases h
      | fixed64 =>
          rcases bind_eq_error.mp h with hskip | ⟨_, _, h⟩
          · rw [skip_fails hskip]
            exact .truncatedPayload
          · cases h
      | fixed32 =>
          rcases bind_eq_error.mp h with hskip | ⟨_, _, h⟩
          · rw [skip_fails hskip]
            exact .truncatedPayload
          · cases h
      | startGroup => cases h
      | endGroup => cases h

/-- What keeps an item from being read is cut off, or it stays. -/
theorem readItem_fails (h : readItem input = .error reason) : Fails readItem input reason := by
  rcases bind_eq_error.mp h with hread | ⟨⟨number, length⟩, hread, h⟩
  · cases readVarint_fails hread with
    | truncatedVarint => exact .truncatedVarint
    | truncatedPayload => exact .truncatedPayload
    | final is_final lasts =>
        refine .final is_final fun more => ?_
        rw [readItem, lasts more, error_bind]
  obtain ⟨front, tail, rfl, rfl, hspells⟩ := spells_of_readVarint hread
  -- Whatever follows, the tag is the same.
  have hmore (more : Bytes) : readItem (front ++ tail ++ more) =
      if UInt32.size ≤ number.toNat then .error .tagOutOfRange
      else if number.toNat / 8 = 0 then .error .fieldNumberZero
      else do
        let payload ← readPayload (number.toNat / 8) (number.toNat % 8) (tail ++ more)
        return (payload.1, front.length + payload.2) := by
    rw [readItem, List.append_assoc, readVarint_of_spells hspells, ok_bind]
    simp only [List.drop_left]
    rfl
  dsimp only at h
  rw [List.drop_left] at h
  split_ifs at h with hlarge hfield
  · cases h
    exact .final trivial fun more => by rw [hmore, if_pos hlarge]
  · cases h
    exact .final trivial fun more => by rw [hmore, if_neg hlarge, if_pos hfield]
  · rcases bind_eq_error.mp h with hpayload | ⟨_, _, h⟩
    · cases readPayload_fails hpayload with
      | truncatedVarint => exact .truncatedVarint
      | truncatedPayload => exact .truncatedPayload
      | final is_final lasts =>
          refine .final is_final fun more => ?_
          rw [hmore, if_neg hlarge, if_neg hfield, lasts more, error_bind]
    · cases h

/-! ### Malformations -/

variable {groups : List OpenGroup} {malformed : Malformed}

/-- A group that is never closed is not what is wrong with an item. -/
theorem Faulty.reason_ne (h : Faulty groups input reason) (field : Nat) :
    reason ≠ .unterminatedGroup field := by
  cases h with
  | unexpected | mismatched => exact nofun
  | item nonempty fails =>
      cases readItem_fails fails with
      | truncatedVarint | truncatedPayload => exact nofun
      | final is_final _ =>
          rintro rfl
          exact is_final

theorem Faulty.append (h : Faulty groups input reason) (hfinal : reason.Final) (more : Bytes) :
    Faulty groups (input ++ more) reason := by
  cases h with
  | unexpected tail item none_open =>
      rw [List.append_assoc]
      exact .unexpected (tail ++ more) item none_open
  | mismatched tail item groups_eq other_field =>
      rw [List.append_assoc]
      exact .mismatched (tail ++ more) item groups_eq other_field
  | item nonempty fails =>
      cases readItem_fails fails with
      | truncatedVarint | truncatedPayload => exact hfinal.elim
      | final _ lasts => exact .item (by simp [nonempty]) (lasts more)

/-- All that may be wrong with the bytes is that a group opened in front of the given position is not
closed. -/
inductive AtMostUnclosed (limit : Nat) (input : Bytes) : Prop where
  | accepted (check_eq : check input = .ok ())
  | unclosed {offset field : Nat} (check_eq : check input = .error ⟨offset, .unterminatedGroup field⟩)
      (offset_lt : offset < limit)

theorem LeavesOpen.atMostUnclosed (h : LeavesOpen input groups) {limit : Nat}
    (hlimit : ∀ group ∈ groups.head?, group.offset < limit) : AtMostUnclosed limit input := by
  have hcheck := h.check_eq
  cases groups with
  | nil => exact .accepted hcheck
  | cons group outer => exact .unclosed hcheck (hlimit group rfl)

theorem LeavesOpen.head_lt (h : LeavesOpen input groups) :
    ∀ group ∈ groups.head?, group.offset < input.length := by
  cases groups with
  | nil => exact nofun
  | cons group outer =>
      rintro _ ⟨⟩
      exact h.offset_lt

/-- In front of the position of a malformation nothing is wrong. -/
theorem atMostUnclosed_take (h : check input = .error malformed) :
    malformed.offset < input.length ∧
      AtMostUnclosed malformed.offset (input.take malformed.offset) := by
  rcases leavesOpen_of_check_error h with
    ⟨group, outer, hall, rfl⟩ | ⟨items, rest, groups, reason, rfl, hitems, hfaulty, rfl⟩
  · refine ⟨hall.offset_lt, ?_⟩
    obtain ⟨front, back, rfl, -, hfront, hoffset, -⟩ := hall.opened [] rfl
    simp only [hoffset, List.take_left]
    exact hfront.atMostUnclosed hfront.head_lt
  · refine ⟨?_, ?_⟩
    · have hrest : rest ≠ [] := by
        cases hfaulty with
        | item nonempty _ => exact nonempty
        | unexpected tail item _ | mismatched tail item _ _ =>
            simp [List.length_pos_iff.mp item.length_pos]
      have := List.length_pos_iff.mpr hrest
      simp only [List.length_append]
      omega
    · simp only [List.take_left]
      exact hitems.atMostUnclosed hitems.head_lt

theorem check_append_of_final (h : check input = .error malformed) (hfinal : malformed.reason.Final)
    (more : Bytes) : check (input ++ more) = .error malformed := by
  rcases leavesOpen_of_check_error h with
    ⟨group, outer, hall, rfl⟩ | ⟨items, rest, groups, reason, rfl, hitems, hfaulty, rfl⟩
  · exact hfinal.elim
  · rw [List.append_assoc, hitems.check_of_faulty (hfaulty.append hfinal more)]

/-- The end of the group that is not closed closes it, and nothing else becomes wrong. -/
theorem atMostUnclosed_append {offset field : Nat}
    (h : check input = .error ⟨offset, .unterminatedGroup field⟩) :
    (∃ tag bytes, (Token.closing tag).Written bytes ∧ tag.fieldNumber = field) ∧
      ∀ tag bytes, (Token.closing tag).Written bytes → tag.fieldNumber = field →
        AtMostUnclosed offset (input ++ bytes) := by
  rcases leavesOpen_of_check_error h with
    ⟨group, outer, hall, heq⟩ | ⟨items, rest, groups, reason, rfl, hitems, hfaulty, heq⟩
  · cases heq
    obtain ⟨front, back, -, -, hfront, hoffset, hfield⟩ := hall.opened [] rfl
    refine ⟨Token.exists_closing hfield, fun tag bytes hitem hsame => ?_⟩
    refine (hall.closing hitem hsame).atMostUnclosed ?_
    rw [hoffset]
    exact hfront.head_lt
  · cases heq
    exact absurd rfl (hfaulty.reason_ne field)

theorem check_behind {front : Bytes} (hfront : check front = .ok ()) (input : Bytes) :
    check (front ++ input) =
      (check input).mapError fun malformed => ⟨front.length + malformed.offset, malformed.reason⟩ := by
  have hbefore := leavesOpen_of_check hfront
  cases hcheck : check input with
  | ok => exact (hbefore.behind (leavesOpen_of_check hcheck)).check_eq
  | error malformed =>
      rcases leavesOpen_of_check_error hcheck with
        ⟨group, outer, hall, rfl⟩ | ⟨items, rest, groups, reason, rfl, hitems, hfaulty, rfl⟩
      · exact (hbefore.behind hall).check_eq
      · rw [← List.append_assoc, (hbefore.behind hitems).check_of_faulty (hfaulty.behind _),
          List.length_append]
        rfl

/-- **Malformations are reported exactly.** Take bytes that the check rejects. The position that it
names is in the bytes, and all that may be wrong in front of it is an unclosed group. A final
malformation is reported in the same way whatever is put behind the bytes. An unclosed group is closed
by the tag that ends it, and all that may be wrong then is a group around it. Well-formed bytes in
front add their length to the position; in front of other well-formed bytes they are accepted. -/
theorem check_reports_exactly (input : Bytes) :
    (∀ malformed, check input = .error malformed →
      malformed.offset < input.length ∧
      AtMostUnclosed malformed.offset (input.take malformed.offset) ∧
      (malformed.reason.Final → ∀ more, check (input ++ more) = .error malformed) ∧
      (∀ field, malformed.reason = .unterminatedGroup field →
        (∃ tag bytes, (Token.closing tag).Written bytes ∧ tag.fieldNumber = field) ∧
        ∀ tag bytes, (Token.closing tag).Written bytes → tag.fieldNumber = field →
          AtMostUnclosed malformed.offset (input ++ bytes)) ∧
      ∀ front, check front = .ok () →
        check (front ++ input) = .error ⟨front.length + malformed.offset, malformed.reason⟩) ∧
    (check input = .ok () → ∀ front, check front = .ok () → check (front ++ input) = .ok ()) := by
  refine ⟨fun malformed h => ?_, fun h front hfront => by rw [check_behind hfront, h]; rfl⟩
  obtain ⟨hoffset, hbefore⟩ := atMostUnclosed_take h
  refine ⟨hoffset, hbefore, check_append_of_final h, fun field hreason => ?_,
    fun front hfront => by rw [check_behind hfront, h]; rfl⟩
  obtain ⟨offset, reason⟩ := malformed
  cases hreason
  exact atMostUnclosed_append h

/-- The end of another group than the open one, and two groups of which the inner one can be closed. -/
theorem check_reports_exactly_groups :
    check [0x0b, 0x14] = .error ⟨1, .mismatchedEndGroup 1 2⟩ ∧
    AtMostUnclosed 1 [0x0b] ∧
    (∀ more, check ([0x0b, 0x14] ++ more) = .error ⟨1, .mismatchedEndGroup 1 2⟩) ∧
    check ([0x08, 0x01] ++ [0x0b, 0x14]) = .error ⟨3, .mismatchedEndGroup 1 2⟩ ∧
    check [0x0b, 0x13] = .error ⟨1, .unterminatedGroup 2⟩ ∧
    AtMostUnclosed 1 ([0x0b, 0x13] ++ [0x14]) ∧
    check ([0x08, 0x01] ++ [0x0b, 0x0c]) = .ok () := by
  have hmismatched : check [0x0b, 0x14] = .error ⟨1, .mismatchedEndGroup 1 2⟩ := by cbv
  have hunclosed : check [0x0b, 0x13] = .error ⟨1, .unterminatedGroup 2⟩ := by cbv
  have hfront : check [0x08, 0x01] = .ok () := by cbv
  have hclosed : check [0x0b, 0x0c] = .ok () := by cbv
  have htag : (Tag.mk (0x14 : UInt8).toUInt32).Written .endGroup [0x14] :=
    Tag.written_single (by decide) (by decide) (by decide)
  obtain ⟨_, hbefore, hlasts, _, hbehind⟩ := (check_reports_exactly _).1 _ hmismatched
  obtain ⟨_, _, _, hcloses, _⟩ := (check_reports_exactly _).1 _ hunclosed
  exact ⟨hmismatched, hbefore, hlasts trivial, hbehind _ hfront, hunclosed,
    (hcloses 2 rfl).2 _ _ (.closing htag) (by decide), (check_reports_exactly _).2 hclosed _ hfront⟩

end WellFormed

end UnknownFields
