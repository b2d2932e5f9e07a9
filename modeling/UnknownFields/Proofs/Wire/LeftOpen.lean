import UnknownFields.Proofs.Wire.Acceptance

/-!
The groups that a buffer leaves open. Behind whole items some groups are open, the innermost one
first, each with the position of its opening tag. The check comes out behind these items with just
these groups, so it ends in one of two ways: the whole buffer is such items, or behind some of them
there is something that is wrong.
-/

namespace UnknownFields.WellFormed

/-- The bytes are whole items, and these groups are open behind them, the innermost one first. -/
inductive LeavesOpen : Bytes → List OpenGroup → Prop where
  | start : LeavesOpen [] []
  | field {front bytes : Bytes} {groups : List OpenGroup} {tag : Tag} {value : Scalar}
      (before : LeavesOpen front groups) (item : (Token.field tag value).Written bytes) :
      LeavesOpen (front ++ bytes) groups
  | opening {front bytes : Bytes} {groups : List OpenGroup} {tag : Tag}
      (before : LeavesOpen front groups) (item : (Token.opening tag).Written bytes) :
      LeavesOpen (front ++ bytes) (⟨tag.fieldNumber, front.length⟩ :: groups)
  | closing {front bytes : Bytes} {group : OpenGroup} {outer : List OpenGroup} {tag : Tag}
      (before : LeavesOpen front (group :: outer)) (item : (Token.closing tag).Written bytes)
      (same_field : tag.fieldNumber = group.field) : LeavesOpen (front ++ bytes) outer

/-- What follows is wrong behind these groups: it does not start with an item, or it starts with the
end of a group that is not the innermost one. -/
inductive Faulty (groups : List OpenGroup) : Bytes → Malformation → Prop where
  | item {input : Bytes} {reason : Malformation} (nonempty : input ≠ [])
      (fails : readItem input = .error reason) : Faulty groups input reason
  | unexpected {bytes : Bytes} {tag : Tag} (tail : Bytes) (item : (Token.closing tag).Written bytes)
      (none_open : groups = []) : Faulty groups (bytes ++ tail) .unexpectedEndGroup
  | mismatched {bytes : Bytes} {tag : Tag} {group : OpenGroup} {outer : List OpenGroup} (tail : Bytes)
      (item : (Token.closing tag).Written bytes) (groups_eq : groups = group :: outer)
      (other_field : group.field ≠ tag.fieldNumber) :
      Faulty groups (bytes ++ tail) (.mismatchedEndGroup group.field tag.fieldNumber)

variable {front input : Bytes} {groups : List OpenGroup}

/-! ### What the check does -/

/-- The check comes out behind the items with the groups that they leave open. -/
theorem LeavesOpen.check_append (h : LeavesOpen front groups) (tail : Bytes) :
    check (front ++ tail) = scan front.length groups tail := by
  induction h generalizing tail with
  | start => rfl
  | field before item ih =>
      rw [List.append_assoc, ih, scan_of_written item, List.length_append]
      rfl
  | opening before item ih =>
      rw [List.append_assoc, ih, scan_of_written item, List.length_append]
      rfl
  | closing before item same_field ih =>
      rw [List.append_assoc, ih, scan_of_written item, List.length_append]
      simp only [Token.item, balance, same_field, if_true]

theorem LeavesOpen.check_eq (h : LeavesOpen front groups) : check front = finish groups := by
  have hcheck := h.check_append []
  rwa [List.append_nil, scan_nil] at hcheck

theorem Faulty.scan_eq {reason : Malformation} (h : Faulty groups input reason) (offset : Nat) :
    scan offset groups input = .error ⟨offset, reason⟩ := by
  cases h with
  | item nonempty fails =>
      rw [scan, dif_neg nonempty]
      split
      · next hread =>
          rw [fails] at hread
          cases hread
          rfl
      · next hread =>
          rw [fails] at hread
          cases hread
  | unexpected tail item none_open =>
      rw [scan_of_written item, none_open]
      rfl
  | mismatched tail item groups_eq other_field =>
      rw [scan_of_written item, groups_eq]
      simp only [Token.item, balance, if_neg other_field]

theorem LeavesOpen.check_of_faulty {reason : Malformation} (h : LeavesOpen front groups)
    (hfaulty : Faulty groups input reason) :
    check (front ++ input) = .error ⟨front.length, reason⟩ := by
  rw [h.check_append, hfaulty.scan_eq]

/-- Behind some items the input goes on with items up to its end, or up to something that is wrong. -/
theorem LeavesOpen.goesOn (h : LeavesOpen front groups) (input : Bytes) :
    (∃ groups', LeavesOpen (front ++ input) groups') ∨
      ∃ items rest groups' reason, input = items ++ rest ∧ LeavesOpen (front ++ items) groups' ∧
        Faulty groups' rest reason := by
  induction hcount : input.length using Nat.strong_induction_on generalizing front groups input with
  | _ count ih =>
      by_cases hinput : input = []
      · exact Or.inl ⟨groups, by rwa [hinput, List.append_nil]⟩
      cases hread : readItem input with
      | error reason =>
          exact Or.inr ⟨[], input, groups, reason, rfl, by rwa [List.append_nil],
            .item hinput hread⟩
      | ok found =>
          obtain ⟨token, bytes, tail, rfl, -, -, hitem⟩ := written_of_readItem hread
          have hstep {balanced : List OpenGroup} (hbehind : LeavesOpen (front ++ bytes) balanced) :
              (∃ groups', LeavesOpen (front ++ (bytes ++ tail)) groups') ∨
                ∃ items rest groups' reason, bytes ++ tail = items ++ rest ∧
                  LeavesOpen (front ++ items) groups' ∧ Faulty groups' rest reason := by
            have hlt : tail.length < count := by
              have := hitem.length_pos
              rw [List.length_append] at hcount
              omega
            rcases ih tail.length hlt hbehind tail rfl with
              ⟨groups', hall⟩ | ⟨items, rest, groups', reason, rfl, hitems, hfaulty⟩
            · exact Or.inl ⟨groups', by rwa [List.append_assoc] at hall⟩
            · exact Or.inr ⟨bytes ++ items, rest, groups', reason, (List.append_assoc ..).symm,
                by rwa [List.append_assoc] at hitems, hfaulty⟩
          cases hitem with
          | field htag hvalue => exact hstep (h.field (.field htag hvalue))
          | opening htag => exact hstep (h.opening (.opening htag))
          | @closing tag _ htag =>
              cases groups with
              | nil => exact Or.inr ⟨[], _, [], _, rfl, by rwa [List.append_nil],
                  .unexpected tail (.closing htag) rfl⟩
              | cons group outer =>
                  by_cases hfield : group.field = tag.fieldNumber
                  · exact hstep (h.closing (.closing htag) hfield.symm)
                  · exact Or.inr ⟨[], _, _, _, rfl, by rwa [List.append_nil],
                      .mismatched tail (.closing htag) rfl hfield⟩

/-- What the check accepts is items that leave no group open. -/
theorem leavesOpen_of_check (h : check input = .ok ()) : LeavesOpen input [] := by
  rcases LeavesOpen.start.goesOn input with
    ⟨groups, hall⟩ | ⟨items, rest, groups, reason, rfl, hitems, hfaulty⟩
  · rw [List.nil_append] at hall
    rw [hall.check_eq] at h
    cases groups with
    | nil => exact hall
    | cons group outer => cases h
  · rw [List.nil_append] at hitems
    rw [hitems.check_of_faulty hfaulty] at h
    cases h

/-- What the check rejects leaves a group open, or it goes wrong behind some items. -/
theorem leavesOpen_of_check_error {malformed : Malformed} (h : check input = .error malformed) :
    (∃ group outer, LeavesOpen input (group :: outer) ∧
        malformed = ⟨group.offset, .unterminatedGroup group.field⟩) ∨
      ∃ items rest groups reason, input = items ++ rest ∧ LeavesOpen items groups ∧
        Faulty groups rest reason ∧ malformed = ⟨items.length, reason⟩ := by
  rcases LeavesOpen.start.goesOn input with
    ⟨groups, hall⟩ | ⟨items, rest, groups, reason, rfl, hitems, hfaulty⟩
  · rw [List.nil_append] at hall
    rw [hall.check_eq] at h
    cases groups with
    | nil => cases h
    | cons group outer =>
        cases h
        exact Or.inl ⟨group, outer, hall, rfl⟩
  · rw [List.nil_append] at hitems
    rw [hitems.check_of_faulty hfaulty] at h
    cases h
    exact Or.inr ⟨items, rest, groups, reason, rfl, hitems, hfaulty, rfl⟩

/-! ### The open groups -/

/-- A group that is open was opened behind some items, which leave open what is around it. -/
theorem LeavesOpen.opened (h : LeavesOpen input groups) (inner : List OpenGroup) {group : OpenGroup}
    {outer : List OpenGroup} (hgroups : groups = inner ++ group :: outer) :
    ∃ front back, input = front ++ back ∧ back ≠ [] ∧ LeavesOpen front outer ∧
      group.offset = front.length ∧ 1 ≤ group.field ∧ group.field ≤ 2 ^ 29 - 1 := by
  induction h generalizing inner with
  | start => cases inner <;> cases hgroups
  | field before item ih =>
      obtain ⟨front, back, rfl, hback, hfront⟩ := ih inner hgroups
      exact ⟨front, back ++ _, List.append_assoc .., by simp [hback], hfront⟩
  | @opening front bytes groups tag before item ih =>
      cases inner with
      | nil =>
          cases hgroups
          have hpos := List.length_pos_iff.mp item.length_pos
          cases item with
          | opening htag => exact ⟨front, bytes, rfl, hpos, before, rfl, htag.field_mem⟩
      | cons first inner =>
          obtain ⟨front, back, rfl, hback, hfront⟩ := ih inner (List.cons.inj hgroups).2
          exact ⟨front, back ++ bytes, List.append_assoc .., by simp [hback], hfront⟩
  | @closing front bytes closed outer tag before item same_field ih =>
      rw [hgroups] at ih
      obtain ⟨front, back, rfl, hback, hfront⟩ := ih (closed :: inner) rfl
      exact ⟨front, back ++ bytes, List.append_assoc .., by simp [hback], hfront⟩

theorem LeavesOpen.offset_lt {group : OpenGroup} {outer : List OpenGroup}
    (h : LeavesOpen input (group :: outer)) : group.offset < input.length := by
  obtain ⟨front, back, rfl, hback, -, hoffset, -⟩ := h.opened [] rfl
  have := List.length_pos_iff.mpr hback
  rw [hoffset, List.length_append]
  omega

/-- The bytes are the tags that end the groups, the first one first. -/
inductive EndTags : List OpenGroup → Bytes → Prop where
  | nil : EndTags [] []
  | cons {group : OpenGroup} {outer : List OpenGroup} {tag : Tag} {bytes rest : Bytes}
      (item : (Token.closing tag).Written bytes) (same_field : tag.fieldNumber = group.field)
      (rest_ends : EndTags outer rest) : EndTags (group :: outer) (bytes ++ rest)

theorem LeavesOpen.exists_endTags (h : LeavesOpen input groups) : ∃ tags, EndTags groups tags := by
  have hsuffix (inner outer : List OpenGroup) (hgroups : groups = inner ++ outer) :
      ∃ tags, EndTags outer tags := by
    induction outer generalizing inner with
    | nil => exact ⟨[], .nil⟩
    | cons group outer ih =>
        obtain ⟨-, -, -, -, -, -, hfield⟩ := h.opened inner hgroups
        obtain ⟨tag, bytes, hitem, hsame⟩ := Token.exists_closing hfield
        obtain ⟨rest, hrest⟩ := ih (inner ++ [group]) (by rw [hgroups, List.append_cons])
        exact ⟨bytes ++ rest, .cons hitem hsame hrest⟩
  exact hsuffix [] groups rfl

theorem LeavesOpen.closed (h : LeavesOpen input groups) {tags : Bytes} (htags : EndTags groups tags) :
    LeavesOpen (input ++ tags) [] := by
  induction htags generalizing input with
  | nil => rwa [List.append_nil]
  | cons item same_field _ ih =>
      rw [← List.append_assoc]
      exact ih (h.closing item same_field)

def OpenGroup.behind (count : Nat) (group : OpenGroup) : OpenGroup :=
  { group with offset := count + group.offset }

/-- Well-formed bytes in front move the open groups and change nothing else. -/
theorem LeavesOpen.behind (hfront : LeavesOpen front []) (h : LeavesOpen input groups) :
    LeavesOpen (front ++ input) (groups.map (.behind front.length)) := by
  induction h with
  | start => rwa [List.append_nil]
  | field before item ih =>
      rw [← List.append_assoc]
      exact ih.field item
  | opening before item ih =>
      have hopened := ih.opening item
      rwa [List.length_append, List.append_assoc] at hopened
  | closing before item same_field ih =>
      rw [← List.append_assoc]
      exact ih.closing item same_field

theorem Faulty.behind {reason : Malformation} (h : Faulty groups input reason) (count : Nat) :
    Faulty (groups.map (.behind count)) input reason := by
  cases h with
  | item nonempty fails => exact .item nonempty fails
  | unexpected tail item none_open => exact .unexpected tail item (by rw [none_open, List.map_nil])
  | @mismatched bytes tag group outer tail item groups_eq other_field =>
      rw [groups_eq]
      show Faulty _ _ (.mismatchedEndGroup (group.behind count).field tag.fieldNumber)
      exact .mismatched tail item (List.map_cons ..) other_field

end UnknownFields.WellFormed
