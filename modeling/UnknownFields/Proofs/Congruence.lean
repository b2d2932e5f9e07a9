import UnknownFields.Proofs.Build.Depth
import UnknownFields.Proofs.Comparing

/-!
Comparing parts of buffers. Fields that two buffers share in front or behind, and a group around both,
do not change the verdict. They may change which levels are sorted and which shortcut is taken, so this
is a matter of the encoded fields: equivalence is settled tag by tag, where what is shared cancels.
-/

namespace UnknownFields

/-! ### Fields in front, behind and around -/

section Equivalence

variable (fields others shared : List (Node Unit))

/-- Equivalence, tag by tag, up to the order inside of groups. -/
theorem equivalent_iff_runs : Equivalent fields others ↔
    ∀ tag, (withTag Node.tag tag fields).map Node.canonical =
      (withTag Node.tag tag others).map Node.canonical := by
  rw [equivalent_iff, canonicalFields, canonicalFields, sortByTag_eq_iff]
  simp only [withTag_map_canonical]

theorem Equivalent.length_eq {fields others : List (Node Unit)} (h : Equivalent fields others) :
    fields.length = others.length := by
  rw [← length_canonicalFields fields, (equivalent_iff fields others).mp h, length_canonicalFields]

theorem equivalent_append_right :
    Equivalent (fields ++ shared) (others ++ shared) ↔ Equivalent fields others := by
  rw [equivalent_iff_runs, equivalent_iff_runs]
  simp only [withTag, List.filter_append, List.map_append, List.append_left_inj]

theorem equivalent_append_left :
    Equivalent (shared ++ fields) (shared ++ others) ↔ Equivalent fields others := by
  rw [equivalent_iff_runs, equivalent_iff_runs]
  simp only [withTag, List.filter_append, List.map_append, List.append_right_inj]

theorem equivalent_group (tag : Tag) :
    Equivalent [.group tag () fields] [.group tag () others] ↔ Equivalent fields others := by
  have hself (fields : List (Node Unit)) :
      withTag Node.tag tag [.group tag () fields] = [.group tag () fields] := by
    rw [withTag, List.filter_singleton, Node.tag, decide_eq_true rfl]
    rfl
  constructor
  · intro h
    have hrun := h tag
    rw [hself, hself] at hrun
    cases hrun with
    | cons hagrees _ =>
        cases hagrees with
        | group _ runs => exact runs
  · intro h key
    by_cases hkey : tag = key
    · subst hkey
      rw [hself, hself]
      exact .cons (.group tag h) .nil
    · have hnone (fields : List (Node Unit)) : withTag Node.tag key [.group tag () fields] = [] := by
        rw [withTag, List.filter_singleton, Node.tag, decide_eq_false hkey]
        rfl
      rw [hnone, hnone]
      exact .nil

end Equivalence

/-! ### The tags of a group -/

/-- The bytes are the two tags of a group with a field number, in any spelling. -/
structure Delimits (field : Nat) (front back : Bytes) : Prop where
  field_mem : 1 ≤ field ∧ field ≤ 2 ^ 29 - 1
  front_spells : Varint.Spells front (8 * field + WireType.startGroup.code).toUInt64
  back_spells : Varint.Spells back (8 * field + WireType.endGroup.code).toUInt64

theorem Delimits.encodes {field : Nat} {front back : Bytes} (h : Delimits field front back) :
    ∃ tag, ∀ inside fields, Encodes inside fields →
      Encodes (front ++ inside ++ back) [.group tag () fields] := by
  obtain ⟨opening, hopened, hfield⟩ := Tag.exists_written h.field_mem .startGroup h.front_spells
  obtain ⟨closing, hclosed, hfield'⟩ := Tag.exists_written h.field_mem .endGroup h.back_spells
  refine ⟨opening, fun inside fields hinside => ?_⟩
  rw [← List.append_nil (front ++ inside ++ back)]
  exact .group (.opening hopened) hinside (.closing hclosed) (hfield'.trans hfield.symm) .nil

/-! ### The buffers that a depth admits -/

/-- The depth is enough for the groups of the buffer, and the buffer has a realistic length. -/
structure Admitted (maxDepth : Nat) (input : Bytes) : Prop where
  openGroups_lt : openGroups input < max maxDepth 1
  length_lt : input.length < 2 ^ 48

section Comparing

variable {left right : Bytes} {fields others : List (Node Unit)} {maxDepth : Nat}

/-- Whatever shortcut is taken, the verdict is that on the encoded fields. -/
theorem compareInputs_of_encodes (hleft : Encodes left fields) (hright : Encodes right others)
    (mode : Mode) (hadmits : Admitted maxDepth left) (hadmits' : Admitted maxDepth right) :
    ∃ agree, compareInputs mode { maxDepth } left right = .ok (.ofAgreement agree) ∧
      (agree = true ↔ Equivalent fields others) := by
  by_cases hsame : left = right
  · subst hsame
    refine ⟨true, compareInputs_self mode { maxDepth } left, iff_of_true rfl ?_⟩
    rw [hleft.unique hright, equivalent_iff]
  by_cases hempty : left = [] ∨ right = []
  · refine ⟨false, compareInputs_of_empty mode { maxDepth } hsame hempty, ?_⟩
    exact iff_of_false Bool.false_ne_true fun hequivalent =>
      hleft.length_ne hright hsame hempty hequivalent.length_eq
  obtain ⟨hnonempty, hnonempty'⟩ := not_or.mp hempty
  have hfits := hadmits.openGroups_lt
  have hfits' := hadmits'.openGroups_lt
  rw [openGroups_of_encodes hleft] at hfits
  rw [openGroups_of_encodes hright] at hfits'
  rw [compareInputs_of_ne mode { maxDepth } hsame hnonempty hnonempty']
  rcases Comparison.buildBoth_of_encodes hleft hright mode { maxDepth }
      (Comparison.admits_of_length_lt hadmits.length_lt hadmits'.length_lt) with
    ⟨hdeep, _⟩ | ⟨_, agree, after, hboth, hagree⟩
  · exact absurd hdeep (not_le.mpr (max_lt hfits hfits'))
  · exact ⟨agree, by rw [hboth], hagree⟩

/-- Two comparisons come to the same verdict if the fields are equivalent in both or in neither. -/
theorem compareInputs_congr {front back : Bytes} {found found' : List (Node Unit)}
    (hleft : Encodes left fields) (hright : Encodes right others) (hfront : Encodes front found)
    (hback : Encodes back found') (hsame : Equivalent found found' ↔ Equivalent fields others)
    (mode : Mode) (hadmits : Admitted maxDepth left) (hadmits' : Admitted maxDepth right)
    (hfits : Admitted maxDepth front) (hfits' : Admitted maxDepth back) :
    compareInputs mode { maxDepth } front back = compareInputs mode { maxDepth } left right := by
  obtain ⟨agree, hverdict, hagree⟩ := compareInputs_of_encodes hleft hright mode hadmits hadmits'
  obtain ⟨agree', hverdict', hagree'⟩ := compareInputs_of_encodes hfront hback mode hfits hfits'
  rw [hverdict, hverdict', Bool.eq_iff_iff.mpr (hagree'.trans (hsame.trans hagree.symm))]

end Comparing

/-- **Equality is a congruence that cancels.** Take two well-formed buffers that a depth admits, and
the verdict on them. It stays the same when the same fields are put behind both or in front of both,
and when both become the contents of a group, as long as the depth still admits the buffers. -/
theorem compareInputs_congruence {left right : Bytes} {maxDepth : Nat}
    (hleft : WellFormed.check left = .ok ()) (hright : WellFormed.check right = .ok ())
    (hadmits : Admitted maxDepth left) (hadmits' : Admitted maxDepth right) (mode : Mode) :
    ∃ agree, compareInputs mode { maxDepth } left right = .ok (.ofAgreement agree) ∧
      (∀ fields others, Encodes left fields → Encodes right others →
        (agree = true ↔ Equivalent fields others)) ∧
      (∀ shared, WellFormed.check shared = .ok () →
        Admitted maxDepth (left ++ shared) → Admitted maxDepth (right ++ shared) →
        compareInputs mode { maxDepth } (left ++ shared) (right ++ shared) =
          .ok (.ofAgreement agree)) ∧
      (∀ shared, WellFormed.check shared = .ok () →
        Admitted maxDepth (shared ++ left) → Admitted maxDepth (shared ++ right) →
        compareInputs mode { maxDepth } (shared ++ left) (shared ++ right) =
          .ok (.ofAgreement agree)) ∧
      ∀ field front back, Delimits field front back →
        Admitted maxDepth (front ++ left ++ back) → Admitted maxDepth (front ++ right ++ back) →
        compareInputs mode { maxDepth } (front ++ left ++ back) (front ++ right ++ back) =
          .ok (.ofAgreement agree) := by
  obtain ⟨fields, hfields⟩ := WellFormed.encodes_of_check hleft
  obtain ⟨others, hothers⟩ := WellFormed.encodes_of_check hright
  obtain ⟨agree, hverdict, hagree⟩ := compareInputs_of_encodes hfields hothers mode hadmits hadmits'
  refine ⟨agree, hverdict, ?_⟩
  rw [← hverdict]
  refine ⟨fun found found' h h' => ?_, fun shared hshared hfits hfits' => ?_,
    fun shared hshared hfits hfits' => ?_, fun field front back hdelimits hfits hfits' => ?_⟩
  · rw [h.unique hfields, h'.unique hothers]
    exact hagree
  · obtain ⟨kept, hkept⟩ := WellFormed.encodes_of_check hshared
    exact compareInputs_congr hfields hothers (hfields.append hkept) (hothers.append hkept)
      (equivalent_append_right _ _ _) mode hadmits hadmits' hfits hfits'
  · obtain ⟨kept, hkept⟩ := WellFormed.encodes_of_check hshared
    exact compareInputs_congr hfields hothers (hkept.append hfields) (hkept.append hothers)
      (equivalent_append_left _ _ _) mode hadmits hadmits' hfits hfits'
  · obtain ⟨tag, hencodes⟩ := hdelimits.encodes
    exact compareInputs_congr hfields hothers (hencodes left fields hfields)
      (hencodes right others hothers) (equivalent_group _ _ tag) mode hadmits hadmits' hfits hfits'

set_option maxRecDepth 2000 in
/-- One more field with a tag that is there already, and a group whose tags take two bytes. -/
theorem compareInputs_congruence_wide_tags :
    compareInputs .lenient { maxDepth := 2 } [0x10, 0x02, 0x08, 0x01] [0x08, 0x01, 0x10, 0x02] =
      .ok .equal ∧
    compareInputs .lenient { maxDepth := 2 } ([0x10, 0x02, 0x08, 0x01] ++ [0x08, 0x05])
      ([0x08, 0x01, 0x10, 0x02] ++ [0x08, 0x05]) = .ok .equal ∧
    compareInputs .lenient { maxDepth := 2 } ([0x08, 0x05] ++ [0x10, 0x02, 0x08, 0x01])
      ([0x08, 0x05] ++ [0x08, 0x01, 0x10, 0x02]) = .ok .equal ∧
    compareInputs .lenient { maxDepth := 2 }
      ([0x83, 0x01] ++ [0x10, 0x02, 0x08, 0x01] ++ [0x84, 0x01])
      ([0x83, 0x01] ++ [0x08, 0x01, 0x10, 0x02] ++ [0x84, 0x01]) = .ok .equal := by
  have hleft : WellFormed.check [0x10, 0x02, 0x08, 0x01] = .ok () := by cbv
  have hright : WellFormed.check [0x08, 0x01, 0x10, 0x02] = .ok () := by cbv
  have hshared : WellFormed.check [0x08, 0x05] = .ok () := by cbv
  have hequal : compareInputs .lenient { maxDepth := 2 } [0x10, 0x02, 0x08, 0x01]
      [0x08, 0x01, 0x10, 0x02] = .ok .equal := by cbv
  have hadmits (input : Bytes) (hopen : openGroups input ≤ 1) (hlength : input.length ≤ 8) :
      Admitted 2 input := ⟨Nat.lt_succ_of_le hopen, by omega⟩
  have hfront : Varint.Spells [0x83, 0x01] (8 * 16 + WireType.startGroup.code).toUInt64 :=
    ⟨.more (by decide) (.last (by decide)), by decide, by decide⟩
  have hback : Varint.Spells [0x84, 0x01] (8 * 16 + WireType.endGroup.code).toUInt64 :=
    ⟨.more (by decide) (.last (by decide)), by decide, by decide⟩
  obtain ⟨agree, hverdict, _, hbehind, hinfront, haround⟩ :=
    compareInputs_congruence hleft hright (hadmits _ (by cbv) (by decide))
      (hadmits _ (by cbv) (by decide)) .lenient
  rw [← hverdict, hequal] at hbehind hinfront haround
  exact ⟨hequal,
    hbehind _ hshared (hadmits _ (by cbv) (by decide)) (hadmits _ (by cbv) (by decide)),
    hinfront _ hshared (hadmits _ (by cbv) (by decide)) (hadmits _ (by cbv) (by decide)),
    haround 16 _ _ ⟨by decide, hfront, hback⟩ (hadmits _ (by cbv) (by decide))
      (hadmits _ (by cbv) (by decide))⟩

end UnknownFields
