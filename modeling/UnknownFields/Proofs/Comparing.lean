import UnknownFields.Comparison
import UnknownFields.Proofs.Build.Parsing

/-!
What a comparison says about two well-formed buffers. Both are built in one workspace, the second
one behind the sets of the first; the first one keeps its sets, and the depth is the same for
both. So the verdict depends on the encoded fields only: on their nesting, and on whether they are
equivalent.
-/

namespace UnknownFields

open Workspace

namespace Comparison

variable {left right : Bytes} {fields others : List (Node Unit)}

/-- Two builds in one workspace either nest too deep or agree as the encoded fields do, unless the
ceiling does not admit both. -/
theorem buildBoth_of_encodes (hleft : Encodes left fields) (hright : Encodes right others)
    (mode : Mode) (limits : Limits)
    (hroom : ({ limit := limits.arenaBytes } : Budget).Admits
      (48 + 280 * (left.length + right.length))) :
    (max limits.maxDepth 1 ≤ max (nesting fields) (nesting others) ∧ ∃ after,
      buildBoth mode left right (.ofLimits limits) = .error (.limit .maxDepthExceeded) after) ∨
    (max (nesting fields) (nesting others) < max limits.maxDepth 1 ∧ ∃ agree after,
      buildBoth mode left right (.ofLimits limits) = .ok agree after ∧
        (agree = true ↔ Equivalent fields others)) := by
  have hcover : cover (ofLimits limits).arena (ofLimits limits).buffer = 0 := rfl
  have hlimit : (ofLimits limits).depth = limits.maxDepth := rfl
  rcases (sound_ofLimits limits).build_of_encodes hleft mode with
    ⟨hfits, first, middle, read, hfirst, hread, hfinished⟩ | ⟨hdeep, after, hfirst⟩ | ⟨hfull, _⟩
  · have hdepth : middle.depth = limits.maxDepth := hfinished.depth_eq
    have hbound := hfinished.cover_le
    rw [hlimit] at hfits
    rw [hcover] at hbound
    rcases hfinished.pays.sound.build_of_encodes hright mode with
      ⟨hfits', second, after, read', hsecond, hread', hfinished'⟩ | ⟨hdeep, after, hsecond⟩ |
      ⟨hfull, _⟩
    · have hnodes := hfinished'.extends_base.nodes_eq hfinished.nodes_eq
      obtain ⟨agree, hagree, hiff⟩ := Arena.setsAgree_eq hnodes hfinished'.nodes_eq
      rw [hdepth] at hfits'
      refine Or.inr ⟨max_lt hfits hfits', agree, after, ?_, ?_⟩
      · simp only [buildBoth, bind, EStateM.bind, hfirst, hsecond, hagree]
      · rw [hiff, ← canonicalFields_erase, ← canonicalFields_erase, hread, hread', equivalent_iff]
    · rw [hdepth] at hdeep
      refine Or.inl ⟨hdeep.trans (Nat.le_max_right _ _), after, ?_⟩
      simp only [buildBoth, bind, EStateM.bind, hfirst, hsecond]
    · have hfull' := hfinished.pays.outOfRoom hfull
      exact absurd (hfull'.mono (by omega)) (not_outOfRoom_ofLimits hroom)
  · refine Or.inl ⟨hdeep.trans (Nat.le_max_left _ _), after, ?_⟩
    simp only [buildBoth, bind, EStateM.bind, hfirst]
  · rw [hcover] at hfull
    exact absurd (hfull.mono (by omega)) (not_outOfRoom_ofLimits hroom)

/-- Without a ceiling there is room for any two buffers of a realistic length. -/
theorem admits_of_length_lt (hleft : left.length < 2 ^ 48) (hright : right.length < 2 ^ 48) :
    ({} : Budget).Admits (48 + 280 * (left.length + right.length)) := by
  refine ⟨?_, fun limit hlimit => nomatch hlimit⟩
  show 48 + 280 * (left.length + right.length) < 2 ^ 64
  omega

end Comparison

section FastPaths

variable {left right : Bytes} (mode : Mode) (limits : Limits)

theorem compareInputs_self (input : Bytes) : compareInputs mode limits input input = .ok .equal := by
  unfold compareInputs
  by_cases hempty : input = []
  · rw [if_pos ⟨hempty, hempty⟩]
  · have hsame : Comparison.bytesEqual input input = true := beq_self_eq_true input
    rw [if_neg (fun h => hempty h.1), if_neg (fun h => hempty (h.elim id id)), if_pos hsame]

theorem compareInputs_of_empty (hne : left ≠ right) (hempty : left = [] ∨ right = []) :
    compareInputs mode limits left right = .ok .notEqual := by
  unfold compareInputs
  rw [if_neg, if_pos hempty]
  rintro ⟨rfl, rfl⟩
  exact hne rfl

theorem compareInputs_of_ne (hne : left ≠ right) (hleft : left ≠ []) (hright : right ≠ []) :
    compareInputs mode limits left right =
      match Comparison.buildBoth mode left right (.ofLimits limits) with
      | .ok agree _ => .ok (.ofAgreement agree)
      | .error (.limit error) _ => .ok (.limit error)
      | .error (.fault fault) _ => .error fault := by
  have hbytes : ¬Comparison.bytesEqual left right = true := by
    rw [Comparison.bytesEqual, beq_iff_eq]
    exact hne
  unfold compareInputs
  apply (if_neg fun h => hleft h.1).trans
  apply (if_neg fun h => h.elim hleft hright).trans
  exact if_neg hbytes

end FastPaths

/-- **What a comparison says.** Two buffers that the check accepts encode one list of fields each.
Without a ceiling the same bytes are equal, and an empty buffer is equal to no other. Of all other
buffers, those are too deep that nest as deep as the limit, and the rest are equal if and only if
their fields are equivalent. -/
theorem compareInputs_of_check {left right : Bytes} (hleft : WellFormed.check left = .ok ())
    (hright : WellFormed.check right = .ok ()) (hlength : left.length < 2 ^ 48)
    (hlength' : right.length < 2 ^ 48) (mode : Mode) (maxDepth : Nat) :
    ∃ fields others, (∀ found, Encodes left found ↔ found = fields) ∧
      (∀ found, Encodes right found ↔ found = others) ∧
      (left = right → compareInputs mode { maxDepth } left right = .ok .equal) ∧
      (left ≠ right → left = [] ∨ right = [] →
        compareInputs mode { maxDepth } left right = .ok .notEqual) ∧
      (left ≠ right → left ≠ [] → right ≠ [] →
        max maxDepth 1 ≤ nesting fields ∨ max maxDepth 1 ≤ nesting others →
        compareInputs mode { maxDepth } left right = .ok (.limit .maxDepthExceeded)) ∧
      (left ≠ right → left ≠ [] → right ≠ [] →
        nesting fields < max maxDepth 1 → nesting others < max maxDepth 1 →
        (Equivalent fields others → compareInputs mode { maxDepth } left right = .ok .equal) ∧
        (¬Equivalent fields others →
          compareInputs mode { maxDepth } left right = .ok .notEqual)) := by
  obtain ⟨fields, hfields⟩ := WellFormed.encodes_of_check hleft
  obtain ⟨others, hothers⟩ := WellFormed.encodes_of_check hright
  have hboth := Comparison.buildBoth_of_encodes hfields hothers mode { maxDepth }
    (Comparison.admits_of_length_lt hlength hlength')
  refine ⟨fields, others, fun found => ⟨fun h => h.unique hfields, fun h => h ▸ hfields⟩,
    fun found => ⟨fun h => h.unique hothers, fun h => h ▸ hothers⟩, ?_, ?_, ?_, ?_⟩
  · rintro rfl
    exact compareInputs_self mode { maxDepth } left
  · exact compareInputs_of_empty mode { maxDepth }
  · intro hne hnonempty hnonempty' hdeep
    rw [compareInputs_of_ne mode { maxDepth } hne hnonempty hnonempty']
    rcases hboth with ⟨_, after, hbuild⟩ | ⟨hfits, _⟩
    · rw [hbuild]
    · dsimp only at hfits
      omega
  · intro hne hnonempty hnonempty' hfits hfits'
    rw [compareInputs_of_ne mode { maxDepth } hne hnonempty hnonempty']
    rcases hboth with ⟨hdeep, _⟩ | ⟨_, agree, after, hbuild, hagree⟩
    · dsimp only at hdeep
      omega
    · rw [hbuild]
      constructor
      · intro hequivalent
        rw [hagree.mpr hequivalent]
        rfl
      · intro hdifferent
        rw [Bool.eq_false_iff.mpr fun h => hdifferent (hagree.mp h)]
        rfl

theorem compareInputs_swapped :
    WellFormed.check [0x10, 0x02, 0x08, 0x01] = .ok () ∧
    WellFormed.check [0x08, 0x01, 0x10, 0x02] = .ok () ∧
    compareInputs .strict { maxDepth := 0 } [0x10, 0x02, 0x08, 0x01] [0x08, 0x01, 0x10, 0x02] =
      .ok .equal := by
  have hleft : WellFormed.check [0x10, 0x02, 0x08, 0x01] = .ok () := by cbv
  have hright : WellFormed.check [0x08, 0x01, 0x10, 0x02] = .ok () := by cbv
  have hfirst : Encodes [0x10, 0x02, 0x08, 0x01] [.leaf ⟨16⟩ (.varint 2), .leaf ⟨8⟩ (.varint 1)] :=
    .leaf (Token.written_pair (by decide) (by decide) rfl (by decide))
      (.leaf (Token.written_pair (by decide) (by decide) rfl (by decide)) .nil)
  have hsecond : Encodes [0x08, 0x01, 0x10, 0x02] [.leaf ⟨8⟩ (.varint 1), .leaf ⟨16⟩ (.varint 2)] :=
    .leaf (Token.written_pair (by decide) (by decide) rfl (by decide))
      (.leaf (Token.written_pair (by decide) (by decide) rfl (by decide)) .nil)
  have hsame : Equivalent [.leaf ⟨16⟩ (.varint 2), .leaf ⟨8⟩ (.varint 1)]
      [.leaf ⟨8⟩ (.varint 1), .leaf ⟨16⟩ (.varint 2)] := by
    rw [equivalent_iff]
    simp [canonicalFields, Node.canonical, sortByTag, List.mergeSort, List.cons_merge_cons, inOrder,
      Node.tag]
    rfl
  obtain ⟨fields, others, hfields, hothers, _, _, _, hequal⟩ :=
    compareInputs_of_check hleft hright (by decide) (by decide) .strict 0
  rw [← (hfields _).mp hfirst, ← (hothers _).mp hsecond] at hequal
  exact ⟨hleft, hright, (hequal (by decide) (by decide) (by decide) (by simp) (by simp)).1 hsame⟩

end UnknownFields
