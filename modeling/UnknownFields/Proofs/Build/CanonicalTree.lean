import UnknownFields.Proofs.Build.Isolation
import UnknownFields.Proofs.Build.Numbering
import UnknownFields.Proofs.Build.Ownership

/-!
The trees in an arena. Whatever has been built, every field has a payload that its tag announces, and
every group is younger than its holder and has no other. The sets of a build that succeeds are one
tree, sorted at every level, with the ids in the order in which the levels were entered.
-/

namespace UnknownFields

/-- The sets are trees: all of them can be read, every payload is what its tag says, and a group is a
younger set that no other field holds. -/
structure Arena.Forest (arena : Arena) : Prop where
  reads : ∀ id < arena.setCount, ∃ fields, arena.fields id = .ok fields
  typed : ∀ {id : Nat} {fields : List Field}, arena.fields id = .ok fields → ∀ field ∈ fields,
    field.tag.wireCode = field.payload.wireType.code ∧
      field.tag.wireCode ≠ 4 ∧ field.tag.wireCode ≠ 6 ∧ field.tag.wireCode ≠ 7
  younger : ∀ {id : Nat} {fields : List Field}, arena.fields id = .ok fields →
    ∀ {tag : Tag} {member : Nat}, ⟨tag, .group member⟩ ∈ fields → id < member ∧ member < arena.setCount
  unique : ∀ {id other : Nat} {fields others : List Field}, arena.fields id = .ok fields →
    arena.fields other = .ok others → ∀ {index index' member : Nat} {tag tag' : Tag},
    fields[index]? = some ⟨tag, .group member⟩ → others[index']? = some ⟨tag', .group member⟩ →
      id = other ∧ index = index'

namespace Workspace

variable {limits : Limits} {before after : Workspace} {roots : List Nat} {root id : Nat}

theorem Arranged.forest (h : before.Arranged roots) : before.arena.Forest where
  reads id hid := by
    obtain ⟨window, hwindow⟩ := Arena.window_of_lt hid
    exact ⟨_, Arena.fields_eq hwindow (h.sound.arena.fits hwindow).stop_le⟩
  typed hfields field hfield := (h.typed.typed hfields field hfield).wireCode_eq
  younger := h.sound.closed.younger
  unique := h.owned.unique

/-- Where one can follow to from a set is younger. -/
theorem Sound.lt_of_within (h : after.Sound) (hroot : root < after.arena.setCount)
    (hwithin : after.arena.Within root id) : root ≤ id ∧ id < after.arena.setCount := by
  induction hwithin with
  | self => exact ⟨Nat.le_refl _, hroot⟩
  | member _ fields_eq mem ih =>
      have hyounger := h.closed.younger fields_eq mem
      omega

/-- A set that is new and not a root is held by a new set, so one can follow to it from the first. -/
theorem Arranged.within_of_new (h : before.Arranged roots)
    (h' : after.Arranged (before.arena.setCount :: roots))
    (hextends : after.arena.Extends before.arena) (hnew : before.arena.setCount ≤ id)
    (hid : id < after.arena.setCount) : after.arena.Within before.arena.setCount id := by
  induction id using Nat.strong_induction_on with
  | _ id ih =>
      rcases Nat.eq_or_lt_of_le hnew with rfl | hlt
      · exact .self
      have hroot : id ∉ before.arena.setCount :: roots := by
        intro hmem
        rcases List.mem_cons.mp hmem with rfl | hmem
        · exact absurd hlt (Nat.lt_irrefl _)
        · exact absurd (h.owned.lt_of_mem hmem) (not_lt.mpr hnew)
      obtain ⟨holder, tag, fields, hfields, hmem⟩ := h'.owned.exists_holder hid hroot
      have hyounger := h'.sound.closed.younger hfields hmem
      by_cases hholder : holder < before.arena.setCount
      · rw [hextends.fields_eq holder hholder] at hfields
        have hold := h.sound.closed.younger hfields hmem
        omega
      · exact (ih holder hyounger.1 (not_lt.mp hholder) (by omega)).member hfields hmem

/-- The sets that a build has made are those to which one can follow from the one that it returns. -/
theorem Arranged.within_iff_new (h : before.Arranged roots)
    (h' : after.Arranged (before.arena.setCount :: roots))
    (hextends : after.arena.Extends before.arena) :
    after.arena.Within before.arena.setCount id ↔
      before.arena.setCount ≤ id ∧ id < after.arena.setCount := by
  constructor
  · exact h'.sound.lt_of_within (h'.owned.lt_of_mem List.mem_cons_self)
  · rintro ⟨hnew, hid⟩
    exact h.within_of_new h' hextends hnew hid

/-- Labels without a gap that are the new sets besides the first are all of these, in order. -/
theorem cons_labels_eq_range' {count first last : Nat} {labels : List Nat}
    (hlabels : labels = List.range' (first + 1) count) (hfirst : first < last)
    (hmem : ∀ id, id = first ∨ id ∈ labels ↔ first ≤ id ∧ id < last) :
    first :: labels = List.range' first (last - first) := by
  simp only [hlabels, List.mem_range'_1] at hmem
  have hlast := hmem (first + count)
  have hbehind := hmem (first + 1 + count)
  have hcount : last - first = count + 1 := by omega
  rw [hcount, List.range'_succ, hlabels]

/-- The tree of a build is still there as long as nothing is released. -/
theorem Sound.build_tree (h : before.Sound) {mode : Mode} {input : Bytes} {built : Built}
    (hbuild : build mode input before = .ok built after) {later : Workspace}
    (hleads : after.Leads [] later) :
    built.root = before.arena.setCount ∧ ∃ fields,
      TokenStream.contents mode input (built.root + 1) = .ok (fields, built.position) ∧
      after.arena.nodes built.root = .ok (canonicalFields fields) ∧
      later.arena.nodes built.root = .ok (canonicalFields fields) := by
  obtain ⟨_, fields, hcontents, hfinished⟩ := h.build_done hbuild
  have hroot : built.root = before.arena.setCount := hfinished.root_eq
  have hextends := hleads.extends hfinished.pays.sound
  refine ⟨hroot, fields, ?_, hfinished.nodes_eq, hextends.nodes_eq hfinished.nodes_eq⟩
  rw [hroot]
  exact hcontents

/-- **Builds make canonical trees.** Whatever a workspace has been used for, its sets are a forest.
When a build succeeds, the sets to which one can follow from the one that it returns are all the sets
that it has made. They are sorted, and they stay so as long as nothing is released. The top level has
the first of the new ids, and the groups have the others in the order in which they were opened. -/
theorem Reachable.build_canonical (h : before.Reachable limits) :
    before.arena.Forest ∧
    ∀ mode input built after later, build mode input before = .ok built after →
      after.Leads [] later →
      (∀ id, later.arena.Within built.root id ↔
        before.arena.setCount ≤ id ∧ id < after.arena.setCount) ∧
      (∀ id fields, later.arena.Within built.root id → later.arena.fields id = .ok fields →
        Sorted Field.tag fields) ∧
      ∃ fields, TokenStream.contents mode input (built.root + 1) = .ok (fields, built.position) ∧
        later.arena.nodes built.root = .ok (canonicalFields fields) ∧
        built.root :: labels fields = List.range' before.arena.setCount
          (after.arena.setCount - before.arena.setCount) := by
  obtain ⟨roots, harranged⟩ := h.arranged
  refine ⟨harranged.forest, fun mode input built after later hbuild hleads => ?_⟩
  obtain ⟨hroot, fields, hcontents, hnodes, hlater⟩ := h.sound.build_tree hbuild hleads
  have hextends := (h.sound.build_keeps mode input).1
  have harranged' := Build.build_arranged mode input harranged
  rw [hbuild] at hextends harranged'
  rw [hroot] at hcontents hnodes hlater ⊢
  have harranged' : after.Arranged (before.arena.setCount :: roots) := hroot ▸ harranged'
  have hmem : ∀ id, id = before.arena.setCount ∨ id ∈ labels fields ↔
      before.arena.setCount ≤ id ∧ id < after.arena.setCount := by
    intro id
    rw [← harranged.within_iff_new harranged' hextends, Arena.within_iff hnodes,
      (labels_canonicalFields fields).mem_iff]
  refine ⟨fun id => ?_, fun id found hwithin => hwithin.sorted hlater, fields, hcontents, hlater, ?_⟩
  · rw [← hmem, Arena.within_iff hlater, (labels_canonicalFields fields).mem_iff]
  · obtain ⟨count, hlabels⟩ := TokenStream.labels_contents hcontents
    exact cons_labels_eq_range' hlabels (harranged'.owned.lt_of_mem List.mem_cons_self) hmem

set_option maxRecDepth 2000 in
/-- Two groups that come in the wrong order, behind the two sets of a build that nests too deep. They
are sorted, but numbered as they came. -/
theorem build_canonical_behind_failure :
    ∃ before built after, before.Reachable { maxDepth := 2 } ∧ before.arena.setCount = 2 ∧
      build .lenient [0x13, 0x08, 0x01, 0x14, 0x0b, 0x0c] before = .ok built after ∧
      after.arena.Forest ∧
      after.arena.fields 2 = .ok [⟨⟨0x0b⟩, .group 4⟩, ⟨⟨0x13⟩, .group 3⟩] ∧
      (∀ id, after.arena.Within built.root id ↔ 2 ≤ id ∧ id < 5) ∧
      ∃ fields, TokenStream.contents .lenient [0x13, 0x08, 0x01, 0x14, 0x0b, 0x0c] 3 =
          .ok (fields, 6) ∧ 2 :: labels fields = [2, 3, 4] := by
  have hfails : build .lenient [0x0b, 0x0b] (ofLimits { maxDepth := 2 }) =
      .error (.limit .maxDepthExceeded)
        ⟨⟨#[], #[⟨0, 0, 0⟩, ⟨0, 0, 0⟩], 48⟩, {}, ⟨none, 48⟩, 2⟩ := by cbv
  have hbuild : build .lenient [0x13, 0x08, 0x01, 0x14, 0x0b, 0x0c]
        ⟨⟨#[], #[⟨0, 0, 0⟩, ⟨0, 0, 0⟩], 48⟩, {}, ⟨none, 48⟩, 2⟩ = .ok ⟨2, 6⟩
      ⟨⟨#[.varint 8 1, .vacant, .vacant, .vacant, ⟨⟨0x0b⟩, .group 4⟩, ⟨⟨0x13⟩, .group 3⟩, .vacant,
          .vacant], #[⟨0, 0, 0⟩, ⟨0, 0, 0⟩, ⟨4, 2, 4⟩, ⟨0, 1, 4⟩, ⟨8, 0, 0⟩], 376⟩,
        ⟨8, [⟨⟨0x13⟩, .group 3⟩, ⟨⟨0x0b⟩, .group 4⟩]⟩, ⟨none, 632⟩, 2⟩ := by cbv
  have hreachable := Reachable.fresh.stopped hfails
  obtain ⟨_, htree⟩ := hreachable.build_canonical
  obtain ⟨hwithin, _, fields, hcontents, _, hlabels⟩ := htree _ _ _ _ _ hbuild .stay
  exact ⟨_, _, _, hreachable, rfl, hbuild, (hreachable.built hbuild).build_canonical.1, rfl, hwithin,
    fields, hcontents, hlabels⟩

end Workspace

end UnknownFields
