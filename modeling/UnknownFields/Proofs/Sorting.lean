import UnknownFields.Proofs.Arena.Refinement
import UnknownFields.Proofs.Room
import UnknownFields.Workspace

/-!
Sorting through a merge buffer that other sorts have used and other builds have given up before. A
sort either does all of its work or nothing: it sorts stably and pays for exactly the room that the
buffer gains, or it is refused and list, buffer and budget are as before. The buffer is followed
through the recursion of the sort, and at no point does it hold more fields than it has room for.
-/

namespace UnknownFields

/-- One list is another one in the order of its tags, fields with one tag in their order before. -/
structure StablySorted {α : Type} (key : α → Tag) (items sorted : List α) : Prop where
  perm : sorted.Perm items
  ascending : Sorted key sorted
  withTag_eq : ∀ tag, withTag key tag sorted = withTag key tag items

theorem stablySorted_sortByTag {α : Type} (key : α → Tag) (items : List α) :
    StablySorted key items (sortByTag key items) where
  perm := sortByTag_perm key items
  ascending := sortByTag_sorted key items
  withTag_eq tag := withTag_sortByTag key tag items

namespace MergeBuffer

/-- A merge buffer behind any sorts, granted or refused, and any releases, each under any budget. -/
inductive Reachable : MergeBuffer → Prop where
  | fresh : Reachable {}
  | granted {before after : MergeBuffer} {budget paid : Budget} {fields sorted : List Field}
      (reachable : Reachable before)
      (step : sort fields ⟨before, budget⟩ = .ok sorted ⟨after, paid⟩) : Reachable after
  | refused {before after : MergeBuffer} {budget paid : Budget} {fields : List Field}
      {failure : Failure} (reachable : Reachable before)
      (step : sort fields ⟨before, budget⟩ = .error failure ⟨after, paid⟩) : Reachable after
  | released {before after : MergeBuffer} {budget paid : Budget} (reachable : Reachable before)
      (step : release ⟨before, budget⟩ = .ok () ⟨after, paid⟩) : Reachable after

/-- The states of the buffer while a run is sorted, at all levels of the recursion. -/
inductive Passes : MergeBuffer → List Field → MergeBuffer → Prop where
  | start {buffer : MergeBuffer} {run : List Field} : Passes buffer run buffer
  | left {buffer passed : MergeBuffer} {run : List Field} (long : ¬run.length ≤ 1)
      (passes : Passes buffer (run.take (run.length / 2)) passed) : Passes buffer run passed
  | right {buffer middle passed : MergeBuffer} {run left : List Field} (long : ¬run.length ≤ 1)
      (sorted : mergeSort buffer (run.take (run.length / 2)) = .ok (left, middle))
      (passes : Passes middle (run.drop (run.length / 2)) passed) : Passes buffer run passed
  | merged {buffer passed : MergeBuffer} {run sorted : List Field}
      (merged : mergeSort buffer run = .ok (sorted, passed)) : Passes buffer run passed

variable {buffer after : MergeBuffer} {budget paid : Budget} {fields sorted : List Field}

/-! ### The room of a sort -/

/-- A sort reserves its room once. From there on the buffer keeps it and never holds more. -/
theorem Passes.room_eq_and_held_le {run : List Field} (h : buffer.Passes run after)
    (hrun : run.length ≤ buffer.room) (hheld : buffer.held.length ≤ buffer.room) :
    after.room = buffer.room ∧ after.held.length ≤ buffer.room := by
  induction h with
  | start => exact ⟨rfl, hheld⟩
  | left _ _ ih =>
      exact ih ((List.length_take_le' _ _).trans hrun) hheld
  | @right buffer middle passed run left _ hsorted _ ih =>
      have htake : (run.take (run.length / 2)).length ≤ buffer.room :=
        (List.length_take_le' _ _).trans hrun
      have hdrop : (run.drop (run.length / 2)).length ≤ buffer.room := by
        rw [List.length_drop]
        omega
      obtain ⟨kept, hfirst, hkept⟩ := mergeSort_eq htake hheld
      cases hsorted.symm.trans hfirst
      exact ih hdrop hkept
  | merged hmerged =>
      obtain ⟨kept, hsort, hkept⟩ := mergeSort_eq hrun hheld
      cases hmerged.symm.trans hsort
      exact ⟨rfl, hkept⟩

theorem room_of_reserve {count : Nat} (h : reserve count ⟨buffer, budget⟩ = .ok () ⟨after, paid⟩) :
    after.room = grownRoom count buffer.room ∧
      (buffer.held.length ≤ buffer.room → after.held.length ≤ after.room) := by
  simp only [reserve] at h
  split_ifs at h with hroom
  · cases h
    exact ⟨(if_pos hroom).symm, id⟩
  · split at h
    · cases h
    · cases h
      exact ⟨rfl, fun _ => Nat.zero_le _⟩

theorem grownRoom_of_le {count room : Nat} (h : count ≤ room) : grownRoom count room = room :=
  if_pos h

/-- A sort is granted and pays for the room that the buffer gains, or it is refused, because it
lacks room that the budget does not admit. -/
theorem sort_cases (hheld : buffer.held.length ≤ buffer.room) (budget : Budget)
    (fields : List Field) :
    (∃ left : List Field, left.length ≤ grownRoom fields.length buffer.room ∧
      sort fields ⟨buffer, budget⟩ = .ok (sortByTag Field.tag fields)
        ⟨⟨grownRoom fields.length buffer.room, left⟩, { budget with used := budget.used +
          Arena.slotBytes * (grownRoom fields.length buffer.room - buffer.room) }⟩ ∧
      (buffer.room < grownRoom fields.length buffer.room → budget.Admits (budget.used +
        Arena.slotBytes * (grownRoom fields.length buffer.room - buffer.room)))) ∨
    (sort fields ⟨buffer, budget⟩ = .error (.limit .outOfMemory) ⟨buffer, budget⟩ ∧
      buffer.room < fields.length ∧ ¬budget.Admits (budget.used +
        Arena.slotBytes * (grownRoom fields.length buffer.room - buffer.room))) := by
  by_cases hroom : fields.length ≤ buffer.room
  · obtain ⟨left, hleft, hsort⟩ := sort_of_room hheld budget hroom
    rw [grownRoom_of_le hroom, Nat.sub_self, Nat.mul_zero]
    exact Or.inl ⟨left, hleft, hsort, fun hgrows => absurd hgrows (Nat.lt_irrefl _)⟩
  · obtain ⟨left, hleft, hsort⟩ := sort_of_short budget hroom
    rw [hsort, Metered.pay]
    by_cases hadmits : budget.Admits (budget.used +
        Arena.slotBytes * (grownRoom fields.length buffer.room - buffer.room))
    · rw [Budget.charge?_of_admits hadmits]
      exact Or.inl ⟨left, hleft, rfl, fun _ => hadmits⟩
    · rw [Budget.charge?_of_not_admits hadmits]
      exact Or.inr ⟨rfl, not_le.mp hroom, hadmits⟩

theorem Reachable.sound (h : buffer.Reachable) : buffer.Sound := by
  induction h with
  | fresh => exact sound_empty
  | @granted before after budget paid fields sorted _ step ih =>
      rcases sort_cases ih.held_le budget fields with ⟨left, hleft, hsort, _⟩ | ⟨hsort, _⟩
      · cases step.symm.trans hsort
        exact ⟨hleft, ih.rounded.grownRoom _⟩
      · cases step.symm.trans hsort
  | @refused before after budget paid fields failure _ step ih =>
      rcases sort_cases ih.held_le budget fields with ⟨left, _, hsort, _⟩ | ⟨hsort, _⟩
      · cases step.symm.trans hsort
      · cases step.symm.trans hsort
        exact ih
  | released _ step _ =>
      cases step
      exact sound_empty

/-! ### In place -/

/-- A sort that is granted exchanges the list of a set for the sorted one, and no other list. -/
theorem sortSet_of_sort {arena : Arena} {lists : List (List Field)} {id : Nat} (depth : Nat)
    (htracks : arena.Tracks lists) (hlist : lists[id]? = some fields)
    (hlength : sorted.length = fields.length)
    (hsort : sort fields ⟨buffer, budget⟩ = .ok sorted ⟨after, paid⟩) :
    ∃ later : Arena, Workspace.sortSet id ⟨arena, buffer, budget, depth⟩ =
        .ok () ⟨later, after, paid, depth⟩ ∧
      later.Represents (lists.set id sorted) := by
  obtain ⟨hsound, hlists⟩ := htracks.sound_and_represents
  have hfields := hlists.fields_eq hlist
  obtain ⟨window, hwindow⟩ := Arena.window_of_lt (hlists.lt_of_getElem? hlist)
  rw [hsound.length_fields hwindow hfields] at hlength
  refine ⟨_, ?_, hlists.changes (hsound.changes_replaced hwindow hlength)⟩
  simp only [Workspace.sortSet, Workspace.onBuffer, hfields, hsort,
    hsound.replaceSet_eq hwindow hlength]

theorem sortSet_of_refused {arena : Arena} {lists : List (List Field)} {id : Nat}
    {failure : Failure} (depth : Nat) (htracks : arena.Tracks lists)
    (hlist : lists[id]? = some fields)
    (hsort : sort fields ⟨buffer, budget⟩ = .error failure ⟨after, paid⟩) :
    Workspace.sortSet id ⟨arena, buffer, budget, depth⟩ =
      .error failure ⟨arena, after, paid, depth⟩ := by
  have hfields := htracks.sound_and_represents.2.fields_eq hlist
  simp only [Workspace.sortSet, Workspace.onBuffer, hfields, hsort]

/-! ### Whole sorts -/

/-- What a sort that is granted does to its fields, to the buffer and to the budget. -/
structure Grants (fields : List Field) (before : Metered MergeBuffer) (sorted : List Field)
    (after : Metered MergeBuffer) : Prop where
  stable : StablySorted Field.tag fields sorted
  room_of_nil : fields = [] → after.held.room = before.held.room
  room_of_ne_nil : fields ≠ [] → ∃ least, IsLeast (fitting fields.length) least ∧
    after.held.room = max before.held.room least
  budget_eq : after.budget = { before.budget with
    used := before.budget.used + Arena.slotBytes * (after.held.room - before.held.room) }
  admits : before.held.room < after.held.room → after.budget.Admits after.budget.used
  /-- At no point does the buffer hold more fields than it has room for in the end. -/
  held_le : ∀ {reserved passed : MergeBuffer} {paid : Budget},
    reserve fields.length before = .ok () ⟨reserved, paid⟩ → reserved.Passes fields passed →
    passed.room = after.held.room ∧ passed.held.length ≤ after.held.room

theorem grants_of_sound (h : buffer.Sound) (left : List Field)
    (hadmits : buffer.room < grownRoom fields.length buffer.room → budget.Admits (budget.used +
      Arena.slotBytes * (grownRoom fields.length buffer.room - buffer.room))) :
    Grants fields ⟨buffer, budget⟩ (sortByTag Field.tag fields)
      ⟨⟨grownRoom fields.length buffer.room, left⟩, { budget with used := budget.used +
        Arena.slotBytes * (grownRoom fields.length buffer.room - buffer.room) }⟩ where
  stable := stablySorted_sortByTag Field.tag fields
  room_of_nil hnil := by
    subst hnil
    exact grownRoom_of_le (Nat.zero_le _)
  room_of_ne_nil hfields := exists_isLeast_grownRoom h.rounded (List.length_pos_iff.mpr hfields)
  budget_eq := rfl
  admits := hadmits
  held_le := by
    intro reserved passed paid hreserve hpasses
    obtain ⟨hroom, hheld⟩ := room_of_reserve hreserve
    have hrun : fields.length ≤ reserved.room := hroom ▸ le_grownRoom _ _
    rw [← hroom]
    exact hpasses.room_eq_and_held_le hrun (hheld h.held_le)

/-- **Sorting is stable, and it is all or nothing.** Whatever sorts and releases a buffer has behind
it, and under whatever budget: either the fields are sorted stably, the buffer grows to the least
power of two that suffices, unless it is larger already, what it gains is paid for at 32 bytes for a
field, and it never holds more fields than it has room for; or the buffer lacks room that the budget
does not admit, and fields, buffer and budget are as before. A set of an arena is sorted in place:
its list is exchanged for the sorted one and all others stay, or nothing changes. -/
theorem Reachable.sort_stable_or_unchanged (h : buffer.Reachable) (budget : Budget)
    (fields : List Field) :
    (∃ sorted after paid, sort fields ⟨buffer, budget⟩ = .ok sorted ⟨after, paid⟩ ∧
      Grants fields ⟨buffer, budget⟩ sorted ⟨after, paid⟩ ∧
      ∀ (arena : Arena) (lists : List (List Field)) (id depth : Nat), arena.Tracks lists →
        lists[id]? = some fields → ∃ later : Arena,
          Workspace.sortSet id ⟨arena, buffer, budget, depth⟩ =
            .ok () ⟨later, after, paid, depth⟩ ∧
          later.Represents (lists.set id sorted)) ∨
    (sort fields ⟨buffer, budget⟩ = .error (.limit .outOfMemory) ⟨buffer, budget⟩ ∧
      (∃ least, IsLeast (fitting fields.length) least ∧ buffer.room < least ∧
        ¬budget.Admits (budget.used + Arena.slotBytes * (least - buffer.room))) ∧
      ∀ (arena : Arena) (lists : List (List Field)) (id depth : Nat), arena.Tracks lists →
        lists[id]? = some fields →
          Workspace.sortSet id ⟨arena, buffer, budget, depth⟩ =
            .error (.limit .outOfMemory) ⟨arena, buffer, budget, depth⟩) := by
  have hsound := h.sound
  rcases sort_cases hsound.held_le budget fields with
    ⟨left, _, hsort, hadmits⟩ | ⟨hsort, hshort, hadmits⟩
  · refine Or.inl ⟨_, _, _, hsort, grants_of_sound hsound left hadmits, ?_⟩
    intro arena lists id depth htracks hlist
    exact sortSet_of_sort depth htracks hlist (sortByTag_perm _ _).length_eq hsort
  · refine Or.inr ⟨hsort, ?_, fun arena lists id depth htracks hlist =>
      sortSet_of_refused depth htracks hlist hsort⟩
    have hcount : 0 < fields.length := by omega
    obtain ⟨least, hleast, hgrown⟩ := exists_isLeast_grownRoom hsound.rounded hcount
    have hless : buffer.room < least := Nat.lt_of_lt_of_le hshort hleast.1.2
    rw [hgrown, Nat.max_eq_right hless.le] at hadmits
    exact ⟨least, hleast, hless, hadmits⟩

/-- A buffer that has sorted two fields gets nine: 512 bytes pay for the larger buffer, 511 do not. -/
theorem sort_nine_behind_two :
    ∃ (buffer : MergeBuffer) (fields : List Field), buffer.room = 8 ∧ buffer.Reachable ∧
      fields.map Field.tag = [⟨24⟩, ⟨8⟩, ⟨16⟩, ⟨8⟩, ⟨24⟩, ⟨8⟩, ⟨8⟩, ⟨16⟩, ⟨8⟩] ∧
      (∃ sorted after paid, sort fields ⟨buffer, ⟨some 512, 256⟩⟩ = .ok sorted ⟨after, paid⟩ ∧
        after.room = 16 ∧ Grants fields ⟨buffer, ⟨some 512, 256⟩⟩ sorted ⟨after, paid⟩) ∧
      sort fields ⟨buffer, ⟨some 511, 256⟩⟩ =
        .error (.limit .outOfMemory) ⟨buffer, ⟨some 511, 256⟩⟩ := by
  have hfirst : sort [.varint 16 0, .varint 8 1] ⟨{}, {}⟩ =
      .ok [.varint 8 1, .varint 16 0] ⟨⟨8, [.varint 16 0, .varint 8 1]⟩, ⟨none, 256⟩⟩ := by cbv
  have hreachable := Reachable.fresh.granted hfirst
  obtain ⟨fields, htags⟩ : ∃ fields : List Field,
      fields.map Field.tag = [⟨24⟩, ⟨8⟩, ⟨16⟩, ⟨8⟩, ⟨24⟩, ⟨8⟩, ⟨8⟩, ⟨16⟩, ⟨8⟩] :=
    ⟨[.varint 24 0, .varint 8 1, .varint 16 2, .varint 8 3, .varint 24 4, .varint 8 5,
      .varint 8 6, .varint 16 7, .varint 8 8], rfl⟩
  have hlength : fields.length = 9 := by
    rw [← List.length_map Field.tag, htags]
    rfl
  have hfields : fields ≠ [] := List.ne_nil_of_length_pos (hlength ▸ by decide)
  have hnine : grownRoom 9 0 = 16 := by cbv
  have hsixteen : ∀ {least}, IsLeast (fitting fields.length) least → least = 16 := by
    intro least hleast
    rw [hlength] at hleast
    exact (hleast.unique (grownRoom_isLeast (by decide))).trans hnine
  refine ⟨_, fields, rfl, hreachable, htags, ?_, ?_⟩
  · rcases hreachable.sort_stable_or_unchanged ⟨some 512, 256⟩ fields with
      ⟨sorted, after, paid, hsort, hgrants, _⟩ | ⟨_, ⟨least, hleast, _, hadmits⟩, _⟩
    · obtain ⟨least, hleast, hroom⟩ := hgrants.room_of_ne_nil hfields
      cases hsixteen hleast
      exact ⟨sorted, after, paid, hsort, hroom, hgrants⟩
    · cases hsixteen hleast
      exact absurd (by decide) hadmits
  · rcases hreachable.sort_stable_or_unchanged ⟨some 511, 256⟩ fields with
      ⟨sorted, after, paid, hsort, hgrants, _⟩ | ⟨hrefused, _⟩
    · obtain ⟨least, hleast, hroom⟩ := hgrants.room_of_ne_nil hfields
      cases hsixteen hleast
      have hgained : after.room = 16 := hroom
      have hpaid := hgrants.budget_eq
      have hadmits := hgrants.admits
      simp only [hgained] at hpaid hadmits
      rw [hpaid] at hadmits
      exact absurd (hadmits (by decide)) (by decide)
    · exact hrefused

end MergeBuffer

end UnknownFields
