import UnknownFields.Proofs.Arena.Reading

/-!
An arena next to a plain map from ids to lists. Both are taken through the same operations, in any
order and on any sets: new sets, pushes, replacements and releases, each under any budget. An
operation that is refused is none for the map. At every point the arena holds exactly the lists of
the map, so where its windows lie, which of them have moved and what they have left behind cannot
be seen.
-/

namespace UnknownFields.Arena

/-- The sets of the arena hold these lists, by their ids. -/
structure Represents (arena : Arena) (lists : List (List Field)) : Prop where
  setCount_eq : arena.setCount = lists.length
  fields_eq : ∀ {id : Nat} {fields : List Field}, lists[id]? = some fields →
    arena.fields id = .ok fields

/-- An arena behind any operations, and the map behind those of them that were not refused. -/
inductive Tracks : Arena → List (List Field) → Prop where
  | empty : Tracks {} []
  | newSet {arena after : Arena} {budget paid : Budget} {lists : List (List Field)} {id : Nat}
      (tracks : Tracks arena lists) (step : Arena.newSet ⟨arena, budget⟩ = .ok id ⟨after, paid⟩) :
      Tracks after (lists ++ [[]])
  | newSetRefused {arena after : Arena} {budget paid : Budget} {lists : List (List Field)}
      {failure : Failure} (tracks : Tracks arena lists)
      (step : Arena.newSet ⟨arena, budget⟩ = .error failure ⟨after, paid⟩) : Tracks after lists
  | push {arena after : Arena} {budget paid : Budget} {lists : List (List Field)} {id : Nat}
      {field : Field} (tracks : Tracks arena lists) (exists_set : id < arena.setCount)
      (step : Arena.push id field ⟨arena, budget⟩ = .ok () ⟨after, paid⟩) :
      Tracks after (lists.modify id (· ++ [field]))
  | pushRefused {arena after : Arena} {budget paid : Budget} {lists : List (List Field)} {id : Nat}
      {field : Field} {failure : Failure} (tracks : Tracks arena lists)
      (exists_set : id < arena.setCount)
      (step : Arena.push id field ⟨arena, budget⟩ = .error failure ⟨after, paid⟩) :
      Tracks after lists
  | replace {arena after : Arena} {lists : List (List Field)} {id : Nat} {fields : List Field}
      (tracks : Tracks arena lists) (step : replaceSet id fields arena = .ok after) :
      Tracks after (lists.set id fields)
  | release {arena after : Arena} {budget paid : Budget} {lists : List (List Field)}
      (tracks : Tracks arena lists)
      (step : Arena.release ⟨arena, budget⟩ = .ok () ⟨after, paid⟩) : Tracks after []

variable {arena later : Arena} {lists : List (List Field)} {id : Nat} {fields : List Field}

/-! ### Single operations -/

theorem represents_empty : Represents {} [] where
  setCount_eq := rfl
  fields_eq h := nomatch h

theorem Represents.getElem?_of_lt (h : arena.Represents lists) (hid : id < arena.setCount) :
    ∃ fields, lists[id]? = some fields := by
  rw [h.setCount_eq] at hid
  exact ⟨lists[id], List.getElem?_eq_getElem hid⟩

theorem Represents.lt_of_getElem? (h : arena.Represents lists) (hlist : lists[id]? = some fields) :
    id < arena.setCount := by
  rw [h.setCount_eq]
  exact (List.getElem?_eq_some_iff.mp hlist).1

theorem Represents.withSet (h : arena.Represents lists) (hsound : arena.Sound) :
    arena.withSet.Represents (lists ++ [[]]) where
  setCount_eq := by
    rw [setCount_withSet, h.setCount_eq, List.length_append, List.length_singleton]
  fields_eq := by
    intro id fields hlist
    by_cases hid : id < lists.length
    · rw [List.getElem?_append_left hid] at hlist
      rw [hsound.fields_withSet (h.lt_of_getElem? hlist)]
      exact h.fields_eq hlist
    · rw [List.getElem?_append_right (not_lt.mp hid)] at hlist
      obtain ⟨hlast, hempty⟩ := List.getElem?_eq_some_iff.mp hlist
      rw [List.length_singleton] at hlast
      have hself : id = arena.setCount := by
        rw [h.setCount_eq]
        omega
      rw [List.getElem_singleton] at hempty
      rw [hself, ← hempty]
      exact fields_withSet_self

/-- An operation that changes one set changes the list under its id. -/
theorem Represents.changes (h : arena.Represents lists) (hchanges : arena.Changes later id fields) :
    later.Represents (lists.set id fields) where
  setCount_eq := by
    rw [hchanges.setCount_eq, h.setCount_eq, List.length_set]
  fields_eq := by
    intro other found hlist
    by_cases hother : other = id
    · subst hother
      obtain ⟨hlt, hfound⟩ := List.getElem?_eq_some_iff.mp hlist
      rw [List.getElem_set_self] at hfound
      rw [← hfound]
      exact hchanges.self_eq
    · rw [List.getElem?_set_ne (Ne.symm hother)] at hlist
      rw [hchanges.fields_eq other hother]
      exact h.fields_eq hlist

theorem Represents.push (h : arena.Represents lists) (hsound : arena.Sound) {window : Window}
    (hwindow : arena.windows[id]? = some window) (field : Field) :
    (arena.pushed id window field).Represents (lists.modify id (· ++ [field])) := by
  obtain ⟨fields, hlist⟩ :=
    h.getElem?_of_lt (Array.getElem?_eq_some_iff.mp hwindow).1
  rw [List.modify_eq_set_getElem?, hlist]
  exact h.changes (hsound.changes_pushed hwindow (h.fields_eq hlist) field)

/-- Fields can be replaced by as many others, and by nothing else. -/
theorem Sound.replaceSet_eq_ok_iff (h : arena.Sound) :
    replaceSet id fields arena = .ok later ↔ ∃ window, arena.windows[id]? = some window ∧
      fields.length = window.length ∧ later = arena.replaced window fields := by
  constructor
  · intro hreplace
    obtain ⟨window, hwindow, hrest⟩ := bind_eq_ok.mp hreplace
    have hid : id < arena.setCount := by
      by_contra hnone
      have hfields := fields_of_le (not_lt.mp hnone)
      rw [Arena.fields, hwindow, ok_bind] at hfields
      cases hfields
    obtain ⟨found, hfound⟩ := window_of_lt hid
    rw [window_eq hfound (h.fits hfound).stop_le] at hwindow
    cases hwindow
    split_ifs at hrest with hlength
    cases hrest
    exact ⟨window, hfound, hlength, rfl⟩
  · rintro ⟨window, hwindow, hlength, rfl⟩
    exact h.replaceSet_eq hwindow hlength

/-! ### Any number of operations -/

/-- What all operations keep: windows that are apart, and the lists of the map. -/
theorem Tracks.sound_and_represents (h : arena.Tracks lists) :
    arena.Sound ∧ arena.Represents lists := by
  induction h with
  | empty => exact ⟨sound_empty, represents_empty⟩
  | @newSet arena after budget paid lists id _ step ih =>
      obtain ⟨hsound, hlists⟩ := ih
      rw [newSet_eq, Metered.pay] at step
      split at step
      · cases step
      · cases step
        exact ⟨hsound.withSet, hlists.withSet hsound⟩
  | @newSetRefused arena after budget paid lists failure _ step ih =>
      rw [newSet_eq, Metered.pay] at step
      split at step
      · cases step
        exact ih
      · cases step
  | @push arena after budget paid lists id field _ hid step ih =>
      obtain ⟨hsound, hlists⟩ := ih
      obtain ⟨window, hwindow⟩ := window_of_lt hid
      rcases hsound.push_cases hwindow field budget with ⟨paid', hpush⟩ | ⟨hrefused, _⟩
      · rw [hpush] at step
        cases step
        exact ⟨hsound.pushed hwindow, hlists.push hsound hwindow field⟩
      · rw [hrefused] at step
        cases step
  | @pushRefused arena after budget paid lists id field failure _ hid step ih =>
      obtain ⟨window, hwindow⟩ := window_of_lt hid
      rcases ih.1.push_cases hwindow field budget with ⟨paid', hpush⟩ | ⟨hrefused, _⟩
      · rw [hpush] at step
        cases step
      · rw [hrefused] at step
        cases step
        exact ih
  | replace _ step ih =>
      obtain ⟨hsound, hlists⟩ := ih
      obtain ⟨window, hwindow, hlength, rfl⟩ := hsound.replaceSet_eq_ok_iff.mp step
      exact ⟨hsound.replaced, hlists.changes (hsound.changes_replaced hwindow hlength)⟩
  | release _ step _ =>
      cases step
      exact ⟨sound_empty, represents_empty⟩

/-- **An arena is a map from ids to lists.** Whatever has been done to it, its sets hold the lists of
the map. The next operation does to them what it does to the map: a new set gets the next id and is
empty, a push appends to one list, a replacement exchanges one list for another one of its length,
and all other lists stay. A new set or a push that is refused changes nothing, neither of the arena
nor of the budget, and it is refused only for want of bytes. -/
theorem Tracks.refines (h : arena.Tracks lists) :
    arena.Represents lists ∧
    (∀ budget,
      (∃ after paid, Arena.newSet ⟨arena, budget⟩ = .ok lists.length ⟨after, paid⟩ ∧
        after.Represents (lists ++ [[]])) ∨
      (Arena.newSet ⟨arena, budget⟩ = .error (.limit .outOfMemory) ⟨arena, budget⟩ ∧
        ¬budget.Admits (budget.used + windowBytes))) ∧
    (∀ id fields field budget, lists[id]? = some fields →
      (∃ after paid, Arena.push id field ⟨arena, budget⟩ = .ok () ⟨after, paid⟩ ∧
        after.Represents (lists.modify id (· ++ [field]))) ∨
      (Arena.push id field ⟨arena, budget⟩ = .error (.limit .outOfMemory) ⟨arena, budget⟩ ∧
        ¬budget.Admits (budget.used + slotBytes * max Window.minCapacity (2 * fields.length)))) ∧
    (∀ id fields others, lists[id]? = some fields → others.length = fields.length →
      ∃ after, replaceSet id others arena = .ok after ∧ after.Represents (lists.set id others)) ∧
    ∀ budget, ∃ after, Arena.release ⟨arena, budget⟩ = .ok () ⟨after, budget⟩ ∧
      after.Represents [] := by
  obtain ⟨hsound, hlists⟩ := h.sound_and_represents
  refine ⟨hlists, ?_, ?_, ?_, fun budget => ⟨{}, rfl, represents_empty⟩⟩
  · intro budget
    rw [newSet_eq, Metered.pay, hlists.setCount_eq]
    by_cases hadmits : budget.Admits (budget.used + windowBytes)
    · rw [Budget.charge?_of_admits hadmits]
      exact Or.inl ⟨_, _, rfl, hlists.withSet hsound⟩
    · rw [Budget.charge?_of_not_admits hadmits]
      exact Or.inr ⟨rfl, hadmits⟩
  · intro id fields field budget hlist
    obtain ⟨window, hwindow⟩ := window_of_lt (hlists.lt_of_getElem? hlist)
    rw [hsound.length_fields hwindow (hlists.fields_eq hlist)]
    rcases hsound.push_cases hwindow field budget with ⟨paid, hpush⟩ | hrefused
    · exact Or.inl ⟨_, paid, hpush, hlists.push hsound hwindow field⟩
    · exact Or.inr hrefused
  · intro id fields others hlist hlength
    obtain ⟨window, hwindow⟩ := window_of_lt (hlists.lt_of_getElem? hlist)
    rw [hsound.length_fields hwindow (hlists.fields_eq hlist)] at hlength
    exact ⟨_, hsound.replaceSet_eq hwindow hlength,
      hlists.changes (hsound.changes_replaced hwindow hlength)⟩

/-- Two sets are made at the same slot. The second one gets a field there, so the first one moves
when it gets its own. -/
theorem refines_behind_moved_set :
    ∃ arena : Arena, arena.windows = #[⟨4, 1, 4⟩, ⟨0, 1, 4⟩] ∧
      arena.Tracks [[.varint 8 1], [.varint 16 2]] ∧
      arena.Represents [[.varint 8 1], [.varint 16 2]] ∧
      (∃ after paid, Arena.push 1 (.varint 16 3) ⟨arena, {}⟩ = .ok () ⟨after, paid⟩ ∧
        after.Represents [[.varint 8 1], [.varint 16 2, .varint 16 3]]) ∧
      ∃ after, replaceSet 0 [.varint 8 4] arena = .ok after ∧
        after.Represents [[.varint 8 4], [.varint 16 2]] := by
  have hfirst : Arena.newSet ⟨{}, {}⟩ = .ok 0 ⟨⟨#[], #[⟨0, 0, 0⟩], 24⟩, ⟨none, 24⟩⟩ := by cbv
  have hsecond : Arena.newSet ⟨⟨#[], #[⟨0, 0, 0⟩], 24⟩, ⟨none, 24⟩⟩ =
      .ok 1 ⟨⟨#[], #[⟨0, 0, 0⟩, ⟨0, 0, 0⟩], 48⟩, ⟨none, 48⟩⟩ := by cbv
  have hthird : Arena.push 1 (.varint 16 2)
        ⟨⟨#[], #[⟨0, 0, 0⟩, ⟨0, 0, 0⟩], 48⟩, ⟨none, 48⟩⟩ =
      .ok () ⟨⟨#[.varint 16 2, .vacant, .vacant, .vacant], #[⟨0, 0, 0⟩, ⟨0, 1, 4⟩], 176⟩,
        ⟨none, 176⟩⟩ := by cbv
  have hfourth : Arena.push 0 (.varint 8 1)
        ⟨⟨#[.varint 16 2, .vacant, .vacant, .vacant], #[⟨0, 0, 0⟩, ⟨0, 1, 4⟩], 176⟩,
          ⟨none, 176⟩⟩ =
      .ok () ⟨⟨#[.varint 16 2, .vacant, .vacant, .vacant, .varint 8 1, .vacant, .vacant, .vacant],
        #[⟨4, 1, 4⟩, ⟨0, 1, 4⟩], 304⟩, ⟨none, 304⟩⟩ := by cbv
  have htracks := (((Tracks.empty.newSet hfirst).newSet hsecond).push (by decide) hthird).push
    (by decide) hfourth
  obtain ⟨hlists, _, hpush, hreplace, _⟩ := htracks.refines
  refine ⟨_, rfl, htracks, hlists, ?_, hreplace 0 _ [.varint 8 4] rfl rfl⟩
  exact (hpush 1 _ (.varint 16 3) {} rfl).resolve_right fun hrefused => hrefused.2 (by decide)

end UnknownFields.Arena
