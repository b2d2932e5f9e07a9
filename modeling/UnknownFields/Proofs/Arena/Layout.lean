import Mathlib
import UnknownFields.Proofs.Arena.Refinement

/-!
How the windows of an arena lie in its row of slots, whatever has been done to it. Whether a window
grows where it is depends on its end alone. An empty window may begin inside another one, or where
another one ends, so two windows can both end with the row. Whichever of them grows first takes the
end of the row along, and the other one has to move when it grows.
-/

namespace UnknownFields

/-- Windows that share no slot cover disjoint ranges of the row. -/
theorem Window.Apart.disjoint {window other : Window} (h : window.Apart other) :
    Disjoint (Set.Ico window.start window.stop) (Set.Ico other.start other.stop) := by
  rw [Set.disjoint_left]
  rintro slot ⟨hstart, hstop⟩ ⟨hstart', hstop'⟩
  rw [Window.stop] at hstop hstop'
  have hapart := h (by omega) (by omega)
  rw [Window.stop, Window.stop] at hapart
  omega

/-- A window has slots exactly if its set has fields. -/
theorem Window.Fits.capacity_eq_zero_iff {window : Window} {size : Nat} (h : window.Fits size) :
    window.capacity = 0 ↔ window.length = 0 := by
  have hlength := h.length_le
  have hfilled := h.filled
  omega

/-- Only the first slots of a window come before they are half filled. -/
theorem Window.Fits.capacity_le {window : Window} {size : Nat} (h : window.Fits size) :
    window.capacity = 4 ∨ window.capacity ≤ 2 * (window.length - 1) := by
  have hfilled := h.filled
  omega

namespace Arena

variable {arena : Arena} {lists : List (List Field)}

/-- The windows are as long as the lists of the map. -/
theorem Tracks.map_length_eq (h : arena.Tracks lists) :
    arena.windows.toList.map Window.length = lists.map List.length := by
  obtain ⟨hsound, hlists⟩ := h.sound_and_represents
  apply List.ext_getElem?
  intro id
  rw [List.getElem?_map, List.getElem?_map, Array.getElem?_toList]
  by_cases hid : id < arena.setCount
  · obtain ⟨window, hwindow⟩ := window_of_lt hid
    obtain ⟨fields, hlist⟩ := hlists.getElem?_of_lt hid
    rw [hwindow, hlist, Option.map_some, Option.map_some,
      hsound.length_fields hwindow (hlists.fields_eq hlist)]
  · have hlength := hlists.setCount_eq
    rw [Array.getElem?_eq_none (not_lt.mp hid), List.getElem?_eq_none (by omega)]
    rfl

theorem Tracks.stored_eq (h : arena.Tracks lists) : arena.stored = lists.flatten.length := by
  rw [stored, total, h.map_length_eq, List.length_flatten]

/-- **The windows of an arena lie apart**, behind any new sets, pushes, replacements and releases, of
which any may have been refused. A window is no longer than its capacity and lies in the row of
slots, and no two windows share a slot. A capacity is zero or four times a power of two; it is zero
exactly if the set is empty, and one above four has been filled to more than a half. The row has at
most four slots for each field in the sets. -/
theorem Tracks.windows_lie_apart (h : arena.Tracks lists) :
    (∀ (id : Nat) (window : Window), arena.windows[id]? = some window →
      window.length ≤ window.capacity ∧
      window.start + window.capacity ≤ arena.slots.size ∧
      (window.capacity = 0 ∨ ∃ count, window.capacity = 4 * 2 ^ count) ∧
      (window.capacity = 0 ↔ window.length = 0) ∧
      (window.capacity = 4 ∨ window.capacity ≤ 2 * (window.length - 1))) ∧
    (∀ (id other : Nat) (window window' : Window), id ≠ other →
      arena.windows[id]? = some window → arena.windows[other]? = some window' →
      Disjoint (Set.Ico window.start (window.start + window.capacity))
        (Set.Ico window'.start (window'.start + window'.capacity))) ∧
    arena.windows.toList.map Window.length = lists.map List.length ∧
    arena.slots.size ≤ 4 * lists.flatten.length := by
  obtain ⟨hsound, _⟩ := h.sound_and_represents
  refine ⟨fun id window hwindow => ?_, fun id other window window' hne hwindow hwindow' => ?_,
    h.map_length_eq, ?_⟩
  · have hfits := hsound.fits hwindow
    exact ⟨hfits.length_le, hfits.stop_le, hfits.doubled, hfits.capacity_eq_zero_iff,
      hfits.capacity_le⟩
  · exact (hsound.apart hne hwindow hwindow').disjoint
  · rw [← h.stored_eq]
    exact hsound.size_le

/-- Two sets are made at the same slot, and both windows end with the row. The first one grows there,
around the start of the second one, which is refused its slots once and gets them behind the first. -/
theorem windows_lie_apart_around_start :
    ∃ inner outer : Arena,
      inner.windows = #[⟨0, 1, 4⟩, ⟨0, 0, 0⟩] ∧ outer.windows = #[⟨0, 1, 4⟩, ⟨4, 1, 4⟩] ∧
      inner.Tracks [[.varint 8 1], []] ∧ outer.Tracks [[.varint 8 1], [.varint 16 2]] ∧
      inner.slots.size ≤ 4 * 1 ∧ outer.slots.size ≤ 4 * 2 ∧
      Disjoint (Set.Ico 0 (0 + 4)) (Set.Ico 0 (0 + 0)) ∧
      Disjoint (Set.Ico 0 (0 + 4)) (Set.Ico 4 (4 + 4)) := by
  have hfirst : Arena.newSet ⟨{}, ⟨some 300, 0⟩⟩ =
      .ok 0 ⟨⟨#[], #[⟨0, 0, 0⟩], 24⟩, ⟨some 300, 24⟩⟩ := by cbv
  have hsecond : Arena.newSet ⟨⟨#[], #[⟨0, 0, 0⟩], 24⟩, ⟨some 300, 24⟩⟩ =
      .ok 1 ⟨⟨#[], #[⟨0, 0, 0⟩, ⟨0, 0, 0⟩], 48⟩, ⟨some 300, 48⟩⟩ := by cbv
  have hgrown : Arena.push 0 (.varint 8 1)
        ⟨⟨#[], #[⟨0, 0, 0⟩, ⟨0, 0, 0⟩], 48⟩, ⟨some 300, 48⟩⟩ =
      .ok () ⟨⟨#[.varint 8 1, .vacant, .vacant, .vacant], #[⟨0, 1, 4⟩, ⟨0, 0, 0⟩], 176⟩,
        ⟨some 300, 176⟩⟩ := by cbv
  have hrefused : Arena.push 1 (.varint 16 2)
        ⟨⟨#[.varint 8 1, .vacant, .vacant, .vacant], #[⟨0, 1, 4⟩, ⟨0, 0, 0⟩], 176⟩,
          ⟨some 300, 176⟩⟩ =
      .error (.limit .outOfMemory)
        ⟨⟨#[.varint 8 1, .vacant, .vacant, .vacant], #[⟨0, 1, 4⟩, ⟨0, 0, 0⟩], 176⟩,
          ⟨some 300, 176⟩⟩ := by cbv
  have hmoved : Arena.push 1 (.varint 16 2)
        ⟨⟨#[.varint 8 1, .vacant, .vacant, .vacant], #[⟨0, 1, 4⟩, ⟨0, 0, 0⟩], 176⟩,
          ⟨some 304, 176⟩⟩ =
      .ok () ⟨⟨#[.varint 8 1, .vacant, .vacant, .vacant, .varint 16 2, .vacant, .vacant, .vacant],
        #[⟨0, 1, 4⟩, ⟨4, 1, 4⟩], 304⟩, ⟨some 304, 304⟩⟩ := by cbv
  have hinner := (((Tracks.empty.newSet hfirst).newSet hsecond).push (by decide) hgrown).pushRefused
    (by decide) hrefused
  have houter := hinner.push (by decide) hmoved
  obtain ⟨_, hinnerApart, _, hinnerSize⟩ := hinner.windows_lie_apart
  obtain ⟨_, houterApart, _, houterSize⟩ := houter.windows_lie_apart
  exact ⟨_, _, rfl, rfl, hinner, houter, hinnerSize, houterSize,
    hinnerApart 0 1 _ _ (by decide) rfl rfl, houterApart 0 1 _ _ (by decide) rfl rfl⟩

end Arena

end UnknownFields
