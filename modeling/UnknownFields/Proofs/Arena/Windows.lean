import Mathlib.Tactic
import UnknownFields.Arena

/-!
The windows of an arena keep out of each other's way. A window that grows is ready to take a field
where it lies then, and no other window with slots reaches there. So a set is a list of fields of
its own: pushing appends to one list, replacing exchanges one list, and all other lists stay. A
window doubles when it is full, so the row of slots is never longer than four times the number of
fields.
-/

namespace UnknownFields

namespace Window

/-- A window has been filled to more than a half since it last grew. -/
structure Fits (window : Window) (size : Nat) : Prop where
  length_le : window.length ≤ window.capacity
  stop_le : window.stop ≤ size
  doubled : window.capacity = 0 ∨ ∃ count, window.capacity = 4 * 2 ^ count
  filled : window.capacity = 0 ∨ window.capacity = 4 ∧ 0 < window.length ∨
    window.capacity + 2 ≤ 2 * window.length

/-- Two windows share no slot. -/
def Apart (window other : Window) : Prop :=
  0 < window.capacity → 0 < other.capacity → window.stop ≤ other.start ∨ other.stop ≤ window.start

/-- An upper bound for the slots that a window has now and has left behind. -/
def footprint (window : Window) : Nat := 2 * window.capacity - 4

/-- Where a window lies when there is room for one more field. -/
def ready (window : Window) (size : Nat) : Window :=
  if window.length < window.capacity then window else window.grow size

variable {window other : Window} {size : Nat}

theorem Apart.symm (h : window.Apart other) : other.Apart window :=
  fun hother hwindow => (h hwindow hother).symm

theorem Fits.mono {larger : Nat} (h : window.Fits size) (hsize : size ≤ larger) :
    window.Fits larger :=
  { h with stop_le := h.stop_le.trans hsize }

theorem Fits.footprint_le (h : window.Fits size) : window.footprint ≤ 4 * window.length := by
  have := h.filled
  rw [footprint]
  omega

/-- A window with room stays as it is, one that ends with the row grows there, and any other moves
to the end of the row. -/
theorem ready_cases (window : Window) (size : Nat) :
    (window.length < window.capacity ∧ window.ready size = window) ∨
    (window.capacity ≤ window.length ∧ window.stop = size ∧
      window.ready size = ⟨window.start, window.length, max 4 (2 * window.capacity)⟩) ∨
    (window.capacity ≤ window.length ∧ window.stop ≠ size ∧
      window.ready size = ⟨size, window.length, max 4 (2 * window.capacity)⟩) := by
  by_cases hroom : window.length < window.capacity
  · exact Or.inl ⟨hroom, if_pos hroom⟩
  · rw [ready, if_neg hroom]
    by_cases hend : window.stop = size
    · exact Or.inr (Or.inl ⟨not_lt.mp hroom, hend, if_pos hend⟩)
    · exact Or.inr (Or.inr ⟨not_lt.mp hroom, hend, if_neg hend⟩)

@[simp]
theorem length_ready : (window.ready size).length = window.length := by
  rcases window.ready_cases size with ⟨_, h⟩ | ⟨_, _, h⟩ | ⟨_, _, h⟩ <;> rw [h]

theorem length_lt_ready (h : window.length ≤ window.capacity) :
    window.length < (window.ready size).capacity := by
  rcases window.ready_cases size with ⟨hroom, hready⟩ | ⟨_, _, hready⟩ | ⟨_, _, hready⟩
  · rw [hready]
    exact hroom
  · rw [hready]
    dsimp only
    omega
  · rw [hready]
    dsimp only
    omega

/-- Growing keeps windows apart, because a window that does not grow lies in the old row. -/
theorem Apart.ready (hapart : window.Apart other) (hother : other.stop ≤ size) :
    (window.ready size).Apart other := by
  intro _ hpos
  rcases window.ready_cases size with ⟨hroom, h⟩ | ⟨_, hend, h⟩ | ⟨_, _, h⟩
  · rw [h]
    exact hapart (Nat.zero_lt_of_lt hroom) hpos
  · have := hapart
    rw [h]
    simp only [Apart, stop] at *
    omega
  · rw [h]
    exact Or.inr hother

def pushed (window : Window) (size : Nat) : Window :=
  { window.ready size with length := window.length + 1 }

theorem Apart.pushed (hapart : window.Apart other) (hother : other.stop ≤ size) :
    (window.pushed size).Apart other := hapart.ready hother

theorem Fits.grown {larger start : Nat} (h : window.Fits size)
    (hfull : window.capacity ≤ window.length) (hstop : start + max 4 (2 * window.capacity) ≤ larger) :
    Fits ⟨start, window.length + 1, max 4 (2 * window.capacity)⟩ larger := by
  have hlength := h.length_le
  rcases h.doubled with hzero | ⟨count, hcount⟩
  · rw [hzero] at hstop hlength hfull ⊢
    refine ⟨?_, hstop, Or.inr ⟨0, rfl⟩, Or.inr (Or.inl ⟨rfl, Nat.succ_pos _⟩)⟩
    dsimp only
    omega
  · have hpow : 0 < 2 ^ count := Nat.two_pow_pos count
    have hmax : max 4 (2 * window.capacity) = 2 * window.capacity := by omega
    rw [hmax] at hstop ⊢
    refine ⟨?_, hstop, Or.inr ⟨count + 1, ?_⟩, Or.inr (Or.inr ?_)⟩ <;> dsimp only
    · omega
    · rw [hcount, pow_succ]
      ring
    · omega

theorem Fits.pushed {larger : Nat} (h : window.Fits size)
    (hstop : (window.ready size).stop ≤ larger) : (window.pushed size).Fits larger := by
  have hfilled := h.filled
  rcases window.ready_cases size with ⟨hroom, hready⟩ | ⟨hfull, _, hready⟩ | ⟨hfull, _, hready⟩
  · rw [hready] at hstop
    rw [Window.pushed, hready]
    refine ⟨hroom, hstop, h.doubled, ?_⟩
    dsimp only
    omega
  · rw [hready] at hstop
    rw [Window.pushed, hready]
    exact h.grown hfull hstop
  · rw [hready] at hstop
    rw [Window.pushed, hready]
    exact h.grown hfull hstop

end Window

/-! ### The row of slots -/

namespace Arena

def slice (slots : Array Field) (start length : Nat) : List Field :=
  (slots.extract start (start + length)).toList

def readySlots (window : Window) (slots : Array Field) : Array Field :=
  if window.length < window.capacity then slots else grownSlots window slots

theorem getElem?_slice (slots : Array Field) (start length index : Nat) :
    (slice slots start length)[index]? = if index < length then slots[start + index]? else none := by
  rw [slice, Array.getElem?_toList, Array.getElem?_extract]
  by_cases hindex : index < length
  · rw [if_pos hindex]
    split_ifs with h
    · rfl
    · exact (Array.getElem?_eq_none (by omega)).symm
  · rw [if_neg hindex, if_neg (by omega)]

theorem slice_congr {slots others : Array Field} {start origin length : Nat}
    (h : ∀ index < length, slots[start + index]? = others[origin + index]?) :
    slice slots start length = slice others origin length := by
  apply List.ext_getElem?
  intro index
  rw [getElem?_slice, getElem?_slice]
  split_ifs with hindex
  · exact h index hindex
  · rfl

theorem length_slice {slots : Array Field} {start length : Nat} (h : start + length ≤ slots.size) :
    (slice slots start length).length = length := by
  rw [slice, Array.length_toList, Array.size_extract]
  omega

theorem slice_succ {slots : Array Field} {start length : Nat} {field : Field}
    (h : slots[start + length]? = some field) :
    slice slots start (length + 1) = slice slots start length ++ [field] := by
  have hlt : start + length < slots.size := (Array.getElem?_eq_some_iff.mp h).1
  have hlength := length_slice hlt.le
  apply List.ext_getElem?
  intro index
  rw [getElem?_slice, List.getElem?_append, hlength, getElem?_slice]
  by_cases hindex : index < length
  · rw [if_pos (by omega), if_pos hindex, if_pos hindex]
  · rw [if_neg hindex]
    by_cases hlast : index = length
    · rw [hlast, if_pos (by omega), h, Nat.sub_self, List.getElem?_cons_zero]
    · rw [if_neg (by omega), List.getElem?_eq_none (by rw [List.length_singleton]; omega)]

theorem getElem?_readySlots (window : Window) {slots : Array Field} {index : Nat}
    (hindex : index < slots.size) :
    (readySlots window slots)[index]? = slots[index]? := by
  unfold readySlots grownSlots
  split_ifs
  · rfl
  · rw [Array.getElem?_append_left hindex]
  · rw [Array.append_assoc, Array.getElem?_append_left hindex]

section ReadySlots

variable {window : Window} {slots : Array Field} (h : window.Fits slots.size)

include h

/-- What the row looks like behind the readying of a window. -/
theorem readySlots_cases :
    (window.length < window.capacity ∧ readySlots window slots = slots) ∨
    (window.capacity ≤ window.length ∧ window.stop = slots.size ∧
      (readySlots window slots).size = slots.size + (max 4 (2 * window.capacity) - window.capacity)) ∨
    (window.capacity ≤ window.length ∧ window.stop ≠ slots.size ∧
      (readySlots window slots).size = slots.size + max 4 (2 * window.capacity)) := by
  have hlength := h.length_le
  have hstop := h.stop_le
  rw [Window.stop] at hstop
  by_cases hroom : window.length < window.capacity
  · exact Or.inl ⟨hroom, if_pos hroom⟩
  · rw [readySlots, if_neg hroom, grownSlots]
    by_cases hend : window.stop = slots.size
    · refine Or.inr (Or.inl ⟨not_lt.mp hroom, hend, ?_⟩)
      rw [if_pos hend, Array.size_append, Array.size_replicate]
      rfl
    · refine Or.inr (Or.inr ⟨not_lt.mp hroom, hend, ?_⟩)
      rw [if_neg hend, Array.size_append, Array.size_append, Array.size_replicate,
        Array.size_extract, Window.grownCapacity, Window.minCapacity]
      omega

theorem stop_ready_le : (window.ready slots.size).stop ≤ (readySlots window slots).size := by
  have hstop := h.stop_le
  rcases readySlots_cases h with ⟨hroom, hsize⟩ | ⟨hfull, hend, hsize⟩ | ⟨hfull, hend, hsize⟩ <;>
    rcases window.ready_cases slots.size with ⟨_, hready⟩ | ⟨_, _, hready⟩ | ⟨_, _, hready⟩ <;>
    simp only [hsize, hready, Window.stop] at * <;> omega

theorem size_le_readySlots : slots.size ≤ (readySlots window slots).size := by
  rcases readySlots_cases h with ⟨_, hsize⟩ | ⟨_, _, hsize⟩ | ⟨_, _, hsize⟩ <;> rw [hsize] <;> omega

/-- The growth of the row is covered by that of the bound for the window. -/
theorem size_readySlots_add :
    (readySlots window slots).size + window.footprint ≤
      slots.size + (window.ready slots.size).footprint := by
  have hdoubled : window.capacity = 0 ∨ 4 ≤ window.capacity := by
    rcases h.doubled with hzero | ⟨count, hcount⟩
    · exact Or.inl hzero
    · have := Nat.two_pow_pos count
      omega
  rcases readySlots_cases h with ⟨hroom, hsize⟩ | ⟨hfull, hend, hsize⟩ | ⟨hfull, hend, hsize⟩ <;>
    rcases window.ready_cases slots.size with ⟨_, hready⟩ | ⟨_, _, hready⟩ | ⟨_, _, hready⟩ <;>
    simp only [hsize, hready, Window.footprint] at * <;> omega

/-- A window takes its fields along. -/
theorem slice_ready :
    slice (readySlots window slots) (window.ready slots.size).start window.length =
      slice slots window.start window.length := by
  have hlength := h.length_le
  have hstop := h.stop_le
  rw [Window.stop] at hstop
  apply slice_congr
  intro index hindex
  rcases window.ready_cases slots.size with ⟨_, hready⟩ | ⟨_, _, hready⟩ | ⟨hfull, hend, hready⟩
  · rw [hready, getElem?_readySlots window (by omega)]
  · rw [hready, getElem?_readySlots window (by dsimp only; omega)]
  · have hextract : index < (slots.extract window.start (window.start + window.length)).size := by
      rw [Array.size_extract]
      omega
    rw [hready, readySlots, if_neg (by omega), grownSlots, if_neg hend, Array.append_assoc,
      Array.getElem?_append_right (Nat.le_add_right _ _), Nat.add_sub_cancel_left,
      Array.getElem?_append_left hextract, Array.getElem?_extract, if_pos (by omega)]

end ReadySlots

end Arena

end UnknownFields
