import UnknownFields.Proofs.Arena.Windows
import UnknownFields.Proofs.Budget

/-!
An arena is a map from ids to lists of fields. Every step leaves the windows apart, changes one list
at most, and pays for exactly the windows and slots that it adds.
-/

namespace UnknownFields.Arena

def total (count : Window → Nat) (arena : Arena) : Nat := (arena.windows.toList.map count).sum

/-- The number of fields in all sets. -/
def stored (arena : Arena) : Nat := arena.total Window.length

/-- The windows lie in the row of slots and share no slot, and no slot has come for free. -/
structure Sound (arena : Arena) : Prop where
  fits : ∀ {id : Nat} {window : Window}, arena.windows[id]? = some window →
    window.Fits arena.slots.size
  apart : ∀ {id other : Nat} {window window' : Window}, id ≠ other →
    arena.windows[id]? = some window → arena.windows[other]? = some window' → window.Apart window'
  slots_le : arena.slots.size ≤ arena.total Window.footprint
  charged_eq : arena.charged = windowBytes * arena.setCount + slotBytes * arena.slots.size

theorem sound_empty : Sound {} where
  fits h := by simp at h
  apart _ h := by simp at h
  slots_le := Nat.zero_le _
  charged_eq := rfl

variable {arena : Arena} {id : Nat} {window : Window} {field : Field}

theorem window_of_lt (h : id < arena.setCount) : ∃ window, arena.windows[id]? = some window :=
  ⟨_, Array.getElem?_eq_getElem h⟩

theorem window_eq (hwindow : arena.windows[id]? = some window)
    (hstop : window.stop ≤ arena.slots.size) : arena.window id = .ok window := by
  simp only [Arena.window, hwindow, if_pos hstop]

theorem fields_eq (hwindow : arena.windows[id]? = some window)
    (hstop : window.stop ≤ arena.slots.size) :
    arena.fields id = .ok (slice arena.slots window.start window.length) := by
  rw [fields, window_eq hwindow hstop]
  rfl

theorem fields_of_le (h : arena.setCount ≤ id) :
    arena.fields id = .error (.noSuchSet arena.setCount id) := by
  have hnone : arena.windows[id]? = none := Array.getElem?_eq_none h
  simp only [fields, Arena.window, hnone, error_bind]

theorem lt_of_fields {fields : List Field} (h : arena.fields id = .ok fields) :
    id < arena.setCount := by
  by_contra hid
  rw [fields_of_le (not_lt.mp hid)] at h
  cases h

theorem Sound.length_fields {fields : List Field} (h : arena.Sound)
    (hwindow : arena.windows[id]? = some window)
    (hfields : arena.fields id = .ok fields) : fields.length = window.length := by
  have hfits := h.fits hwindow
  rw [fields_eq hwindow hfits.stop_le] at hfields
  cases hfields
  have := hfits.length_le
  have := hfits.stop_le
  rw [Window.stop] at this
  exact length_slice (by omega)

/-! ### Totals -/

theorem sum_map_set (count : Window → Nat) {windows : List Window} {old new : Window}
    (h : windows[id]? = some old) :
    ((windows.set id new).map count).sum + count old = (windows.map count).sum + count new := by
  induction windows generalizing id with
  | nil => cases h
  | cons first rest ih =>
      cases id with
      | zero =>
          cases h
          simp only [List.set_cons_zero, List.map_cons, List.sum_cons]
          omega
      | succ id =>
          have := ih h
          simp only [List.set_cons_succ, List.map_cons, List.sum_cons]
          omega

/-- The row of slots is at most four times as long as it would have to be. -/
theorem Sound.size_le (h : arena.Sound) : arena.slots.size ≤ 4 * arena.stored := by
  have hbound : arena.total Window.footprint ≤ (arena.windows.toList.map fun w => 4 * w.length).sum := by
    apply List.sum_le_sum
    intro window hwindow
    obtain ⟨id, hid⟩ := List.mem_iff_getElem?.mp hwindow
    rw [Array.getElem?_toList] at hid
    exact (h.fits hid).footprint_le
  rw [List.sum_map_mul_left] at hbound
  exact h.slots_le.trans hbound

theorem Sound.length_le_stored {fields : List Field} (h : arena.Sound)
    (hfields : arena.fields id = .ok fields) : fields.length ≤ arena.stored := by
  obtain ⟨window, hwindow⟩ := window_of_lt (lt_of_fields hfields)
  rw [h.length_fields hwindow hfields]
  apply List.single_le_sum (fun _ _ => Nat.zero_le _)
  rw [← Array.getElem?_toList] at hwindow
  exact List.mem_map_of_mem (List.mem_of_getElem? hwindow)

/-! ### New sets -/

def withSet (arena : Arena) : Arena :=
  ⟨arena.slots, arena.windows.push ⟨arena.slots.size, 0, 0⟩, arena.charged + windowBytes⟩

theorem newSet_eq (arena : Arena) (budget : Budget) :
    newSet ⟨arena, budget⟩ =
      Metered.pay ⟨arena, budget⟩ windowBytes arena.withSet arena.setCount := by
  rw [newSet, Metered.pay]
  dsimp only
  cases budget.charge? windowBytes <;> rfl

@[simp]
theorem setCount_withSet : arena.withSet.setCount = arena.setCount + 1 := Array.size_push ..

@[simp]
theorem charged_withSet : arena.withSet.charged = arena.charged + windowBytes := rfl

theorem windows_withSet (arena : Arena) (id : Nat) :
    arena.withSet.windows[id]? =
      if id = arena.setCount then some ⟨arena.slots.size, 0, 0⟩ else arena.windows[id]? :=
  Array.getElem?_push

theorem Sound.withSet (h : arena.Sound) : arena.withSet.Sound := by
  constructor
  · intro id window hwindow
    rw [windows_withSet] at hwindow
    split_ifs at hwindow
    · cases hwindow
      exact ⟨Nat.le_refl _, Nat.le_refl _, Or.inl rfl, Or.inl rfl⟩
    · exact h.fits hwindow
  · intro id other window window' hne hwindow hwindow' hcapacity hcapacity'
    rw [windows_withSet] at hwindow hwindow'
    split_ifs at hwindow hwindow'
    · omega
    · cases hwindow
      exact absurd hcapacity (Nat.lt_irrefl 0)
    · cases hwindow'
      exact absurd hcapacity' (Nat.lt_irrefl 0)
    · exact h.apart hne hwindow hwindow' hcapacity hcapacity'
  · have := h.slots_le
    simpa [total, Arena.withSet, Window.footprint] using this
  · rw [setCount_withSet, Arena.withSet, h.charged_eq]
    ring

theorem fields_withSet_self : arena.withSet.fields arena.setCount = .ok [] := by
  have hwindow := windows_withSet arena arena.setCount
  rw [if_pos rfl] at hwindow
  rw [fields_eq hwindow (Nat.le_refl _)]
  simp [slice]

theorem Sound.fields_withSet (h : arena.Sound) (hid : id < arena.setCount) :
    arena.withSet.fields id = arena.fields id := by
  obtain ⟨window, hwindow⟩ := window_of_lt hid
  have hstop := (h.fits hwindow).stop_le
  have hwindow' := windows_withSet arena id
  rw [if_neg hid.ne, hwindow] at hwindow'
  rw [fields_eq hwindow hstop, fields_eq hwindow' hstop]
  rfl

@[simp]
theorem stored_withSet : arena.withSet.stored = arena.stored := by
  simp [stored, total, withSet]

/-! ### Pushing -/

def pushed (arena : Arena) (id : Nat) (window : Window) (field : Field) : Arena :=
  ⟨(readySlots window arena.slots).setIfInBounds
      ((window.ready arena.slots.size).start + window.length) field,
    arena.windows.setIfInBounds id (window.pushed arena.slots.size),
    arena.charged + slotBytes * ((readySlots window arena.slots).size - arena.slots.size)⟩

@[simp]
theorem setCount_pushed : (arena.pushed id window field).setCount = arena.setCount :=
  Array.size_setIfInBounds

@[simp]
theorem size_slots_pushed :
    (arena.pushed id window field).slots.size = (readySlots window arena.slots).size :=
  Array.size_setIfInBounds

@[simp]
theorem charged_pushed : (arena.pushed id window field).charged =
    arena.charged + slotBytes * ((readySlots window arena.slots).size - arena.slots.size) := rfl

theorem windows_pushed (field : Field) (hwindow : arena.windows[id]? = some window) (other : Nat) :
    (arena.pushed id window field).windows[other]? =
      if other = id then some (window.pushed arena.slots.size) else arena.windows[other]? := by
  have hid : id < arena.windows.size := (Array.getElem?_eq_some_iff.mp hwindow).1
  rw [pushed, Array.getElem?_setIfInBounds]
  split_ifs <;> first | rfl | omega

theorem total_pushed (field : Field) (count : Window → Nat)
    (hwindow : arena.windows[id]? = some window) :
    (arena.pushed id window field).total count + count window =
      arena.total count + count (window.pushed arena.slots.size) := by
  rw [← Array.getElem?_toList] at hwindow
  rw [total, pushed, Array.toList_setIfInBounds]
  exact sum_map_set count hwindow

theorem stored_pushed (hwindow : arena.windows[id]? = some window) :
    (arena.pushed id window field).stored = arena.stored + 1 := by
  have htotal := total_pushed field Window.length hwindow
  have hlength : (window.pushed arena.slots.size).length = window.length + 1 := rfl
  rw [stored, stored]
  omega

theorem Sound.pushed (h : arena.Sound) (hwindow : arena.windows[id]? = some window) :
    (arena.pushed id window field).Sound := by
  have hfits := h.fits hwindow
  have hsize := size_le_readySlots hfits
  constructor
  · intro other window' hwindow'
    rw [size_slots_pushed]
    rw [windows_pushed field hwindow] at hwindow'
    split_ifs at hwindow'
    · cases hwindow'
      exact hfits.pushed (stop_ready_le hfits)
    · exact (h.fits hwindow').mono hsize
  · intro first second window₁ window₂ hne hwindow₁ hwindow₂
    rw [windows_pushed field hwindow] at hwindow₁ hwindow₂
    split_ifs at hwindow₁ hwindow₂ with hfirst hsecond hsecond
    · omega
    · cases hwindow₁
      have hapart := h.apart (fun heq => hsecond heq.symm) hwindow hwindow₂
      exact hapart.pushed (h.fits hwindow₂).stop_le
    · cases hwindow₂
      have hapart := h.apart (fun heq => hfirst heq.symm) hwindow hwindow₁
      exact (hapart.pushed (h.fits hwindow₁).stop_le).symm
    · exact h.apart hne hwindow₁ hwindow₂
  · have htotal := total_pushed field Window.footprint hwindow
    have hgrowth := size_readySlots_add hfits
    have hbound := h.slots_le
    have hfootprint : (window.pushed arena.slots.size).footprint =
        (window.ready arena.slots.size).footprint := rfl
    rw [size_slots_pushed]
    omega
  · rw [setCount_pushed, size_slots_pushed, Arena.pushed, h.charged_eq, Nat.add_assoc, ← Nat.mul_add,
      Nat.add_sub_of_le hsize]

/-- Pushing appends to the list of the set. -/
theorem Sound.fields_pushed_self (h : arena.Sound) (hwindow : arena.windows[id]? = some window)
    {fields : List Field} (hfields : arena.fields id = .ok fields) :
    (arena.pushed id window field).fields id = .ok (fields ++ [field]) := by
  have hfits := h.fits hwindow
  have hwindow' := windows_pushed field hwindow id
  rw [if_pos rfl] at hwindow'
  rw [fields_eq hwindow hfits.stop_le] at hfields
  cases hfields
  have hstop := stop_ready_le hfits
  have hlt : window.length < (window.ready arena.slots.size).capacity :=
    Window.length_lt_ready hfits.length_le
  rw [Window.stop] at hstop
  have hslot : (window.ready arena.slots.size).start + window.length <
      (readySlots window arena.slots).size := by omega
  rw [fields_eq hwindow' ((h.pushed hwindow).fits hwindow').stop_le]
  congr 1
  have hlast : (arena.pushed id window field).slots[(window.ready arena.slots.size).start +
      window.length]? = some field := Array.getElem?_setIfInBounds_self_of_lt hslot
  have hfront : slice (arena.pushed id window field).slots (window.ready arena.slots.size).start
      window.length = slice arena.slots window.start window.length := by
    rw [← slice_ready hfits]
    apply slice_congr
    intro index hindex
    exact Array.getElem?_setIfInBounds_ne (by omega)
  rw [← hfront]
  exact slice_succ hlast

/-- Pushing leaves the lists of all other sets as they were. -/
theorem Sound.fields_pushed_of_ne (h : arena.Sound) (hwindow : arena.windows[id]? = some window)
    {other : Nat} (hne : other ≠ id) :
    (arena.pushed id window field).fields other = arena.fields other := by
  by_cases hother : other < arena.setCount
  · obtain ⟨window', hwindow'⟩ := window_of_lt hother
    have hfits := h.fits hwindow
    have hfits' := h.fits hwindow'
    have hsize := size_le_readySlots hfits
    have hkept := windows_pushed field hwindow other
    rw [if_neg hne, hwindow'] at hkept
    rw [fields_eq hwindow' hfits'.stop_le,
      fields_eq hkept (size_slots_pushed ▸ hfits'.stop_le.trans hsize)]
    congr 1
    apply slice_congr
    intro index hindex
    have hlength := hfits'.length_le
    have hstop := hfits'.stop_le
    have hlt : window.length < (window.ready arena.slots.size).capacity :=
      Window.length_lt_ready hfits.length_le
    have hapart : (window.ready arena.slots.size).stop ≤ window'.start ∨
        window'.stop ≤ (window.ready arena.slots.size).start :=
      (h.apart hne.symm hwindow hwindow').ready hstop (by omega) (by omega)
    simp only [Window.stop] at hapart hstop
    rw [Arena.pushed, Array.getElem?_setIfInBounds_ne (by omega), getElem?_readySlots window (by omega)]
  · have hcount : (arena.pushed id window field).setCount = arena.setCount := setCount_pushed
    rw [fields_of_le (not_lt.mp hother), fields_of_le (hcount ▸ not_lt.mp hother), hcount]

/-- A window that is full pays for the slots by which the row grows. -/
theorem slotsToGrow_eq (hfits : window.Fits arena.slots.size)
    (hfull : ¬window.length < window.capacity) :
    window.slotsToGrow arena.slots.size =
      (readySlots window arena.slots).size - arena.slots.size := by
  rcases readySlots_cases hfits with ⟨hroom, _⟩ | ⟨_, hend, hsize⟩ | ⟨_, hend, hsize⟩
  · exact absurd hroom hfull
  · rw [hsize, Window.slotsToGrow, if_pos hend, Window.grownCapacity, Window.minCapacity]
    omega
  · rw [hsize, Window.slotsToGrow, if_neg hend, Window.grownCapacity, Window.minCapacity]
    omega

/-- The arena when a window is ready for one more field. -/
def readied (arena : Arena) (id : Nat) (window : Window) : Arena :=
  ⟨readySlots window arena.slots, arena.windows.setIfInBounds id (window.ready arena.slots.size),
    arena.charged + slotBytes * ((readySlots window arena.slots).size - arena.slots.size)⟩

/-- A window with room is ready as it is, whatever the budget says. -/
theorem reserve_of_room (hwindow : arena.windows[id]? = some window)
    (hroom : window.length < window.capacity) (budget : Budget) :
    reserve id window ⟨arena, budget⟩ =
      .ok (window.ready arena.slots.size) ⟨arena.readied id window, budget⟩ := by
  obtain ⟨hid, hself⟩ := Array.getElem?_eq_some_iff.mp hwindow
  have hkept : arena.windows.setIfInBounds id window = arena.windows := by
    rw [Array.setIfInBounds_def, dif_pos hid, ← hself]
    exact Array.set_getElem_self hid
  have hready : window.ready arena.slots.size = window := if_pos hroom
  have hslots : readySlots window arena.slots = arena.slots := if_pos hroom
  rw [readied, hready, hslots, hkept, Nat.sub_self, Nat.mul_zero]
  simp only [reserve, if_pos hroom]
  rfl

/-- A full window pays for the slots by which the row grows. -/
theorem reserve_of_full (hfits : window.Fits arena.slots.size)
    (hfull : ¬window.length < window.capacity) (budget : Budget) :
    reserve id window ⟨arena, budget⟩ =
      Metered.pay ⟨arena, budget⟩
        (slotBytes * ((readySlots window arena.slots).size - arena.slots.size))
        (arena.readied id window) (window.ready arena.slots.size) := by
  have hready : window.ready arena.slots.size = window.grow arena.slots.size := if_neg hfull
  have hslots : readySlots window arena.slots = grownSlots window arena.slots := if_neg hfull
  rw [readied, ← slotsToGrow_eq hfits hfull, hready, hslots]
  cases hcharge : budget.charge? (slotBytes * window.slotsToGrow arena.slots.size) with
  | none => simp only [reserve, if_neg hfull, Metered.pay, hcharge]
  | some budget => simp only [reserve, if_neg hfull, Metered.pay, hcharge]

theorem reserve_eq {budget : Budget} (hwindow : arena.windows[id]? = some window)
    (hfits : window.Fits arena.slots.size) (hbudget : budget.Admits budget.used) :
    reserve id window ⟨arena, budget⟩ =
      Metered.pay ⟨arena, budget⟩
        (slotBytes * ((readySlots window arena.slots).size - arena.slots.size))
        (arena.readied id window) (window.ready arena.slots.size) := by
  by_cases hroom : window.length < window.capacity
  · have hslots : readySlots window arena.slots = arena.slots := if_pos hroom
    rw [reserve_of_room hwindow hroom, hslots, Nat.sub_self, Nat.mul_zero, Metered.pay_zero hbudget]
  · exact reserve_of_full hfits hroom budget

/-- A push puts the field behind those of a window that is ready. -/
theorem Sound.push_of_reserve {budget paid : Budget} (h : arena.Sound)
    (hwindow : arena.windows[id]? = some window)
    (hreserve : reserve id window ⟨arena, budget⟩ =
      .ok (window.ready arena.slots.size) ⟨arena.readied id window, paid⟩) :
    push id field ⟨arena, budget⟩ = .ok () ⟨arena.pushed id window field, paid⟩ := by
  simp only [push, window_eq hwindow (h.fits hwindow).stop_le, hreserve, readied,
    Array.setIfInBounds_setIfInBounds, Window.length_ready]
  rfl

theorem Sound.push_of_reserve_error {budget : Budget} {failure : Failure} {memory : Metered Arena}
    (h : arena.Sound) (hwindow : arena.windows[id]? = some window)
    (hreserve : reserve id window ⟨arena, budget⟩ = .error failure memory) :
    push id field ⟨arena, budget⟩ = .error failure memory := by
  simp only [push, window_eq hwindow (h.fits hwindow).stop_le, hreserve]

/-- A push pays for the slots that it adds. -/
theorem push_eq {budget : Budget} (h : arena.Sound) (hwindow : arena.windows[id]? = some window)
    (hbudget : budget.Admits budget.used) :
    push id field ⟨arena, budget⟩ =
      Metered.pay ⟨arena, budget⟩
        (slotBytes * ((readySlots window arena.slots).size - arena.slots.size))
        (arena.pushed id window field) () := by
  have hreserve := reserve_eq hwindow (h.fits hwindow) hbudget
  rw [Metered.pay] at hreserve ⊢
  dsimp only at hreserve ⊢
  cases hcharge : budget.charge?
      (slotBytes * ((readySlots window arena.slots).size - arena.slots.size)) with
  | none =>
      rw [hcharge] at hreserve
      exact h.push_of_reserve_error hwindow hreserve
  | some paid =>
      rw [hcharge] at hreserve
      exact h.push_of_reserve hwindow hreserve

/-- Whatever the budget says, a push succeeds or changes nothing. It is refused only where the budget
does not admit room for twice as many fields. -/
theorem Sound.push_cases (h : arena.Sound) (hwindow : arena.windows[id]? = some window)
    (field : Field) (budget : Budget) :
    (∃ paid, push id field ⟨arena, budget⟩ = .ok () ⟨arena.pushed id window field, paid⟩) ∨
    (push id field ⟨arena, budget⟩ = .error (.limit .outOfMemory) ⟨arena, budget⟩ ∧
      ¬budget.Admits (budget.used + slotBytes * max Window.minCapacity (2 * window.length))) := by
  have hfits := h.fits hwindow
  by_cases hroom : window.length < window.capacity
  · exact Or.inl ⟨budget, h.push_of_reserve hwindow (reserve_of_room hwindow hroom budget)⟩
  · have hreserve : reserve id window ⟨arena, budget⟩ = _ := reserve_of_full hfits hroom budget
    rw [← slotsToGrow_eq hfits hroom] at hreserve
    by_cases hadmits : budget.Admits
        (budget.used + slotBytes * window.slotsToGrow arena.slots.size)
    · rw [Metered.pay, Budget.charge?_of_admits hadmits] at hreserve
      exact Or.inl ⟨_, h.push_of_reserve hwindow hreserve⟩
    · rw [Metered.pay, Budget.charge?_of_not_admits hadmits] at hreserve
      refine Or.inr ⟨h.push_of_reserve_error hwindow hreserve, fun hmost => hadmits ?_⟩
      apply hmost.of_le
      apply Nat.add_le_add_left
      apply Nat.mul_le_mul_left
      have hlength := hfits.length_le
      have hcapacity : window.capacity = window.length := by omega
      rw [Window.slotsToGrow, Window.grownCapacity, hcapacity]
      split_ifs
      · exact Nat.sub_le _ _
      · exact Nat.le_refl _

/-! ### Replacing -/

theorem size_overwrite (fields : List Field) (slots : Array Field) (start : Nat) :
    (overwrite slots start fields).size = slots.size := by
  induction fields generalizing slots start with
  | nil => rfl
  | cons field rest ih => rw [overwrite, ih, Array.size_setIfInBounds]

theorem getElem?_overwrite (fields : List Field) {slots : Array Field} {start : Nat}
    (hstop : start + fields.length ≤ slots.size) (index : Nat) :
    (overwrite slots start fields)[index]? =
      if start ≤ index ∧ index < start + fields.length then fields[index - start]?
      else slots[index]? := by
  induction fields generalizing slots start with
  | nil =>
      rw [if_neg (by simp)]
      rfl
  | cons field rest ih =>
      rw [List.length_cons] at hstop ⊢
      rw [overwrite, ih (by rw [Array.size_setIfInBounds]; omega)]
      by_cases hstart : index = start
      · rw [if_neg (by omega), if_pos (by omega), hstart, Nat.sub_self, List.getElem?_cons_zero]
        exact Array.getElem?_setIfInBounds_self_of_lt (by omega)
      · rw [Array.getElem?_setIfInBounds_ne (fun h => hstart h.symm)]
        by_cases hlater : start + 1 ≤ index ∧ index < start + 1 + rest.length
        · obtain ⟨count, hcount⟩ : ∃ count, index - start = count + 1 := ⟨index - start - 1, by omega⟩
          rw [if_pos hlater, if_pos (by omega), hcount, List.getElem?_cons_succ]
          congr 1
          omega
        · rw [if_neg hlater, if_neg (by omega)]

def replaced (arena : Arena) (window : Window) (fields : List Field) : Arena :=
  ⟨overwrite arena.slots window.start fields, arena.windows, arena.charged⟩

theorem Sound.replaceSet_eq {fields : List Field} (h : arena.Sound)
    (hwindow : arena.windows[id]? = some window) (hlength : fields.length = window.length) :
    replaceSet id fields arena = .ok (arena.replaced window fields) := by
  rw [replaceSet, window_eq hwindow (h.fits hwindow).stop_le]
  simp only [ok_bind, if_pos hlength]
  rfl

theorem Sound.replaced {fields : List Field} (h : arena.Sound) :
    (arena.replaced window fields).Sound := by
  have hsize : (arena.replaced window fields).slots.size = arena.slots.size := size_overwrite _ _ _
  constructor
  · intro id window hwindow
    rw [hsize]
    exact h.fits hwindow
  · exact h.apart
  · rw [hsize]
    exact h.slots_le
  · rw [hsize]
    exact h.charged_eq

/-- Replacing puts the new list into the set. -/
theorem Sound.fields_replaced_self {fields : List Field} (h : arena.Sound)
    (hwindow : arena.windows[id]? = some window) (hlength : fields.length = window.length) :
    (arena.replaced window fields).fields id = .ok fields := by
  have hfits := h.fits hwindow
  have hroom := hfits.length_le
  have hstop := hfits.stop_le
  rw [Window.stop] at hstop
  have hwindow' : (arena.replaced window fields).windows[id]? = some window := hwindow
  rw [fields_eq hwindow' ((h.replaced).fits hwindow').stop_le]
  congr 1
  apply List.ext_getElem?
  intro index
  rw [getElem?_slice, Arena.replaced, getElem?_overwrite fields (by omega)]
  by_cases hindex : index < window.length
  · rw [if_pos hindex, if_pos (by omega), Nat.add_sub_cancel_left]
  · rw [if_neg hindex, List.getElem?_eq_none (by omega)]

/-- Replacing leaves the lists of all other sets as they were. -/
theorem Sound.fields_replaced_of_ne {fields : List Field} (h : arena.Sound)
    (hwindow : arena.windows[id]? = some window) (hlength : fields.length = window.length)
    {other : Nat} (hne : other ≠ id) :
    (arena.replaced window fields).fields other = arena.fields other := by
  by_cases hother : other < arena.setCount
  · obtain ⟨window', hwindow'⟩ := window_of_lt hother
    have hfits := h.fits hwindow
    have hfits' := h.fits hwindow'
    have hapart := h.apart hne.symm hwindow hwindow'
    have hroom := hfits.length_le
    have hroom' := hfits'.length_le
    have hstop := hfits.stop_le
    have hkept : (arena.replaced window fields).windows[other]? = some window' := hwindow'
    rw [fields_eq hwindow' hfits'.stop_le, fields_eq hkept (h.replaced.fits hkept).stop_le]
    congr 1
    apply slice_congr
    intro index hindex
    simp only [Window.Apart, Window.stop] at hapart hstop
    rw [Arena.replaced, getElem?_overwrite fields (by omega), if_neg]
    rintro ⟨hfront, hback⟩
    have := hapart (by omega) (by omega)
    omega
  · have hcount : (arena.replaced window fields).setCount = arena.setCount := rfl
    rw [fields_of_le (not_lt.mp hother), fields_of_le (hcount ▸ not_lt.mp hother), hcount]

end UnknownFields.Arena
