import UnknownFields.Proofs.Arena.Closed

/-!
An arena behind the sets of another one. The windows of the second arena lie behind the slots of the
first one, and its ids go on where the ids of the first one end. Every step on the second arena can
be taken before the two are put together or after: whether a window grows in place depends on where
the row of slots ends, and that is shifted with the window.
-/

namespace UnknownFields

/-- The payload when the ids of groups start from `count`. -/
def Payload.shift (count : Nat) : Payload → Payload
  | scalar value => scalar value
  | group id => group (count + id)

def Field.shift (count : Nat) (field : Field) : Field := ⟨field.tag, field.payload.shift count⟩

@[simp]
theorem Field.tag_shift (count : Nat) (field : Field) : (field.shift count).tag = field.tag := rfl

@[simp]
theorem Field.shift_vacant (count : Nat) : vacant.shift count = vacant := rfl

@[simp]
theorem Field.shift_zero (field : Field) : field.shift 0 = field := by
  obtain ⟨tag, value | id⟩ := field
  · rfl
  · rw [shift, Payload.shift, Nat.zero_add]

theorem Node.stored_map (count : Nat) (node : Node Nat) :
    (node.map (count + ·)).stored = node.stored.shift count := by
  cases node with
  | leaf =>
      rw [map_leaf]
      rfl
  | group =>
      rw [map_group]
      rfl

namespace Window

def shift (size : Nat) (window : Window) : Window := { window with start := size + window.start }

variable (size : Nat) (window : Window)

@[simp]
theorem length_shift : (window.shift size).length = window.length := rfl

@[simp]
theorem capacity_shift : (window.shift size).capacity = window.capacity := rfl

@[simp]
theorem start_shift : (window.shift size).start = size + window.start := rfl

@[simp]
theorem stop_shift : (window.shift size).stop = size + window.stop := Nat.add_assoc ..

@[simp]
theorem shift_zero : window.shift 0 = window := by
  rw [shift, Nat.zero_add]

theorem grow_shift (slots : Nat) :
    (window.shift size).grow (size + slots) = (window.grow slots).shift size := by
  simp only [grow, stop_shift, Nat.add_right_inj]
  split_ifs <;> rfl

theorem ready_shift (slots : Nat) :
    (window.shift size).ready (size + slots) = (window.ready slots).shift size := by
  simp only [ready, length_shift, capacity_shift, grow_shift]
  split_ifs <;> rfl

theorem pushed_shift (slots : Nat) :
    (window.shift size).pushed (size + slots) = (window.pushed slots).shift size := by
  simp only [pushed, ready_shift, length_shift]
  rfl

end Window

namespace Arena

/-- The arena behind the sets of `base`. -/
def beside (base arena : Arena) : Arena where
  slots := base.slots ++ arena.slots.map (Field.shift base.setCount)
  windows := base.windows ++ arena.windows.map (Window.shift base.slots.size)
  charged := base.charged + arena.charged

variable (base arena : Arena)

@[simp]
theorem setCount_beside : (base.beside arena).setCount = base.setCount + arena.setCount := by
  simp [setCount, beside]

@[simp]
theorem size_slots_beside :
    (base.beside arena).slots.size = base.slots.size + arena.slots.size := by
  simp [beside]

@[simp]
theorem charged_beside : (base.beside arena).charged = base.charged + arena.charged := rfl

@[simp]
theorem beside_empty : base.beside {} = base := by
  simp [beside]

@[simp]
theorem empty_beside : beside {} arena = arena := by
  have hslots : Field.shift 0 = id := funext Field.shift_zero
  have hwindows : Window.shift 0 = id := funext Window.shift_zero
  simp [beside, setCount, hslots, hwindows]

theorem windows_beside (id : Nat) :
    (base.beside arena).windows[base.setCount + id]? =
      arena.windows[id]?.map (Window.shift base.slots.size) := by
  rw [beside, setCount, Array.getElem?_append_right (Nat.le_add_right _ _), Nat.add_sub_cancel_left,
    Array.getElem?_map]

/-! ### Reading -/

variable {base arena} {id : Nat} {window : Window} {fields : List Field}

theorem window_beside (h : arena.window id = .ok window) :
    (base.beside arena).window (base.setCount + id) = .ok (window.shift base.slots.size) := by
  have hwindow := windows_beside base arena id
  rw [Arena.window] at h
  split at h
  · cases h
  · next found hfound =>
      split at h
      · next hstop =>
          cases h
          rw [hfound] at hwindow
          apply window_eq hwindow
          rw [Window.stop_shift, size_slots_beside]
          omega
      · cases h

theorem extract_beside (start stop : Nat) :
    (base.slots ++ arena.slots.map (Field.shift base.setCount)).extract (base.slots.size + start)
        (base.slots.size + stop) =
      (arena.slots.extract start stop).map (Field.shift base.setCount) := by
  rw [Array.extract_append, Array.extract_empty_of_size_le_start (Nat.le_add_right _ _),
    Nat.add_sub_cancel_left, Nat.add_sub_cancel_left, Array.empty_append, Array.map_extract]

/-- A set holds the same fields, with the ids of their groups shifted. -/
theorem fields_beside (h : arena.fields id = .ok fields) :
    (base.beside arena).fields (base.setCount + id) = .ok (fields.map (Field.shift base.setCount)) := by
  obtain ⟨window, hwindow, h⟩ := bind_eq_ok.mp h
  cases h
  rw [Arena.fields, window_beside hwindow, ok_bind, pure_eq_ok, Window.start_shift,
    Window.length_shift, Nat.add_assoc, beside, extract_beside, Array.toList_map]

/-- **A set denotes the same tree**, with all ids shifted. -/
theorem nodes_beside {nodes : List (Node Nat)} (h : arena.nodes id = .ok nodes) :
    (base.beside arena).nodes (base.setCount + id) =
      .ok (nodes.map (Node.map (base.setCount + ·))) := by
  induction hcount : arena.setCount - id using Nat.strong_induction_on generalizing id nodes with
  | _ count ih =>
      obtain ⟨hfields, hgroups⟩ := nodes_eq_ok_iff.mp h
      refine nodes_eq_ok_iff.mpr ⟨?_, fun tag label members hmem => ?_⟩
      · rw [fields_beside hfields, List.map_map, List.map_map]
        congr 1
        exact List.map_congr_left fun node _ => (Node.stored_map base.setCount node).symm
      · obtain ⟨node, hnode, heq⟩ := List.mem_map.mp hmem
        cases node with
        | leaf =>
            rw [Node.map_leaf] at heq
            cases heq
        | group tag' label' members' =>
            rw [Node.map_group] at heq
            cases heq
            obtain ⟨hyounger, hinside⟩ := hgroups tag label' members' hnode
            have hlabel := lt_of_nodes hinside
            exact ⟨Nat.add_lt_add_left hyounger _,
              ih (arena.setCount - label') (by omega) hinside rfl⟩

/-! ### Steps -/

theorem withSet_beside : (base.beside arena).withSet = base.beside arena.withSet := by
  simp [withSet, beside, Window.shift, Nat.add_assoc]

theorem grownSlots_beside :
    grownSlots (window.shift base.slots.size)
        (base.slots ++ arena.slots.map (Field.shift base.setCount)) =
      base.slots ++ (grownSlots window arena.slots).map (Field.shift base.setCount) := by
  have hgrown : (window.shift base.slots.size).grownCapacity = window.grownCapacity := rfl
  have hstop : (window.shift base.slots.size).stop =
      (base.slots ++ arena.slots.map (Field.shift base.setCount)).size ↔
        window.stop = arena.slots.size := by
    rw [Window.stop_shift, Array.size_append, Array.size_map, Nat.add_right_inj]
  simp only [grownSlots, hstop, hgrown, Window.capacity_shift, Window.length_shift,
    Window.start_shift, Nat.add_assoc, extract_beside]
  split_ifs <;> simp only [Array.map_append, Array.map_replicate, Field.shift_vacant,
    Array.append_assoc]

theorem readySlots_beside :
    readySlots (window.shift base.slots.size) (base.beside arena).slots =
      base.slots ++ (readySlots window arena.slots).map (Field.shift base.setCount) := by
  simp only [readySlots, Window.length_shift, Window.capacity_shift, beside, grownSlots_beside]
  split_ifs <;> rfl

theorem setIfInBounds_beside {α : Type} (front back : Array α) (index : Nat) (item : α) :
    (front ++ back).setIfInBounds (front.size + index) item =
      front ++ back.setIfInBounds index item := by
  rw [Array.setIfInBounds_append_right (Nat.le_add_right _ _), Nat.add_sub_cancel_left]

theorem pushed_beside (field : Field) :
    (base.beside arena).pushed (base.setCount + id) (window.shift base.slots.size)
        (field.shift base.setCount) =
      base.beside (arena.pushed id window field) := by
  simp only [pushed, readySlots_beside, size_slots_beside, Window.ready_shift, Window.pushed_shift,
    Window.start_shift, Window.length_shift, Nat.add_assoc, setIfInBounds_beside,
    ← Array.map_setIfInBounds, Array.size_append, Array.size_map, charged_beside]
  simp only [beside, setCount, setIfInBounds_beside, ← Array.map_setIfInBounds,
    Nat.add_sub_add_left]

theorem overwrite_beside (slots : Array Field) (start : Nat) (fields : List Field) :
    overwrite (base.slots ++ slots.map (Field.shift base.setCount)) (base.slots.size + start)
        (fields.map (Field.shift base.setCount)) =
      base.slots ++ (overwrite slots start fields).map (Field.shift base.setCount) := by
  induction fields generalizing slots start with
  | nil => rfl
  | cons field rest ih =>
      rw [List.map_cons, overwrite, overwrite, setIfInBounds_beside, ← Array.map_setIfInBounds,
        Nat.add_assoc, ih]

theorem replaced_beside :
    (base.beside arena).replaced (window.shift base.slots.size)
        (fields.map (Field.shift base.setCount)) =
      base.beside (arena.replaced window fields) := by
  simp only [replaced, beside, Window.start_shift, overwrite_beside]

end Arena

end UnknownFields
