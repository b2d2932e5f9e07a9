import UnknownFields.Build
import UnknownFields.Proofs.Arena.Closed
import UnknownFields.Proofs.Room

/-!
The steps of a build on a sound workspace. Each of them pays for the slots, windows and room that it
adds, and fails only where the budget does not admit the total. What a sound workspace has been
charged for is covered by the number of its sets and fields.
-/

namespace UnknownFields

/-- What holds at the end of a step, after success and after failure. -/
def Ends {α : Type} (done : α → Workspace → Prop) (failed : Failure → Workspace → Prop) :
    EStateM.Result Failure Workspace α → Prop
  | .ok answer workspace => done answer workspace
  | .error failure workspace => failed failure workspace

namespace Ends

variable {α β : Type} {done done' : α → Workspace → Prop} {failed failed' : Failure → Workspace → Prop}
  {result : EStateM.Result Failure Workspace α}

theorem imp (h : Ends done failed result) (hdone : ∀ answer after, done answer after → done' answer after)
    (hfailed : ∀ failure after, failed failure after → failed' failure after) :
    Ends done' failed' result := by
  cases result with
  | ok answer after => exact hdone answer after h
  | error failure after => exact hfailed failure after h

/-- A step and what follows it. -/
theorem bind {step : Build α} {next : α → Build β} {before : Workspace}
    {finished : β → Workspace → Prop} (h : Ends done failed (step before))
    (hnext : ∀ answer after, done answer after → Ends finished failed' (next answer after))
    (hfailed : ∀ failure after, failed failure after → failed' failure after) :
    Ends finished failed' ((step >>= next) before) := by
  simp only [Bind.bind, EStateM.bind]
  cases hstep : step before with
  | ok answer after =>
      rw [hstep] at h
      exact hnext answer after h
  | error failure after =>
      rw [hstep] at h
      exact hfailed failure after h

end Ends

def leftBehind {α : Type} : EStateM.Result Failure Workspace α → Workspace
  | .ok _ after | .error _ after => after

theorem Ends.leftBehind {α : Type} {done : α → Workspace → Prop} {failed : Failure → Workspace → Prop}
    {result : EStateM.Result Failure Workspace α} (h : Ends done failed result) :
    (∃ answer, done answer (leftBehind result)) ∨ ∃ failure, failed failure (leftBehind result) := by
  cases result with
  | ok answer after => exact Or.inl ⟨answer, h⟩
  | error failure after => exact Or.inr ⟨failure, h⟩

/-! ### Paying -/

namespace Workspace

/-- What the arena and the merge buffer have been charged for. -/
def bytes (workspace : Workspace) : Nat :=
  workspace.arena.charged + Arena.slotBytes * workspace.buffer.room

/-- What builds and releases keep: every set can be read out, a merge has the room that it needs,
and what there is has been paid for within the limit. -/
structure Sound (workspace : Workspace) : Prop where
  arena : workspace.arena.Sound
  closed : workspace.arena.Closed
  buffer : workspace.buffer.Sound
  admits : workspace.budget.Admits workspace.budget.used
  bytes_le : workspace.bytes ≤ workspace.budget.used

theorem sound_ofLimits (limits : Limits) : (ofLimits limits).Sound where
  arena := Arena.sound_empty
  closed := Arena.closed_empty
  buffer := MergeBuffer.sound_empty
  admits := ⟨show 0 < UInt64.size by decide, fun _ _ => Nat.zero_le _⟩
  bytes_le := Nat.le_refl 0

/-- A bound for what an arena and a merge buffer have been charged for. No more than three quarters of
the slots are empty or have been left behind, and a merge buffer for all fields is no larger than
that either. -/
def cover (arena : Arena) (buffer : MergeBuffer) : Nat :=
  24 * arena.setCount + 128 * arena.stored + 32 * max buffer.room (4 * arena.stored)

theorem charged_le_cover {arena : Arena} (h : arena.Sound) (buffer : MergeBuffer) :
    arena.charged + Arena.slotBytes * buffer.room ≤ cover arena buffer := by
  have hslots := h.size_le
  rw [h.charged_eq, cover, Arena.windowBytes, Arena.slotBytes]
  omega

/-- The later workspace is sound, it has no less than the other one, and everything that it has more
is paid for. -/
structure Pays (before after : Workspace) : Prop where
  sound : after.Sound
  limit_eq : after.budget.limit = before.budget.limit
  used_eq : after.budget.used + before.bytes = before.budget.used + after.bytes
  charged_le : before.arena.charged ≤ after.arena.charged
  room_le : before.buffer.room ≤ after.buffer.room

variable {before middle after : Workspace}

theorem Pays.refl (h : before.Sound) : before.Pays before :=
  ⟨h, rfl, rfl, Nat.le_refl _, Nat.le_refl _⟩

theorem Pays.trans (h : before.Pays middle) (h' : middle.Pays after) : before.Pays after where
  sound := h'.sound
  limit_eq := h'.limit_eq.trans h.limit_eq
  used_eq := by
    have := h.used_eq
    have := h'.used_eq
    omega
  charged_le := h.charged_le.trans h'.charged_le
  room_le := h.room_le.trans h'.room_le

theorem Pays.admits_iff (h : before.Pays after) (total : Nat) :
    after.budget.Admits total ↔ before.budget.Admits total := by
  rw [Budget.Admits, h.limit_eq]
  rfl

/-- The budget does not admit a total at which the memory would be within the bound. -/
def OutOfRoom (before : Workspace) (bound : Nat) : Prop :=
  ∃ total, total + before.bytes ≤ before.budget.used + bound ∧ ¬before.budget.Admits total

theorem OutOfRoom.mono {bound larger : Nat} (h : before.OutOfRoom bound) (hle : bound ≤ larger) :
    before.OutOfRoom larger := by
  obtain ⟨total, htotal, hadmits⟩ := h
  exact ⟨total, by omega, hadmits⟩

theorem Pays.outOfRoom {bound : Nat} (h : before.Pays after) (hroom : after.OutOfRoom bound) :
    before.OutOfRoom bound := by
  obtain ⟨total, htotal, hadmits⟩ := hroom
  rw [h.admits_iff] at hadmits
  refine ⟨total, ?_, hadmits⟩
  have := h.used_eq
  omega

def paid (before : Workspace) (cost : Nat) (arena : Arena) (buffer : MergeBuffer) : Workspace :=
  ⟨arena, buffer, { before.budget with used := before.budget.used + cost }, before.depth⟩

def pay {α : Type} (before : Workspace) (cost : Nat) (arena : Arena) (buffer : MergeBuffer)
    (answer : α) : EStateM.Result Failure Workspace α :=
  match before.budget.charge? cost with
  | none => .error (.limit .outOfMemory) before
  | some budget => .ok answer ⟨arena, buffer, budget, before.depth⟩

theorem onArena_eq {α : Type} {step : Metering Arena α} {cost : Nat} {arena : Arena} {answer : α}
    (h : step ⟨before.arena, before.budget⟩ =
      Metered.pay ⟨before.arena, before.budget⟩ cost arena answer) :
    onArena step before = before.pay cost arena before.buffer answer := by
  obtain ⟨arena, buffer, budget, depth⟩ := before
  simp only [onArena, pay, Metered.pay] at h ⊢
  rw [h]
  cases budget.charge? cost <;> rfl

theorem onBuffer_eq {α : Type} {step : Metering MergeBuffer α} {cost : Nat} {buffer : MergeBuffer}
    {answer : α} (h : step ⟨before.buffer, before.budget⟩ =
      Metered.pay ⟨before.buffer, before.budget⟩ cost buffer answer) :
    onBuffer step before = before.pay cost before.arena buffer answer := by
  obtain ⟨arena, buffer, budget, depth⟩ := before
  simp only [onBuffer, pay, Metered.pay] at h ⊢
  rw [h]
  cases budget.charge? cost <;> rfl

/-- What a step may pay `cost` for: memory that is sound, and larger by what the cost comes to. -/
structure Affords (before : Workspace) (cost : Nat) (arena : Arena) (buffer : MergeBuffer) : Prop where
  arena_sound : arena.Sound
  arena_closed : arena.Closed
  buffer_sound : buffer.Sound
  charged_le : before.arena.charged ≤ arena.charged
  room_le : before.buffer.room ≤ buffer.room
  cost_eq : cost + before.bytes = arena.charged + Arena.slotBytes * buffer.room

/-- A step that fails for want of room leaves the workspace as it was. -/
def RanOut (before : Workspace) (bound : Nat) (failure : Failure) (after : Workspace) : Prop :=
  failure = .limit .outOfMemory ∧ after = before ∧ before.OutOfRoom bound

theorem RanOut.mono {bound larger : Nat} {failure : Failure} (h : before.RanOut bound failure after)
    (hle : bound ≤ larger) : before.RanOut larger failure after :=
  ⟨h.1, h.2.1, h.2.2.mono hle⟩

section Affords

variable {α : Type} {cost : Nat} {arena : Arena} {buffer : MergeBuffer} {answer : α}

theorem Affords.pays (h : before.Sound) (hcost : before.Affords cost arena buffer)
    (hadmits : before.budget.Admits (before.budget.used + cost)) :
    before.Pays (before.paid cost arena buffer) := by
  have hbytes := hcost.cost_eq
  refine ⟨⟨hcost.arena_sound, hcost.arena_closed, hcost.buffer_sound, hadmits, ?_⟩, rfl, ?_,
    hcost.charged_le, hcost.room_le⟩
  · have := h.bytes_le
    show arena.charged + Arena.slotBytes * buffer.room ≤ before.budget.used + cost
    omega
  · show before.budget.used + cost + before.bytes =
      before.budget.used + (arena.charged + Arena.slotBytes * buffer.room)
    omega

/-- A step that pays for a sound state reaches it, unless the budget does not admit the total. -/
theorem pay_ends (h : before.Sound) (hcost : before.Affords cost arena buffer) :
    Ends (fun found after => found = answer ∧ after.arena = arena ∧ after.buffer = buffer ∧
        after.depth = before.depth ∧ before.Pays after)
      (before.RanOut (cover arena buffer))
      (before.pay cost arena buffer answer) := by
  by_cases hadmits : before.budget.Admits (before.budget.used + cost)
  · rw [pay, Budget.charge?_of_admits hadmits]
    exact ⟨rfl, rfl, rfl, rfl, hcost.pays h hadmits⟩
  · rw [pay, Budget.charge?_of_not_admits hadmits]
    refine ⟨rfl, rfl, before.budget.used + cost, ?_, hadmits⟩
    rw [Nat.add_assoc, hcost.cost_eq]
    exact Nat.add_le_add_left (charged_le_cover hcost.arena_sound buffer) _

end Affords

/-! ### Steps -/

theorem newSet_eq (before : Workspace) :
    onArena Arena.newSet before =
      before.pay Arena.windowBytes before.arena.withSet before.buffer before.arena.setCount :=
  onArena_eq (Arena.newSet_eq before.arena before.budget)

theorem newSet_affords (h : before.Sound) :
    before.Affords Arena.windowBytes before.arena.withSet before.buffer where
  arena_sound := h.arena.withSet
  arena_closed := h.closed.withSet h.arena
  buffer_sound := h.buffer
  charged_le := Nat.le_add_right _ _
  room_le := Nat.le_refl _
  cost_eq := by
    rw [bytes, Arena.charged_withSet]
    omega

theorem newSet_ends (h : before.Sound) :
    Ends (fun set after => set = before.arena.setCount ∧ after.arena = before.arena.withSet ∧
        after.depth = before.depth ∧ before.Pays after ∧
        cover after.arena after.buffer ≤ cover before.arena before.buffer + 24)
      (before.RanOut (cover before.arena before.buffer + 24))
      (onArena Arena.newSet before) := by
  have hcover : cover before.arena.withSet before.buffer = cover before.arena before.buffer + 24 := by
    rw [cover, cover, Arena.setCount_withSet, Arena.stored_withSet]
    omega
  rw [newSet_eq, ← hcover]
  refine (pay_ends h (newSet_affords h)).imp ?_ fun _ _ hfailed => hfailed
  rintro set after ⟨hset, harena, hbuffer, hdepth, hpays⟩
  rw [harena, hbuffer]
  exact ⟨hset, rfl, hdepth, hpays, Nat.le_refl _⟩

section Set

variable {set : Nat} {fields : List Field} {window : Window}

def slotsFor (workspace : Workspace) (window : Window) : Nat :=
  (Arena.readySlots window workspace.arena.slots).size - workspace.arena.slots.size

theorem push_eq (h : before.Sound) (hwindow : before.arena.windows[set]? = some window)
    (field : Field) :
    onArena (Arena.push set field) before =
      before.pay (Arena.slotBytes * before.slotsFor window) (before.arena.pushed set window field)
        before.buffer () :=
  onArena_eq (Arena.push_eq h.arena hwindow h.admits)

theorem push_affords (h : before.Sound) (hwindow : before.arena.windows[set]? = some window)
    (hfields : before.arena.fields set = .ok fields) {field : Field}
    (hgroup : ∀ member, field.payload = .group member →
      set < member ∧ member < before.arena.setCount) :
    before.Affords (Arena.slotBytes * before.slotsFor window)
      (before.arena.pushed set window field) before.buffer where
  arena_sound := h.arena.pushed hwindow
  arena_closed := by
    refine h.closed.changes (h.arena.changes_pushed hwindow hfields field) ?_
    intro tag member hmem
    rcases List.mem_append.mp hmem with hold | hnew
    · exact h.closed.younger hfields hold
    · exact hgroup member (by rw [← List.mem_singleton.mp hnew])
  buffer_sound := h.buffer
  charged_le := Nat.le_add_right _ _
  room_le := Nat.le_refl _
  cost_eq := by
    rw [bytes, Arena.charged_pushed, slotsFor]
    omega

theorem push_ends (h : before.Sound) (hfields : before.arena.fields set = .ok fields)
    {field : Field} (hgroup : ∀ member, field.payload = .group member →
      set < member ∧ member < before.arena.setCount) :
    Ends (fun _ after => before.arena.Changes after.arena set (fields ++ [field]) ∧
        after.depth = before.depth ∧ before.Pays after ∧
        cover after.arena after.buffer ≤ cover before.arena before.buffer + 256)
      (before.RanOut (cover before.arena before.buffer + 256))
      (onArena (Arena.push set field) before) := by
  obtain ⟨window, hwindow⟩ := Arena.window_of_lt (Arena.lt_of_fields hfields)
  have hcover : cover (before.arena.pushed set window field) before.buffer ≤
      cover before.arena before.buffer + 256 := by
    rw [cover, cover, Arena.setCount_pushed, Arena.stored_pushed hwindow]
    omega
  rw [push_eq h hwindow]
  refine (pay_ends h (push_affords h hwindow hfields hgroup)).imp ?_
    fun _ _ hfailed => hfailed.mono hcover
  rintro _ after ⟨_, harena, hbuffer, hdepth, hpays⟩
  rw [harena, hbuffer]
  exact ⟨h.arena.changes_pushed hwindow hfields field, hdepth, hpays, hcover⟩

/-- What a sort pays for. -/
def roomFor (workspace : Workspace) (fields : List Field) : Nat :=
  MergeBuffer.grownRoom fields.length workspace.buffer.room - workspace.buffer.room

theorem sortSet_eq (h : before.Sound) (hwindow : before.arena.windows[set]? = some window)
    (hfields : before.arena.fields set = .ok fields) :
    ∃ left, before.Affords (Arena.slotBytes * before.roomFor fields)
        (before.arena.replaced window (sortByTag Field.tag fields))
        ⟨MergeBuffer.grownRoom fields.length before.buffer.room, left⟩ ∧
      sortSet set before = before.pay (Arena.slotBytes * before.roomFor fields)
        (before.arena.replaced window (sortByTag Field.tag fields))
        ⟨MergeBuffer.grownRoom fields.length before.buffer.room, left⟩ () := by
  obtain ⟨left, hleft, hsort⟩ := MergeBuffer.sort_eq h.buffer.held_le h.admits fields
  have hperm := sortByTag_perm Field.tag fields
  have hkept : (sortByTag Field.tag fields).length = window.length := by
    rw [hperm.length_eq]
    exact h.arena.length_fields hwindow hfields
  refine ⟨left, ⟨h.arena.replaced, ?_, ⟨hleft, h.buffer.rounded.grownRoom _⟩, Nat.le_refl _,
    MergeBuffer.room_le_grownRoom _ _, ?_⟩, ?_⟩
  · refine h.closed.changes (h.arena.changes_replaced hwindow hkept) ?_
    intro tag member hmem
    exact h.closed.younger hfields (hperm.mem_iff.mp hmem)
  · show _ + (before.arena.charged + Arena.slotBytes * before.buffer.room) =
      before.arena.charged +
        Arena.slotBytes * MergeBuffer.grownRoom fields.length before.buffer.room
    rw [Nat.add_left_comm, ← Nat.mul_add, roomFor,
      Nat.sub_add_cancel (MergeBuffer.room_le_grownRoom fields.length before.buffer.room)]
  · simp only [sortSet, hfields, onBuffer_eq hsort, pay, roomFor]
    cases before.budget.charge? (Arena.slotBytes *
        (MergeBuffer.grownRoom fields.length before.buffer.room - before.buffer.room)) with
    | none => rfl
    | some budget => simp only [h.arena.replaceSet_eq hwindow hkept]

/-- A list of two fields or more is sorted within the bound, and one field in a buffer that is used
for the first time needs `spare` more room. -/
theorem sortSet_ends (h : before.Sound) (hfields : before.arena.fields set = .ok fields) {spare : Nat}
    (hspare : MergeBuffer.minRoom ≤ 4 * fields.length + spare) :
    Ends (fun _ after => before.arena.Changes after.arena set (sortByTag Field.tag fields) ∧
        after.depth = before.depth ∧ before.Pays after ∧
        cover after.arena after.buffer ≤ cover before.arena before.buffer + 32 * spare)
      (before.RanOut (cover before.arena before.buffer + 32 * spare))
      (sortSet set before) := by
  obtain ⟨window, hwindow⟩ := Arena.window_of_lt (Arena.lt_of_fields hfields)
  obtain ⟨left, hcost, hstep⟩ := sortSet_eq h hwindow hfields
  have hkept : (sortByTag Field.tag fields).length = window.length := by
    rw [(sortByTag_perm Field.tag fields).length_eq]
    exact h.arena.length_fields hwindow hfields
  have hcover : cover (before.arena.replaced window (sortByTag Field.tag fields))
        ⟨MergeBuffer.grownRoom fields.length before.buffer.room, left⟩ ≤
      cover before.arena before.buffer + 32 * spare := by
    have hroom := MergeBuffer.grownRoom_le fields.length before.buffer.room (by omega) hspare
    have hstored := h.arena.length_le_stored hfields
    have hsame : (before.arena.replaced window (sortByTag Field.tag fields)).stored =
      before.arena.stored := rfl
    have hcount : (before.arena.replaced window (sortByTag Field.tag fields)).setCount =
      before.arena.setCount := rfl
    rw [cover, cover, hsame, hcount]
    dsimp only
    omega
  rw [hstep]
  refine (pay_ends h hcost).imp ?_ fun _ _ hfailed => hfailed.mono hcover
  rintro _ after ⟨_, harena, hbuffer, hdepth, hpays⟩
  rw [harena, hbuffer]
  exact ⟨h.arena.changes_replaced hwindow hkept, hdepth, hpays, hcover⟩

end Set

end Workspace

end UnknownFields
