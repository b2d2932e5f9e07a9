import Mathlib
import UnknownFields.Proofs.Build.Reachable

/-!
What the total of a budget stands for. A total is never given back, so behind any builds and releases
it is the bytes of what the workspace holds now and of all that it has given up. A build that fails
has charged for nothing but what it leaves behind, wherever it has stopped.
-/

namespace UnknownFields.Workspace

/-- The bytes of all windows, of all slots and of the merge buffer. -/
def held (workspace : Workspace) : Nat :=
  Arena.windowBytes * workspace.arena.setCount + Arena.slotBytes * workspace.arena.slots.size +
    Arena.slotBytes * workspace.buffer.room

/-- Builds and releases lead from one workspace to another. The list has what was held at each of the
releases. -/
inductive Leads (start : Workspace) : List Nat → Workspace → Prop where
  | stay : Leads start [] start
  | built {mode : Mode} {input : Bytes} {released : List Nat} {before after : Workspace}
      {answer : Built} (leads : Leads start released before)
      (step : build mode input before = .ok answer after) : Leads start released after
  | stopped {mode : Mode} {input : Bytes} {released : List Nat} {before after : Workspace}
      {error : LimitError} (leads : Leads start released before)
      (step : build mode input before = .error (.limit error) after) : Leads start released after
  | released {released : List Nat} {before after : Workspace}
      (leads : Leads start released before) (step : release before = .ok () after) :
      Leads start (released ++ [before.held]) after

variable {limits : Limits} {start before after : Workspace} {released : List Nat}

/-- These are the ways in which workspaces come about. -/
theorem reachable_iff_leads :
    after.Reachable limits ↔ ∃ released, (ofLimits limits).Leads released after := by
  constructor
  · intro h
    induction h with
    | fresh => exact ⟨[], .stay⟩
    | built _ step ih =>
        obtain ⟨released, hleads⟩ := ih
        exact ⟨released, hleads.built step⟩
    | stopped _ step ih =>
        obtain ⟨released, hleads⟩ := ih
        exact ⟨released, hleads.stopped step⟩
    | released _ step ih =>
        obtain ⟨released, hleads⟩ := ih
        exact ⟨_, hleads.released step⟩
  · rintro ⟨released, hleads⟩
    induction hleads with
    | stay => exact .fresh
    | built _ step ih => exact ih.built step
    | stopped _ step ih => exact ih.stopped step
    | released _ step ih => exact ih.released step

theorem Sound.bytes_eq (h : before.Sound) : before.bytes = before.held := by
  rw [bytes, h.arena.charged_eq, held]

theorem Pays.bytes_mono (h : before.Pays after) : before.bytes ≤ after.bytes :=
  Nat.add_le_add h.charged_le (Nat.mul_le_mul_left _ h.room_le)

/-- The later workspace is sound, and the totals differ by what it holds more and by what has been
given up. -/
structure Accounts (start : Workspace) (released : List Nat) (later : Workspace) : Prop where
  sound : later.Sound
  limit_eq : later.budget.limit = start.budget.limit
  used_eq : later.budget.used + start.held = start.budget.used + later.held + released.sum
  used_le : start.budget.used ≤ later.budget.used

theorem Accounts.refl (h : start.Sound) : start.Accounts [] start where
  sound := h
  limit_eq := rfl
  used_eq := rfl
  used_le := Nat.le_refl _

/-- A build adds as much to the total as to what is held. -/
theorem Accounts.pays (h : start.Accounts released before) (hpays : before.Pays after) :
    start.Accounts released after := by
  have hused := hpays.used_eq
  have hmono := hpays.bytes_mono
  rw [h.sound.bytes_eq, hpays.sound.bytes_eq] at hused hmono
  have hearlier := h.used_eq
  have hle := h.used_le
  refine ⟨hpays.sound, hpays.limit_eq.trans h.limit_eq, ?_, ?_⟩
  · omega
  · omega

/-- A release gives up what is held and leaves the total as it is. -/
theorem Accounts.release (h : start.Accounts released before)
    (step : release before = .ok () after) :
    start.Accounts (released ++ [before.held]) after := by
  have hearlier := h.used_eq
  rw [release_eq] at step
  cases step
  refine ⟨⟨Arena.sound_empty, Arena.closed_empty, MergeBuffer.sound_empty, h.sound.admits,
    Nat.zero_le _⟩, h.limit_eq, ?_, h.used_le⟩
  rw [List.sum_append, List.sum_singleton]
  show before.budget.used + start.held = start.budget.used + 0 + (released.sum + before.held)
  omega

/-- What a single build or release does to the total goes for any number of them. -/
theorem Leads.accounts_of_sound (h : start.Leads released after) (hstart : start.Sound) :
    start.Accounts released after := by
  induction h with
  | stay => exact .refl hstart
  | built _ step ih =>
      obtain ⟨_, _, _, hfinished⟩ := ih.sound.build_done step
      exact ih.pays hfinished.pays
  | stopped _ step ih => exact ih.pays (ih.sound.build_failed step).1.pays
  | released _ step ih => exact ih.release step

/-- **Every byte of the total is accounted for.** Whatever builds and releases there have been, the
arena is charged for its windows and slots, and the total is that charge, the merge buffer, and what
was held at each release. It never decreases, it keeps within the limit, and it is a 64-bit number. -/
theorem Leads.accounts {earlier later : Workspace} {first second : List Nat}
    (h : (ofLimits limits).Leads first earlier) (h' : earlier.Leads second later) :
    later.arena.charged = 24 * later.arena.setCount + 32 * later.arena.slots.size ∧
    later.budget.used = later.arena.charged + 32 * later.buffer.room + (first ++ second).sum ∧
    earlier.budget.used ≤ later.budget.used ∧
    (∀ limit ∈ limits.arenaBytes, later.budget.used ≤ limit) ∧
    later.budget.used < 2 ^ 64 := by
  have hfirst := h.accounts_of_sound (sound_ofLimits limits)
  have hsecond := h'.accounts_of_sound hfirst.sound
  have hadmits := hsecond.sound.admits
  have hcharged := hsecond.sound.arena.charged_eq
  have hlimit : later.budget.limit = limits.arenaBytes := hsecond.limit_eq.trans hfirst.limit_eq
  have htotal : later.budget.used = later.held + (first ++ second).sum := by
    have hused : earlier.budget.used + 0 = 0 + earlier.held + first.sum := hfirst.used_eq
    have hused' := hsecond.used_eq
    rw [List.sum_append]
    omega
  refine ⟨hcharged, ?_, hsecond.used_le, ?_, hadmits.1⟩
  · rw [htotal, hcharged]
    rfl
  · rw [← hlimit]
    exact hadmits.2

set_option maxRecDepth 2000 in
/-- A build that nests too deep, a release, a build that sorts, and one that runs out of bytes before
its first set. -/
theorem accounts_behind_release :
    ∃ earlier later, (ofLimits { maxDepth := 2, arenaBytes := some 460 }).Leads [48] earlier ∧
      earlier.Leads [] later ∧ later.arena.setCount = 1 ∧ later.arena.slots.size = 4 ∧
      later.arena.charged = 24 * 1 + 32 * 4 ∧
      later.budget.used = (24 * 1 + 32 * 4) + 32 * 8 + 48 ∧
      earlier.budget.used ≤ later.budget.used ∧ later.budget.used ≤ 460 := by
  have hfails : build .lenient [0x0b, 0x0b] (ofLimits { maxDepth := 2, arenaBytes := some 460 }) =
      .error (.limit .maxDepthExceeded)
        ⟨⟨#[], #[⟨0, 0, 0⟩, ⟨0, 0, 0⟩], 48⟩, {}, ⟨some 460, 48⟩, 2⟩ := by cbv
  have hbuild : build .lenient [0x10, 0x02, 0x08, 0x01] ⟨{}, {}, ⟨some 460, 48⟩, 2⟩ = .ok ⟨0, 4⟩
      ⟨⟨#[.varint 8 1, .varint 16 2, .vacant, .vacant], #[⟨0, 2, 4⟩], 152⟩,
        ⟨8, [.varint 16 2, .varint 8 1]⟩, ⟨some 460, 456⟩, 2⟩ := by cbv
  have hfull : build .lenient [0x08, 0x01]
        ⟨⟨#[.varint 8 1, .varint 16 2, .vacant, .vacant], #[⟨0, 2, 4⟩], 152⟩,
          ⟨8, [.varint 16 2, .varint 8 1]⟩, ⟨some 460, 456⟩, 2⟩ = .error (.limit .outOfMemory)
      ⟨⟨#[.varint 8 1, .varint 16 2, .vacant, .vacant], #[⟨0, 2, 4⟩], 152⟩,
        ⟨8, [.varint 16 2, .varint 8 1]⟩, ⟨some 460, 456⟩, 2⟩ := by cbv
  have hfirst := (Leads.stay.stopped hfails).released (release_eq _)
  have hsecond := (Leads.stay.built hbuild).stopped hfull
  obtain ⟨hcharged, hused, hle, hlimit, _⟩ := hfirst.accounts hsecond
  exact ⟨_, _, hfirst, hsecond, rfl, rfl, hcharged, hused, hle, hlimit 460 rfl⟩

end UnknownFields.Workspace
