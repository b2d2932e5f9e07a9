import UnknownFields.Proofs.Build.Moments
import UnknownFields.Proofs.Verdicts

/-!
Lenient mode is safe on every input. It checks nothing, so whatever it uses has to be there for other
reasons: the reader never leaves its input, the sets of the open levels are sets of the arena with
their windows in the row of slots, the depth is what the open groups have left of the limit, and all
totals are covered by the budget. This holds at every moment of every build. Each of them is followed
by another one until the build ends, and it can only end with a result or with a limit.
-/

namespace UnknownFields

open Workspace

/-- The slot for one more field of a set is in the row. -/
theorem Arena.Sound.slot_lt {arena : Arena} {set : Nat} {window : Window} (h : arena.Sound)
    (hwindow : arena.windows[set]? = some window) :
    (window.ready arena.slots.size).start + window.length <
      (readySlots window arena.slots).size := by
  have hfits := h.fits hwindow
  have hroom : window.length < (window.ready arena.slots.size).capacity :=
    Window.length_lt_ready hfits.length_le
  have hstop := stop_ready_le hfits
  rw [Window.stop] at hstop
  omega

namespace Build

variable {limits : Limits} {input : Bytes} {before : Workspace} {steps : Nat} {moment later : Moment}

/-- The sets that are used next: those of the open levels, and that of a group that has ended. -/
def Moment.sets (moment : Moment) : List Nat :=
  moment.ended.toList.map Prod.snd ++ openSets moment.level moment.outers

/-- At this moment nothing is used that is not there. Indices and totals are 64-bit numbers. -/
structure Moment.Safe (limits : Limits) (input : Bytes) (moment : Moment) : Prop where
  reader : moment.reader.Safe input
  sets : ∀ set ∈ moment.sets, ∃ window, moment.workspace.arena.windows[set]? = some window ∧
    window.length ≤ window.capacity ∧ window.stop ≤ moment.workspace.arena.slots.size ∧
    (window.ready moment.workspace.arena.slots.size).start + window.length <
      (Arena.readySlots window moment.workspace.arena.slots).size
  depth_eq : moment.workspace.depth + moment.outers.length = limits.maxDepth
  depth_pos : moment.outers ≠ [] → 0 < moment.workspace.depth
  charged_eq : moment.workspace.arena.charged =
    24 * moment.workspace.arena.setCount + 32 * moment.workspace.arena.slots.size
  used_ge : moment.workspace.arena.charged + 32 * moment.workspace.buffer.room ≤
    moment.workspace.budget.used
  used_lt : moment.workspace.budget.used < 2 ^ 64
  used_le : ∀ limit ∈ limits.arenaBytes, moment.workspace.budget.used ≤ limit

/-- The open levels are in order, and so is a group that has ended. -/
def Moment.Shaped (moment : Moment) : Prop :=
  match moment.ended with
  | none => ∃ roots, Open moment.workspace moment.level moment.outers roots
  | some (tag, group) => ∃ roots, Ended moment.workspace tag group moment.level moment.outers roots

structure Moment.Kept (input : Bytes) (before : Workspace) (moment : Moment) : Prop where
  reached : moment.reader.Reached input
  pays : before.Pays moment.workspace
  depth_eq : moment.workspace.depth + moment.outers.length = before.depth
  depth_pos : moment.outers ≠ [] → 0 < moment.workspace.depth
  shaped : moment.Shaped

/-- The end of a group, whether it comes with a closing tag or with the end of the input. -/
theorem Moment.Kept.finish {reader behind : Reader} {level : Level} {outer : OuterLevel}
    {outers : List OuterLevel} {workspace after : Workspace}
    (h : Moment.Kept input before ⟨reader, level, outer :: outers, none, workspace⟩)
    (hbehind : behind.Reached input)
    (step : inside (outer :: outers) (finish level) workspace = .ok () after) :
    Moment.Kept input before ⟨behind, outer.level, outers, some (outer.opened, level.set),
      { after with depth := after.depth + 1 }⟩ := by
  have hdepth : workspace.depth + (outers.length + 1) = before.depth := h.depth_eq
  obtain ⟨roots, hopen⟩ := h.shaped
  have hends := hopen.finish_ends
  rw [step] at hends
  obtain ⟨hended, hpays, hkept⟩ := hends
  refine ⟨hbehind, (h.pays.trans hpays).withDepth _, ?_, fun _ => Nat.succ_pos _, roots, hended⟩
  show after.depth + 1 + outers.length = before.depth
  rw [hkept, Nat.add_assoc, Nat.add_comm 1]
  exact hdepth

theorem Moment.Kept.next (h : moment.Kept input before) (hnext : moment.Next later) :
    later.Kept input before := by
  have hdepth := h.depth_eq
  have hpos := h.depth_pos
  cases hnext with
  | field more read step =>
      obtain ⟨roots, hopen⟩ := h.shaped
      have hends := hopen.field_ends (Token.typed_of_read read)
      rw [step] at hends
      obtain ⟨hopen', hpays, hkept⟩ := hends
      rw [← hkept] at hdepth hpos
      exact ⟨h.reached.token read, h.pays.trans hpays, hdepth, hpos, roots, hopen'⟩
  | @opening _ _ _ outers earlier after _ _ more read depth step =>
      obtain ⟨roots, hopen⟩ := h.shaped
      have hends := (hopen.withDepth (earlier.depth - 1)).opening_ends (Token.typed_of_read read)
      rw [step] at hends
      obtain ⟨hopen', hpays, hkept⟩ := hends
      dsimp only at hdepth hkept
      refine ⟨h.reached.token read, (h.pays.withDepth _).trans hpays, ?_, fun _ => ?_, roots, hopen'⟩
      · show after.depth + (outers.length + 1) = before.depth
        omega
      · show 0 < after.depth
        omega
  | closing more read step => exact h.finish (h.reached.token read) step
  | unknown more read =>
      obtain ⟨roots, hopen⟩ := h.shaped
      exact ⟨h.reached.token read, h.pays, hdepth, hpos, roots, hopen.arranged, hopen.nested,
        hopen.opened⟩
  | atEnd _ step => exact h.finish h.reached step
  | ended step =>
      obtain ⟨roots, hended⟩ := h.shaped
      have hends := hended.push_ends
      rw [step] at hends
      obtain ⟨hopen, hpays, hkept⟩ := hends
      rw [← hkept] at hdepth hpos
      exact ⟨h.reached, h.pays.trans hpays, hdepth, hpos, roots, hopen⟩

/-- What holds of the first moment and is kept by each step holds of every moment. -/
theorem Comes.kept (h : Comes input before steps moment) (hreachable : before.Reachable limits) :
    moment.Kept input before := by
  induction h with
  | start step =>
      obtain ⟨roots, harranged⟩ := hreachable.arranged
      have hends := harranged.newSet_ends
      rw [step] at hends
      obtain ⟨_, hdone⟩ := hends
      exact ⟨.start, hdone.pays, hdone.depth_eq, fun hne => absurd rfl hne, roots, hdone.arranged,
        List.pairwise_singleton _ _, nofun⟩
  | next _ next ih => exact ih.next next

/-- The sets that are used next are sets of a sound arena. -/
theorem Moment.Shaped.lt_of_mem_sets (h : moment.Shaped) {set : Nat} (hset : set ∈ moment.sets) :
    set < moment.workspace.arena.setCount := by
  obtain ⟨reader, level, outers, ended, workspace⟩ := moment
  cases ended with
  | none =>
      obtain ⟨roots, hopen⟩ := h
      exact hopen.arranged.owned.lt_of_mem (List.mem_append_left _ hset)
  | some group =>
      obtain ⟨tag, group⟩ := group
      obtain ⟨roots, hended⟩ := h
      apply hended.arranged.owned.lt_of_mem
      exact List.mem_append_left roots hset

theorem Moment.Kept.safe (h : moment.Kept input before) (hreachable : before.Reachable limits) :
    moment.Safe limits input := by
  have hsound := h.pays.sound
  have hlimit : moment.workspace.budget.limit = limits.arenaBytes :=
    h.pays.limit_eq.trans hreachable.limit_eq
  refine ⟨h.reached.safe, fun set hset => ?_, h.depth_eq.trans hreachable.depth_eq, h.depth_pos,
    hsound.arena.charged_eq, hsound.bytes_le, hsound.admits.1, hlimit ▸ hsound.admits.2⟩
  obtain ⟨window, hwindow⟩ := Arena.window_of_lt (h.shaped.lt_of_mem_sets hset)
  have hfits := hsound.arena.fits hwindow
  exact ⟨window, hwindow, hfits.length_le, hfits.stop_le, hsound.arena.slot_lt hwindow⟩

/-- A build of the input is safe: wherever reads can lead in the input, at every moment, and at its
end. The field loop takes a byte at least each time. -/
structure Safe (limits : Limits) (input : Bytes) (before : Workspace) : Prop where
  readers : ∀ reader : Reader, reader.Reached input → reader.Safe input
  moments : ∀ steps moment, Comes input before steps moment →
    moment.Safe limits input ∧ moment.result = Workspace.build .lenient input before ∧ moment.GoesOn
  advances : ∀ steps moment later, Comes input before steps moment → moment.Next later →
    moment.ended = none → moment.reader.rest ≠ [] → moment.reader.position < later.reader.position
  steps_le : ∀ steps moment, Comes input before steps moment → steps ≤ 4 * input.length
  ends : (∃ built after, Workspace.build .lenient input before = .ok built after) ∨
    ∃ error after, Workspace.build .lenient input before = .error (.limit error) after

theorem Comes.position_lt (h : Comes input before steps moment) (hreachable : before.Reachable limits)
    (hnext : moment.Next later) (hended : moment.ended = none) (hrest : moment.reader.rest ≠ []) :
    moment.reader.position < later.reader.position := by
  have hreached := (h.kept hreachable).reached
  cases hnext with
  | field more read _ => exact hreached.position_lt more read
  | opening more read _ _ => exact hreached.position_lt more read
  | closing more read _ => exact hreached.position_lt more read
  | unknown more read => exact hreached.position_lt more read
  | atEnd none_left _ => exact absurd none_left hrest
  | ended _ => cases hended

theorem safe_of_reachable (h : before.Reachable limits) (input : Bytes) :
    Safe limits input before where
  readers _ hreached := hreached.safe
  moments _ _ hcomes := ⟨(hcomes.kept h).safe h, hcomes.result_eq, Moment.goesOn _⟩
  advances _ _ _ hcomes hnext hended hrest := hcomes.position_lt h hnext hended hrest
  steps_le _ _ hcomes := by
    have hle := hcomes.steps_le
    omega
  ends := by
    cases hbuild : Workspace.build .lenient input before with
    | ok built after => exact Or.inl ⟨built, after, rfl⟩
    | error failure after =>
        cases failure with
        | limit error => exact Or.inr ⟨error, after, rfl⟩
        | fault fault => exact absurd hbuild (h.sound.build_lenient input fault after)

end Build

theorem FieldTree.parse_lenient (limits : Limits) (input : Bytes) :
    (∃ tree nodes, parse .lenient limits input = .ok tree ∧ tree.nodes = .ok nodes) ∨
      ∃ error, parse .lenient limits input = .error (.limit error) := by
  have hfresh : (ofLimits limits).Reachable limits := .fresh
  rcases (Build.safe_of_reachable hfresh input).ends with
    ⟨built, after, hbuild⟩ | ⟨error, after, hbuild⟩
  · have hparse := parse_eq_ok_iff.mpr ⟨built, after, hbuild, rfl⟩
    obtain ⟨_, nodes, hnodes⟩ := nodes_of_parse hparse
    exact Or.inl ⟨_, nodes, hparse, hnodes⟩
  · refine Or.inr ⟨error, ?_⟩
    rw [parse, hbuild]

/-- A lenient comparison comes to a verdict. -/
theorem compareInputs_lenient (limits : Limits) (left right : Bytes) :
    ∃ verdict, compareInputs .lenient limits left right = .ok verdict := by
  rcases compareInputs_cases limits left right with ⟨agree, hverdict⟩ | ⟨error, _, hlimit, _⟩
  · exact ⟨.ofAgreement agree, hverdict⟩
  · exact ⟨.limit error, hlimit⟩

/-- **Lenient mode is safe.** Whatever has been built before, the build of any input uses nothing that
is not there, moves on in its input, and ends with a result or a limit. All sets that there are can
be read out, which is all that a document of them needs, and compared with all sets of any other
workspace. So any buffer parses to a tree that can be read out, or meets a limit, and any two buffers
compare. -/
theorem Workspace.Reachable.lenient_safe {limits : Limits} {before : Workspace}
    (h : before.Reachable limits) (input : Bytes) :
    Build.Safe limits input before ∧
    (∀ id < before.arena.setCount, ∃ nodes, before.arena.nodes id = .ok nodes) ∧
    (∀ (limits' : Limits) (other : Workspace), other.Reachable limits' → ∀ id < before.arena.setCount,
      ∀ otherId < other.arena.setCount,
        ∃ same, before.arena.setsAgree other.arena id otherId = .ok same) ∧
    ((∃ tree nodes, FieldTree.parse .lenient limits input = .ok tree ∧ tree.nodes = .ok nodes) ∨
      ∃ error, FieldTree.parse .lenient limits input = .error (.limit error)) ∧
    ∀ right, ∃ verdict, compareInputs .lenient limits input right = .ok verdict := by
  refine ⟨Build.safe_of_reachable h input, fun id hid => h.sound.closed.nodes_eq_ok h.sound.arena hid,
    fun limits' other hother id hid otherId hotherId => ?_, FieldTree.parse_lenient limits input,
    compareInputs_lenient limits input⟩
  obtain ⟨nodes, hnodes⟩ := h.sound.closed.nodes_eq_ok h.sound.arena hid
  obtain ⟨others, hothers⟩ := hother.sound.closed.nodes_eq_ok hother.sound.arena hotherId
  obtain ⟨same, hsame, _⟩ := Arena.setsAgree_eq hnodes hothers
  exact ⟨same, hsame⟩

set_option maxRecDepth 2000 in
/-- A group that is not closed, with a field whose length is cut off, behind the two sets of a build
that nests too deep. All three bytes are read in two steps. -/
theorem lenient_safe_cut_off :
    ∃ before moment, before.Reachable { maxDepth := 2 } ∧ before.arena.setCount = 2 ∧
      Build.Comes [0x0b, 0x12, 0xff] before 2 moment ∧ moment.reader = ⟨[], 3⟩ ∧
      moment.sets = [3, 2] ∧ moment.Safe { maxDepth := 2 } [0x0b, 0x12, 0xff] ∧ moment.GoesOn ∧
      (∃ same, before.arena.setsAgree before.arena 0 1 = .ok same) ∧
      ∃ verdict, compareInputs .lenient { maxDepth := 2 } [0x0b, 0x12, 0xff] [0xff] = .ok verdict := by
  have hfails : build .lenient [0x0b, 0x0b] (ofLimits { maxDepth := 2 }) =
      .error (.limit .maxDepthExceeded)
        ⟨⟨#[], #[⟨0, 0, 0⟩, ⟨0, 0, 0⟩], 48⟩, {}, ⟨none, 48⟩, 2⟩ := by cbv
  have hfirst : onArena Arena.newSet ⟨⟨#[], #[⟨0, 0, 0⟩, ⟨0, 0, 0⟩], 48⟩, {}, ⟨none, 48⟩, 2⟩ =
      .ok 2 ⟨⟨#[], #[⟨0, 0, 0⟩, ⟨0, 0, 0⟩, ⟨0, 0, 0⟩], 72⟩, {}, ⟨none, 72⟩, 2⟩ := by cbv
  have hopening : Build.inside [⟨Level.see { set := 2 } ⟨0x0b⟩, ⟨0x0b⟩⟩] (onArena Arena.newSet)
        ⟨⟨#[], #[⟨0, 0, 0⟩, ⟨0, 0, 0⟩, ⟨0, 0, 0⟩], 72⟩, {}, ⟨none, 72⟩, 1⟩ =
      .ok 3 ⟨⟨#[], #[⟨0, 0, 0⟩, ⟨0, 0, 0⟩, ⟨0, 0, 0⟩, ⟨0, 0, 0⟩], 96⟩, {}, ⟨none, 96⟩, 1⟩ := by cbv
  have hfield : Build.inside [⟨Level.see { set := 2 } ⟨0x0b⟩, ⟨0x0b⟩⟩]
        (onArena (Arena.push 3 ⟨⟨0x12⟩, .scalar (.delimited [])⟩))
        ⟨⟨#[], #[⟨0, 0, 0⟩, ⟨0, 0, 0⟩, ⟨0, 0, 0⟩, ⟨0, 0, 0⟩], 96⟩, {}, ⟨none, 96⟩, 1⟩ =
      .ok () ⟨⟨#[⟨⟨0x12⟩, .scalar (.delimited [])⟩, .vacant, .vacant, .vacant],
        #[⟨0, 0, 0⟩, ⟨0, 0, 0⟩, ⟨0, 0, 0⟩, ⟨0, 1, 4⟩], 224⟩, {}, ⟨none, 224⟩, 1⟩ := by cbv
  have hread : Token.read .lenient ⟨[0x0b, 0x12, 0xff], 0⟩ =
      .ok (.opening ⟨0x0b⟩, ⟨[0x12, 0xff], 1⟩) := by cbv
  have hread' : Token.read .lenient ⟨[0x12, 0xff], 1⟩ =
      .ok (.field ⟨0x12⟩ (.delimited []), ⟨[], 3⟩) := by cbv
  have hcomes := ((Build.Comes.start hfirst).next (.opening (by simp) hread (by decide) hopening)).next
    (.field (by simp) hread' hfield)
  have hreachable := Reachable.fresh.stopped hfails
  obtain ⟨hsafe, _, hagree, _, hverdict⟩ := hreachable.lenient_safe [0x0b, 0x12, 0xff]
  obtain ⟨hmoment, _, hgoesOn⟩ := hsafe.moments _ _ hcomes
  exact ⟨_, _, hreachable, rfl, hcomes, rfl, rfl, hmoment, hgoesOn,
    hagree _ _ hreachable 0 (by decide) 1 (by decide), hverdict [0xff]⟩

end UnknownFields
