import Mathlib
import UnknownFields.Proofs.Build.Beside
import UnknownFields.Proofs.Build.Parsing
import UnknownFields.Proofs.Wire.Lenient

/-!
Builds in one workspace do not affect each other. Whatever has been built before, and however it has
ended, a build gives all depth back, keeps the sets that are there, and makes the tree that a parse
makes of its input, behind them. The only thing that earlier builds use up is the budget.
-/

namespace UnknownFields.Workspace

variable {limits : Limits} {mode : Mode} {input : Bytes} {before after : Workspace} {built : Built}

/-- In lenient mode the only failures are limits. -/
theorem Sound.build_lenient (h : before.Sound) (input : Bytes) (fault : Fault) (after : Workspace) :
    build .lenient input before ≠ .error (.fault fault) after := by
  intro hbuild
  obtain ⟨found, hcontents⟩ := TokenStream.contents_lenient input (before.arena.setCount + 1)
  have hallowed : TokenStream.contents .lenient input (before.arena.setCount + 1) = .error fault :=
    (h.build_failed hbuild).1.allowed
  rw [hcontents] at hallowed
  cases hallowed

/-- A build keeps the sets that are there, and the depth. -/
theorem Sound.build_keeps (h : before.Sound) (mode : Mode) (input : Bytes) :
    (leftBehind (build mode input before)).arena.Extends before.arena ∧
      (leftBehind (build mode input before)).depth = before.depth := by
  rcases (Build.build_ends mode input h).leftBehind with ⟨_, _, _, _, hfinished⟩ | ⟨_, hfailed⟩
  · exact ⟨hfinished.extends_base, hfinished.depth_eq⟩
  · exact ⟨hfailed.extends_base, hfailed.depth_eq⟩

theorem Reachable.build_follows (h : before.Reachable limits) (mode : Mode) (input : Bytes) :
    Follows before (Build.SameBuilt before) (build mode input (ofLimits limits))
      (build mode input before) := by
  refine Build.build_follows mode input h.sound h.depth_eq fun total hadmits => ?_
  rwa [Budget.Admits, h.limit_eq] at hadmits

/-- A build that succeeds behind other sets makes the tree of a parse there. -/
theorem Follows.parse_of_ok (h : Follows before (Build.SameBuilt before)
      (build mode input (ofLimits limits)) (.ok built after)) :
    ∃ tree, FieldTree.parse mode limits input = .ok tree ∧
      built.root = before.arena.setCount + tree.root ∧
      after.arena = before.arena.beside tree.arena := by
  generalize hfresh : build mode input (ofLimits limits) = result at h
  cases h with
  | @done single _ alone _ answers beside =>
      refine ⟨⟨alone.arena, single.root⟩, ?_, ?_, beside.arena_eq⟩
      · exact FieldTree.parse_eq_ok_iff.mpr ⟨single, alone, hfresh, rfl⟩
      · rw [answers]

theorem Reachable.build_beside (h : before.Reachable limits)
    (hbuild : build mode input before = .ok built after) :
    built.root = before.arena.setCount ∧ ∃ tree nodes, FieldTree.parse mode limits input = .ok tree ∧
      tree.nodes = .ok nodes ∧
      after.arena.nodes built.root = .ok (nodes.map (Node.map (before.arena.setCount + ·))) := by
  have hfollows := h.build_follows mode input
  rw [hbuild] at hfollows
  obtain ⟨tree, hparse, hroot, harena⟩ := hfollows.parse_of_ok
  obtain ⟨hfirst, nodes, hnodes⟩ := FieldTree.nodes_of_parse hparse
  refine ⟨by rw [hroot, hfirst, Nat.add_zero], tree, nodes, hparse, hnodes, ?_⟩
  rw [hroot, harena]
  exact Arena.nodes_beside hnodes

/-- What a build has charged for when it stops, by the length of its input. -/
theorem bytes_build_le (limits : Limits) (mode : Mode) (input : Bytes) :
    (leftBehind (build mode input (ofLimits limits))).bytes ≤ 24 + 280 * input.length := by
  have hcover : cover (ofLimits limits).arena (ofLimits limits).buffer = 0 := rfl
  have hends := Build.build_ends mode input (sound_ofLimits limits)
  have hsound := (Task.pays_of_ends hends).sound
  refine (charged_le_cover hsound.arena _).trans ?_
  rw [← Nat.zero_add 24, ← hcover]
  rcases hends.leftBehind with ⟨_, _, _, _, hfinished⟩ | ⟨_, hfailed⟩
  · exact hfinished.cover_le
  · exact hfailed.cover_le

/-- Without a ceiling, and far from the end of the 64-bit totals, a build fails where a parse does. -/
theorem Reachable.build_error_iff (h : before.Reachable limits) (hceiling : limits.arenaBytes = none)
    (htotal : before.budget.used + 24 + 280 * input.length < Budget.capacity) (failure : Failure) :
    FieldTree.parse mode limits input = .error failure ↔
      ∃ after, build mode input before = .error failure after := by
  have hfollows := h.build_follows mode input
  have hbytes := bytes_build_le limits mode input
  rw [FieldTree.parse]
  generalize build mode input before = result' at hfollows
  generalize build mode input (ofLimits limits) = result at hfollows hbytes
  cases hfollows with
  | done => simp
  | failed => simp
  | full exceeds =>
      refine absurd ⟨?_, fun limit hlimit => ?_⟩ exceeds
      · simp only [totalBeside, bytes, Arena.slotBytes] at hbytes ⊢
        omega
      · rw [h.limit_eq, hceiling] at hlimit
        cases hlimit

/-- **No state leaks between builds.** Whatever a workspace has been used for, a build leaves the
whole depth behind, and every set as it was. If it succeeds, its root is the first set behind those
and holds the tree of a parse, with all ids shifted. Without a ceiling it fails exactly where a parse
does, and in the same way; and in lenient mode no failure is a fault. -/
theorem Reachable.build_isolated (h : before.Reachable limits) (mode : Mode) (input : Bytes) :
    (leftBehind (build mode input before)).depth = limits.maxDepth ∧
    (∀ id < before.arena.setCount, ∃ nodes, before.arena.nodes id = .ok nodes ∧
      (leftBehind (build mode input before)).arena.nodes id = .ok nodes) ∧
    (∀ built after, build mode input before = .ok built after →
      built.root = before.arena.setCount ∧ ∃ tree nodes,
        FieldTree.parse mode limits input = .ok tree ∧ tree.nodes = .ok nodes ∧
        after.arena.nodes built.root = .ok (nodes.map (Node.map (before.arena.setCount + ·)))) ∧
    (limits.arenaBytes = none →
      before.budget.used + 24 + 280 * input.length < Budget.capacity →
      ∀ failure, FieldTree.parse mode limits input = .error failure ↔
        ∃ after, build mode input before = .error failure after) ∧
    (mode = .lenient → ∀ fault after, build mode input before ≠ .error (.fault fault) after) := by
  obtain ⟨hextends, hdepth⟩ := h.sound.build_keeps mode input
  refine ⟨hdepth.trans h.depth_eq, fun id hid => ?_, fun built after => h.build_beside,
    h.build_error_iff, ?_⟩
  · obtain ⟨nodes, hnodes⟩ := h.sound.closed.nodes_eq_ok h.sound.arena hid
    exact ⟨nodes, hnodes, hextends.nodes_eq hnodes⟩
  · rintro rfl
    exact h.sound.build_lenient input

set_option maxRecDepth 2000 in
/-- A group that is never closed, behind the two sets of a build that nests too deep. -/
theorem build_isolated_behind_failure :
    ∃ before built after, before.Reachable { maxDepth := 2 } ∧ before.arena.setCount = 2 ∧
      build .lenient [0x0b, 0x10, 0x02, 0x08] before = .ok built after ∧ built.root = 2 ∧
      (leftBehind (build .lenient [0x0b, 0x10, 0x02, 0x08] before)).depth = 2 ∧
      (∃ tree nodes, FieldTree.parse .lenient { maxDepth := 2 } [0x0b, 0x10, 0x02, 0x08] = .ok tree ∧
        tree.nodes = .ok nodes ∧ after.arena.nodes 2 = .ok (nodes.map (Node.map (2 + ·)))) ∧
      ∀ failure, FieldTree.parse .lenient { maxDepth := 2 } [0x0b, 0x10, 0x02, 0x08] ≠
        .error failure := by
  have hfails : build .lenient [0x0b, 0x0b] (ofLimits { maxDepth := 2 }) =
      .error (.limit .maxDepthExceeded)
        ⟨⟨#[], #[⟨0, 0, 0⟩, ⟨0, 0, 0⟩], 48⟩, {}, ⟨none, 48⟩, 2⟩ := by cbv
  have hbuild : build .lenient [0x0b, 0x10, 0x02, 0x08]
        ⟨⟨#[], #[⟨0, 0, 0⟩, ⟨0, 0, 0⟩], 48⟩, {}, ⟨none, 48⟩, 2⟩ = .ok ⟨2, 4⟩
      ⟨⟨#[⟨⟨8⟩, .scalar (.varint 0)⟩, ⟨⟨16⟩, .scalar (.varint 2)⟩, .vacant, .vacant,
          ⟨⟨11⟩, .group 3⟩, .vacant, .vacant, .vacant],
        #[⟨0, 0, 0⟩, ⟨0, 0, 0⟩, ⟨4, 1, 4⟩, ⟨0, 2, 4⟩], 352⟩,
        ⟨8, [⟨⟨16⟩, .scalar (.varint 2)⟩, ⟨⟨8⟩, .scalar (.varint 0)⟩]⟩, ⟨none, 608⟩, 2⟩ := by cbv
  have hreachable := Reachable.fresh.stopped hfails
  obtain ⟨hdepth, _, hroot, hfailures, _⟩ :=
    hreachable.build_isolated .lenient [0x0b, 0x10, 0x02, 0x08]
  have hfailures' := hfailures rfl (by decide)
  refine ⟨_, _, _, hreachable, rfl, hbuild, (hroot _ _ hbuild).1, hdepth, (hroot _ _ hbuild).2,
    fun failure hparse => ?_⟩
  obtain ⟨after, hfails'⟩ := (hfailures' failure).mp hparse
  rw [hbuild] at hfails'
  cases hfails'

end UnknownFields.Workspace
