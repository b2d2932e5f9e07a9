import UnknownFields.Proofs.Build.Run

/-!
The workspaces that come about by builds and releases, in any order and in either mode. A build
that meets a limit leaves a workspace that can be used on; one that meets a fault does not. All of
them are sound.
-/

namespace UnknownFields.Workspace

inductive Reachable (limits : Limits) : Workspace → Prop where
  | fresh : Reachable limits (ofLimits limits)
  | built {mode : Mode} {input : Bytes} {before after : Workspace} {answer : Built}
      (reachable : Reachable limits before) (step : build mode input before = .ok answer after) :
      Reachable limits after
  | stopped {mode : Mode} {input : Bytes} {before after : Workspace} {error : LimitError}
      (reachable : Reachable limits before)
      (step : build mode input before = .error (.limit error) after) : Reachable limits after
  | released {before after : Workspace} (reachable : Reachable limits before)
      (step : release before = .ok () after) : Reachable limits after

variable {limits : Limits} {mode : Mode} {input : Bytes} {before after : Workspace}

/-- What a successful build comes to. -/
theorem Sound.build_done (h : before.Sound) {built : Built}
    (hbuild : build mode input before = .ok built after) :
    (Build.task mode input before).Done before built after := by
  have hends := Build.build_ends mode input h
  rw [hbuild] at hends
  exact hends

/-- What a build comes to that fails. -/
theorem Sound.build_failed (h : before.Sound) {failure : Failure}
    (hbuild : build mode input before = .error failure after) :
    (Build.task mode input before).Failed before failure after ∧ after.depth = before.depth := by
  have hends := Build.build_ends mode input h
  rw [hbuild] at hends
  exact ⟨hends, hends.depth_eq⟩

theorem release_eq (before : Workspace) :
    release before = .ok () { before with arena := {}, buffer := {} } := rfl

theorem Reachable.sound (h : before.Reachable limits) : before.Sound := by
  induction h with
  | fresh => exact sound_ofLimits limits
  | built _ step ih =>
      obtain ⟨_, _, _, hfinished⟩ := ih.build_done step
      exact hfinished.pays.sound
  | stopped _ step ih => exact (ih.build_failed step).1.pays.sound
  | released _ step ih =>
      rw [release_eq] at step
      cases step
      exact ⟨Arena.sound_empty, Arena.closed_empty, MergeBuffer.sound_empty, ih.admits,
        Nat.zero_le _⟩

theorem Reachable.depth_eq (h : before.Reachable limits) : before.depth = limits.maxDepth := by
  induction h with
  | fresh => rfl
  | built reachable step ih =>
      obtain ⟨_, _, _, hfinished⟩ := reachable.sound.build_done step
      exact hfinished.depth_eq.trans ih
  | stopped reachable step ih => exact (reachable.sound.build_failed step).2.trans ih
  | released _ step ih =>
      rw [release_eq] at step
      cases step
      exact ih

theorem Reachable.limit_eq (h : before.Reachable limits) :
    before.budget.limit = limits.arenaBytes := by
  induction h with
  | fresh => rfl
  | built reachable step ih =>
      obtain ⟨_, _, _, hfinished⟩ := reachable.sound.build_done step
      exact hfinished.pays.limit_eq.trans ih
  | stopped reachable step ih => exact (reachable.sound.build_failed step).1.pays.limit_eq.trans ih
  | released _ step ih =>
      rw [release_eq] at step
      cases step
      exact ih

end UnknownFields.Workspace
