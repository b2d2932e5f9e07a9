import UnknownFields.Proofs.Build.Depth
import UnknownFields.Proofs.Verdicts

/-!
Ceilings that are never hit. What a build charges for is linear in the length of its input, with all
slots that it leaves behind and all room of the merge buffer. A ceiling that admits this total leaves
only the depth to fail for, in a parse and in a comparison.
-/

namespace UnknownFields

open Workspace

/-- A new workspace charges its budget for what it holds, in a build that succeeds and in one that
fails. -/
theorem Workspace.used_build (limits : Limits) (mode : Mode) (input : Bytes) :
    (leftBehind (Workspace.build mode input (ofLimits limits))).budget.used =
      (leftBehind (Workspace.build mode input (ofLimits limits))).bytes := by
  have hpays := Task.pays_of_ends (Build.build_ends mode input (sound_ofLimits limits))
  have hused := hpays.used_eq
  have hbytes : (ofLimits limits).bytes = 0 := rfl
  have hzero : (ofLimits limits).budget.used = 0 := rfl
  rwa [hbytes, hzero, Nat.add_zero, Nat.zero_add] at hused

section Lenient

variable {limits : Limits} {left right : Bytes}

/-- Two builds fail for want of depth only where one of the inputs has too many groups open. -/
theorem Comparison.le_openGroups_of_maxDepthExceeded {after : Workspace}
    (h : buildBoth .lenient left right (ofLimits limits) = .error (.limit .maxDepthExceeded) after)
    (hroom : ({} : Budget).Admits (24 + 280 * left.length))
    (hroom' : ({} : Budget).Admits (24 + 280 * right.length)) :
    max limits.maxDepth 1 ≤ max (openGroups left) (openGroups right) := by
  rcases FieldTree.parse_cases limits.unbounded hroom with ⟨hdeep, _⟩ | ⟨_, tree, hparse⟩
  · exact hdeep.trans (Nat.le_max_left _ _)
  rcases FieldTree.parse_cases limits.unbounded hroom' with ⟨hdeep, _⟩ | ⟨_, other, hparse'⟩
  · exact hdeep.trans (Nat.le_max_right _ _)
  obtain ⟨_, _, _, _, agree, hagree, _⟩ := FieldTree.agrees_of_parse hparse hparse'
  rcases buildBoth_of_parses hparse hparse' hagree with ⟨_, _, hboth⟩ | ⟨_, _, hboth⟩
  · rw [h] at hboth
    cases hboth
  · rw [h] at hboth
    cases hboth

/-- Below the ceiling a comparison comes to a verdict, or it fails for want of depth. -/
theorem compareInputs_below_ceiling
    (hroom : ({ limit := limits.arenaBytes } : Budget).Admits
      (48 + 280 * (left.length + right.length))) :
    (max limits.maxDepth 1 ≤ max (openGroups left) (openGroups right) ∧
      compareInputs .lenient limits left right = .ok (.limit .maxDepthExceeded)) ∨
    ∃ agree, compareInputs .lenient limits left right = .ok (.ofAgreement agree) := by
  rcases compareInputs_cases limits left right with hverdict | ⟨error, after, hlimit, hboth⟩
  · exact Or.inr hverdict
  · cases error with
    | maxDepthExceeded =>
        have hunbounded : ({} : Budget).Admits (48 + 280 * (left.length + right.length)) :=
          ⟨hroom.1, nofun⟩
        have hdeep := Comparison.le_openGroups_of_maxDepthExceeded hboth
          (hunbounded.of_le (by omega)) (hunbounded.of_le (by omega))
        exact Or.inl ⟨hdeep, hlimit⟩
    | outOfMemory => exact absurd hroom (Comparison.not_admits_of_outOfMemory hboth)

end Lenient

/-- **Memory is linear in the length of the input.** However a build in a new workspace ends, it has
charged for what its arena and its merge buffer hold, which is at most 24 bytes and 280 for each byte
of the input. A parse with a ceiling of so many bytes, or a comparison with one that is enough for
both inputs, does not run out of memory: it gives a result if the depth admits the groups that are
open at once. -/
theorem charged_linear (limits : Limits) (left right : Bytes) :
    (∀ mode,
      (leftBehind (Workspace.build mode left (ofLimits limits))).budget.used =
        (leftBehind (Workspace.build mode left (ofLimits limits))).bytes ∧
      (leftBehind (Workspace.build mode left (ofLimits limits))).budget.used ≤
        24 + 280 * left.length) ∧
    (24 + 280 * left.length < 2 ^ 64 →
      (∀ ceiling ∈ limits.arenaBytes, 24 + 280 * left.length ≤ ceiling) →
      (max limits.maxDepth 1 ≤ openGroups left ∧
        FieldTree.parse .lenient limits left = .error (.limit .maxDepthExceeded)) ∨
      (openGroups left < max limits.maxDepth 1 ∧
        ∃ tree, FieldTree.parse .lenient limits left = .ok tree)) ∧
    (48 + 280 * (left.length + right.length) < 2 ^ 64 →
      (∀ ceiling ∈ limits.arenaBytes, 48 + 280 * (left.length + right.length) ≤ ceiling) →
      (max limits.maxDepth 1 ≤ max (openGroups left) (openGroups right) ∧
        compareInputs .lenient limits left right = .ok (.limit .maxDepthExceeded)) ∨
      ∃ agree, compareInputs .lenient limits left right = .ok (.ofAgreement agree)) := by
  refine ⟨fun mode => ⟨used_build limits mode left, ?_⟩, fun htotal hceiling => ?_,
    fun htotal hceiling => ?_⟩
  · rw [used_build]
    exact bytes_build_le limits mode left
  · exact FieldTree.parse_cases limits ⟨htotal, hceiling⟩
  · exact compareInputs_below_ceiling ⟨htotal, hceiling⟩

set_option maxRecDepth 2000 in
/-- A set that moves behind that of a group and is then sorted, beside a set that is never sorted,
under the least ceiling that is enough. -/
theorem charged_linear_moved_set :
    (leftBehind (Workspace.build .lenient
      [0x10, 0x02, 0x0b, 0x08, 0x01, 0x0c, 0x18, 0x03, 0x20, 0x04, 0x08, 0x01]
      (ofLimits { maxDepth := 2, arenaBytes := some 3968 }))).budget.used ≤ 3384 ∧
    (∃ tree, FieldTree.parse .lenient { maxDepth := 2, arenaBytes := some 3968 }
      [0x10, 0x02, 0x0b, 0x08, 0x01, 0x0c, 0x18, 0x03, 0x20, 0x04, 0x08, 0x01] = .ok tree) ∧
    ∃ agree, compareInputs .lenient { maxDepth := 2, arenaBytes := some 3968 }
      [0x10, 0x02, 0x0b, 0x08, 0x01, 0x0c, 0x18, 0x03, 0x20, 0x04, 0x08, 0x01] [0x08, 0x01] =
        .ok (.ofAgreement agree) := by
  have hopen : openGroups
      [0x10, 0x02, 0x0b, 0x08, 0x01, 0x0c, 0x18, 0x03, 0x20, 0x04, 0x08, 0x01] = 1 := by cbv
  have hopen' : openGroups [0x08, 0x01] = 0 := by cbv
  obtain ⟨hcharged, hparse, hcompare⟩ := charged_linear { maxDepth := 2, arenaBytes := some 3968 }
    [0x10, 0x02, 0x0b, 0x08, 0x01, 0x0c, 0x18, 0x03, 0x20, 0x04, 0x08, 0x01] [0x08, 0x01]
  have hparse := hparse (by decide) (by decide)
  have hcompare := hcompare (by decide) (by decide)
  rw [hopen] at hparse hcompare
  rw [hopen'] at hcompare
  have hfits : ¬max 2 1 ≤ 1 := by decide
  have hfits' : ¬max 2 1 ≤ max 1 0 := by decide
  exact ⟨(hcharged .lenient).2, (hparse.resolve_left fun hdeep => hfits hdeep.1).2,
    hcompare.resolve_left fun hdeep => hfits' hdeep.1⟩

end UnknownFields
