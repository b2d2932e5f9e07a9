import UnknownFields.Proofs.Arena.Ownership
import UnknownFields.Proofs.Build.Accounting

/-!
The groups that builds make. While a build runs, its open levels are the sets that no field names,
besides those that earlier builds have left so. Closing a level puts its set into the one around it,
so at the end only the first set is left. A failure leaves the open levels without a holder, and
nothing that a later build does gives them one.
-/

namespace UnknownFields

namespace Workspace

/-- The workspace is sound, every payload is what its tag says, and the sets that no field names are
the roots. -/
structure Arranged (workspace : Workspace) (roots : List Nat) : Prop where
  sound : workspace.Sound
  typed : workspace.arena.Typed
  owned : workspace.arena.Owned roots

variable {limits : Limits} {before after : Workspace} {roots : List Nat} {set : Nat}

theorem arranged_ofLimits (limits : Limits) : (ofLimits limits).Arranged [] :=
  ⟨sound_ofLimits limits, Arena.typed_empty, Arena.owned_empty⟩

theorem Arranged.withDepth (h : before.Arranged roots) (depth : Nat) :
    Arranged { before with depth } roots :=
  ⟨((Pays.refl h.sound).withDepth depth).sound, h.typed, h.owned⟩

theorem Arranged.exists_fields (h : before.Arranged roots) (hset : set ∈ roots) :
    ∃ fields, before.arena.fields set = .ok fields := by
  obtain ⟨window, hwindow⟩ := Arena.window_of_lt (h.owned.lt_of_mem hset)
  exact ⟨_, Arena.fields_eq hwindow (h.sound.arena.fits hwindow).stop_le⟩

/-- A step that runs out of room leaves the arrangement as it is. -/
theorem RanOut.arranged {bound : Nat} {failure : Failure} (h : before.RanOut bound failure after)
    (harranged : before.Arranged roots) : ∃ roots, after.Arranged roots := by
  obtain ⟨_, rfl, _⟩ := h
  exact ⟨roots, harranged⟩

/-- A step has left these roots, has paid for what it has made, and has kept the depth. -/
structure Arranges (before : Workspace) (roots : List Nat) (after : Workspace) : Prop where
  arranged : after.Arranged roots
  pays : before.Pays after
  depth_eq : after.depth = before.depth

theorem Arranged.newSet_ends (h : before.Arranged roots) :
    Ends (fun set after => set = before.arena.setCount ∧ before.Arranges (set :: roots) after)
      (fun _ after => ∃ roots, after.Arranged roots) (onArena Arena.newSet before) := by
  refine (Workspace.newSet_ends h.sound).imp ?_ fun _ _ hfailed => hfailed.arranged h
  rintro set after ⟨rfl, harena, hdepth, hpays, _⟩
  refine ⟨rfl, ⟨hpays.sound, ?_, ?_⟩, hpays, hdepth⟩
  · rw [harena]
    exact h.typed.withSet h.sound.arena
  · rw [harena]
    exact h.owned.withSet h.sound.arena

theorem Arranged.push_scalar_ends (h : before.Arranged roots) (hset : set ∈ roots) {tag : Tag}
    {value : Scalar} (htyped : Field.Typed ⟨tag, .scalar value⟩) :
    Ends (fun _ after => before.Arranges roots after) (fun _ after => ∃ roots, after.Arranged roots)
      (onArena (Arena.push set ⟨tag, .scalar value⟩) before) := by
  obtain ⟨fields, hfields⟩ := h.exists_fields hset
  have hunnamed : [Field.mk tag (.scalar value)].filterMap Field.member? = [] := rfl
  refine (push_ends h.sound hfields ?_).imp ?_ fun _ _ hfailed => hfailed.arranged h
  · rintro member ⟨⟩
  rintro _ after ⟨hchanges, hdepth, hpays, _⟩
  refine ⟨⟨hpays.sound, h.typed.changes hchanges ?_, h.owned.changes hchanges hfields ?_⟩, hpays,
    hdepth⟩
  · exact List.forall_mem_append.mpr ⟨h.typed.typed hfields, List.forall_mem_singleton.mpr htyped⟩
  · rw [List.filterMap_append, hunnamed, List.append_nil]

/-- A root goes into an older set. -/
theorem Arranged.push_group_ends {root : Nat} (h : before.Arranged (root :: roots))
    (hset : set ∈ roots) (hyounger : set < root) {tag : Tag}
    (htyped : tag.wireType? = some .startGroup) :
    Ends (fun _ after => before.Arranges roots after) (fun _ after => ∃ roots, after.Arranged roots)
      (onArena (Arena.push set ⟨tag, .group root⟩) before) := by
  obtain ⟨fields, hfields⟩ := h.exists_fields (List.mem_cons_of_mem root hset)
  refine (push_ends h.sound hfields ?_).imp ?_ fun _ _ hfailed => hfailed.arranged h
  · rintro member ⟨⟩
    exact ⟨hyounger, h.owned.lt_of_mem List.mem_cons_self⟩
  rintro _ after ⟨hchanges, hdepth, hpays, _⟩
  refine ⟨⟨hpays.sound, h.typed.changes hchanges ?_, h.owned.push hchanges hfields⟩, hpays, hdepth⟩
  exact List.forall_mem_append.mpr ⟨h.typed.typed hfields, List.forall_mem_singleton.mpr htyped⟩

theorem Arranged.finish_ends {level : Level} (h : before.Arranged roots) (hset : level.set ∈ roots) :
    Ends (fun _ after => before.Arranges roots after) (fun _ after => ∃ roots, after.Arranged roots)
      (Build.finish level before) := by
  rw [Build.finish]
  split_ifs
  · exact ⟨h, Pays.refl h.sound, rfl⟩
  · obtain ⟨fields, hfields⟩ := h.exists_fields hset
    refine (sortSet_ends h.sound hfields (Nat.le_add_left _ _)).imp ?_
      fun _ _ hfailed => hfailed.arranged h
    rintro _ after ⟨hchanges, hdepth, hpays, _⟩
    have hperm := sortByTag_perm Field.tag fields
    refine ⟨⟨hpays.sound, h.typed.changes hchanges ?_,
      h.owned.changes hchanges hfields (hperm.filterMap _)⟩, hpays, hdepth⟩
    intro field hfield
    exact h.typed.typed hfields field (hperm.mem_iff.mp hfield)

end Workspace

namespace Build

open Workspace

def openSets (level : Level) (outers : List OuterLevel) : List Nat :=
  level.set :: outers.map (·.level.set)

/-- Between two tokens: the open levels lie in each other, and their sets are roots next to
others. -/
structure Open (workspace : Workspace) (level : Level) (outers : List OuterLevel)
    (roots : List Nat) : Prop where
  arranged : workspace.Arranged (openSets level outers ++ roots)
  nested : (openSets level outers).Pairwise (· > ·)
  opened : ∀ outer ∈ outers, outer.opened.wireType? = some .startGroup

/-- Between the end of a group and its push: the set of the group is a root as well. -/
structure Ended (workspace : Workspace) (tag : Tag) (group : Nat) (level : Level)
    (outers : List OuterLevel) (roots : List Nat) : Prop where
  arranged : workspace.Arranged (group :: (openSets level outers ++ roots))
  nested : (group :: openSets level outers).Pairwise (· > ·)
  typed : tag.wireType? = some .startGroup
  opened : ∀ outer ∈ outers, outer.opened.wireType? = some .startGroup

variable {before : Workspace} {level : Level} {outers : List OuterLevel} {roots : List Nat}
  {tag : Tag} {group : Nat}

/-- A step that fails is left with other roots, and leaving the open groups does not change these. -/
theorem inside_arranged {α : Type} {step : Build α} {done : α → Workspace → Prop}
    (outers : List OuterLevel)
    (h : Ends done (fun _ after => ∃ roots, after.Arranged roots) (step before)) :
    Ends done (fun _ after => ∃ roots, after.Arranged roots) (inside outers step before) := by
  refine inside_ends outers h ?_
  rintro _ after ⟨roots, harranged⟩
  exact ⟨roots, harranged.withDepth _⟩

theorem Open.withDepth (h : Open before level outers roots) (depth : Nat) :
    Open { before with depth } level outers roots :=
  ⟨h.arranged.withDepth depth, h.nested, h.opened⟩

theorem Open.field_ends (h : Open before level outers roots) {value : Scalar}
    (htyped : Field.Typed ⟨tag, .scalar value⟩) :
    Ends (fun _ after => Open after (level.see tag) outers roots ∧ before.Pays after ∧
        after.depth = before.depth)
      (fun _ after => ∃ roots, after.Arranged roots)
      (inside outers (onArena (Arena.push level.set ⟨tag, .scalar value⟩)) before) := by
  refine (inside_arranged outers (h.arranged.push_scalar_ends List.mem_cons_self htyped)).imp ?_
    fun _ _ hfailed => hfailed
  intro _ after hdone
  exact ⟨⟨hdone.arranged, h.nested, h.opened⟩, hdone.pays, hdone.depth_eq⟩

/-- The set of a new group is younger than those of all open levels. -/
theorem Open.opening_ends (h : Open before level outers roots)
    (htyped : tag.wireType? = some .startGroup) :
    Ends (fun set after => Open after { set } (⟨level.see tag, tag⟩ :: outers) roots ∧
        before.Pays after ∧ after.depth = before.depth)
      (fun _ after => ∃ roots, after.Arranged roots)
      (inside (⟨level.see tag, tag⟩ :: outers) (onArena Arena.newSet) before) := by
  refine (inside_arranged _ h.arranged.newSet_ends).imp ?_ fun _ _ hfailed => hfailed
  rintro set after ⟨rfl, hdone⟩
  refine ⟨⟨hdone.arranged, List.pairwise_cons.mpr ⟨?_, h.nested⟩,
    List.forall_mem_cons.mpr ⟨htyped, h.opened⟩⟩, hdone.pays, hdone.depth_eq⟩
  intro older holds
  exact h.arranged.owned.lt_of_mem (List.mem_append_left _ holds)

theorem Open.finish_ends {outer : OuterLevel} (h : Open before level (outer :: outers) roots) :
    Ends (fun _ after =>
        Ended { after with depth := after.depth + 1 } outer.opened level.set outer.level outers roots ∧
        before.Pays after ∧ after.depth = before.depth)
      (fun _ after => ∃ roots, after.Arranged roots)
      (inside (outer :: outers) (finish level) before) := by
  refine (inside_arranged _ (h.arranged.finish_ends List.mem_cons_self)).imp ?_
    fun _ _ hfailed => hfailed
  intro _ after hdone
  obtain ⟨htyped, hopened⟩ := List.forall_mem_cons.mp h.opened
  exact ⟨⟨hdone.arranged.withDepth _, h.nested, htyped, hopened⟩, hdone.pays, hdone.depth_eq⟩

theorem Ended.push_ends (h : Ended before tag group level outers roots) :
    Ends (fun _ after => Open after level outers roots ∧ before.Pays after ∧
        after.depth = before.depth)
      (fun _ after => ∃ roots, after.Arranged roots)
      (inside outers (onArena (Arena.push level.set ⟨tag, .group group⟩)) before) := by
  have hyounger := List.rel_of_pairwise_cons h.nested List.mem_cons_self
  refine (inside_arranged outers (h.arranged.push_group_ends List.mem_cons_self hyounger
    h.typed)).imp ?_ fun _ _ hfailed => hfailed
  intro _ after hdone
  exact ⟨⟨hdone.arranged, h.nested.of_cons, h.opened⟩, hdone.pays, hdone.depth_eq⟩

theorem Open.closeGroup_ends {outer : OuterLevel} (h : Open before level (outer :: outers) roots) :
    Ends (fun _ after => Open after outer.level outers roots)
      (fun _ after => ∃ roots, after.Arranged roots) (closeGroup level outer outers before) := by
  refine h.finish_ends.bind ?_ fun _ _ hfailed => hfailed
  rintro _ sorted ⟨hended, _, _⟩
  show Ends _ _ (inside outers (onArena (Arena.push _ _)) { sorted with depth := sorted.depth + 1 })
  exact hended.push_ends.imp (fun _ after hdone => hdone.1) fun _ _ hfailed => hfailed

/-- When all levels have ended, the first one is the only root besides the others. -/
theorem Open.closeAll_ends (h : Open before level outers roots) :
    Ends (fun root after => after.Arranged (root :: roots))
      (fun _ after => ∃ roots, after.Arranged roots) (closeAll level outers before) := by
  induction outers generalizing before level with
  | nil =>
      refine (h.arranged.finish_ends List.mem_cons_self).bind ?_ fun _ _ hfailed => hfailed
      intro _ after hdone
      exact hdone.arranged
  | cons outer outers ih =>
      refine h.closeGroup_ends.bind ?_ fun _ _ hfailed => hfailed
      intro _ after hopen
      exact ih hopen

/-- **The run lemma**: whatever the rest of a stream is, a build that succeeds has one more root, and
one that fails has some. -/
theorem Open.fill_ends {mode : Mode} {stream : TokenStream} (htyped : stream.Typed)
    (h : Open before level outers roots) :
    Ends (fun built after => after.Arranged (built.root :: roots))
      (fun _ after => ∃ roots, after.Arranged roots) (fill mode stream level outers before) := by
  induction stream generalizing before level outers with
  | done position =>
      exact h.closeAll_ends.bind (fun root after harranged => harranged) fun _ _ hfailed => hfailed
  | broken fault => exact inside_arranged outers ⟨_, h.arranged⟩
  | next token position rest ih =>
      obtain ⟨htoken, hrest⟩ := htyped
      cases token with
      | field tag value =>
          exact (h.field_ends htoken).bind (fun _ after hdone => ih hrest hdone.1)
            fun _ _ hfailed => hfailed
      | opening tag =>
          by_cases hdepth : before.depth ≤ 1
          · rw [fill_opening_of_le hdepth]
            exact ⟨_, h.arranged.withDepth _⟩
          · rw [fill_opening_of_lt (not_le.mp hdepth)]
            exact ((h.withDepth _).opening_ends htoken).bind (fun set after hdone => ih hrest hdone.1)
              fun _ _ hfailed => hfailed
      | closing tag =>
          rw [fill_closing]
          refine (inside_arranged outers ((require_ends _ before).imp
            (fun _ after hdone => hdone.1) ?_)).bind ?_ fun _ _ hfailed => hfailed
          · rintro _ after ⟨rfl, _⟩
            exact ⟨_, h.arranged⟩
          rintro _ after rfl
          cases outers with
          | nil =>
              exact h.closeAll_ends.bind (fun root after harranged => harranged)
                fun _ _ hfailed => hfailed
          | cons outer outers =>
              exact h.closeGroup_ends.bind (fun _ after hopen => ih hrest hopen)
                fun _ _ hfailed => hfailed
      | unknown tag =>
          have hseen : Open before (level.see tag) outers roots := ⟨h.arranged, h.nested, h.opened⟩
          exact hseen.closeAll_ends.bind (fun root after harranged => harranged)
            fun _ _ hfailed => hfailed

theorem build_arranged (mode : Mode) (input : Bytes) (h : before.Arranged roots) :
    Ends (fun built after => after.Arranged (built.root :: roots))
      (fun _ after => ∃ roots, after.Arranged roots) (Workspace.build mode input before) := by
  refine h.newSet_ends.bind ?_ fun _ _ hfailed => hfailed
  rintro set first ⟨_, hfirst⟩
  have hopen : Open first { set } [] roots :=
    ⟨hfirst.arranged, List.pairwise_singleton _ _, nofun⟩
  refine (hopen.fill_ends (TokenStream.typed_ofReader mode _)).bind ?_ fun _ _ hfailed => hfailed
  intro built filled hfilled
  refine (require_ends _ filled).bind ?_ ?_
  · rintro _ after ⟨rfl, _⟩
    exact hfilled
  · rintro _ after ⟨rfl, _⟩
    exact ⟨_, hfilled⟩

end Build

namespace Workspace

variable {limits : Limits} {before after : Workspace} {roots : List Nat}

theorem Reachable.arranged (h : before.Reachable limits) : ∃ roots, before.Arranged roots := by
  induction h with
  | fresh => exact ⟨[], arranged_ofLimits limits⟩
  | @built mode input _ _ _ _ step ih =>
      obtain ⟨roots, harranged⟩ := ih
      have hends := Build.build_arranged mode input harranged
      rw [step] at hends
      exact ⟨_, hends⟩
  | @stopped mode input _ _ _ _ step ih =>
      obtain ⟨roots, harranged⟩ := ih
      have hends := Build.build_arranged mode input harranged
      rw [step] at hends
      exact hends
  | released reachable step ih =>
      have hsound := (reachable.released step).sound
      rw [release_eq] at step
      cases step
      exact ⟨[], hsound, Arena.typed_empty, Arena.owned_empty⟩

/-- Without a release the sets of a workspace stay as they are. -/
theorem Leads.extends (h : before.Leads [] after) (hbefore : before.Sound) :
    after.arena.Extends before.arena := by
  generalize hnone : [] = released at h
  induction h with
  | stay => exact .refl _
  | built leads step ih =>
      obtain ⟨_, _, _, hfinished⟩ := (leads.accounts_of_sound hbefore).sound.build_done step
      exact hfinished.extends_base.trans (ih hnone)
  | stopped leads step ih =>
      have hfailed := ((leads.accounts_of_sound hbefore).sound.build_failed step).1
      exact hfailed.extends_base.trans (ih hnone)
  | released => exact absurd hnone.symm (by simp)

end Workspace

end UnknownFields
