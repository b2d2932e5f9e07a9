import UnknownFields.Proofs.Build.Steps
import UnknownFields.Proofs.Wire.Forest

/-!
The levels that a build has open, and the fields that it has read into them. While a group is open,
the sets that are older than its own do not change; so what an outer level holds can be said about
the arena as it was when the group was opened. Closing a group sorts its set, which then reads out
as the canonical form of its fields, and adds one field to the level around it.
-/

namespace UnknownFields

namespace Level

def seen (set : Nat) (tags : List Tag) : Level := tags.foldl see { set }

theorem seen_append (set : Nat) (tags : List Tag) (tag : Tag) :
    seen set (tags ++ [tag]) = (seen set tags).see tag := by
  rw [seen, List.foldl_append]
  rfl

@[simp]
theorem set_see (level : Level) (tag : Tag) : (level.see tag).set = level.set := rfl

@[simp]
theorem set_seen (set : Nat) (tags : List Tag) : (seen set tags).set = set := by
  induction tags using List.reverseRecOn with
  | nil => rfl
  | append_singleton tags tag ih => rw [seen_append, set_see, ih]

/-- The last tag is the greatest one for as long as the tags ascend. -/
theorem ascending_lastTag_seen (set : Nat) (tags : List Tag) :
    ((seen set tags).ascending = true ↔ tags.Pairwise (· ≤ ·)) ∧
      (tags.Pairwise (· ≤ ·) → ∀ next, (seen set tags).lastTag ≤ next ↔ ∀ tag ∈ tags, tag ≤ next) := by
  induction tags using List.reverseRecOn with
  | nil =>
      refine ⟨by simp [seen], fun _ next => ?_⟩
      have hzero : (⟨0⟩ : Tag) ≤ next := Tag.le_iff.mpr (Nat.zero_le _)
      simpa [seen] using hzero
  | append_singleton tags tag ih =>
      obtain ⟨hascending, hlast⟩ := ih
      have hpairwise : (tags ++ [tag]).Pairwise (· ≤ ·) ↔
          tags.Pairwise (· ≤ ·) ∧ ∀ earlier ∈ tags, earlier ≤ tag := by
        simp [List.pairwise_append]
      rw [seen_append, hpairwise]
      constructor
      · rw [see, Bool.and_eq_true, hascending, decide_eq_true_iff]
        exact and_congr_right fun hsorted => hlast hsorted tag
      · rintro ⟨_, hbelow⟩ next
        show tag ≤ next ↔ _
        constructor
        · intro hle earlier hearlier
          rcases List.mem_append.mp hearlier with hearlier | hearlier
          · exact Tag.le_trans (hbelow earlier hearlier) hle
          · rwa [List.mem_singleton.mp hearlier]
        · intro hall
          exact hall tag (List.mem_append_right _ List.mem_cons_self)

theorem ascending_seen (set : Nat) (tags : List Tag) :
    (seen set tags).ascending = true ↔ tags.Pairwise (· ≤ ·) := (ascending_lastTag_seen set tags).1

end Level

/-! ### What a level holds -/

namespace Arena

/-- The set holds the fields, and every group among them reads out in canonical form. -/
structure Holds (arena : Arena) (set : Nat) (items : List (Node Nat)) : Prop where
  fields_eq : arena.fields set = .ok (items.map Node.stored)
  members : ∀ tag label fields, .group tag label fields ∈ items →
    set < label ∧ arena.nodes label = .ok (canonicalFields fields)

variable {arena later base : Arena} {set : Nat} {items : List (Node Nat)}

theorem holds_withSet : arena.withSet.Holds arena.setCount [] where
  fields_eq := fields_withSet_self
  members _ _ _ h := nomatch h

theorem Holds.extends (h : arena.Holds set items) (hextends : later.Extends arena) :
    later.Holds set items where
  fields_eq := by
    rw [hextends.fields_eq set (lt_of_fields h.fields_eq), h.fields_eq]
  members tag label fields hmem :=
    ⟨(h.members tag label fields hmem).1, hextends.nodes_eq (h.members tag label fields hmem).2⟩

theorem Changes.nodes_eq {fields : List Field} {nodes : List (Node Nat)} {id : Nat}
    (h : arena.Changes later set fields) (hid : set < id) (hnodes : arena.nodes id = .ok nodes) :
    later.nodes id = .ok nodes :=
  nodes_of_fields_eq hnodes fun younger hyounger _ => h.fields_eq younger (by omega)

theorem Holds.push {item : Node Nat} (h : arena.Holds set items)
    (hchanges : arena.Changes later set (items.map Node.stored ++ [item.stored]))
    (hitem : ∀ tag label fields, item = .group tag label fields →
      set < label ∧ arena.nodes label = .ok (canonicalFields fields)) :
    later.Holds set (items ++ [item]) where
  fields_eq := by
    rw [List.map_append]
    exact hchanges.self_eq
  members tag label fields hmem := by
    have hinside : set < label ∧ arena.nodes label = .ok (canonicalFields fields) := by
      rcases List.mem_append.mp hmem with hmem | hmem
      · exact h.members tag label fields hmem
      · exact hitem tag label fields (List.mem_singleton.mp hmem).symm
    exact ⟨hinside.1, hchanges.nodes_eq hinside.1 hinside.2⟩

theorem stored_canonical (node : Node Nat) : node.canonical.stored = node.stored := by
  cases node with
  | leaf => rw [Node.canonical]
  | group => rw [Node.canonical, Node.stored, Node.stored]

theorem map_stored_canonicalFields (items : List (Node Nat)) :
    (canonicalFields items).map Node.stored = sortByTag Field.tag (items.map Node.stored) := by
  rw [canonicalFields, map_sortByTag Node.tag Node.tag_stored, List.map_map]
  congr 1
  exact List.map_congr_left fun node _ => stored_canonical node

theorem mem_canonicalFields {tag : Tag} {label : Nat} {fields : List (Node Nat)}
    (h : .group tag label fields ∈ canonicalFields items) :
    ∃ members, .group tag label members ∈ items ∧ fields = canonicalFields members := by
  have hmem := (sortByTag_perm Node.tag (items.map Node.canonical)).mem_iff.mp h
  obtain ⟨node, hnode, heq⟩ := List.mem_map.mp hmem
  cases node with
  | leaf =>
      rw [Node.canonical] at heq
      cases heq
  | group tag' label' members =>
      rw [Node.canonical] at heq
      cases heq
      exact ⟨members, hnode, rfl⟩

/-- A set in its final order reads out as the canonical form of what it holds. -/
theorem Holds.nodes_of_sorted (h : arena.Holds set items)
    (hchanges : arena.Changes later set (sortByTag Field.tag (items.map Node.stored))) :
    later.nodes set = .ok (canonicalFields items) := by
  refine nodes_eq_ok_iff.mpr ⟨?_, fun tag label fields hmem => ?_⟩
  · rw [map_stored_canonicalFields]
    exact hchanges.self_eq
  · obtain ⟨members, hitem, rfl⟩ := mem_canonicalFields hmem
    obtain ⟨hyounger, hinside⟩ := h.members tag label members hitem
    exact ⟨hyounger, hchanges.nodes_eq hyounger hinside⟩

/-- The levels around the one of a set. No set has changed since it was made that is older. At the
bottom is the first set of the build, behind the sets of `base`. -/
inductive Stacked (base : Arena) : Arena → Nat → List OuterLevel → List Opened → Prop where
  | top {arena : Arena} (grown : arena.Extends base) : Stacked base arena base.setCount [] []
  | group {before arena : Arena} {set : Nat} {opening : Tag} {items : List (Node Nat)}
      {outers : List OuterLevel} {opened : List Opened} (grown : arena.Extends before)
      (holds : before.Holds set items) (rest : Stacked base before set outers opened) :
      Stacked base arena before.setCount
        (⟨.seen set (items.map Node.tag ++ [opening]), opening⟩ :: outers)
        (⟨opening, before.setCount, items⟩ :: opened)

variable {outers : List OuterLevel} {opened : List Opened}

theorem Stacked.extends_base (h : Stacked base arena set outers opened) : arena.Extends base := by
  induction h with
  | top grown => exact grown
  | group grown _ _ ih => exact grown.trans ih

/-- There is one outer level for each open group. -/
theorem Stacked.nil_or_cons (h : Stacked base arena set outers opened) :
    (outers = [] ∧ opened = []) ∨ ∃ outer outers' group opened',
      outers = outer :: outers' ∧ opened = group :: opened' := by
  cases h with
  | top => exact Or.inl ⟨rfl, rfl⟩
  | group => exact Or.inr ⟨_, _, _, _, rfl, rfl⟩

theorem Stacked.openField? (h : Stacked base arena set outers opened) :
    Build.openField? outers = Opened.field? opened := by
  cases h <;> rfl

/-- The levels around a set are not affected by what happens to this set and to younger ones. -/
theorem Stacked.kept (h : Stacked base arena set outers opened)
    (hcount : arena.setCount ≤ later.setCount)
    (hkept : ∀ id < set, later.fields id = arena.fields id) :
    Stacked base later set outers opened := by
  cases h with
  | top grown =>
      refine .top ⟨grown.setCount_le.trans hcount, fun id hid => ?_⟩
      rw [hkept id hid, grown.fields_eq id hid]
  | group grown holds rest =>
      refine .group ⟨grown.setCount_le.trans hcount, fun id hid => ?_⟩ holds rest
      rw [hkept id hid, grown.fields_eq id hid]

theorem Stacked.changes {fields : List Field} (h : Stacked base arena set outers opened)
    (hchanges : arena.Changes later set fields) : Stacked base later set outers opened :=
  h.kept hchanges.setCount_eq.ge fun id hid => hchanges.fields_eq id hid.ne

/-- A group that is about to become a field: its set reads out, and the level around it has what was
read in front of the group. -/
structure Closable (base arena : Arena) (set : Nat) (items : List (Node Nat)) (outer : OuterLevel)
    (outers : List OuterLevel) (group : Opened) (opened : List Opened) : Prop where
  nodes_eq : arena.nodes set = .ok (canonicalFields items)
  younger : outer.level.set < set
  holds : arena.Holds outer.level.set group.fields
  level_eq : outer.level = .seen outer.level.set (group.fields.map Node.tag ++ [outer.opened])
  closed_eq : group.closed items = group.fields ++ [.group outer.opened set items]
  stacked : Stacked base arena outer.level.set outers opened

/-- A group can be closed when its set has been sorted. -/
theorem Stacked.closable {outer : OuterLevel} {group : Opened}
    (h : Stacked base arena set (outer :: outers) (group :: opened)) (hholds : arena.Holds set items)
    (hsorted : arena.Changes later set (sortByTag Field.tag (items.map Node.stored))) :
    Closable base later set items outer outers group opened := by
  have hnodes := hholds.nodes_of_sorted hsorted
  cases h with
  | @group earlier _ set' opening items' _ _ grown holds rest =>
      have hyounger : set' < earlier.setCount := lt_of_fields holds.fields_eq
      have hgrown : later.Extends earlier := grown.changes hsorted (Nat.le_refl _)
      refine ⟨hnodes, ?_, ?_, ?_, rfl, ?_⟩
      · rwa [Level.set_seen]
      · rw [Level.set_seen]
        exact holds.extends hgrown
      · rw [Level.set_seen]
      · rw [Level.set_seen]
        exact rest.kept hgrown.setCount_le fun id hid => hgrown.fields_eq id (hid.trans hyounger)

theorem Closable.group_younger {outer : OuterLevel} {group : Opened}
    (h : Closable base arena set items outer outers group opened) (member : Nat)
    (hmember : (Field.mk outer.opened (.group set)).payload = .group member) :
    outer.level.set < member ∧ member < arena.setCount := by
  cases hmember
  exact ⟨h.younger, lt_of_nodes h.nodes_eq⟩

end Arena

/-! ### Leaving groups -/

namespace Build

variable {α : Type} {before : Workspace}

/-- On the way out each open group gives one unit of depth back. -/
theorem abandon_eq (failure : Failure) (outers : List OuterLevel) (before : Workspace) :
    (abandon failure outers : Build α) before =
      .error failure { before with depth := before.depth + outers.length } := by
  induction outers generalizing before with
  | nil => rfl
  | cons outer outers ih =>
      have hregain : (abandon failure (outer :: outers) : Build α) before =
          abandon failure outers { before with depth := before.depth + 1 } := rfl
      rw [hregain, ih, List.length_cons, Nat.add_assoc, Nat.add_comm 1]

theorem inside_of_ok {step : Build α} {answer : α} {after : Workspace}
    (h : step before = .ok answer after) (outers : List OuterLevel) :
    inside outers step before = .ok answer after := by
  simp only [inside, tryCatch, tryCatchThe, MonadExceptOf.tryCatch, EStateM.tryCatch, h]

theorem inside_of_error {step : Build α} {failure : Failure} {after : Workspace}
    (h : step before = .error failure after) (outers : List OuterLevel) :
    inside outers step before =
      .error failure { after with depth := after.depth + outers.length } := by
  rw [← abandon_eq]
  simp only [inside, tryCatch, tryCatchThe, MonadExceptOf.tryCatch, EStateM.tryCatch, h]
  rfl

theorem inside_ends {step : Build α} {done : α → Workspace → Prop}
    {failed failed' : Failure → Workspace → Prop} (outers : List OuterLevel)
    (h : Ends done failed (step before))
    (hfailed : ∀ failure after, failed failure after →
      failed' failure { after with depth := after.depth + outers.length }) :
    Ends done failed' (inside outers step before) := by
  cases hstep : step before with
  | ok answer after =>
      rw [hstep] at h
      rw [inside_of_ok hstep]
      exact h
  | error failure after =>
      rw [hstep] at h
      rw [inside_of_error hstep]
      exact hfailed failure after h

/-- A step that succeeds does so inside open groups too. -/
theorem inside_done {step : Build α} {done : α → Workspace → Prop}
    {failed : Failure → Workspace → Prop} (outers : List OuterLevel)
    (h : Ends done failed (step before)) :
    Ends done (fun _ _ => True) (inside outers step before) :=
  inside_ends outers h fun _ _ _ => trivial

end Build

/-! ### Ending levels -/

namespace Workspace

variable {before middle after : Workspace} {base : Arena} {set : Nat} {items : List (Node Nat)}
  {outers : List OuterLevel} {opened : List Opened}

theorem Pays.withDepth (h : before.Pays after) (depth : Nat) :
    before.Pays { after with depth } :=
  ⟨⟨h.sound.arena, h.sound.closed, h.sound.buffer, h.sound.admits, h.sound.bytes_le⟩, h.limit_eq,
    h.used_eq, h.charged_le, h.room_le⟩

/-- A build that has run out of room has kept the sets of `base`, and has left `depth` behind. -/
structure Stopped (base : Arena) (before : Workspace) (depth bound : Nat) (failure : Failure)
    (after : Workspace) : Prop where
  failure_eq : failure = .limit .outOfMemory
  extends_base : after.arena.Extends base
  pays : before.Pays after
  outOfRoom : before.OutOfRoom bound
  depth_eq : after.depth = depth
  cover_le : cover after.arena after.buffer ≤ bound

theorem RanOut.stopped {bound larger : Nat} {failure : Failure} (h : middle.RanOut bound failure after)
    (hcover : cover middle.arena middle.buffer ≤ bound) (hpays : before.Pays middle)
    (hextends : middle.arena.Extends base) (hle : bound ≤ larger) :
    Stopped base before middle.depth larger failure after := by
  obtain ⟨hfailure, rfl, hroom⟩ := h
  exact ⟨hfailure, hextends, hpays, hpays.outOfRoom (hroom.mono hle), rfl, hcover.trans hle⟩

theorem Stopped.earlier {depth bound larger : Nat} {failure : Failure}
    (h : Stopped base middle depth bound failure after) (hpays : before.Pays middle)
    (hle : bound ≤ larger) : Stopped base before depth larger failure after :=
  ⟨h.failure_eq, h.extends_base, hpays.trans h.pays, hpays.outOfRoom (h.outOfRoom.mono hle),
    h.depth_eq, h.cover_le.trans hle⟩

theorem Stopped.left {depth bound : Nat} {failure : Failure}
    (h : Stopped base before depth bound failure after) (count : Nat) :
    Stopped base before (depth + count) bound failure { after with depth := after.depth + count } :=
  ⟨h.failure_eq, h.extends_base, h.pays.withDepth _, h.outOfRoom, by rw [h.depth_eq], h.cover_le⟩

/-- A build is through: its first set reads out as the canonical form of the fields. -/
structure Finished (base : Arena) (before : Workspace) (fields : List (Node Nat)) (depth bound : Nat)
    (root : Nat) (after : Workspace) : Prop where
  root_eq : root = base.setCount
  nodes_eq : after.arena.nodes root = .ok (canonicalFields fields)
  extends_base : after.arena.Extends base
  depth_eq : after.depth = depth
  pays : before.Pays after
  cover_le : cover after.arena after.buffer ≤ bound

theorem Finished.earlier {fields : List (Node Nat)} {depth depth' bound larger root : Nat}
    (h : Finished base middle fields depth bound root after) (hpays : before.Pays middle)
    (hdepth : depth = depth') (hle : bound ≤ larger) :
    Finished base before fields depth' larger root after :=
  { h with
    depth_eq := h.depth_eq.trans hdepth
    pays := hpays.trans h.pays
    cover_le := h.cover_le.trans hle }

/-- Besides the tags of its fields a level may have seen a tag behind which nothing is read. -/
theorem finish_ends (h : before.Sound) (hholds : before.arena.Holds set items) (extra : List Tag) :
    Ends (fun _ after =>
        before.arena.Changes after.arena set (sortByTag Field.tag (items.map Node.stored)) ∧
        after.depth = before.depth ∧ before.Pays after ∧
        cover after.arena after.buffer ≤ cover before.arena before.buffer + 128 * extra.length)
      (before.RanOut (cover before.arena before.buffer + 128 * extra.length))
      (Build.finish (.seen set (items.map Node.tag ++ extra)) before) := by
  have hascending := Level.ascending_seen set (items.map Node.tag ++ extra)
  rw [Build.finish, Level.set_seen]
  by_cases hsorted : (items.map Node.tag ++ extra).Pairwise (· ≤ ·)
  · rw [if_pos (hascending.mpr hsorted)]
    have hkept : sortByTag Field.tag (items.map Node.stored) = items.map Node.stored := by
      apply sortByTag_of_sorted
      rw [Sorted, List.pairwise_map]
      simp only [Node.tag_stored]
      exact List.pairwise_map.mp (List.pairwise_append.mp hsorted).1
    rw [hkept]
    exact ⟨⟨rfl, hholds.fields_eq, fun _ _ => rfl⟩, rfl, Pays.refl h, Nat.le_add_right _ _⟩
  · rw [if_neg (fun hyes => hsorted (hascending.mp hyes))]
    have hlong : 2 ≤ (items.map Node.tag ++ extra).length := by
      generalize items.map Node.tag ++ extra = tags at hsorted
      cases tags with
      | nil => exact absurd .nil hsorted
      | cons tag rest =>
          cases rest with
          | nil => exact absurd (List.pairwise_singleton _ tag) hsorted
          | cons => exact Nat.le_add_left _ _
    rw [List.length_append, List.length_map] at hlong
    have hspare : MergeBuffer.minRoom ≤ 4 * (items.map Node.stored).length + 4 * extra.length := by
      rw [List.length_map, MergeBuffer.minRoom]
      omega
    have hbound : 32 * (4 * extra.length) = 128 * extra.length := by omega
    rw [← hbound]
    exact sortSet_ends h hholds.fields_eq hspare

theorem closeGroup_ends (h : before.Sound) (hholds : before.arena.Holds set items)
    {outer : OuterLevel} {group : Opened}
    (hstacked : Arena.Stacked base before.arena set (outer :: outers) (group :: opened))
    (extra : List Tag) :
    Ends (fun _ after => after.arena.Holds outer.level.set (group.closed items) ∧
        Arena.Stacked base after.arena outer.level.set outers opened ∧
        outer.level = .seen outer.level.set ((group.closed items).map Node.tag) ∧
        after.arena.setCount = before.arena.setCount ∧ after.depth = before.depth + 1 ∧
        before.Pays after ∧ cover after.arena after.buffer ≤
          cover before.arena before.buffer + 128 * extra.length + 256)
      (Stopped base before (before.depth + (outers.length + 1))
        (cover before.arena before.buffer + 128 * extra.length + 256))
      (Build.closeGroup (.seen set (items.map Node.tag ++ extra)) outer outers before) := by
  have hextends : before.arena.Extends base := hstacked.extends_base
  refine (Build.inside_ends _ (finish_ends h hholds extra) fun failure after hfailed =>
    (hfailed.stopped (Nat.le_add_right _ _) (Pays.refl h) hextends (Nat.le_add_right _ _)).left
      _).bind ?_ fun failure after hfailed => hfailed
  rintro _ sorted ⟨hsorted, hdepth, hpays, hcover⟩
  have hclosable := hstacked.closable hholds hsorted
  have hready := hpays.withDepth (sorted.depth + 1)
  have hleft : before.depth + (outers.length + 1) = sorted.depth + 1 + outers.length := by omega
  rw [Level.set_seen, hleft]
  show Ends _ _ (Build.inside outers (onArena (Arena.push _ _))
    { sorted with depth := sorted.depth + 1 })
  refine Build.inside_ends outers ((push_ends hready.sound hclosable.holds.fields_eq
    hclosable.group_younger).imp ?_ fun failure after hfailed => hfailed) fun failure after hfailed =>
      (RanOut.stopped hfailed (Nat.le_add_right _ _) hready hclosable.stacked.extends_base
        (by dsimp only; omega)).left outers.length
  rintro _ after ⟨hpushed, hdepth', hpays', hcover'⟩
  dsimp only at hpushed hdepth' hcover'
  refine ⟨?_, hclosable.stacked.changes hpushed, ?_, ?_, ?_, hready.trans hpays', by omega⟩
  · rw [hclosable.closed_eq]
    refine hclosable.holds.push hpushed ?_
    rintro tag label fields ⟨⟩
    exact ⟨hclosable.younger, hclosable.nodes_eq⟩
  · rw [hclosable.closed_eq, List.map_append]
    exact hclosable.level_eq
  · rw [hpushed.setCount_eq, hsorted.setCount_eq]
  · rw [hdepth', hdepth]

/-- The end of the input ends every level. -/
theorem closeAll_ends (h : before.Sound) (hholds : before.arena.Holds set items)
    (hstacked : Arena.Stacked base before.arena set outers opened) (extra : List Tag) :
    Ends (Finished base before (Opened.closeAll items opened) (before.depth + outers.length)
        (cover before.arena before.buffer + 128 * extra.length + 256 * outers.length))
      (Stopped base before (before.depth + outers.length)
        (cover before.arena before.buffer + 128 * extra.length + 256 * outers.length))
      (Build.closeAll (.seen set (items.map Node.tag ++ extra)) outers before) := by
  induction outers generalizing before set items opened extra with
  | nil =>
      have hextends := hstacked.extends_base
      cases hstacked with
      | top grown =>
          refine (finish_ends h hholds extra).bind ?_ fun failure after hfailed =>
            hfailed.stopped (Nat.le_add_right _ _) (Pays.refl h) hextends (Nat.le_add_right _ _)
          rintro _ after ⟨hsorted, hdepth, hpays, hcover⟩
          rw [Level.set_seen]
          exact ⟨rfl, hholds.nodes_of_sorted hsorted, grown.changes hsorted (Nat.le_refl _), hdepth,
            hpays, hcover⟩
  | cons outer outers ih =>
      obtain ⟨hnil, _⟩ | ⟨_, _, group, opened, hcons, rfl⟩ := hstacked.nil_or_cons
      · cases hnil
      cases hcons
      refine (closeGroup_ends h hholds hstacked extra).bind ?_ fun failure after hfailed =>
        hfailed.earlier (Pays.refl h) (by rw [List.length_cons]; omega)
      rintro _ closed ⟨hholds', hstacked', hlevel, _, hdepth, hpays, hcover⟩
      have hrest := ih hpays.sound hholds' hstacked' []
      rw [List.append_nil, ← hlevel] at hrest
      refine hrest.imp (fun root after hdone => ?_) fun failure after hfailed => ?_
      · refine hdone.earlier hpays ?_ ?_
        · rw [hdepth, List.length_cons]
          omega
        · rw [List.length_cons, List.length_nil]
          omega
      · have hleft : before.depth + (outer :: outers).length = closed.depth + outers.length := by
          rw [hdepth, List.length_cons]
          omega
        rw [hleft]
        refine hfailed.earlier hpays ?_
        rw [List.length_cons, List.length_nil]
        omega

end Workspace

end UnknownFields
