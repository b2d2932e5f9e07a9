import UnknownFields.Proofs.Build.Parsing

/-!
What the merge buffer has grown to behind a build of encoded fields. A level whose tags never
decrease is not sorted, and sorting it would have changed nothing; it leaves the buffer alone too.
Every other level is sorted through the one buffer that all of them share. So the buffer ends with
the room that the largest of these levels needs, wherever it is in the tree.
-/

namespace UnknownFields

/-! ### Levels -/

def Descends (tags : List Tag) : Prop :=
  ∃ (i : Nat) (_ : i + 1 < tags.length), tags[i + 1].number < tags[i].number

instance : @Trans Tag Tag Tag (· ≤ ·) (· ≤ ·) (· ≤ ·) := ⟨Tag.le_trans⟩

theorem Tag.not_le_iff {left right : Tag} : ¬left ≤ right ↔ right.number < left.number := by
  rw [le_iff, UInt32.lt_iff_toNat_lt]
  omega

/-- To look at tags next to each other is to look at all of them. -/
theorem descends_iff (tags : List Tag) : Descends tags ↔ ¬tags.Pairwise (· ≤ ·) := by
  rw [← List.isChain_iff_pairwise, List.isChain_iff_getElem]
  simp only [not_forall, Tag.not_le_iff, Descends]

instance : DecidablePred Descends := fun tags => decidable_of_iff _ (descends_iff tags).symm

theorem Descends.length_pos {tags : List Tag} (h : Descends tags) : 0 < tags.length := by
  obtain ⟨i, hi, _⟩ := h
  omega

/-- The tags of the levels inside a node, in the order in which the levels end. -/
def Node.levels {ι : Type} : Node ι → List (List Tag)
  | leaf _ _ => []
  | group _ _ fields => fields.flatMap levels ++ [fields.map tag]

/-- The tags of all levels, each in the order in which its fields come. The top level ends last. -/
def levels {ι : Type} (fields : List (Node ι)) : List (List Tag) :=
  fields.flatMap Node.levels ++ [fields.map Node.tag]

@[simp]
theorem Node.levels_leaf {ι : Type} (tag : Tag) (value : Scalar) :
    (leaf tag value : Node ι).levels = [] := by
  rw [levels]

@[simp]
theorem Node.levels_group {ι : Type} (tag : Tag) (label : ι) (fields : List (Node ι)) :
    (group tag label fields).levels = UnknownFields.levels fields := by
  rw [levels]
  rfl

/-- How many fields the largest of the levels has that descend. -/
def largestDescending (levels : List (List Tag)) : Nat :=
  ((levels.filter Descends).map List.length).foldr max 0

theorem largestDescending_cons (tags : List Tag) (levels : List (List Tag)) :
    largestDescending (tags :: levels) =
      if Descends tags then max tags.length (largestDescending levels)
      else largestDescending levels := by
  by_cases htags : Descends tags <;> simp [largestDescending, htags]

theorem length_le_largestDescending {tags : List Tag} {levels : List (List Tag)}
    (hmem : tags ∈ levels) (htags : Descends tags) : tags.length ≤ largestDescending levels := by
  induction levels with
  | nil => cases hmem
  | cons first levels ih =>
      rw [largestDescending_cons]
      rcases List.mem_cons.mp hmem with rfl | hmem
      · rw [if_pos htags]
        exact Nat.le_max_left _ _
      · split_ifs
        · exact (ih hmem).trans (Nat.le_max_right _ _)
        · exact ih hmem

/-- The largest level is one of them, unless there is none. -/
theorem largestDescending_cases (levels : List (List Tag)) :
    (∃ tags ∈ levels, Descends tags ∧ tags.length = largestDescending levels) ∨
      ((∀ tags ∈ levels, ¬Descends tags) ∧ largestDescending levels = 0) := by
  induction levels with
  | nil => exact Or.inr ⟨by simp, rfl⟩
  | cons first levels ih =>
      rw [largestDescending_cons]
      by_cases hfirst : Descends first
      · rw [if_pos hfirst]
        refine Or.inl ?_
        rcases ih with ⟨tags, hmem, htags, hlength⟩ | ⟨_, hzero⟩
        · rcases Nat.le_total first.length (largestDescending levels) with hle | hle
          · exact ⟨tags, List.mem_cons_of_mem _ hmem, htags, by rw [hlength, Nat.max_eq_right hle]⟩
          · exact ⟨first, List.mem_cons_self, hfirst, (Nat.max_eq_left hle).symm⟩
        · exact ⟨first, List.mem_cons_self, hfirst, by rw [hzero, Nat.max_zero]⟩
      · rw [if_neg hfirst]
        rcases ih with ⟨tags, hmem, htags, hlength⟩ | ⟨hnone, hzero⟩
        · exact Or.inl ⟨tags, List.mem_cons_of_mem _ hmem, htags, hlength⟩
        · exact Or.inr ⟨List.forall_mem_cons.mpr ⟨hfirst, hnone⟩, hzero⟩

theorem largestDescending_eq_zero {levels : List (List Tag)} (h : ∀ tags ∈ levels, ¬Descends tags) :
    largestDescending levels = 0 := by
  rcases largestDescending_cases levels with ⟨tags, hmem, htags, _⟩ | ⟨_, hzero⟩
  · exact absurd htags (h tags hmem)
  · exact hzero

theorem largestDescending_isGreatest {levels : List (List Tag)} {tags : List Tag}
    (hmem : tags ∈ levels) (htags : Descends tags) :
    IsGreatest {count | ∃ tags ∈ levels, Descends tags ∧ tags.length = count}
      (largestDescending levels) := by
  constructor
  · rcases largestDescending_cases levels with hlargest | ⟨hnone, _⟩
    · exact hlargest
    · exact absurd htags (hnone tags hmem)
  · rintro count ⟨other, hother, hdescends, rfl⟩
    exact length_le_largestDescending hother hdescends

namespace MergeBuffer

def grown (room : Nat) (tags : List Tag) : Nat :=
  if Descends tags then grownRoom tags.length room else room

/-- Behind any number of levels the buffer has grown as if the largest that descends had been alone. -/
theorem foldl_grown {room : Nat} (h : Rounded room) (levels : List (List Tag)) :
    levels.foldl grown room = grownRoom (largestDescending levels) room := by
  induction levels generalizing room with
  | nil => exact (if_pos (Nat.zero_le room)).symm
  | cons tags levels ih =>
      rw [List.foldl_cons, grown, largestDescending_cons]
      split_ifs
      · rw [ih (h.grownRoom _), grownRoom_grownRoom h]
      · exact ih h

end MergeBuffer

/-! ### Steps -/

namespace Build

open Workspace MergeBuffer

variable {α β : Type} {mode : Mode} {base : Arena} {before after : Workspace} {level : Level}
  {outer : OuterLevel} {outers : List OuterLevel} {items : List (Node Nat)} {opened : List Opened}

theorem exists_of_bind {step : Build α} {next : α → Build β} {answer : β}
    (h : (step >>= next) before = .ok answer after) :
    ∃ found middle, step before = .ok found middle ∧ next found middle = .ok answer after := by
  simp only [bind, EStateM.bind] at h
  split at h
  · next found middle hstep => exact ⟨found, middle, hstep, h⟩
  · cases h

theorem step_of_inside {step : Build α} {answer : α} (h : inside outers step before = .ok answer after) :
    step before = .ok answer after := by
  cases hstep : step before with
  | ok found middle => rwa [inside_of_ok hstep] at h
  | error failure middle =>
      rw [inside_of_error hstep] at h
      cases h

/-- Only sorting touches the merge buffer. -/
theorem buffer_of_onArena {step : Metering Arena α} {answer : α}
    (h : onArena step before = .ok answer after) : after.buffer = before.buffer := by
  simp only [onArena] at h
  split at h
  · cases h
    rfl
  · cases h

theorem eq_of_require {check : Except Fault Unit} {answer : Unit}
    (h : require check before = .ok answer after) : after = before := by
  have hends := require_ends check before
  rw [h] at hends
  exact hends.1

theorem room_of_finish {set : Nat} (h : before.Sound) (hholds : before.arena.Holds set items)
    (hfinish : finish (.seen set (items.map Node.tag)) before = .ok () after) :
    after.buffer.room = grown before.buffer.room (items.map Node.tag) := by
  have hascending := Level.ascending_seen set (items.map Node.tag)
  rw [finish, Level.set_seen] at hfinish
  by_cases hsorted : (items.map Node.tag).Pairwise (· ≤ ·)
  · rw [if_pos (hascending.mpr hsorted)] at hfinish
    cases hfinish
    rw [grown, if_neg (mt (descends_iff _).mp (not_not.mpr hsorted))]
  · rw [if_neg (mt hascending.mp hsorted)] at hfinish
    obtain ⟨window, hwindow⟩ := Arena.window_of_lt (Arena.lt_of_fields hholds.fields_eq)
    obtain ⟨left, _, hsort⟩ := sortSet_eq h hwindow hholds.fields_eq
    rw [hsort, pay] at hfinish
    split at hfinish
    · cases hfinish
    · cases hfinish
      rw [grown, if_pos ((descends_iff _).mpr hsorted), List.length_map, List.length_map]

/-- Closing a group does to the buffer what ending its level does. -/
theorem Reading.room_of_closeGroup {group : Opened}
    (h : Reading base before level (outer :: outers) items (group :: opened))
    (hclose : closeGroup level outer outers before = .ok () after) :
    after.buffer.room = grown before.buffer.room (items.map Node.tag) := by
  obtain ⟨_, sorted, hfinish, hclose⟩ := exists_of_bind hclose
  obtain ⟨_, regained, hregain, hpush⟩ := exists_of_bind hclose
  have hlevel := h.level_eq
  cases hregain
  rw [hlevel] at hfinish
  rw [buffer_of_onArena (step_of_inside hpush)]
  show sorted.buffer.room = _
  exact room_of_finish h.sound h.holds (step_of_inside hfinish)

/-! ### Runs -/

/-- **The run lemma**: a build that succeeds goes through a state behind the fields that come first.
There they are in the level that is being read, and the buffer has been through the levels inside
them. -/
theorem Reading.exists_behind {bytes : Bytes} {fields : List (Node Unit)} (hencodes : Encodes bytes fields)
    (tail : Bytes) (position : Nat) {built : Built}
    (h : Reading base before level outers items opened)
    (hfill : fill mode (.ofReader mode ⟨bytes ++ tail, position⟩) level outers before =
      .ok built after) :
    ∃ middle level' items', Reading base middle level' outers items' opened ∧
      items'.map Node.tag = items.map Node.tag ++ fields.map Node.tag ∧
      middle.buffer.room = (fields.flatMap Node.levels).foldl grown before.buffer.room ∧
      fill mode (.ofReader mode ⟨tail, position + bytes.length⟩) level' outers middle =
        .ok built after := by
  induction hencodes generalizing tail position level outers items opened before with
  | nil => exact ⟨before, level, items, h, by simp, rfl, hfill⟩
  | @leaf tag value bytes rest others item _ ih =>
      rw [List.append_assoc, TokenStream.ofReader_of_written item, fill] at hfill
      obtain ⟨_, pushed, hpush, hfill⟩ := exists_of_bind hfill
      have hends := h.field_ends tag value
      rw [hpush] at hends
      obtain ⟨middle, level', items', hreading, htags, hroom, hrest⟩ :=
        ih tail (position + bytes.length) hends.1 hfill
      refine ⟨middle, level', items', hreading, ?_, ?_, ?_⟩
      · rw [htags]
        simp [Node.tag]
      · rw [hroom, buffer_of_onArena (step_of_inside hpush)]
        simp
      · rwa [List.length_append, ← Nat.add_assoc]
  | @group tag closing front inner back rest fields others item _ itemClosed same _ ihInside ihRest =>
      simp only [List.append_assoc] at hfill
      rw [TokenStream.ofReader_of_written item] at hfill
      have hdepth : 1 < before.depth := by
        by_contra hshallow
        rw [fill_opening_of_le (not_lt.mp hshallow)] at hfill
        cases hfill
      rw [fill_opening_of_lt hdepth] at hfill
      obtain ⟨set, first, hset, hfill⟩ := exists_of_bind hfill
      have hopened := h.opening_ends hdepth tag
      rw [hset] at hopened
      obtain ⟨last, level', items', hlast, htags, hroom, hfill⟩ :=
        ihInside (back ++ (rest ++ tail)) _ hopened.1 hfill
      rw [TokenStream.ofReader_of_written itemClosed, fill_closing] at hfill
      obtain ⟨_, checked, hcheck, hfill⟩ := exists_of_bind hfill
      rw [eq_of_require (step_of_inside hcheck)] at hfill
      obtain ⟨_, closed, hclose, hfill⟩ := exists_of_bind hfill
      have hclosed := hlast.closing_ends
      rw [hclose] at hclosed
      obtain ⟨middle, level'', items'', hreading, htags', hroom', hrest⟩ :=
        ihRest tail _ hclosed.1 hfill
      refine ⟨middle, level'', items'', hreading, ?_, ?_, ?_⟩
      · rw [htags']
        simp [Opened.closed, Node.tag]
      · rw [hroom', hlast.room_of_closeGroup hclose, hroom,
          buffer_of_onArena (step_of_inside hset), htags, List.flatMap_cons, Node.levels_group, levels,
          List.foldl_append, List.foldl_append]
        rfl
      · simp only [List.length_append, ← Nat.add_assoc]
        exact hrest

/-- At the end of its input a build ends the top level. -/
theorem Reading.room_of_fill_done {position : Nat} {built : Built}
    (h : Reading base before level [] items opened)
    (hfill : fill mode (.done position) level [] before = .ok built after) :
    after.buffer.room = grown before.buffer.room (items.map Node.tag) := by
  have hlevel := h.level_eq
  rw [fill] at hfill
  obtain ⟨_, closed, hclose, hreturn⟩ := exists_of_bind hfill
  obtain ⟨_, finished, hfinish, hreturn'⟩ := exists_of_bind hclose
  cases hreturn
  cases hreturn'
  rw [hlevel] at hfinish
  exact room_of_finish h.sound h.holds hfinish

/-- **The room behind a build** of encoded fields is that which the largest level needs that descends,
or what it was before if that is more. -/
theorem room_of_build {input : Bytes} {fields : List (Node Unit)} (hencodes : Encodes input fields)
    (h : before.Sound) {built : Built} (hbuild : Workspace.build mode input before = .ok built after) :
    after.buffer.room = grownRoom (largestDescending (levels fields)) before.buffer.room := by
  obtain ⟨set, first, hset, hbuild⟩ := exists_of_bind hbuild
  obtain ⟨found, filled, hfill, hbuild⟩ := exists_of_bind hbuild
  obtain ⟨_, checked, hcheck, hreturn⟩ := exists_of_bind hbuild
  cases hreturn
  rw [eq_of_require hcheck]
  have hfirst := newSet_ends h
  rw [hset] at hfirst
  obtain ⟨rfl, harena, _, hpays, _⟩ := hfirst
  rw [← List.append_nil input] at hfill
  obtain ⟨middle, level, items, hreading, htags, hroom, hrest⟩ :=
    (reading_first h harena hpays).exists_behind hencodes [] 0 hfill
  rw [TokenStream.ofReader_nil] at hrest
  rw [hreading.room_of_fill_done hrest, hroom, htags, buffer_of_onArena hset, List.map_nil,
    List.nil_append, ← foldl_grown h.buffer.rounded, levels, List.foldl_append]
  rfl

/-! ### Fresh workspaces -/

/-- **The shortcut is exact.** Take an input that the check accepts, and a depth that admits its
nesting. A fresh build of it gives the tree with every level sorted. If no level descends the merge
buffer has not been used at all; otherwise its room is the least power of two, eight or more, that
suffices for the largest of the levels that descend, whether it is the top or in any group. -/
theorem build_sorts_what_descends {input : Bytes} (hcheck : WellFormed.check input = .ok ())
    (hlength : input.length < 2 ^ 48) (mode : Mode) (maxDepth : Nat) :
    ∃ fields, Encodes input fields ∧ (nesting fields < max maxDepth 1 →
      ∃ built after nodes, Workspace.build mode input (.ofLimits { maxDepth }) = .ok built after ∧
        after.arena.nodes built.root = .ok nodes ∧
        nodes.map Node.erase = canonicalFields fields ∧
        ((∀ tags ∈ levels fields, ¬Descends tags) → after.buffer.room = 0) ∧
        ((∃ tags ∈ levels fields, Descends tags) → ∃ largest,
          IsGreatest {count | ∃ tags ∈ levels fields, Descends tags ∧ tags.length = count} largest ∧
          IsLeast (fitting largest) after.buffer.room)) := by
  obtain ⟨fields, hencodes⟩ := WellFormed.encodes_of_check hcheck
  refine ⟨fields, hencodes, fun hdepth => ?_⟩
  have hsound := sound_ofLimits { maxDepth }
  have hadmits : ({ limit := ({ maxDepth } : Limits).arenaBytes } : Budget).Admits
      (24 + 280 * input.length) :=
    ⟨by rw [Budget.capacity, UInt64.size]; omega, fun limit hlimit => nomatch hlimit⟩
  rcases hsound.build_of_encodes hencodes mode with
    ⟨_, built, after, read, hbuild, hread, hfinished⟩ | ⟨hdeep, _⟩ | ⟨hfull, _⟩
  · have hroom : after.buffer.room = grownRoom (largestDescending (levels fields)) 0 :=
      room_of_build hencodes hsound hbuild
    refine ⟨built, after, _, hbuild, hfinished.nodes_eq, ?_, ?_, ?_⟩
    · rw [← canonicalFields_erase, hread]
    · intro hnone
      rw [hroom, largestDescending_eq_zero hnone]
      rfl
    · rintro ⟨tags, hmem, htags⟩
      refine ⟨_, largestDescending_isGreatest hmem htags, ?_⟩
      rw [hroom]
      exact grownRoom_isLeast (htags.length_pos.trans_le (length_le_largestDescending hmem htags))
  · exact absurd hdepth (not_lt.mpr hdeep)
  · exact absurd hfull (not_outOfRoom_ofLimits hadmits)

/-- The top level ascends and its group does not, so the buffer gets room for the group. -/
theorem build_sorts_group :
    WellFormed.check [0x0b, 0x10, 0x02, 0x08, 0x01, 0x0c, 0x18, 0x03] = .ok () ∧
    ∃ built after nodes, Workspace.build .strict [0x0b, 0x10, 0x02, 0x08, 0x01, 0x0c, 0x18, 0x03]
        (.ofLimits { maxDepth := 2 }) = .ok built after ∧
      after.arena.nodes built.root = .ok nodes ∧
      nodes.map Node.erase = canonicalFields [.group ⟨11⟩ () [.leaf ⟨16⟩ (.varint 2),
        .leaf ⟨8⟩ (.varint 1)], .leaf ⟨24⟩ (.varint 3)] ∧
      after.buffer.room = 8 := by
  have hcheck : WellFormed.check [0x0b, 0x10, 0x02, 0x08, 0x01, 0x0c, 0x18, 0x03] = .ok () := by cbv
  have hinside : Encodes [0x10, 0x02, 0x08, 0x01] [.leaf ⟨16⟩ (.varint 2), .leaf ⟨8⟩ (.varint 1)] :=
    .leaf (Token.written_pair (by decide) (by decide) rfl (by decide))
      (.leaf (Token.written_pair (by decide) (by decide) rfl (by decide)) .nil)
  have hencodes : Encodes [0x0b, 0x10, 0x02, 0x08, 0x01, 0x0c, 0x18, 0x03]
      [.group ⟨11⟩ () [.leaf ⟨16⟩ (.varint 2), .leaf ⟨8⟩ (.varint 1)], .leaf ⟨24⟩ (.varint 3)] :=
    .group (.opening (Tag.written_single (by decide) (by decide) rfl)) hinside
      (.closing (Tag.written_single (by decide) (by decide) rfl)) rfl
      (.leaf (Token.written_pair (by decide) (by decide) rfl (by decide)) .nil)
  obtain ⟨fields, hfields, hbuild⟩ := build_sorts_what_descends hcheck (by decide) .strict 2
  cases hencodes.unique hfields
  obtain ⟨built, after, nodes, hbuild, hnodes, hsorted, _, hroom⟩ := hbuild (by simp)
  have hlevels : levels ([.group ⟨11⟩ () [.leaf ⟨16⟩ (.varint 2), .leaf ⟨8⟩ (.varint 1)],
      .leaf ⟨24⟩ (.varint 3)] : List (Node Unit)) = [[⟨16⟩, ⟨8⟩], [⟨11⟩, ⟨24⟩]] := by
    simp [levels, Node.tag]
  rw [hlevels] at hroom
  have hmem : [⟨16⟩, ⟨8⟩] ∈ ([[⟨16⟩, ⟨8⟩], [⟨11⟩, ⟨24⟩]] : List (List Tag)) := List.mem_cons_self
  have hdescends : Descends [⟨16⟩, ⟨8⟩] := by decide
  obtain ⟨largest, hlargest, hleast⟩ := hroom ⟨_, hmem, hdescends⟩
  have htwo : largest = 2 :=
    (hlargest.unique (largestDescending_isGreatest hmem hdescends)).trans (by decide)
  have height : grownRoom 2 0 = 8 := by cbv
  rw [htwo] at hleast
  exact ⟨hcheck, built, after, nodes, hbuild, hnodes, hsorted,
    (hleast.unique (grownRoom_isLeast (by decide))).trans height⟩

end Build

end UnknownFields
