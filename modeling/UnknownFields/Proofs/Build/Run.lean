import UnknownFields.Proofs.Build.Levels

/-!
What a build does on a sound workspace, for any input and in both modes. It comes to the canonical
form of what the input holds, in new sets behind the old ones, unless it meets the fault that the
input holds or one of the two limits. The depth is the limit exactly where more groups are open at
once than it admits, and what is charged is linear in the length of the input.
-/

namespace UnknownFields

open Workspace

/-- What a build has to come to: behind the sets of `base`, the fields that are expected and the
number of bytes read, with `height` groups open at once, within `bound` bytes. -/
structure Task where
  base : Arena
  expected : Except Fault (List (Node Nat) × Nat)
  height : Nat
  depth : Nat
  bound : Nat

namespace Task

variable {task later : Task} {before middle after : Workspace}

def Done (task : Task) (before : Workspace) (built : Built) (after : Workspace) : Prop :=
  task.height < max task.depth 1 ∧ ∃ fields, task.expected = .ok (fields, built.position) ∧
    Finished task.base before fields task.depth task.bound built.root after

/-- The failures that can come of a task. -/
def Allows (task : Task) (before : Workspace) : Failure → Prop
  | .fault fault => task.expected = .error fault
  | .limit .maxDepthExceeded => max task.depth 1 ≤ task.height
  | .limit .outOfMemory => before.OutOfRoom task.bound

structure Failed (task : Task) (before : Workspace) (failure : Failure) (after : Workspace) :
    Prop where
  allowed : task.Allows before failure
  extends_base : after.arena.Extends task.base
  pays : before.Pays after
  depth_eq : after.depth = task.depth
  cover_le : cover after.arena after.buffer ≤ task.bound

theorem failed_of_stopped {depth bound : Nat} {failure : Failure}
    (h : Stopped task.base before depth bound failure after) (hdepth : depth = task.depth)
    (hle : bound ≤ task.bound) : task.Failed before failure after := by
  refine ⟨?_, h.extends_base, h.pays, h.depth_eq.trans hdepth, h.cover_le.trans hle⟩
  rw [h.failure_eq]
  exact h.outOfRoom.mono hle

theorem Failed.earlier {failure : Failure} (h : later.Failed middle failure after)
    (hpays : before.Pays middle) (hbase : later.base = task.base)
    (hexpected : ∀ fault, later.expected = .error fault → task.expected = .error fault)
    (hdepth : later.depth = task.depth) (hheight : later.height ≤ task.height)
    (hbound : later.bound ≤ task.bound) : task.Failed before failure after := by
  refine ⟨?_, hbase ▸ h.extends_base, hpays.trans h.pays, h.depth_eq.trans hdepth,
    h.cover_le.trans hbound⟩
  have hallowed := h.allowed
  match failure with
  | .fault fault => exact hexpected fault hallowed
  | .limit .maxDepthExceeded =>
      have hdeep : max later.depth 1 ≤ later.height := hallowed
      rw [hdepth] at hdeep
      exact hdeep.trans hheight
  | .limit .outOfMemory => exact hpays.outOfRoom (hallowed.mono hbound)

theorem pays_of_ends {result : EStateM.Result Failure Workspace Built}
    (h : Ends (task.Done before) (task.Failed before) result) : before.Pays (leftBehind result) := by
  rcases h.leftBehind with ⟨_, _, _, _, hfinished⟩ | ⟨_, hfailed⟩
  · exact hfinished.pays
  · exact hfailed.pays

structure Continues (task later : Task) : Prop where
  base_eq : later.base = task.base
  expected_eq : later.expected = task.expected
  depth_eq : later.depth = task.depth
  height_le : later.height ≤ task.height
  height_lt : later.height < max task.depth 1 → task.height < max task.depth 1
  bound_le : later.bound ≤ task.bound

theorem ends_of_later {result : EStateM.Result Failure Workspace Built}
    (hends : Ends (later.Done middle) (later.Failed middle) result) (hpays : before.Pays middle)
    (h : task.Continues later) :
    Ends (task.Done before) (task.Failed before) result := by
  refine hends.imp ?_ fun failure after hfailed => hfailed.earlier hpays h.base_eq
    (fun fault hfault => h.expected_eq.symm.trans hfault) h.depth_eq h.height_le h.bound_le
  rintro built after ⟨hheight, fields, hexpected, hfinished⟩
  rw [h.depth_eq] at hheight
  rw [h.expected_eq] at hexpected
  rw [h.base_eq] at hfinished
  exact ⟨h.height_lt hheight, fields, hexpected, hfinished.earlier hpays h.depth_eq h.bound_le⟩

end Task

namespace Build

variable {base : Arena} {before : Workspace} {level : Level} {outers : List OuterLevel}
  {items : List (Node Nat)} {opened : List Opened}

/-- Between two tokens: the level holds the fields that have been read into it. -/
structure Reading (base : Arena) (workspace : Workspace) (level : Level) (outers : List OuterLevel)
    (items : List (Node Nat)) (opened : List Opened) : Prop where
  sound : workspace.Sound
  holds : workspace.arena.Holds level.set items
  level_eq : level = .seen level.set (items.map Node.tag)
  stacked : Arena.Stacked base workspace.arena level.set outers opened
  length_lt : outers.length < max (workspace.depth + outers.length) 1

def readingTask (base : Arena) (mode : Mode) (stream : TokenStream) (workspace : Workspace)
    (outers : List OuterLevel) (items : List (Node Nat)) (opened : List Opened) : Task where
  base := base
  expected := stream.forest mode workspace.arena.setCount items opened
  height := stream.height outers.length
  depth := workspace.depth + outers.length
  bound := cover workspace.arena workspace.buffer + 256 * outers.length + 280 * stream.length

/-- A build that stops between two tokens leaves the groups that it has open. -/
theorem Reading.failed_here {task : Task} {failure : Failure}
    (h : Reading base before level outers items opened) (hallowed : task.Allows before failure)
    (hbase : task.base = base) (hdepth : task.depth = before.depth + outers.length)
    (hbound : cover before.arena before.buffer ≤ task.bound) :
    task.Failed before failure { before with depth := before.depth + outers.length } := by
  subst hbase
  exact ⟨hallowed, h.stacked.extends_base, (Pays.refl h.sound).withDepth _, hdepth.symm, hbound⟩

theorem Reading.closeAll_ends (h : Reading base before level outers items opened) (task : Task)
    (extra : List Tag) (position : Nat) (hbase : task.base = base)
    (hexpected : task.expected = .ok (Opened.closeAll items opened, position))
    (hheight : task.height = outers.length) (hdepth : task.depth = before.depth + outers.length)
    (hbound : cover before.arena before.buffer + 128 * extra.length + 256 * outers.length ≤ task.bound) :
    Ends (task.Done before) (task.Failed before)
      ((do return ⟨← closeAll (.seen level.set (items.map Node.tag ++ extra)) outers, position⟩ :
        Build Built) before) := by
  subst hbase
  refine (Workspace.closeAll_ends h.sound h.holds h.stacked extra).bind ?_ fun failure after hfailed =>
    Task.failed_of_stopped hfailed hdepth.symm hbound
  intro root after hfinished
  refine ⟨?_, _, hexpected, hfinished.earlier (Pays.refl h.sound) hdepth.symm hbound⟩
  rw [hheight, hdepth]
  exact h.length_lt

theorem Reading.field_ends (h : Reading base before level outers items opened) (tag : Tag)
    (value : Scalar) :
    Ends (fun _ after => Reading base after (level.see tag) outers (items ++ [.leaf tag value]) opened ∧
        after.arena.setCount = before.arena.setCount ∧ after.depth = before.depth ∧
        before.Pays after ∧
        cover after.arena after.buffer ≤ cover before.arena before.buffer + 256)
      (Stopped base before (before.depth + outers.length)
        (cover before.arena before.buffer + 256))
      (inside outers (onArena (Arena.push level.set ⟨tag, .scalar value⟩)) before) := by
  have hgroup : ∀ member, Payload.scalar value = .group member →
      level.set < member ∧ member < before.arena.setCount := fun _ hgroup => nomatch hgroup
  refine inside_ends outers ((push_ends h.sound h.holds.fields_eq hgroup).imp ?_
    fun failure after hfailed => hfailed) fun failure after hfailed =>
      (RanOut.stopped hfailed (Nat.le_add_right _ _) (Pays.refl h.sound) h.stacked.extends_base
        (Nat.le_refl _)).left outers.length
  rintro _ after ⟨hpushed, hdepth, hpays, hcover⟩
  refine ⟨⟨hpays.sound, h.holds.push hpushed ?_, ?_, h.stacked.changes hpushed, ?_⟩,
    hpushed.setCount_eq, hdepth, hpays, hcover⟩
  · intro tag' label fields heq
    cases heq
  · rw [List.map_append, List.map_singleton, Level.set_see, Level.seen_append, ← h.level_eq]
    rfl
  · rw [hdepth]
    exact h.length_lt

/-- A group is opened with a depth of two or more, and then one unit of it is spent. -/
theorem Reading.opening_ends (h : Reading base before level outers items opened)
    (hdepth : 1 < before.depth) (tag : Tag) :
    Ends (fun set after => Reading base after { set } (⟨level.see tag, tag⟩ :: outers) []
          (⟨tag, before.arena.setCount, items⟩ :: opened) ∧
        after.arena.setCount = before.arena.setCount + 1 ∧ after.depth + 1 = before.depth ∧
        before.Pays after ∧
        cover after.arena after.buffer ≤ cover before.arena before.buffer + 24)
      (Stopped base before (before.depth + outers.length)
        (cover before.arena before.buffer + 24))
      (inside (⟨level.see tag, tag⟩ :: outers) (onArena Arena.newSet)
        { before with depth := before.depth - 1 }) := by
  have hspent := (Pays.refl h.sound).withDepth (before.depth - 1)
  have hleft : before.depth + outers.length =
      before.depth - 1 + (⟨level.see tag, tag⟩ :: outers).length := by
    rw [List.length_cons]
    omega
  rw [hleft]
  refine inside_ends _ ((newSet_ends hspent.sound).imp ?_ fun failure after hfailed => hfailed)
    fun failure after hfailed => (RanOut.stopped hfailed (Nat.le_add_right _ _) hspent
      h.stacked.extends_base (Nat.le_refl _)).left _
  rintro set after ⟨rfl, harena, hdepth', hpays, hcover⟩
  dsimp only at harena hdepth' hcover
  refine ⟨⟨hpays.sound, ?_, rfl, ?_, ?_⟩, ?_, by omega, hspent.trans hpays, hcover⟩
  · rw [harena]
    exact Arena.holds_withSet
  · rw [harena, h.level_eq, ← Level.seen_append]
    exact .group (.withSet h.sound.arena) h.holds h.stacked
  · rw [hdepth', List.length_cons]
    omega
  · rw [harena, Arena.setCount_withSet]

theorem Reading.closing_ends {outer : OuterLevel} {group : Opened}
    (h : Reading base before level (outer :: outers) items (group :: opened)) :
    Ends (fun _ after => Reading base after outer.level outers (group.closed items) opened ∧
        after.arena.setCount = before.arena.setCount ∧ after.depth = before.depth + 1 ∧
        before.Pays after ∧
        cover after.arena after.buffer ≤ cover before.arena before.buffer + 256)
      (Stopped base before (before.depth + (outers.length + 1))
        (cover before.arena before.buffer + 256))
      (closeGroup level outer outers before) := by
  have hends := closeGroup_ends h.sound h.holds h.stacked []
  rw [List.append_nil, ← h.level_eq, List.length_nil] at hends
  refine hends.imp ?_ fun failure after hfailed => hfailed
  rintro _ after ⟨hholds, hstacked, hlevel, hcount, hdepth, hpays, hcover⟩
  refine ⟨⟨hpays.sound, hholds, hlevel, hstacked, ?_⟩, hcount, hdepth, hpays, hcover⟩
  have hlength := h.length_lt
  rw [List.length_cons] at hlength
  rw [hdepth]
  omega

theorem require_ends (check : Except Fault Unit) (before : Workspace) :
    Ends (fun _ after => after = before ∧ check = .ok ())
      (fun failure after => after = before ∧ ∃ fault, failure = .fault fault ∧ check = .error fault)
      (require check before) := by
  cases check with
  | ok => exact ⟨rfl, rfl⟩
  | error fault => exact ⟨rfl, fault, rfl, rfl⟩

/-- Where no depth is left a group is not opened. -/
theorem fill_opening_of_le (hdepth : before.depth ≤ 1) {mode : Mode} {tag : Tag} {position : Nat}
    {rest : TokenStream} :
    fill mode (.next (.opening tag) position rest) level outers before =
      .error (.limit .maxDepthExceeded) { before with depth := before.depth + outers.length } := by
  have hfails : inside outers spendDepth before = .error (.limit .maxDepthExceeded)
      { before with depth := before.depth + outers.length } :=
    inside_of_error (if_pos hdepth) outers
  simp only [fill, bind, EStateM.bind, hfails]

theorem fill_opening_of_lt (hdepth : 1 < before.depth) {mode : Mode} {tag : Tag} {position : Nat}
    {rest : TokenStream} :
    fill mode (.next (.opening tag) position rest) level outers before =
      (do
        let set ← inside (⟨level.see tag, tag⟩ :: outers) (onArena Arena.newSet)
        fill mode rest { set } (⟨level.see tag, tag⟩ :: outers) : Build Built)
        { before with depth := before.depth - 1 } := by
  have hspends : inside outers spendDepth before =
      .ok () { before with depth := before.depth - 1 } := inside_of_ok (if_neg (not_le.mpr hdepth)) outers
  simp only [fill, bind, EStateM.bind, hspends]

theorem fill_closing (mode : Mode) (tag : Tag) (position : Nat) (rest : TokenStream) (level : Level)
    (outers : List OuterLevel) :
    fill mode (.next (.closing tag) position rest) level outers = (do
      inside outers (require (mode.expect (openField? outers = some tag.fieldNumber)
        (.strayEndGroup (openField? outers) tag.fieldNumber)))
      match outers with
      | [] => return ⟨← closeAll level [], position⟩
      | outer :: outers =>
        closeGroup level outer outers
        fill mode rest outer.level outers) := by
  cases outers with
  | nil => simp only [fill, closeAll, bind_assoc, pure_bind]
  | cons outer outers => rw [fill]

/-- What is left of a stream is read as it has to be, from any point on. -/
structure Reads (base : Arena) (mode : Mode) (stream : TokenStream) : Prop where
  ends {before : Workspace} {level : Level} {outers : List OuterLevel} {items : List (Node Nat)}
    {opened : List Opened} (reading : Reading base before level outers items opened) :
    Ends ((readingTask base mode stream before outers items opened).Done before)
      ((readingTask base mode stream before outers items opened).Failed before)
      (fill mode stream level outers before)

variable {mode : Mode} {position : Nat} {rest : TokenStream}

theorem Reads.done : Reads base mode (.done position) := by
  refine ⟨fun {before level outers items opened} h => ?_⟩
  have hends := h.closeAll_ends (readingTask base mode (.done position) before outers items opened)
    [] position rfl rfl rfl rfl (by simp [readingTask, TokenStream.length])
  rw [List.append_nil, ← h.level_eq] at hends
  exact hends

theorem Reads.broken (fault : Fault) : Reads base mode (.broken fault) := by
  refine ⟨fun {before level outers items opened} h => ?_⟩
  have hbroken : fill mode (.broken fault) level outers before =
      .error (.fault fault) { before with depth := before.depth + outers.length } :=
    inside_of_error rfl outers
  rw [hbroken]
  exact h.failed_here rfl rfl rfl (by simp only [readingTask]; omega)

theorem Reads.field (hrest : Reads base mode rest) (tag : Tag) (value : Scalar) :
    Reads base mode (.next (.field tag value) position rest) := by
  refine ⟨fun {before level outers items opened} h => ?_⟩
  refine (h.field_ends tag value).bind ?_ fun failure after hfailed =>
    Task.failed_of_stopped hfailed rfl ?_
  · rintro _ after ⟨hreading, hcount, hdepth, hpays, hcover⟩
    refine Task.ends_of_later (hrest.ends hreading) hpays ⟨rfl, ?_, ?_, Nat.le_refl _, id, ?_⟩
    · simp only [readingTask, TokenStream.forest, hcount]
    · simp only [readingTask, hdepth]
    · simp only [readingTask, TokenStream.length]
      omega
  · simp only [readingTask, TokenStream.length]
    omega

theorem Reads.opening (hrest : Reads base mode rest) (tag : Tag) :
    Reads base mode (.next (.opening tag) position rest) := by
  refine ⟨fun {before level outers items opened} h => ?_⟩
  by_cases hdepth : before.depth ≤ 1
  · rw [fill_opening_of_le hdepth]
    refine h.failed_here ?_ rfl rfl (by simp only [readingTask]; omega)
    have hlength := h.length_lt
    have hheight := rest.le_height (outers.length + 1)
    show max (before.depth + outers.length) 1 ≤ rest.height (outers.length + 1)
    omega
  · rw [fill_opening_of_lt (not_le.mp hdepth)]
    refine (h.opening_ends (not_le.mp hdepth) tag).bind ?_ fun failure after hfailed =>
      Task.failed_of_stopped hfailed rfl ?_
    · rintro set after ⟨hreading, hcount, hdepth', hpays, hcover⟩
      refine Task.ends_of_later (hrest.ends hreading) hpays ⟨rfl, ?_, ?_, Nat.le_refl _, id, ?_⟩
      · simp only [readingTask, TokenStream.forest, hcount]
      · simp only [readingTask, List.length_cons]
        omega
      · simp only [readingTask, TokenStream.length, List.length_cons]
        omega
    · simp only [readingTask, TokenStream.length]
      omega

/-- A closing tag that is expected where no group is open ends the build. -/
theorem Reading.closing_outside (h : Reading base before level [] items []) (rest : TokenStream)
    {tag : Tag}
    (hcheck : mode.expect (Opened.field? [] = some tag.fieldNumber)
      (.strayEndGroup (Opened.field? []) tag.fieldNumber) = .ok ()) :
    Ends ((readingTask base mode (.next (.closing tag) position rest) before [] items []).Done before)
      ((readingTask base mode (.next (.closing tag) position rest) before [] items []).Failed before)
      ((do return ⟨← closeAll level [], position⟩ : Build Built) before) := by
  have hends := h.closeAll_ends
    (readingTask base mode (.next (.closing tag) position rest) before [] items [])
    [] position rfl ?_ rfl rfl ?_
  · rw [List.append_nil, ← h.level_eq] at hends
    exact hends
  · simp only [readingTask, TokenStream.forest, hcheck]
    rfl
  · simp [readingTask, TokenStream.length]

theorem Reading.closing_group {outer : OuterLevel} {group : Opened}
    (h : Reading base before level (outer :: outers) items (group :: opened))
    (hrest : Reads base mode rest) (position : Nat) {tag : Tag}
    (hcheck : mode.expect (Opened.field? (group :: opened) = some tag.fieldNumber)
      (.strayEndGroup (Opened.field? (group :: opened)) tag.fieldNumber) = .ok ()) :
    Ends ((readingTask base mode (.next (.closing tag) position rest) before (outer :: outers)
        items (group :: opened)).Done before)
      ((readingTask base mode (.next (.closing tag) position rest) before (outer :: outers)
        items (group :: opened)).Failed before)
      ((do
        closeGroup level outer outers
        fill mode rest outer.level outers : Build Built) before) := by
  refine h.closing_ends.bind ?_ fun failure after hfailed => Task.failed_of_stopped hfailed rfl ?_
  · rintro _ after ⟨hreading, hcount, hdepth, hpays, hcover⟩
    refine Task.ends_of_later (hrest.ends hreading) hpays ⟨rfl, ?_, ?_, ?_, ?_, ?_⟩
    · simp only [readingTask, TokenStream.forest, hcount, hcheck]
      rfl
    · simp only [readingTask, hdepth, List.length_cons]
      omega
    · exact Nat.le_max_right _ _
    · -- the rest may be lower than the groups that are open now, but these have been admitted
      intro hlt
      exact max_lt h.length_lt hlt
    · simp only [readingTask, TokenStream.length, List.length_cons]
      omega
  · simp only [readingTask, TokenStream.length, List.length_cons]
    omega

theorem Reads.closing (hrest : Reads base mode rest) (tag : Tag) :
    Reads base mode (.next (.closing tag) position rest) := by
  refine ⟨fun {before level outers items opened} h => ?_⟩
  have hfield := h.stacked.openField?
  rw [fill_closing]
  refine (inside_ends outers (require_ends _ before) fun failure after hfailed => ?_).bind ?_
    fun failure after hfailed => hfailed
  · obtain ⟨hafter, fault, rfl, hcheck⟩ := hfailed
    rw [hfield] at hcheck
    rw [hafter]
    refine h.failed_here ?_ rfl rfl (by simp only [readingTask]; omega)
    show TokenStream.forest mode _ _ _ _ = _
    rw [TokenStream.forest_closing, hcheck, error_bind]
  · rintro _ after ⟨hafter, hcheck⟩
    rw [hfield] at hcheck
    rw [hafter]
    obtain ⟨rfl, rfl⟩ | ⟨outer, outers, group, opened, rfl, rfl⟩ := h.stacked.nil_or_cons
    · exact h.closing_outside rest hcheck
    · exact h.closing_group hrest position hcheck

/-- A tag of an unknown type ends the build, and every level that is open. -/
theorem Reads.unknown (tag : Tag) : Reads base mode (.next (.unknown tag) position rest) := by
  refine ⟨fun {before level outers items opened} h => ?_⟩
  have hends := h.closeAll_ends
    (readingTask base mode (.next (.unknown tag) position rest) before outers items opened)
    [tag] position rfl rfl rfl rfl (by simp [readingTask, TokenStream.length]; omega)
  rw [Level.seen_append, ← h.level_eq] at hends
  exact hends

/-- **The run lemma**: from any point on, reading what is left of a stream comes to what it holds. -/
theorem reads (base : Arena) (mode : Mode) (stream : TokenStream) : Reads base mode stream := by
  induction stream with
  | done position => exact .done
  | broken fault => exact .broken fault
  | next token position rest ih =>
      cases token with
      | field tag value => exact ih.field tag value
      | opening tag => exact ih.opening tag
      | closing tag => exact ih.closing tag
      | unknown tag => exact .unknown tag

def task (mode : Mode) (input : Bytes) (before : Workspace) : Task where
  base := before.arena
  expected := TokenStream.contents mode input (before.arena.setCount + 1)
  height := (TokenStream.ofBytes mode input).height 0
  depth := before.depth
  bound := cover before.arena before.buffer + 24 + 280 * input.length

theorem reading_first (h : before.Sound) {first : Workspace}
    (harena : first.arena = before.arena.withSet) (hpays : before.Pays first) :
    Reading before.arena first { set := before.arena.setCount } [] [] [] := by
  refine ⟨hpays.sound, ?_, rfl, ?_, by simp⟩
  · rw [harena]
    exact Arena.holds_withSet
  · rw [harena]
    exact .top (.withSet h.arena)

/-- **What a build does**: it comes to what the input holds, unless it meets a fault of the input or a
limit. Either way the depth is what it was. -/
theorem build_ends (mode : Mode) (input : Bytes) (h : before.Sound) :
    Ends ((task mode input before).Done before) ((task mode input before).Failed before)
      (Workspace.build mode input before) := by
  have hlength : (TokenStream.ofBytes mode input).length ≤ input.length :=
    TokenStream.length_ofReader_le mode { rest := input }
  refine (newSet_ends h).bind ?_ fun failure after hfailed => Task.failed_of_stopped
    (hfailed.stopped (Nat.le_add_right _ _) (Pays.refl h) (.refl before.arena) (Nat.le_refl _)) rfl
    (Nat.le_add_right _ _)
  rintro set first ⟨rfl, harena, hdepth, hpays, hcover⟩
  have hreading := reading_first h harena hpays
  have hbound : cover first.arena first.buffer + 256 * 0 +
      280 * (TokenStream.ofBytes mode input).length ≤ (task mode input before).bound := by
    simp only [task]
    omega
  have hcontents : (task mode input before).expected = (do
      let found ← (readingTask before.arena mode (.ofBytes mode input) first [] [] []).expected
      mode.expect (found.2 = input.length) (.unreadBytes (input.length - found.2))
      return found) := by
    simp only [task, readingTask, TokenStream.contents, harena, Arena.setCount_withSet]
  refine ((reads _ mode (.ofBytes mode input)).ends hreading).bind ?_ fun failure after hfailed =>
    hfailed.earlier hpays rfl ?_ hdepth (Nat.le_refl _) hbound
  · rintro built filled ⟨hheight, fields, hforest, hfinished⟩
    rw [hforest, ok_bind] at hcontents
    have hfinished' := hfinished.earlier hpays hdepth hbound
    refine (require_ends _ filled).bind ?_ ?_
    · rintro _ after ⟨hafter, hcheck⟩
      rw [hafter]
      rw [hcheck, ok_bind] at hcontents
      have hheight' : (task mode input before).height < max before.depth 1 := hdepth ▸ hheight
      exact ⟨hheight', fields, hcontents, hfinished'⟩
    · rintro failure after ⟨hafter, fault, rfl, hcheck⟩
      rw [hafter]
      rw [hcheck, error_bind] at hcontents
      exact ⟨hcontents, hfinished'.extends_base, hfinished'.pays, hfinished'.depth_eq,
        hfinished'.cover_le⟩
  · intro fault hforest
    rw [hcontents, hforest, error_bind]

end Build

end UnknownFields
