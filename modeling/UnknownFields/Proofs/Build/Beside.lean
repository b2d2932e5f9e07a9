import UnknownFields.Proofs.Arena.Beside
import UnknownFields.Proofs.Build.Run

/-!
A build behind the sets of an earlier workspace, next to the same build on its own. Both take the
same steps: the arena of the first one is that of the second one behind the old sets, and the room
of its merge buffer is the larger one of the two. So both end in the same way, unless the budget of
the first one does not admit the bytes that both have together. A charge that is refused somewhere
in the middle shows this as well as the total at the end, since the bytes only become more.
-/

namespace UnknownFields

def Level.shift (count : Nat) (level : Level) : Level := { level with set := count + level.set }

@[simp]
theorem Level.set_shift (count : Nat) (level : Level) :
    (level.shift count).set = count + level.set := rfl

def OuterLevel.shift (count : Nat) (outer : OuterLevel) : OuterLevel :=
  { outer with level := outer.level.shift count }

namespace Workspace

variable {base alone together after : Workspace}

/-- What is in use when a build comes on top of `base` that has `alone` on its own. -/
def totalBeside (base alone : Workspace) : Nat :=
  base.budget.used + alone.arena.charged +
    Arena.slotBytes * (max base.buffer.room alone.buffer.room - base.buffer.room)

theorem Pays.totalBeside_le (h : alone.Pays after) (base : Workspace) :
    base.totalBeside alone ≤ base.totalBeside after := by
  have hcharged := h.charged_le
  have hroom := h.room_le
  simp only [totalBeside, Arena.slotBytes]
  omega

/-- What a build has on its own is part of what both have together. -/
theorem Sound.bytes_le_totalBeside (h : base.Sound) (alone : Workspace) :
    alone.bytes ≤ base.totalBeside alone := by
  have hused := h.bytes_le
  simp only [bytes, totalBeside, Arena.slotBytes] at hused ⊢
  omega

theorem Pays.bind {α β : Type} {step : Build α} {next : α → Build β}
    (h : alone.Pays (leftBehind (step alone)))
    (hnext : ∀ answer middle, alone.Pays middle → middle.Pays (leftBehind (next answer middle))) :
    alone.Pays (leftBehind ((step >>= next) alone)) := by
  simp only [Bind.bind, EStateM.bind]
  cases hstep : step alone with
  | ok answer middle =>
      rw [hstep] at h
      exact h.trans (hnext answer middle h)
  | error failure after =>
      rw [hstep] at h
      exact h

theorem inside_pays {α : Type} {step : Build α} (outers : List OuterLevel)
    (h : alone.Pays (leftBehind (step alone))) :
    alone.Pays (leftBehind (Build.inside outers step alone)) := by
  cases hstep : step alone with
  | ok answer after =>
      rw [Build.inside_of_ok hstep]
      rwa [hstep] at h
  | error failure after =>
      rw [Build.inside_of_error hstep]
      rw [hstep] at h
      exact h.withDepth _

theorem require_pays (h : alone.Sound) (check : Except Fault Unit) :
    alone.Pays (leftBehind (require check alone)) := by
  cases check <;> exact Pays.refl h

/-- A workspace in the middle of a build on its own, and one in the middle of the same build behind
the sets of `base`. -/
structure Beside (base alone together : Workspace) : Prop where
  base_sound : base.Sound
  sound : alone.Sound
  used_eq : alone.budget.used = alone.bytes
  admits : ∀ total, base.budget.Admits total → alone.budget.Admits total
  pays : base.Pays together
  arena_eq : together.arena = base.arena.beside alone.arena
  room_eq : together.buffer.room = max base.buffer.room alone.buffer.room
  depth_eq : together.depth = alone.depth

/-- Before a build there is nothing next to the old sets. -/
theorem beside_ofLimits {limits : Limits} (h : base.Sound) (hdepth : base.depth = limits.maxDepth)
    (hadmits : ∀ total, base.budget.Admits total → ({ limit := limits.arenaBytes } : Budget).Admits total) :
    Beside base (ofLimits limits) base where
  base_sound := h
  sound := sound_ofLimits limits
  used_eq := rfl
  admits := hadmits
  pays := Pays.refl h
  arena_eq := (Arena.beside_empty base.arena).symm
  room_eq := (Nat.max_eq_left (Nat.zero_le _)).symm
  depth_eq := hdepth

theorem Beside.windows_eq (h : Beside base alone together) {set : Nat} {window : Window}
    (hwindow : alone.arena.windows[set]? = some window) :
    together.arena.windows[base.arena.setCount + set]? =
      some (window.shift base.arena.slots.size) := by
  rw [h.arena_eq, Arena.windows_beside, hwindow]
  rfl

theorem Beside.fields_eq (h : Beside base alone together) {set : Nat} {fields : List Field}
    (hfields : alone.arena.fields set = .ok fields) :
    together.arena.fields (base.arena.setCount + set) =
      .ok (fields.map (Field.shift base.arena.setCount)) := by
  rw [h.arena_eq]
  exact Arena.fields_beside hfields

/-- A set denotes the same tree in both, with all ids shifted. -/
theorem Beside.nodes_eq (h : Beside base alone together) {set : Nat} {nodes : List (Node Nat)}
    (hnodes : alone.arena.nodes set = .ok nodes) :
    together.arena.nodes (base.arena.setCount + set) =
      .ok (nodes.map (Node.map (base.arena.setCount + ·))) := by
  rw [h.arena_eq]
  exact Arena.nodes_beside hnodes

theorem Beside.withDepth (h : Beside base alone together) {depth depth' : Nat}
    (hdepth : depth' = depth) :
    Beside base { alone with depth } { together with depth := depth' } where
  base_sound := h.base_sound
  sound := ((Pays.refl h.sound).withDepth depth).sound
  used_eq := h.used_eq
  admits := h.admits
  pays := h.pays.withDepth depth'
  arena_eq := h.arena_eq
  room_eq := h.room_eq
  depth_eq := hdepth

theorem Beside.used_together (h : Beside base alone together) :
    together.budget.used = base.totalBeside alone := by
  have hused := h.pays.used_eq
  have hroom := h.pays.room_le
  rw [bytes, bytes, h.arena_eq, Arena.charged_beside] at hused
  rw [totalBeside, ← h.room_eq]
  rw [Arena.slotBytes] at hused ⊢
  omega

/-- A cost for memory next to `base` leads to the total of this memory. -/
theorem Beside.used_add_cost (h : Beside base alone together) {cost : Nat} {buffer : MergeBuffer}
    (hcost : together.Affords cost (base.arena.beside after.arena) buffer)
    (hroom : buffer.room = max base.buffer.room after.buffer.room) :
    together.budget.used + cost = base.totalBeside after := by
  have hused := h.pays.used_eq
  have heq := hcost.cost_eq
  have hle := h.pays.room_le.trans hcost.room_le
  have hbytes : base.bytes = base.arena.charged + Arena.slotBytes * base.buffer.room := rfl
  rw [Arena.charged_beside] at heq
  rw [totalBeside, ← hroom]
  rw [Arena.slotBytes] at *
  omega

/-- How a step on its own and the same step behind the sets of `base` end. -/
inductive Follows {α β : Type} (base : Workspace) (same : α → β → Prop) :
    EStateM.Result Failure Workspace α → EStateM.Result Failure Workspace β → Prop where
  | done {answer : α} {answer' : β} {alone together : Workspace} (answers : same answer answer')
      (beside : Beside base alone together) :
      Follows base same (.ok answer alone) (.ok answer' together)
  | failed {failure : Failure} {alone together : Workspace} :
      Follows base same (.error failure alone) (.error failure together)
  | full {result : EStateM.Result Failure Workspace α} {together : Workspace}
      (exceeds : ¬base.budget.Admits (base.totalBeside (leftBehind result))) :
      Follows base same result (.error (.limit .outOfMemory) together)

section Follows

variable {α β α' β' : Type} {same : α → β → Prop} {same' : α' → β' → Prop}

/-- A step and what follows it, on both sides. What follows only adds to the bytes in use. -/
theorem Follows.bind {step : Build α} {step' : Build β} {next : α → Build α'} {next' : β → Build β'}
    {done : α → Workspace → Prop} {failed : Failure → Workspace → Prop}
    (h : Follows base same (step alone) (step' together)) (hends : Ends done failed (step alone))
    (hnext : ∀ answer answer' middle middle', done answer middle → same answer answer' →
      Beside base middle middle' → Follows base same' (next answer middle) (next' answer' middle'))
    (hpays : ∀ answer middle, done answer middle → middle.Pays (leftBehind (next answer middle))) :
    Follows base same' ((step >>= next) alone) ((step' >>= next') together) := by
  simp only [Bind.bind, EStateM.bind]
  generalize step alone = result at h hends
  generalize step' together = result' at h
  cases h with
  | done answers beside => exact hnext _ _ _ _ hends answers beside
  | failed => exact .failed
  | full exceeds =>
      cases result with
      | error failure after => exact .full exceeds
      | ok answer middle =>
          refine .full fun hadmits => exceeds ?_
          exact hadmits.of_le ((hpays answer middle hends).totalBeside_le base)

/-- Two steps that pay for the same: the second one has the arena of the first one behind that of
`base`, and no less room. -/
theorem Beside.pay_follows (h : Beside base alone together) {cost cost' : Nat} {arena : Arena}
    {buffer buffer' : MergeBuffer} {answer : α} {answer' : β} (answers : same answer answer')
    (hcost : alone.Affords cost arena buffer)
    (hcost' : together.Affords cost' (base.arena.beside arena) buffer')
    (hroom : buffer'.room = max base.buffer.room buffer.room) :
    Follows base same (alone.pay cost arena buffer answer)
      (together.pay cost' (base.arena.beside arena) buffer' answer') := by
  have htotal : together.budget.used + cost' =
      base.totalBeside (alone.paid cost arena buffer) := h.used_add_cost hcost' hroom
  have hown : alone.budget.used + cost = (alone.paid cost arena buffer).bytes := by
    rw [h.used_eq, Nat.add_comm]
    exact hcost.cost_eq
  by_cases hadmits : base.budget.Admits (base.totalBeside (alone.paid cost arena buffer))
  · have hadmits' : together.budget.Admits (together.budget.used + cost') := by
      rw [h.pays.admits_iff, htotal]
      exact hadmits
    have hadmitsOwn : alone.budget.Admits (alone.budget.used + cost) := by
      rw [hown]
      exact h.admits _ (hadmits.of_le (h.base_sound.bytes_le_totalBeside _))
    rw [pay, pay, Budget.charge?_of_admits hadmits', Budget.charge?_of_admits hadmitsOwn]
    exact .done answers ⟨h.base_sound, (hcost.pays h.sound hadmitsOwn).sound, hown, h.admits,
      h.pays.trans (hcost'.pays h.pays.sound hadmits'), rfl, hroom, h.depth_eq⟩
  · have hrefused : ¬together.budget.Admits (together.budget.used + cost') := by
      rwa [h.pays.admits_iff, htotal]
    rw [pay, pay, Budget.charge?_of_not_admits hrefused]
    by_cases hadmitsOwn : alone.budget.Admits (alone.budget.used + cost)
    · rw [Budget.charge?_of_admits hadmitsOwn]
      exact .full hadmits
    · rw [Budget.charge?_of_not_admits hadmitsOwn]
      exact .failed

/-! ### Steps -/

theorem Beside.newSet_follows (h : Beside base alone together) :
    Follows base (fun set set' => set' = base.arena.setCount + set) (onArena Arena.newSet alone)
      (onArena Arena.newSet together) := by
  have hcost := newSet_affords h.pays.sound
  rw [newSet_eq, newSet_eq, h.arena_eq, Arena.withSet_beside, Arena.setCount_beside]
  rw [h.arena_eq, Arena.withSet_beside] at hcost
  exact h.pay_follows rfl (newSet_affords h.sound) hcost h.room_eq

section Set

variable {set : Nat} {fields : List Field}

theorem Beside.push_follows (h : Beside base alone together)
    (hfields : alone.arena.fields set = .ok fields) {field : Field}
    (hgroup : ∀ member, field.payload = .group member →
      set < member ∧ member < alone.arena.setCount) :
    Follows base (fun _ _ => True) (onArena (Arena.push set field) alone)
      (onArena (Arena.push (base.arena.setCount + set) (field.shift base.arena.setCount))
        together) := by
  obtain ⟨window, hwindow⟩ := Arena.window_of_lt (Arena.lt_of_fields hfields)
  have hwindow' := h.windows_eq hwindow
  have hfields' := h.fields_eq hfields
  have hgroup' : ∀ member, (field.shift base.arena.setCount).payload = .group member →
      base.arena.setCount + set < member ∧ member < together.arena.setCount := by
    intro member hmember
    rw [h.arena_eq, Arena.setCount_beside]
    obtain ⟨tag, value | old⟩ := field
    · cases hmember
    · cases hmember
      have := hgroup old rfl
      omega
  have hcost := push_affords h.pays.sound hwindow' hfields' hgroup'
  rw [push_eq h.sound hwindow, push_eq h.pays.sound hwindow', h.arena_eq, Arena.pushed_beside]
  rw [h.arena_eq, Arena.pushed_beside] at hcost
  exact h.pay_follows trivial (push_affords h.sound hwindow hfields hgroup) hcost h.room_eq

theorem Beside.sortSet_follows (h : Beside base alone together)
    (hfields : alone.arena.fields set = .ok fields) :
    Follows base (fun _ _ => True) (sortSet set alone)
      (sortSet (base.arena.setCount + set) together) := by
  obtain ⟨window, hwindow⟩ := Arena.window_of_lt (Arena.lt_of_fields hfields)
  have hwindow' := h.windows_eq hwindow
  have hfields' := h.fields_eq hfields
  obtain ⟨left, hcost, hstep⟩ := sortSet_eq h.sound hwindow hfields
  obtain ⟨left', hcost', hstep'⟩ := sortSet_eq h.pays.sound hwindow' hfields'
  have hsorted : together.arena.replaced (window.shift base.arena.slots.size)
        (sortByTag Field.tag (fields.map (Field.shift base.arena.setCount))) =
      base.arena.beside (alone.arena.replaced window (sortByTag Field.tag fields)) := by
    rw [h.arena_eq, ← map_sortByTag Field.tag (Field.tag_shift base.arena.setCount), Arena.replaced_beside]
  rw [hsorted] at hcost' hstep'
  rw [hstep, hstep']
  refine h.pay_follows trivial hcost hcost' ?_
  dsimp only
  rw [List.length_map, h.room_eq]
  exact MergeBuffer.grownRoom_max h.base_sound.buffer.rounded h.sound.buffer.rounded _

end Set

end Follows

/-! ### Levels -/

section Levels

variable {front : Arena} {set : Nat} {items : List (Node Nat)} {outers : List OuterLevel}
  {opened : List Opened}

/-- Both sides have as many groups to leave. -/
theorem Follows.inside {α β : Type} {same : α → β → Prop} {step : Build α} {step' : Build β}
    (h : Follows base same (step alone) (step' together)) (outers : List OuterLevel) :
    Follows base same (Build.inside outers step alone)
      (Build.inside (outers.map (OuterLevel.shift base.arena.setCount)) step' together) := by
  cases hstep : step alone with
  | ok answer after =>
      rw [hstep] at h
      rw [Build.inside_of_ok hstep]
      cases hstep' : step' together with
      | ok answer' after' =>
          rw [hstep'] at h
          rwa [Build.inside_of_ok hstep']
      | error failure' after' =>
          rw [hstep'] at h
          rw [Build.inside_of_error hstep']
          cases h with
          | full exceeds => exact .full exceeds
  | error failure after =>
      rw [hstep] at h
      rw [Build.inside_of_error hstep]
      cases hstep' : step' together with
      | ok answer' after' =>
          rw [hstep'] at h
          nomatch h
      | error failure' after' =>
          rw [hstep'] at h
          rw [Build.inside_of_error hstep']
          cases h with
          | failed => exact .failed
          | full exceeds => exact .full exceeds

theorem Beside.finish_follows (h : Beside base alone together)
    (hholds : alone.arena.Holds set items) {level : Level} (hlevel : level.set = set) :
    Follows base (fun _ _ => True) (Build.finish level alone)
      (Build.finish (level.shift base.arena.setCount) together) := by
  subst hlevel
  by_cases hascending : level.ascending
  · have hstep : Build.finish level alone = .ok () alone := by
      rw [Build.finish, if_pos hascending]
      rfl
    have hstep' : Build.finish (level.shift base.arena.setCount) together = .ok () together := by
      rw [Build.finish, Level.shift, if_pos hascending]
      rfl
    rw [hstep, hstep']
    exact .done trivial h
  · rw [Build.finish, Build.finish, Level.shift, if_neg hascending, if_neg hascending]
    exact h.sortSet_follows hholds.fields_eq

theorem Beside.closeGroup_follows (h : Beside base alone together)
    (hholds : alone.arena.Holds set items) {outer : OuterLevel} {group : Opened}
    (hstacked : Arena.Stacked front alone.arena set (outer :: outers) (group :: opened))
    (extra : List Tag) :
    Follows base (fun _ _ => True)
      (Build.closeGroup (.seen set (items.map Node.tag ++ extra)) outer outers alone)
      (Build.closeGroup ((Level.seen set (items.map Node.tag ++ extra)).shift base.arena.setCount)
        (outer.shift base.arena.setCount) (outers.map (OuterLevel.shift base.arena.setCount))
        together) := by
  have hfinish := h.finish_follows hholds (Level.set_seen set (items.map Node.tag ++ extra))
  refine Follows.bind (hfinish.inside (outer :: outers))
    (Build.inside_done _ (finish_ends h.sound hholds extra)) ?_ ?_
  · rintro _ _ middle middle' ⟨hsorted, _⟩ _ hmiddle
    have hclosable := hstacked.closable hholds hsorted
    have hready := hmiddle.withDepth (congrArg (· + 1) hmiddle.depth_eq)
    rw [Level.set_shift, Level.set_seen]
    exact (hready.push_follows hclosable.holds.fields_eq hclosable.group_younger).inside outers
  · rintro _ middle ⟨hsorted, _, hpays, _⟩
    have hclosable := hstacked.closable hholds hsorted
    have hready := (Pays.refl hpays.sound).withDepth (middle.depth + 1)
    have hpush := push_ends hready.sound hclosable.holds.fields_eq hclosable.group_younger
    rw [Level.set_seen]
    refine hready.trans (inside_pays outers ?_)
    rcases hpush.leftBehind with ⟨_, _, _, hafter, _⟩ | ⟨_, _, hafter, _⟩
    · exact hafter
    · rw [hafter]
      exact Pays.refl hready.sound

/-- The end of the input ends the levels on both sides. -/
theorem Beside.closeAll_follows (h : Beside base alone together)
    (hholds : alone.arena.Holds set items)
    (hstacked : Arena.Stacked front alone.arena set outers opened) (extra : List Tag) :
    Follows base (fun root root' => root' = base.arena.setCount + root)
      (Build.closeAll (.seen set (items.map Node.tag ++ extra)) outers alone)
      (Build.closeAll ((Level.seen set (items.map Node.tag ++ extra)).shift base.arena.setCount)
        (outers.map (OuterLevel.shift base.arena.setCount)) together) := by
  induction outers generalizing alone together set items opened extra with
  | nil =>
      have hlevel := Level.set_seen set (items.map Node.tag ++ extra)
      refine (h.finish_follows hholds hlevel).bind (finish_ends h.sound hholds extra) ?_ ?_
      · intro _ _ middle middle' _ _ hmiddle
        exact .done rfl hmiddle
      · rintro _ middle ⟨_, _, hpays, _⟩
        exact Pays.refl hpays.sound
  | cons outer outers ih =>
      obtain ⟨hnil, _⟩ | ⟨_, _, group, opened, hcons, rfl⟩ := hstacked.nil_or_cons
      · cases hnil
      cases hcons
      refine (h.closeGroup_follows hholds hstacked extra).bind
        (closeGroup_ends h.sound hholds hstacked extra) ?_ ?_
      · rintro _ _ middle middle' ⟨hholds', hstacked', hlevel, _⟩ _ hmiddle
        have hrest := ih hmiddle hholds' hstacked' []
        rw [List.append_nil, ← hlevel] at hrest
        exact hrest
      · rintro _ middle ⟨hholds', hstacked', hlevel, _, _, hpays, _⟩
        have hrest := closeAll_ends hpays.sound hholds' hstacked' []
        rw [List.append_nil, ← hlevel] at hrest
        rcases hrest.leftBehind with ⟨_, hfinished⟩ | ⟨_, hstopped⟩
        · exact hfinished.pays
        · exact hstopped.pays

end Levels

end Workspace

/-! ### Runs -/

namespace Build

open Workspace

variable {base alone together : Workspace} {front : Arena} {level : Level} {outers : List OuterLevel}
  {items : List (Node Nat)} {opened : List Opened}

/-- What two builds answer that do the same, one of them behind the sets of `base`. -/
def SameBuilt (base : Workspace) (built built' : Built) : Prop :=
  built' = ⟨base.arena.setCount + built.root, built.position⟩

theorem openField?_shift (count : Nat) (outers : List OuterLevel) :
    openField? (outers.map (OuterLevel.shift count)) = openField? outers := by
  cases outers <;> rfl

theorem require_follows (hbeside : Beside base alone together) (check : Except Fault Unit) :
    Follows base (fun _ _ => True) (require check alone) (require check together) := by
  cases check with
  | ok => exact .done trivial hbeside
  | error fault => exact .failed

theorem Reading.closeAll_follows (h : Reading front alone level outers items opened)
    (hbeside : Beside base alone together) (extra : List Tag) (position : Nat) :
    Follows base (SameBuilt base)
      ((do return ⟨← closeAll (.seen level.set (items.map Node.tag ++ extra)) outers, position⟩ :
        Build Built) alone)
      ((do return ⟨← closeAll
          ((Level.seen level.set (items.map Node.tag ++ extra)).shift base.arena.setCount)
          (outers.map (OuterLevel.shift base.arena.setCount)), position⟩ : Build Built) together) := by
  refine (hbeside.closeAll_follows h.holds h.stacked extra).bind
    (Workspace.closeAll_ends h.sound h.holds h.stacked extra) ?_ ?_
  · rintro root _ middle middle' _ rfl hmiddle
    exact .done rfl hmiddle
  · intro root middle hfinished
    exact Pays.refl hfinished.pays.sound

theorem Reading.closeGroup_follows {outer : OuterLevel} {group : Opened}
    (h : Reading front alone level (outer :: outers) items (group :: opened))
    (hbeside : Beside base alone together) :
    Follows base (fun _ _ => True) (closeGroup level outer outers alone)
      (closeGroup (level.shift base.arena.setCount) (outer.shift base.arena.setCount)
        (outers.map (OuterLevel.shift base.arena.setCount)) together) := by
  have hclose := hbeside.closeGroup_follows h.holds h.stacked []
  rw [List.append_nil, ← h.level_eq] at hclose
  exact hclose

/-- What is left of a stream is read alike on both sides, from any point on. -/
structure ReadsAlike (base : Workspace) (front : Arena) (mode : Mode) (stream : TokenStream) :
    Prop where
  follows {alone together : Workspace} {level : Level} {outers : List OuterLevel}
    {items : List (Node Nat)} {opened : List Opened}
    (reading : Reading front alone level outers items opened) (beside : Beside base alone together) :
    Follows base (SameBuilt base) (fill mode stream level outers alone)
      (fill mode stream (level.shift base.arena.setCount)
        (outers.map (OuterLevel.shift base.arena.setCount)) together)

variable {mode : Mode} {position : Nat} {rest : TokenStream}

theorem ReadsAlike.done : ReadsAlike base front mode (.done position) := by
  refine ⟨fun h hbeside => ?_⟩
  have hclose := h.closeAll_follows hbeside [] position
  rw [List.append_nil, ← h.level_eq] at hclose
  exact hclose

theorem ReadsAlike.broken (fault : Fault) : ReadsAlike base front mode (.broken fault) := by
  refine ⟨fun {alone together _ outers _ _} _ _ => ?_⟩
  have hbroken : Follows base (SameBuilt base) ((throw (.fault fault) : Build Built) alone)
      ((throw (.fault fault) : Build Built) together) := .failed
  exact hbroken.inside outers

theorem ReadsAlike.field (hrest : ReadsAlike base front mode rest) (tag : Tag) (value : Scalar) :
    ReadsAlike base front mode (.next (.field tag value) position rest) := by
  refine ⟨fun {alone _ level outers _ _} h hbeside => ?_⟩
  have hgroup : ∀ member, (Field.mk tag (.scalar value)).payload = .group member →
      level.set < member ∧ member < alone.arena.setCount := fun _ hgroup => nomatch hgroup
  have hpush := (hbeside.push_follows h.holds.fields_eq hgroup).inside outers
  refine hpush.bind (h.field_ends tag value) ?_ ?_
  · rintro _ _ middle middle' ⟨hreading, _⟩ _ hmiddle
    exact hrest.follows hreading hmiddle
  · rintro _ middle ⟨hreading, _⟩
    exact Task.pays_of_ends ((reads front mode rest).ends hreading)

theorem ReadsAlike.opening (hrest : ReadsAlike base front mode rest) (tag : Tag) :
    ReadsAlike base front mode (.next (.opening tag) position rest) := by
  refine ⟨fun {alone together level outers _ _} h hbeside => ?_⟩
  by_cases hdepth : alone.depth ≤ 1
  · have hdepth' : together.depth ≤ 1 := hbeside.depth_eq ▸ hdepth
    rw [fill_opening_of_le hdepth, fill_opening_of_le hdepth']
    exact .failed
  · have hdepth' : 1 < together.depth := hbeside.depth_eq ▸ not_le.mp hdepth
    rw [fill_opening_of_lt (not_le.mp hdepth), fill_opening_of_lt hdepth']
    have hspent := hbeside.withDepth (congrArg (· - 1) hbeside.depth_eq)
    have hset := hspent.newSet_follows.inside (⟨level.see tag, tag⟩ :: outers)
    refine hset.bind (h.opening_ends (not_le.mp hdepth) tag) ?_ ?_
    · rintro set _ middle middle' ⟨hreading, _⟩ rfl hmiddle
      exact hrest.follows hreading hmiddle
    · rintro set middle ⟨hreading, _⟩
      exact Task.pays_of_ends ((reads front mode rest).ends hreading)

theorem ReadsAlike.closing (hrest : ReadsAlike base front mode rest) (tag : Tag) :
    ReadsAlike base front mode (.next (.closing tag) position rest) := by
  refine ⟨fun {alone together level outers _ _} h hbeside => ?_⟩
  rw [fill_closing, fill_closing, openField?_shift]
  refine ((require_follows hbeside _).inside outers).bind
    (inside_done outers (require_ends _ alone)) ?_ ?_
  · rintro _ _ _ middle' ⟨rfl, _⟩ _ hmiddle
    obtain ⟨rfl, rfl⟩ | ⟨outer, outers, group, opened, rfl, rfl⟩ := h.stacked.nil_or_cons
    · have hclose := h.closeAll_follows hmiddle [] position
      rw [List.append_nil, ← h.level_eq] at hclose
      exact hclose
    · refine (h.closeGroup_follows hmiddle).bind h.closing_ends ?_ ?_
      · rintro _ _ closed closed' ⟨hreading, _⟩ _ hclosed
        exact hrest.follows hreading hclosed
      · rintro _ closed ⟨hreading, _⟩
        exact Task.pays_of_ends ((reads front mode rest).ends hreading)
  · rintro _ _ ⟨rfl, hcheck⟩
    rw [h.stacked.openField?] at hcheck
    obtain ⟨rfl, rfl⟩ | ⟨outer, outers, group, opened, rfl, rfl⟩ := h.stacked.nil_or_cons
    · exact Task.pays_of_ends (h.closing_outside rest hcheck)
    · exact Task.pays_of_ends (h.closing_group (reads front mode rest) position hcheck)

theorem ReadsAlike.unknown (tag : Tag) :
    ReadsAlike base front mode (.next (.unknown tag) position rest) := by
  refine ⟨fun h hbeside => ?_⟩
  have hclose := h.closeAll_follows hbeside [tag] position
  rw [Level.seen_append, ← h.level_eq] at hclose
  exact hclose

/-- **Both runs read alike** whatever is left of a stream. -/
theorem readsAlike (base : Workspace) (front : Arena) (mode : Mode) (stream : TokenStream) :
    ReadsAlike base front mode stream := by
  induction stream with
  | done position => exact .done
  | broken fault => exact .broken fault
  | next token position rest ih =>
      cases token with
      | field tag value => exact ih.field tag value
      | opening tag => exact ih.opening tag
      | closing tag => exact ih.closing tag
      | unknown tag => exact .unknown tag

/-- **A build behind the sets of another workspace** is the build on its own, as long as the budget
admits what both have together. -/
theorem build_follows (mode : Mode) (input : Bytes) {limits : Limits} (h : base.Sound)
    (hdepth : base.depth = limits.maxDepth)
    (hadmits : ∀ total, base.budget.Admits total →
      ({ limit := limits.arenaBytes } : Budget).Admits total) :
    Follows base (SameBuilt base) (Workspace.build mode input (ofLimits limits))
      (Workspace.build mode input base) := by
  have hfresh := sound_ofLimits limits
  have hset := (beside_ofLimits h hdepth hadmits).newSet_follows
  refine hset.bind (newSet_ends hfresh) ?_ ?_
  · rintro set _ first first' ⟨rfl, harena, _, hpays, _⟩ rfl hfirst
    have hreading := reading_first hfresh harena hpays
    refine ((readsAlike base _ mode (.ofBytes mode input)).follows hreading hfirst).bind
      ((reads _ mode (.ofBytes mode input)).ends hreading) ?_ ?_
    · rintro built _ filled filled' _ rfl hfilled
      refine (require_follows hfilled _).bind (require_ends _ filled) ?_ ?_
      · rintro _ _ _ after' ⟨rfl, _⟩ _ hafter
        exact .done rfl hafter
      · rintro _ _ ⟨rfl, _⟩
        exact Pays.refl hfilled.sound
    · rintro built filled ⟨_, fields, _, hfinished⟩
      exact (require_pays hfinished.pays.sound _).bind fun _ _ hchecked => Pays.refl hchecked.sound
  · rintro set first ⟨rfl, harena, _, hpays, _⟩
    have hreading := reading_first hfresh harena hpays
    have hfill := Task.pays_of_ends ((reads _ mode (.ofBytes mode input)).ends hreading)
    exact hfill.bind fun _ _ hfilled => (require_pays hfilled.sound _).bind fun _ _ hchecked =>
      Pays.refl hchecked.sound

end Build

end UnknownFields
