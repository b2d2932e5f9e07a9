import Mathlib
import UnknownFields.Proofs.Build.Isolation
import UnknownFields.Proofs.Build.Moments

/-!
The depth that a build needs. A step that succeeds does the same with more depth, so all depths that
are enough for an input give one tree. Which depths are enough is told by the greatest number of
groups that are open at once: this many units are spent at some moment of a build that succeeds, and
a build fails for want of depth exactly if it does not have one unit more.
-/

namespace UnknownFields

/-! ### More depth than is needed -/

namespace Workspace

def deepen (more : Nat) (workspace : Workspace) : Workspace :=
  { workspace with depth := workspace.depth + more }

/-- Where the step succeeds it does so with more depth as well, and what was added is left over. -/
def Deepens {α : Type} (step : Build α) : Prop :=
  ∀ before after answer, step before = .ok answer after →
    ∀ more, step (before.deepen more) = .ok answer (after.deepen more)

variable {α β : Type} {step : Build α} {next : α → Build β}

theorem deepens_pure (answer : α) : Deepens (pure answer) := by
  rintro before _ _ ⟨⟩ more
  rfl

theorem deepens_throw (failure : Failure) : Deepens (throw failure : Build α) := nofun

theorem Deepens.bind (h : Deepens step) (hnext : ∀ answer, Deepens (next answer)) :
    Deepens (step >>= next) := by
  intro before after answer hends more
  cases hstep : step before with
  | ok middle between =>
      rw [Build.bind_of_ok hstep] at hends
      rw [Build.bind_of_ok (h before between middle hstep more)]
      exact hnext middle between after answer hends more
  | error failure between =>
      rw [Build.bind_of_error hstep] at hends
      cases hends

theorem Deepens.inside (h : Deepens step) (outers : List OuterLevel) :
    Deepens (Build.inside outers step) := by
  intro before after answer hends more
  cases hstep : step before with
  | ok middle between =>
      rw [Build.inside_of_ok hstep] at hends
      cases hends
      exact Build.inside_of_ok (h before after answer hstep more) outers
  | error failure between =>
      rw [Build.inside_of_error hstep] at hends
      cases hends

theorem deepens_onArena (step : Metering Arena α) : Deepens (onArena step) := by
  rintro ⟨arena, buffer, budget, depth⟩ after answer hends more
  simp only [onArena, deepen] at hends ⊢
  split at hends
  · cases hends
    rfl
  · cases hends

theorem deepens_onBuffer (step : Metering MergeBuffer α) : Deepens (onBuffer step) := by
  rintro ⟨arena, buffer, budget, depth⟩ after answer hends more
  simp only [onBuffer, deepen] at hends ⊢
  split at hends
  · cases hends
    rfl
  · cases hends

theorem deepens_require (check : Except Fault Unit) : Deepens (require check) := by
  cases check with
  | ok => exact deepens_pure ()
  | error fault => exact deepens_throw (.fault fault)

theorem deepens_spendDepth : Deepens spendDepth := by
  intro before after answer hends more
  by_cases hdepth : before.depth ≤ 1
  · have hfails : spendDepth before = .error (.limit .maxDepthExceeded) before := if_pos hdepth
    rw [hfails] at hends
    cases hends
  · have hspends : spendDepth before = .ok () { before with depth := before.depth - 1 } :=
      if_neg hdepth
    have hdeeper : ¬(before.deepen more).depth ≤ 1 := fun hle =>
      hdepth ((Nat.le_add_right _ _).trans hle)
    have hleft : before.depth + more - 1 = before.depth - 1 + more := by omega
    rw [hspends] at hends
    cases hends
    show spendDepth _ = .ok () { before with depth := before.depth - 1 + more }
    rw [← hleft]
    exact if_neg hdeeper

theorem deepens_regainDepth : Deepens regainDepth := by
  rintro ⟨arena, buffer, budget, depth⟩ _ _ ⟨⟩ more
  have hgained : depth + more + 1 = depth + 1 + more := by omega
  simp only [regainDepth, deepen, hgained]

theorem deepens_sortSet (set : Nat) : Deepens (sortSet set) := by
  intro before after answer hends more
  have harena : (before.deepen more).arena = before.arena := rfl
  rw [sortSet] at hends ⊢
  rw [harena]
  cases hfields : before.arena.fields set with
  | error fault =>
      rw [hfields] at hends
      cases hends
  | ok fields =>
      rw [hfields] at hends
      dsimp only at hends ⊢
      cases hsort : onBuffer (MergeBuffer.sort fields) before with
      | error failure between =>
          rw [hsort] at hends
          cases hends
      | ok sorted between =>
          rw [hsort] at hends
          rw [deepens_onBuffer _ before between sorted hsort more]
          dsimp only [deepen] at hends ⊢
          cases hreplaced : between.arena.replaceSet set sorted with
          | error fault =>
              rw [hreplaced] at hends
              cases hends
          | ok arena =>
              rw [hreplaced] at hends
              cases hends
              rfl

end Workspace

namespace Build

open Workspace

theorem deepens_finish (level : Level) : Deepens (finish level) := by
  rw [finish]
  split_ifs
  · exact deepens_pure ()
  · exact deepens_sortSet level.set

theorem deepens_closeGroup (inner : Level) (outer : OuterLevel) (outers : List OuterLevel) :
    Deepens (closeGroup inner outer outers) :=
  ((deepens_finish inner).inside _).bind fun _ =>
    deepens_regainDepth.bind fun _ => (deepens_onArena _).inside outers

theorem deepens_closeAll (level : Level) (outers : List OuterLevel) :
    Deepens (closeAll level outers) := by
  induction outers generalizing level with
  | nil => exact (deepens_finish level).bind fun _ => deepens_pure level.set
  | cons outer outers ih =>
      exact (deepens_closeGroup level outer outers).bind fun _ => ih outer.level

/-- **A build that succeeds** does the same with more depth, whatever is left of its input. -/
theorem deepens_fill (mode : Mode) (stream : TokenStream) (level : Level) (outers : List OuterLevel) :
    Deepens (fill mode stream level outers) := by
  induction stream generalizing level outers with
  | done position => exact (deepens_closeAll level outers).bind fun _ => deepens_pure _
  | broken fault => exact (deepens_throw (.fault fault)).inside outers
  | next token position rest ih =>
      cases token with
      | field tag value =>
          exact ((deepens_onArena _).inside outers).bind fun _ => ih (level.see tag) outers
      | opening tag =>
          exact (deepens_spendDepth.inside outers).bind fun _ =>
            ((deepens_onArena _).inside _).bind fun set => ih { set } _
      | closing tag =>
          rw [fill_closing]
          refine ((deepens_require _).inside outers).bind fun _ => ?_
          cases outers with
          | nil => exact (deepens_closeAll level []).bind fun _ => deepens_pure _
          | cons outer outers =>
              exact (deepens_closeGroup level outer outers).bind fun _ => ih outer.level outers
      | unknown tag =>
          exact (deepens_closeAll (level.see tag) outers).bind fun _ => deepens_pure _

theorem deepens_build (mode : Mode) (input : Bytes) : Deepens (Workspace.build mode input) :=
  (deepens_onArena _).bind fun set => (deepens_fill mode _ { set } []).bind fun _ =>
    (deepens_require _).bind fun _ => deepens_pure _

end Build

/-- A tree does not depend on the depth under which it has been built. -/
theorem FieldTree.parse_of_le {mode : Mode} {limits : Limits} {input : Bytes} {tree : FieldTree}
    (h : parse mode limits input = .ok tree) {maxDepth : Nat} (hle : limits.maxDepth ≤ maxDepth) :
    parse mode { limits with maxDepth } input = .ok tree := by
  obtain ⟨built, after, hbuild, rfl⟩ := parse_eq_ok_iff.mp h
  have hdeeper := Build.deepens_build mode input _ _ _ hbuild (maxDepth - limits.maxDepth)
  have hdepth : limits.maxDepth + (maxDepth - limits.maxDepth) = maxDepth := by omega
  have hlimits : (Workspace.ofLimits limits).deepen (maxDepth - limits.maxDepth) =
      .ofLimits { limits with maxDepth } := by
    rw [Workspace.deepen, Workspace.ofLimits, Workspace.ofLimits, hdepth]
  rw [hlimits] at hdeeper
  exact parse_eq_ok_iff.mpr ⟨built, _, hdeeper, rfl⟩

theorem FieldTree.parse_unique {mode : Mode} {limits : Limits} {input : Bytes} {maxDepth : Nat}
    {tree other : FieldTree} (h : parse mode limits input = .ok tree)
    (h' : parse mode { limits with maxDepth } input = .ok other) : tree = other := by
  have hdeeper := parse_of_le h (Nat.le_max_left limits.maxDepth maxDepth)
  have hdeeper' := parse_of_le h' (Nat.le_max_right limits.maxDepth maxDepth)
  rw [hdeeper] at hdeeper'
  exact Except.ok.inj hdeeper'

/-! ### Open groups -/

/-- The greatest number of groups that are open at once when the input is read. -/
def openGroups (input : Bytes) : Nat := (TokenStream.ofBytes .lenient input).height 0

theorem openGroups_of_encodes {input : Bytes} {fields : List (Node Unit)} (h : Encodes input fields) :
    openGroups input = nesting fields := TokenStream.height_of_encodes h .lenient

namespace Build

open Workspace

variable {input : Bytes} {before after : Workspace} {built : Built} {steps : Nat}
  {moment later : Moment}

/-- The greatest number of groups that are open at once from this moment on. -/
def Moment.height (moment : Moment) : Nat :=
  (TokenStream.ofReader .lenient moment.reader).height moment.outers.length

theorem Moment.length_le_height (moment : Moment) : moment.outers.length ≤ moment.height :=
  TokenStream.le_height _ _

theorem Moment.Next.height_eq (h : moment.Next later) :
    moment.height = max moment.outers.length later.height := by
  have hlater := later.length_le_height
  cases h with
  | field more read _ =>
      rw [height, ofReader_of_read more read, TokenStream.height]
      exact (Nat.max_eq_right hlater).symm
  | opening more read _ _ =>
      rw [height, ofReader_of_read more read, TokenStream.height]
      exact (Nat.max_eq_right (Nat.le_of_succ_le hlater)).symm
  | closing more read _ =>
      rw [height, ofReader_of_read more read, List.length_cons, TokenStream.height]
      rfl
  | @unknown _ behind _ outers _ _ more read =>
      have hdone : TokenStream.ofReader .lenient behind = .done behind.position := by
        rw [TokenStream.ofReader, dif_pos (Reader.rest_eq_nil_of_unknown read)]
      rw [height, height, ofReader_of_read more read, hdone, TokenStream.height, TokenStream.height]
      exact (Nat.max_self _).symm
  | @atEnd reader _ _ outers _ _ none_left _ =>
      have hdone : TokenStream.ofReader .lenient reader = .done reader.position := by
        rw [TokenStream.ofReader, dif_pos none_left]
      rw [height, height, hdone, TokenStream.height, TokenStream.height]
      exact (Nat.max_eq_left (Nat.le_succ _)).symm
  | ended _ => exact (Nat.max_eq_right hlater).symm

theorem Moment.Last.height_eq (h : moment.Last) : moment.height = moment.outers.length := by
  rw [height, h.outers_eq, List.length_nil]
  rcases h.closes with hend | ⟨tag, behind, hread⟩
  · rw [TokenStream.ofReader, dif_pos hend, TokenStream.height]
  · by_cases hrest : moment.reader.rest = []
    · rw [TokenStream.ofReader, dif_pos hrest, TokenStream.height]
    · rw [ofReader_of_read hrest hread, TokenStream.height]

/-- The greatest number is still to come, or it has been reached. -/
theorem Comes.height_cases (h : Comes input before steps moment) :
    moment.height ≤ openGroups input ∧ (moment.height = openGroups input ∨
      ∃ steps earlier, Comes input before steps earlier ∧
        earlier.outers.length = openGroups input) := by
  induction h with
  | start => exact ⟨Nat.le_refl _, Or.inl rfl⟩
  | @next steps moment later comes next ih =>
      obtain ⟨hle, hreached⟩ := ih
      rw [next.height_eq] at hle hreached
      refine ⟨(Nat.le_max_right _ _).trans hle, ?_⟩
      rcases hreached with heq | hreached
      · rcases Nat.le_total moment.outers.length later.height with hcome | hcome
        · rw [Nat.max_eq_right hcome] at heq
          exact Or.inl heq
        · rw [Nat.max_eq_left hcome] at heq
          exact Or.inr ⟨steps, moment, comes, heq⟩
      · exact Or.inr hreached

theorem Comes.exists_last (h : Comes input before steps moment)
    (hbuild : Workspace.build .lenient input before = .ok built after) :
    ∃ steps last, Comes input before steps last ∧ last.Last := by
  induction hmeasure : moment.measure using Nat.strong_induction_on generalizing steps moment with
  | _ measure ih =>
      rcases Moment.goesOn moment with ⟨later, hnext⟩ | hlast | ⟨failure, stopped, hfails⟩
      · exact ih later.measure (hmeasure ▸ hnext.measure_lt) (h.next hnext) rfl
      · exact ⟨steps, moment, h, hlast⟩
      · rw [h.result_eq, hbuild] at hfails
        cases hfails

/-- **At some moment of a build that succeeds** this number of groups is open, and at no moment more. -/
theorem isGreatest_openGroups (h : Workspace.build .lenient input before = .ok built after) :
    IsGreatest {count | ∃ steps moment, Comes input before steps moment ∧
      moment.outers.length = count} (openGroups input) := by
  constructor
  · cases hset : onArena Arena.newSet before with
    | error failure first =>
        rw [Workspace.build, bind_of_error hset] at h
        cases h
    | ok set first =>
        obtain ⟨steps, last, hcomes, hlast⟩ := (Comes.start hset).exists_last h
        rcases hcomes.height_cases.2 with heq | hreached
        · exact ⟨steps, last, hcomes, hlast.height_eq ▸ heq⟩
        · exact hreached
  · rintro _ ⟨steps, moment, hcomes, rfl⟩
    exact moment.length_le_height.trans hcomes.height_cases.1

end Build

namespace FieldTree

open Workspace

variable {input : Bytes}

/-- Below its ceiling a parse succeeds exactly if the depth admits the groups that are open at once. -/
theorem parse_cases (limits : Limits)
    (hroom : ({ limit := limits.arenaBytes } : Budget).Admits (24 + 280 * input.length)) :
    (max limits.maxDepth 1 ≤ openGroups input ∧
      parse .lenient limits input = .error (.limit .maxDepthExceeded)) ∨
    (openGroups input < max limits.maxDepth 1 ∧ ∃ tree, parse .lenient limits input = .ok tree) := by
  have hsound := sound_ofLimits limits
  cases hbuild : Workspace.build .lenient input (ofLimits limits) with
  | ok built after =>
      exact Or.inr ⟨(hsound.build_done hbuild).1, _, parse_eq_ok_iff.mpr ⟨built, after, hbuild, rfl⟩⟩
  | error failure after =>
      have hparse : parse .lenient limits input = .error failure := by rw [parse, hbuild]
      cases failure with
      | fault fault => exact absurd hbuild (hsound.build_lenient input fault after)
      | limit error =>
          cases error with
          | maxDepthExceeded => exact Or.inl ⟨(hsound.build_failed hbuild).1.allowed, hparse⟩
          | outOfMemory => exact absurd hparse (parse_ne_outOfMemory .lenient hroom)

/-- **The threshold of the depth.** There is one number of open groups for each input: the nesting of
its fields if it encodes some, and at any rate the most that a build with enough depth has open at
once. A depth that is not above it, and not above one for an input without groups, leads to the
limit; all others lead to one and the same tree, in the same slots and windows. -/
theorem parse_depth (hlength : input.length < 2 ^ 48) :
    (∀ fields, Encodes input fields → openGroups input = nesting fields) ∧
    (∀ maxDepth, openGroups input < max maxDepth 1 →
      IsGreatest {count | ∃ steps moment, Build.Comes input (ofLimits { maxDepth }) steps moment ∧
        moment.outers.length = count} (openGroups input)) ∧
    (∀ maxDepth, max maxDepth 1 ≤ openGroups input →
      parse .lenient { maxDepth } input = .error (.limit .maxDepthExceeded)) ∧
    ∃ tree, ∀ maxDepth, openGroups input < max maxDepth 1 →
      parse .lenient { maxDepth } input = .ok tree := by
  have hroom : ({} : Budget).Admits (24 + 280 * input.length) := by
    refine ⟨?_, nofun⟩
    show 24 + 280 * input.length < 2 ^ 64
    omega
  have hcases (maxDepth : Nat) : (max maxDepth 1 ≤ openGroups input ∧
        parse .lenient { maxDepth } input = .error (.limit .maxDepthExceeded)) ∨
      (openGroups input < max maxDepth 1 ∧ ∃ tree, parse .lenient { maxDepth } input = .ok tree) :=
    parse_cases { maxDepth } hroom
  refine ⟨fun fields => openGroups_of_encodes, fun maxDepth hfits => ?_, fun maxDepth hdeep => ?_, ?_⟩
  · rcases hcases maxDepth with ⟨hdeep, _⟩ | ⟨_, tree, hparse⟩
    · exact absurd hfits (not_lt.mpr hdeep)
    · obtain ⟨built, after, hbuild, _⟩ := parse_eq_ok_iff.mp hparse
      exact Build.isGreatest_openGroups hbuild
  · rcases hcases maxDepth with ⟨_, hparse⟩ | ⟨hfits, _⟩
    · exact hparse
    · exact absurd hfits (not_lt.mpr hdeep)
  · rcases hcases (openGroups input + 1) with ⟨hdeep, _⟩ | ⟨_, tree, hparse⟩
    · omega
    refine ⟨tree, fun maxDepth hfits => ?_⟩
    rcases hcases maxDepth with ⟨hdeep, _⟩ | ⟨_, other, hparse'⟩
    · exact absurd hfits (not_lt.mpr hdeep)
    · rw [hparse', parse_unique hparse hparse']

/-- A group that is closed, and two that are not, behind each other. -/
theorem parse_depth_unclosed :
    openGroups [0x0b, 0x0c, 0x13, 0x0b, 0x08] = 2 ∧
    parse .lenient { maxDepth := 2 } [0x0b, 0x0c, 0x13, 0x0b, 0x08] =
      .error (.limit .maxDepthExceeded) ∧
    ∃ tree, parse .lenient { maxDepth := 3 } [0x0b, 0x0c, 0x13, 0x0b, 0x08] = .ok tree ∧
      parse .lenient { maxDepth := 100 } [0x0b, 0x0c, 0x13, 0x0b, 0x08] = .ok tree := by
  have hopen : openGroups [0x0b, 0x0c, 0x13, 0x0b, 0x08] = 2 := by cbv
  have hlength : [0x0b, 0x0c, 0x13, 0x0b, 0x08].length < 2 ^ 48 := by decide
  obtain ⟨_, _, hdeep, tree, hfits⟩ := @parse_depth [0x0b, 0x0c, 0x13, 0x0b, 0x08] hlength
  rw [hopen] at hdeep hfits
  exact ⟨hopen, hdeep 2 (by decide), tree, hfits 3 (by decide), hfits 100 (by decide)⟩

end FieldTree

end UnknownFields
