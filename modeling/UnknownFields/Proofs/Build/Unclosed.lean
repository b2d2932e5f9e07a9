import UnknownFields.Proofs.Build.Isolation
import UnknownFields.Proofs.Wire.Malformations

/-!
Groups that are never closed just end. A build has two ways out of a group, the end-group tag and the
end of the input, and both do the same to the levels that are open. So a buffer that leaves groups
open builds what it would build with their end-group tags behind it, in both modes.
-/

namespace UnknownFields.Build

open Workspace WellFormed

/-- The buffer is `input` with the end-group tags behind it of all groups that it leaves open, the
innermost one first. -/
inductive Completes (input : Bytes) : Bytes → Prop where
  | closed {groups : List OpenGroup} {tags : Bytes} (leaves_open : LeavesOpen input groups)
      (ends : EndTags groups tags) : Completes input (input ++ tags)

/-- The levels around the one that is filled are those of the open groups. -/
def Around (groups : List OpenGroup) (outers : List OuterLevel) : Prop :=
  outers.map (·.opened.fieldNumber) = groups.map OpenGroup.field

def endsAt (position : Nat) (step : Build Built) : Build Built := do
  return { (← step) with position }

variable {groups : List OpenGroup} {front tags : Bytes}

theorem endsAt_bind {α : Type} (position : Nat) (step : Build α) (next : α → Build Built) :
    endsAt position (step >>= next) = step >>= fun answer => endsAt position (next answer) := by
  simp only [endsAt, bind_assoc]

theorem Around.exists_cons {group : OpenGroup} {outer : List OpenGroup} {outers : List OuterLevel}
    (h : Around (group :: outer) outers) :
    ∃ first others, outers = first :: others ∧ openField? outers = some group.field ∧
      Around outer others := by
  cases outers with
  | nil => cases h
  | cons first others =>
      obtain ⟨hfirst, hothers⟩ := List.cons.inj h
      exact ⟨first, others, rfl, congrArg some hfirst, hothers⟩

/-- The end of the group that is expected is no fault in either mode. -/
theorem fill_closing_of_same {mode : Mode} {tag : Tag} {outer : OuterLevel} {outers : List OuterLevel}
    (h : openField? (outer :: outers) = some tag.fieldNumber) (position : Nat) (rest : TokenStream)
    (level : Level) :
    fill mode (.next (.closing tag) position rest) level (outer :: outers) = (do
      closeGroup level outer outers
      fill mode rest outer.level outers) := by
  rw [fill_closing, mode.expect_of_holds _ h]
  rfl

/-! ### The two ways out -/

/-- The end-group tags of all open groups do what the end of the input does. -/
theorem fill_endTags (h : EndTags groups tags) (mode : Mode) (position : Nat) (level : Level)
    {outers : List OuterLevel} (haround : Around groups outers) :
    fill mode (.ofReader mode ⟨tags, position⟩) level outers = (do
      return ⟨← closeAll level outers, position + tags.length⟩) := by
  induction h generalizing position level outers with
  | nil => rw [TokenStream.ofReader_nil, fill, List.length_nil, Nat.add_zero]
  | @cons group outer tag bytes rest item same_field _ ih =>
      obtain ⟨first, others, rfl, hfield, hothers⟩ := haround.exists_cons
      rw [← same_field] at hfield
      rw [TokenStream.ofReader_of_written item, fill_closing_of_same hfield, closeAll,
        List.length_append, ← Nat.add_assoc, bind_assoc]
      apply bind_congr
      intro
      exact ih _ _ hothers

/-- If what follows some items makes no difference to the answer but for the position, it makes none
with these items in front. -/
theorem fill_of_leavesOpen {mode mode' : Mode} {stop : Nat} (h : LeavesOpen front groups)
    {tail tail' : Bytes}
    (htails : ∀ level outers, Around groups outers →
      fill mode' (.ofReader mode' ⟨tail', front.length⟩) level outers =
        endsAt stop (fill mode (.ofReader mode ⟨tail, front.length⟩) level outers))
    (level : Level) :
    fill mode' (.ofBytes mode' (front ++ tail')) level [] =
      endsAt stop (fill mode (.ofBytes mode (front ++ tail)) level []) := by
  induction h generalizing tail tail' with
  | start => exact htails level [] rfl
  | field before item ih =>
      rw [List.append_assoc, List.append_assoc]
      apply ih
      intro level outers haround
      rw [TokenStream.ofReader_of_written item, TokenStream.ofReader_of_written item, fill, fill,
        endsAt_bind, ← List.length_append]
      apply bind_congr
      intro
      exact htails _ _ haround
  | @opening front bytes groups tag before item ih =>
      rw [List.append_assoc, List.append_assoc]
      apply ih
      intro level outers haround
      have hinside : Around (⟨tag.fieldNumber, front.length⟩ :: groups)
          (⟨level.see tag, tag⟩ :: outers) := congrArg (tag.fieldNumber :: ·) haround
      rw [TokenStream.ofReader_of_written item, TokenStream.ofReader_of_written item, fill, fill,
        endsAt_bind, ← List.length_append]
      apply bind_congr
      intro
      rw [endsAt_bind]
      apply bind_congr
      intro
      exact htails _ _ hinside
  | closing before item same_field ih =>
      rw [List.append_assoc, List.append_assoc]
      apply ih
      intro level outers haround
      obtain ⟨first, others, rfl, hfield, hothers⟩ := haround.exists_cons
      rw [← same_field] at hfield
      rw [TokenStream.ofReader_of_written item, TokenStream.ofReader_of_written item,
        fill_closing_of_same hfield, fill_closing_of_same hfield, endsAt_bind, ← List.length_append]
      apply bind_congr
      intro
      exact htails _ _ hothers

/-! ### Builds -/

/-- What lenient mode makes of the input, before the position is looked at. -/
def makes (input : Bytes) : Build Built := do
  let set ← onArena Arena.newSet
  fill .lenient (.ofBytes .lenient input) { set } []

/-- What follows the items ends all groups that are open, and does nothing else. -/
theorem build_of_closeAll {mode : Mode} (h : LeavesOpen front groups) {tail : Bytes}
    (htail : ∀ level outers, Around groups outers →
      fill mode (.ofReader mode ⟨tail, front.length⟩) level outers = (do
        return ⟨← closeAll level outers, (front ++ tail).length⟩)) :
    Workspace.build mode (front ++ tail) = endsAt (front ++ tail).length (makes front) := by
  have hfill (level : Level) : fill mode (.ofBytes mode (front ++ tail)) level [] =
      endsAt (front ++ tail).length (fill .lenient (.ofBytes .lenient front) level []) := by
    have htails : ∀ level outers, Around groups outers →
        fill mode (.ofReader mode ⟨tail, front.length⟩) level outers =
          endsAt (front ++ tail).length
            (fill .lenient (.ofReader .lenient ⟨[], front.length⟩) level outers) := by
      intro level outers haround
      rw [htail level outers haround, TokenStream.ofReader_nil, fill, endsAt_bind]
      rfl
    have hall := fill_of_leavesOpen h htails level
    rwa [List.append_nil] at hall
  rw [makes, endsAt_bind, Workspace.build]
  apply bind_congr
  intro set
  rw [hfill]
  simp only [endsAt, bind_assoc, pure_bind, Mode.expect_of_holds mode _ trivial, require]

theorem build_of_leavesOpen (h : LeavesOpen front groups) (mode : Mode) :
    Workspace.build mode front = endsAt front.length (makes front) := by
  have htail : ∀ level outers, Around groups outers →
      fill mode (.ofReader mode ⟨[], front.length⟩) level outers = (do
        return ⟨← closeAll level outers, (front ++ []).length⟩) := by
    intro level outers _
    rw [TokenStream.ofReader_nil, fill, List.append_nil]
  have hbuild := build_of_closeAll h htail
  rwa [List.append_nil] at hbuild

theorem build_of_endTags (h : LeavesOpen front groups) (htags : EndTags groups tags) (mode : Mode) :
    Workspace.build mode (front ++ tags) = endsAt (front ++ tags).length (makes front) := by
  refine build_of_closeAll h fun level outers haround => ?_
  rw [fill_endTags htags mode _ _ haround, List.length_append]

/-- **Unclosed groups just end.** Take a buffer in which the check finds nothing wrong but a group that
is never closed, and put the end-group tags behind it of all groups that it leaves open. Then it is
well formed, and in any workspace it is built like the buffer itself, by both modes: both builds
succeed with the same set, and have read all of their input, or both run into the same limit, and
they leave the same workspace behind. -/
theorem build_unclosed {limits : Limits} {before : Workspace} (h : before.Reachable limits)
    {input : Bytes} {offset field : Nat}
    (hcheck : check input = .error ⟨offset, .unterminatedGroup field⟩) :
    (∃ whole, Completes input whole) ∧
    ∀ whole, Completes input whole → check whole = .ok () ∧
      ((∃ root after, ∀ mode,
          Workspace.build mode input before = .ok ⟨root, input.length⟩ after ∧
          Workspace.build mode whole before = .ok ⟨root, whole.length⟩ after) ∨
        ∃ error after, ∀ mode,
          Workspace.build mode input before = .error (.limit error) after ∧
          Workspace.build mode whole before = .error (.limit error) after) := by
  constructor
  · rcases leavesOpen_of_check_error hcheck with
      ⟨group, outer, hopen, _⟩ | ⟨items, rest, groups, reason, _, _, hfaulty, heq⟩
    · obtain ⟨tags, htags⟩ := hopen.exists_endTags
      exact ⟨input ++ tags, .closed hopen htags⟩
    · cases heq
      exact absurd rfl (hfaulty.reason_ne field)
  rintro _ ⟨hopen, htags⟩
  refine ⟨(hopen.closed htags).check_eq, ?_⟩
  simp only [build_of_leavesOpen hopen, build_of_endTags hopen htags, endsAt, bind, EStateM.bind]
  cases hmakes : makes input before with
  | ok built after => exact Or.inl ⟨built.root, after, fun _ => ⟨rfl, rfl⟩⟩
  | error failure after =>
      have hbuild : Workspace.build .lenient input before = .error failure after := by
        simp only [build_of_leavesOpen hopen, endsAt, bind, EStateM.bind, hmakes]
      cases failure with
      | limit error => exact Or.inr ⟨error, after, fun _ => ⟨rfl, rfl⟩⟩
      | fault fault => exact absurd hbuild (h.sound.build_lenient input fault after)

set_option maxRecDepth 2000 in
/-- A group in a group, with two fields that have to be sorted. -/
theorem build_unclosed_two_groups :
    (Workspace.ofLimits {}).Reachable {} ∧
    check [0x0b, 0x13, 0x10, 0x07, 0x08, 0x01] = .error ⟨1, .unterminatedGroup 2⟩ ∧
    Completes [0x0b, 0x13, 0x10, 0x07, 0x08, 0x01] [0x0b, 0x13, 0x10, 0x07, 0x08, 0x01, 0x14, 0x0c] ∧
    check [0x0b, 0x13, 0x10, 0x07, 0x08, 0x01, 0x14, 0x0c] = .ok () ∧
    ∃ after, after.buffer.room = 8 ∧ ∀ mode,
      Workspace.build mode [0x0b, 0x13, 0x10, 0x07, 0x08, 0x01] (.ofLimits {}) =
        .ok ⟨0, 6⟩ after ∧
      Workspace.build mode [0x0b, 0x13, 0x10, 0x07, 0x08, 0x01, 0x14, 0x0c] (.ofLimits {}) =
        .ok ⟨0, 8⟩ after := by
  have hcheck : check [0x0b, 0x13, 0x10, 0x07, 0x08, 0x01] = .error ⟨1, .unterminatedGroup 2⟩ := by
    cbv
  have hopen : LeavesOpen [0x0b, 0x13, 0x10, 0x07, 0x08, 0x01] [⟨2, 1⟩, ⟨1, 0⟩] :=
    (((LeavesOpen.start.opening
      (.opening (Tag.written_single (by decide) (by decide) rfl))).opening
      (.opening (Tag.written_single (by decide) (by decide) rfl))).field
      (Token.written_pair (by decide) (by decide) rfl (by decide))).field
      (Token.written_pair (by decide) (by decide) rfl (by decide))
  have hends : EndTags [⟨2, 1⟩, ⟨1, 0⟩] [0x14, 0x0c] :=
    .cons (.closing (Tag.written_single (by decide) (by decide) rfl)) rfl
      (.cons (.closing (Tag.written_single (by decide) (by decide) rfl)) rfl .nil)
  have hcompletes := Completes.closed hopen hends
  have hbuild : Workspace.build .lenient [0x0b, 0x13, 0x10, 0x07, 0x08, 0x01] (.ofLimits {}) =
      .ok ⟨0, 6⟩
        ⟨⟨#[⟨⟨8⟩, .scalar (.varint 1)⟩, ⟨⟨16⟩, .scalar (.varint 7)⟩, .vacant, .vacant,
            ⟨⟨19⟩, .group 2⟩, .vacant, .vacant, .vacant,
            ⟨⟨11⟩, .group 1⟩, .vacant, .vacant, .vacant],
          #[⟨8, 1, 4⟩, ⟨4, 1, 4⟩, ⟨0, 2, 4⟩], 456⟩,
        ⟨8, [⟨⟨16⟩, .scalar (.varint 7)⟩, ⟨⟨8⟩, .scalar (.varint 1)⟩]⟩, ⟨none, 712⟩, 100⟩ := by
    cbv
  obtain ⟨hwhole, ⟨root, found, hboth⟩ | ⟨error, found, hboth⟩⟩ :=
    (build_unclosed .fresh hcheck).2 _ hcompletes
  · cases (hboth .lenient).1.symm.trans hbuild
    exact ⟨.fresh, hcheck, hcompletes, hwhole, _, rfl, hboth⟩
  · cases (hboth .lenient).1.symm.trans hbuild

end UnknownFields.Build
