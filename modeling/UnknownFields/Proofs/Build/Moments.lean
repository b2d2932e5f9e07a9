import UnknownFields.Proofs.Build.Ownership
import UnknownFields.Proofs.Wire.Cursor

/-!
A build in lenient mode, one use of its memory after the other. Between two of them it is at a moment:
a position in the input, the levels that are open, and maybe a group that has ended and has still to
go into the level around it. The moments are those of the build, since each of them ends as the one
before it; they go on until the top level ends or a limit is hit; and there are at most four of them
for each byte of the input.
-/

namespace UnknownFields.Build

open Workspace

structure Moment where
  reader : Reader
  level : Level
  outers : List OuterLevel
  /-- The tag and the set of a group that has ended. -/
  ended : Option (Tag × Nat)
  workspace : Workspace

namespace Moment

def remainder (moment : Moment) : Build Built :=
  match moment.ended with
  | none => fill .lenient (.ofReader .lenient moment.reader) moment.level moment.outers
  | some (tag, group) => do
    inside moment.outers (onArena (Arena.push moment.level.set ⟨tag, .group group⟩))
    fill .lenient (.ofReader .lenient moment.reader) moment.level moment.outers

def result (moment : Moment) : EStateM.Result Failure Workspace Built :=
  moment.remainder moment.workspace

/-- The next use of the memory: a field or an ended group is pushed, a set is made for a group, or the
fields of a group get their final order. A tag that means nothing uses none. -/
inductive Next : Moment → Moment → Prop where
  | field {reader behind : Reader} {level : Level} {outers : List OuterLevel}
      {before after : Workspace} {tag : Tag} {value : Scalar} (more : reader.rest ≠ [])
      (read : Token.read .lenient reader = .ok (.field tag value, behind))
      (step : inside outers (onArena (Arena.push level.set ⟨tag, .scalar value⟩)) before =
        .ok () after) :
      Next ⟨reader, level, outers, none, before⟩ ⟨behind, level.see tag, outers, none, after⟩
  | opening {reader behind : Reader} {level : Level} {outers : List OuterLevel}
      {before after : Workspace} {tag : Tag} {set : Nat} (more : reader.rest ≠ [])
      (read : Token.read .lenient reader = .ok (.opening tag, behind)) (depth : 1 < before.depth)
      (step : inside (⟨level.see tag, tag⟩ :: outers) (onArena Arena.newSet)
        { before with depth := before.depth - 1 } = .ok set after) :
      Next ⟨reader, level, outers, none, before⟩
        ⟨behind, { set }, ⟨level.see tag, tag⟩ :: outers, none, after⟩
  | closing {reader behind : Reader} {level : Level} {outer : OuterLevel} {outers : List OuterLevel}
      {before after : Workspace} {tag : Tag} (more : reader.rest ≠ [])
      (read : Token.read .lenient reader = .ok (.closing tag, behind))
      (step : inside (outer :: outers) (finish level) before = .ok () after) :
      Next ⟨reader, level, outer :: outers, none, before⟩
        ⟨behind, outer.level, outers, some (outer.opened, level.set),
          { after with depth := after.depth + 1 }⟩
  | unknown {reader behind : Reader} {level : Level} {outers : List OuterLevel}
      {before : Workspace} {tag : Tag} (more : reader.rest ≠ [])
      (read : Token.read .lenient reader = .ok (.unknown tag, behind)) :
      Next ⟨reader, level, outers, none, before⟩ ⟨behind, level.see tag, outers, none, before⟩
  | atEnd {reader : Reader} {level : Level} {outer : OuterLevel} {outers : List OuterLevel}
      {before after : Workspace} (none_left : reader.rest = [])
      (step : inside (outer :: outers) (finish level) before = .ok () after) :
      Next ⟨reader, level, outer :: outers, none, before⟩
        ⟨reader, outer.level, outers, some (outer.opened, level.set),
          { after with depth := after.depth + 1 }⟩
  | ended {reader : Reader} {level : Level} {outers : List OuterLevel} {before after : Workspace}
      {tag : Tag} {group : Nat}
      (step : inside outers (onArena (Arena.push level.set ⟨tag, .group group⟩)) before =
        .ok () after) :
      Next ⟨reader, level, outers, some (tag, group), before⟩ ⟨reader, level, outers, none, after⟩

structure Last (moment : Moment) : Prop where
  outers_eq : moment.outers = []
  ended_eq : moment.ended = none
  closes : moment.reader.rest = [] ∨
    ∃ tag behind, Token.read .lenient moment.reader = .ok (.closing tag, behind)

end Moment

/-- The moment that a build of the input comes to in this number of steps. -/
inductive Comes (input : Bytes) (before : Workspace) : Nat → Moment → Prop where
  | start {set : Nat} {first : Workspace} (step : onArena Arena.newSet before = .ok set first) :
      Comes input before 0 ⟨{ rest := input }, { set }, [], none, first⟩
  | next {steps : Nat} {moment later : Moment} (comes : Comes input before steps moment)
      (next : moment.Next later) : Comes input before (steps + 1) later

/-! ### The moments of a build -/

theorem bind_of_ok {α β : Type} {step : Build α} {next : α → Build β} {before after : Workspace}
    {answer : α} (h : step before = .ok answer after) : (step >>= next) before = next answer after := by
  simp only [bind, EStateM.bind, h]

theorem bind_of_error {α β : Type} {step : Build α} {next : α → Build β}
    {before after : Workspace} {failure : Failure} (h : step before = .error failure after) :
    (step >>= next) before = .error failure after := by
  simp only [bind, EStateM.bind, h]

namespace Moment

variable {reader behind : Reader} {level : Level} {outer : OuterLevel} {outers : List OuterLevel}
  {before : Workspace} {tag : Tag}

theorem ofReader_of_read {token : Token} (more : reader.rest ≠ [])
    (read : Token.read .lenient reader = .ok (token, behind)) :
    TokenStream.ofReader .lenient reader =
      .next token behind.position (.ofReader .lenient behind) :=
  TokenStream.ofReader_of_ok more read

theorem result_none (reader : Reader) (level : Level) (outers : List OuterLevel)
    (before : Workspace) :
    result ⟨reader, level, outers, none, before⟩ =
      fill .lenient (.ofReader .lenient reader) level outers before := rfl

theorem result_field {value : Scalar} (more : reader.rest ≠ [])
    (read : Token.read .lenient reader = .ok (.field tag value, behind)) :
    result ⟨reader, level, outers, none, before⟩ = (do
      inside outers (onArena (Arena.push level.set ⟨tag, .scalar value⟩))
      fill .lenient (.ofReader .lenient behind) (level.see tag) outers : Build Built) before := by
  rw [result_none, ofReader_of_read more read, fill]

theorem result_opening (more : reader.rest ≠ [])
    (read : Token.read .lenient reader = .ok (.opening tag, behind)) (depth : 1 < before.depth) :
    result ⟨reader, level, outers, none, before⟩ = (do
      let set ← inside (⟨level.see tag, tag⟩ :: outers) (onArena Arena.newSet)
      fill .lenient (.ofReader .lenient behind) { set } (⟨level.see tag, tag⟩ :: outers) :
        Build Built) { before with depth := before.depth - 1 } := by
  rw [result_none, ofReader_of_read more read, fill_opening_of_lt depth]

/-- What follows the end of a group. -/
theorem result_closing (more : reader.rest ≠ [])
    (read : Token.read .lenient reader = .ok (.closing tag, behind)) :
    result ⟨reader, level, outer :: outers, none, before⟩ = (do
      inside (outer :: outers) (finish level)
      regainDepth
      remainder ⟨behind, outer.level, outers, some (outer.opened, level.set), before⟩ :
        Build Built) before := by
  have hpasses : inside (outer :: outers) (require (.ok ())) before = .ok () before :=
    inside_of_ok rfl _
  rw [result_none, ofReader_of_read more read, fill_closing, Mode.lenient_expect,
    bind_of_ok hpasses]
  simp only [closeGroup, bind_assoc, remainder]

theorem result_atEnd (none_left : reader.rest = []) :
    result ⟨reader, level, outer :: outers, none, before⟩ = (do
      inside (outer :: outers) (finish level)
      regainDepth
      remainder ⟨reader, outer.level, outers, some (outer.opened, level.set), before⟩ :
        Build Built) before := by
  have hdone : TokenStream.ofReader .lenient reader = .done reader.position := by
    rw [TokenStream.ofReader, dif_pos none_left]
  rw [result_none, hdone]
  simp only [fill, closeAll, closeGroup, bind_assoc, remainder, hdone]

theorem result_unknown (more : reader.rest ≠ [])
    (read : Token.read .lenient reader = .ok (.unknown tag, behind)) :
    result ⟨reader, level, outers, none, before⟩ =
      result ⟨behind, level.see tag, outers, none, before⟩ := by
  have hdone : TokenStream.ofReader .lenient behind = .done behind.position := by
    rw [TokenStream.ofReader, dif_pos (Reader.rest_eq_nil_of_unknown read)]
  rw [result_none, result_none, ofReader_of_read more read, hdone, fill, fill]

/-- A build ends as it does from its next moment on. -/
theorem Next.result_eq {moment later : Moment} (h : moment.Next later) :
    moment.result = later.result := by
  cases h with
  | field more read step =>
      rw [result_field more read, bind_of_ok step]
      rfl
  | opening more read depth step =>
      rw [result_opening more read depth, bind_of_ok step]
      rfl
  | closing more read step =>
      rw [result_closing more read, bind_of_ok step]
      rfl
  | unknown more read => exact result_unknown more read
  | atEnd none_left step =>
      rw [result_atEnd none_left, bind_of_ok step]
      rfl
  | ended step =>
      exact bind_of_ok step

/-- A moment that is not the last one has a next one, unless the build fails there. -/
def GoesOn (moment : Moment) : Prop :=
  (∃ later, moment.Next later) ∨ moment.Last ∨ ∃ failure after, moment.result = .error failure after

theorem goesOn_of_step {α : Type} {moment : Moment} {step : Build α} {next : α → Build Built}
    (hresult : moment.result = (step >>= next) before)
    (hstep : ∀ answer after, step before = .ok answer after → ∃ later, moment.Next later) :
    moment.GoesOn := by
  cases hends : step before with
  | ok answer after => exact Or.inl (hstep answer after hends)
  | error failure after =>
      refine Or.inr (Or.inr ⟨failure, after, ?_⟩)
      rw [hresult, bind_of_error hends]

theorem goesOn_of_token {token : Token} (more : reader.rest ≠ [])
    (read : Token.read .lenient reader = .ok (token, behind)) :
    GoesOn ⟨reader, level, outers, none, before⟩ := by
  cases token with
  | field tag value =>
      exact goesOn_of_step (result_field more read) fun _ after step => ⟨_, .field more read step⟩
  | opening tag =>
      by_cases hdepth : before.depth ≤ 1
      · refine Or.inr (Or.inr ⟨.limit .maxDepthExceeded,
          { before with depth := before.depth + outers.length }, ?_⟩)
        rw [result_none, ofReader_of_read more read, fill_opening_of_le hdepth]
      · have hdepth' := not_le.mp hdepth
        exact goesOn_of_step (result_opening more read hdepth') fun set after step =>
          ⟨_, .opening more read hdepth' step⟩
  | closing tag =>
      cases outers with
      | nil => exact Or.inr (Or.inl ⟨rfl, rfl, Or.inr ⟨tag, behind, read⟩⟩)
      | cons outer outers =>
          exact goesOn_of_step (result_closing more read) fun _ after step =>
            ⟨_, .closing more read step⟩
  | unknown tag => exact Or.inl ⟨_, .unknown more read⟩

theorem goesOn (moment : Moment) : moment.GoesOn := by
  obtain ⟨reader, level, outers, ended, before⟩ := moment
  cases ended with
  | some group => exact goesOn_of_step rfl fun _ after step => ⟨_, .ended step⟩
  | none =>
      by_cases hrest : reader.rest = []
      · cases outers with
        | nil => exact Or.inr (Or.inl ⟨rfl, rfl, Or.inl hrest⟩)
        | cons outer outers =>
            exact goesOn_of_step (result_atEnd hrest) fun _ after step => ⟨_, .atEnd hrest step⟩
      · obtain ⟨token, behind, hread⟩ := Token.read_lenient reader
        exact goesOn_of_token hrest hread

def measure (moment : Moment) : Nat :=
  4 * moment.reader.remaining + 2 * moment.outers.length + moment.ended.toList.length

theorem Next.measure_lt {moment later : Moment} (h : moment.Next later) :
    later.measure < moment.measure := by
  cases h with
  | field more read _ =>
      have hlt := Token.remaining_lt_of_read more read
      simp only [measure]
      omega
  | opening more read _ _ =>
      have hlt := Token.remaining_lt_of_read more read
      simp only [measure, List.length_cons]
      omega
  | closing more read _ =>
      have hlt := Token.remaining_lt_of_read more read
      simp only [measure, List.length_cons, Option.toList_some, Option.toList_none, List.length_nil]
      omega
  | unknown more read =>
      have hlt := Token.remaining_lt_of_read more read
      simp only [measure]
      omega
  | atEnd _ _ =>
      simp only [measure, List.length_cons, Option.toList_some, Option.toList_none, List.length_nil]
      omega
  | ended _ =>
      simp only [measure, List.length_cons, Option.toList_some, Option.toList_none, List.length_nil]
      omega

end Moment

variable {input : Bytes} {before : Workspace} {steps : Nat} {moment : Moment}

theorem Comes.steps_le (h : Comes input before steps moment) :
    steps + moment.measure ≤ 4 * input.length := by
  induction h with
  | start => exact (Nat.zero_add _).le
  | next _ next ih =>
      have hlt := next.measure_lt
      omega

/-- Every moment of a build ends as the build does. -/
theorem Comes.result_eq (h : Comes input before steps moment) :
    moment.result = Workspace.build .lenient input before := by
  induction h with
  | @start set first step =>
      have hbuild : Workspace.build .lenient input before =
          fill .lenient (.ofBytes .lenient input) { set } [] first := by
        rw [Workspace.build, bind_of_ok step]
        cases hfill : fill .lenient (.ofBytes .lenient input) { set } [] first with
        | ok built after =>
            rw [bind_of_ok hfill]
            rfl
        | error failure after => exact bind_of_error hfill
      exact hbuild.symm
  | next _ next ih => rw [← next.result_eq, ih]

end UnknownFields.Build
