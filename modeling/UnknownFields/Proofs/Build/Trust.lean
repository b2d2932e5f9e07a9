import UnknownFields.Proofs.Build.Reachable

/-!
The boundary between the check and the builder. On what the check accepts both modes of the builder
do the same, so the expectations of strict mode are never in vain; on most of what it rejects strict
mode does not succeed.
-/

namespace UnknownFields

namespace Build

open Workspace

theorem fill_strict_append {bytes : Bytes} {fields : List (Node Unit)} (h : Encodes bytes fields)
    (tail : Bytes) (position : Nat) (outers : List OuterLevel)
    (hrest : ∀ level,
      fill .strict (.ofReader .strict ⟨tail, position + bytes.length⟩) level outers =
        fill .lenient (.ofReader .lenient ⟨tail, position + bytes.length⟩) level outers)
    (level : Level) :
    fill .strict (.ofReader .strict ⟨bytes ++ tail, position⟩) level outers =
      fill .lenient (.ofReader .lenient ⟨bytes ++ tail, position⟩) level outers := by
  induction h generalizing tail position outers level with
  | nil => exact hrest level
  | @leaf tag value bytes rest others item _ ih =>
      rw [List.append_assoc, TokenStream.ofReader_of_written item,
        TokenStream.ofReader_of_written item, fill, fill]
      apply bind_congr
      intro
      apply ih
      intro level
      rw [Nat.add_assoc, ← List.length_append]
      exact hrest level
  | @group tag closing front inside back rest fields others item _ itemClosed same _ ihInside ihRest =>
      rw [List.append_assoc, List.append_assoc, List.append_assoc,
        TokenStream.ofReader_of_written item, TokenStream.ofReader_of_written item, fill, fill]
      apply bind_congr
      intro
      apply bind_congr
      intro set
      apply ihInside
      intro inner
      have hexpected : openField? (⟨level.see tag, tag⟩ :: outers) = some closing.fieldNumber := by
        rw [same]
        rfl
      rw [TokenStream.ofReader_of_written itemClosed, TokenStream.ofReader_of_written itemClosed,
        fill_closing, fill_closing, Mode.expect_of_holds _ _ hexpected,
        Mode.expect_of_holds _ _ hexpected]
      apply bind_congr
      intro
      apply bind_congr
      intro
      apply ihRest
      intro level
      simp only [List.length_append, ← Nat.add_assoc] at hrest
      exact hrest level

/-- The modes do not differ on encoded fields. -/
theorem fill_strict_of_encodes {input : Bytes} {fields : List (Node Unit)}
    (h : Encodes input fields) (level : Level) :
    fill .strict (.ofBytes .strict input) level [] =
      fill .lenient (.ofBytes .lenient input) level [] := by
  have hfill := fill_strict_append h [] 0 [] (fun level => ?_) level
  · rw [List.append_nil] at hfill
    exact hfill
  · rw [TokenStream.ofReader_nil, TokenStream.ofReader_nil, fill, fill]

/-- An encoding is read to its end. -/
theorem position_of_encodes {mode : Mode} {input : Bytes} {fields : List (Node Unit)}
    (h : Encodes input fields) {before after : Workspace} {built : Built}
    (hdone : (task mode input before).Done before built after) : built.position = input.length := by
  obtain ⟨_, found, hexpected, _⟩ := hdone
  obtain ⟨read, _, hcontents⟩ :=
    TokenStream.contents_of_encodes h mode (before.arena.setCount + 1)
  have heq : (Except.ok (read, input.length) : Except Fault _) = .ok (found, built.position) :=
    hcontents.symm.trans hexpected
  injection heq with heq
  injection heq with _ hposition
  exact hposition.symm

theorem build_strict_of_encodes {input : Bytes} {fields : List (Node Unit)}
    (h : Encodes input fields) {before : Workspace} (hsound : before.Sound) :
    Workspace.build .strict input before = Workspace.build .lenient input before := by
  have hends := build_ends .lenient input hsound
  simp only [Workspace.build, fill_strict_of_encodes h, bind, EStateM.bind] at hends ⊢
  cases hset : onArena Arena.newSet before with
  | error => rfl
  | ok set first =>
      simp only [hset] at hends ⊢
      cases hfill : fill .lenient (.ofBytes .lenient input) { set } [] first with
      | error => rfl
      | ok built filled =>
          simp only [hfill] at hends ⊢
          have hposition := position_of_encodes h hends
          rw [Mode.expect_of_holds .strict _ hposition]
          rfl

/-- **The boundary of trust.** Where the check accepts, strict mode does what lenient mode does, meets
no fault, and has read all of the input when it succeeds. Where the check finds something else than
a field number zero or a group that is never closed, strict mode does not succeed: it meets a fault
that shows the malformation, unless it runs into a limit before. -/
theorem build_strict_of_check {limits : Limits} {before : Workspace} (h : before.Reachable limits)
    (input : Bytes) :
    (WellFormed.check input = .ok () →
      Workspace.build .strict input before = Workspace.build .lenient input before ∧
      (∀ fault after, Workspace.build .strict input before ≠ .error (.fault fault) after) ∧
      ∀ built after, Workspace.build .strict input before = .ok built after →
        built.position = input.length) ∧
    ∀ malformed, WellFormed.check input = .error malformed →
      malformed.reason ≠ .fieldNumberZero →
      (∀ field, malformed.reason ≠ .unterminatedGroup field) →
      (∃ fault after, Workspace.build .strict input before = .error (.fault fault) after ∧
        fault.Shows malformed.reason) ∨
      ∃ error after, Workspace.build .strict input before = .error (.limit error) after := by
  have hsound := h.sound
  constructor
  · intro hcheck
    obtain ⟨fields, hencodes⟩ := WellFormed.encodes_of_check hcheck
    refine ⟨build_strict_of_encodes hencodes hsound, fun fault after hbuild => ?_,
      fun built after hbuild => position_of_encodes hencodes (hsound.build_done hbuild)⟩
    obtain ⟨read, _, hcontents⟩ :=
      TokenStream.contents_of_encodes hencodes .strict (before.arena.setCount + 1)
    have hexpected : TokenStream.contents .strict input (before.arena.setCount + 1) = .error fault :=
      (hsound.build_failed hbuild).1.allowed
    rw [hcontents] at hexpected
    cases hexpected
  · intro malformed hcheck hfield hgroup
    obtain ⟨fault, hcontents, hshows⟩ := TokenStream.contents_strict_of_check hcheck hfield hgroup
      (before.arena.setCount + 1)
    cases hbuild : Workspace.build .strict input before with
    | ok built after =>
        obtain ⟨_, fields, hexpected, _⟩ := hsound.build_done hbuild
        have heq : (Except.error fault : Except Fault _) = .ok (fields, built.position) :=
          hcontents.symm.trans hexpected
        cases heq
    | error failure after =>
        cases failure with
        | limit error => exact Or.inr ⟨error, after, rfl⟩
        | fault found =>
            have hexpected : TokenStream.contents .strict input (before.arena.setCount + 1) =
              .error found := (hsound.build_failed hbuild).1.allowed
            rw [hcontents] at hexpected
            cases hexpected
            exact Or.inl ⟨fault, after, rfl, hshows⟩

theorem build_strict_fresh :
    (Workspace.ofLimits {}).Reachable {} ∧
    WellFormed.check [0x0b, 0x08, 0x01, 0x0c] = .ok () ∧
    Workspace.build .strict [0x0b, 0x08, 0x01, 0x0c] (.ofLimits {}) =
      Workspace.build .lenient [0x0b, 0x08, 0x01, 0x0c] (.ofLimits {}) ∧
    WellFormed.check [0x08, 0x01, 0x0c] = .error ⟨2, .unexpectedEndGroup⟩ ∧
    ((∃ fault after, Workspace.build .strict [0x08, 0x01, 0x0c] (.ofLimits {}) =
        .error (.fault fault) after ∧ fault.Shows .unexpectedEndGroup) ∨
      ∃ error after, Workspace.build .strict [0x08, 0x01, 0x0c] (.ofLimits {}) =
        .error (.limit error) after) := by
  have haccepted : WellFormed.check [0x0b, 0x08, 0x01, 0x0c] = .ok () := by cbv
  have hrejected : WellFormed.check [0x08, 0x01, 0x0c] = .error ⟨2, .unexpectedEndGroup⟩ := by cbv
  refine ⟨.fresh, haccepted, ?_, hrejected, ?_⟩
  · exact ((build_strict_of_check .fresh _).1 haccepted).1
  · exact (build_strict_of_check .fresh _).2 _ hrejected (by decide) (by simp)

end Build

end UnknownFields
