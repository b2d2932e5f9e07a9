import UnknownFields.FieldTree
import UnknownFields.Proofs.Build.Reachable

/-!
Builds of encoded fields. There are three ways in which such a build can end, and which one it is
depends on the nesting of the fields and on the ceiling of the budget. A parse undoes an encoding:
the tree that it gives has the encoded fields on every level, sorted by tag, and fields with one tag
in the order in which they were encoded.
-/

namespace UnknownFields

open Workspace

theorem Workspace.Sound.build_of_encodes {before : Workspace} (h : before.Sound) {input : Bytes}
    {fields : List (Node Unit)} (hencodes : Encodes input fields) (mode : Mode) :
    (nesting fields < max before.depth 1 ∧ ∃ built after read,
      Workspace.build mode input before = .ok built after ∧ read.map Node.erase = fields ∧
        Finished before.arena before read before.depth
          (cover before.arena before.buffer + 24 + 280 * input.length) built.root after) ∨
    (max before.depth 1 ≤ nesting fields ∧ ∃ after,
      Workspace.build mode input before = .error (.limit .maxDepthExceeded) after) ∨
    (before.OutOfRoom (cover before.arena before.buffer + 24 + 280 * input.length) ∧ ∃ after,
      Workspace.build mode input before = .error (.limit .outOfMemory) after) := by
  obtain ⟨read, hread, hcontents⟩ :=
    TokenStream.contents_of_encodes hencodes mode (before.arena.setCount + 1)
  have hheight : (Build.task mode input before).height = nesting fields :=
    TokenStream.height_of_encodes hencodes mode
  cases hbuild : Workspace.build mode input before with
  | ok built after =>
      obtain ⟨hlt, found, hexpected, hfinished⟩ := h.build_done hbuild
      rw [hheight] at hlt
      have heq : (Except.ok (read, input.length) : Except Fault _) = .ok (found, built.position) :=
        hcontents.symm.trans hexpected
      injection heq with heq
      injection heq with hfound _
      rw [← hfound] at hfinished
      exact Or.inl ⟨hlt, built, after, read, rfl, hread, hfinished⟩
  | error failure after =>
      have hallowed := (h.build_failed hbuild).1.allowed
      match failure with
      | .fault fault =>
          have heq : (Except.ok (read, input.length) : Except Fault _) = .error fault :=
            hcontents.symm.trans hallowed
          cases heq
      | .limit .maxDepthExceeded =>
          have hdeep : max before.depth 1 ≤ (Build.task mode input before).height := hallowed
          rw [hheight] at hdeep
          exact Or.inr (Or.inl ⟨hdeep, after, rfl⟩)
      | .limit .outOfMemory => exact Or.inr (Or.inr ⟨hallowed, after, rfl⟩)

/-- A fresh budget does not run out of room below a total that it admits. -/
theorem Workspace.not_outOfRoom_ofLimits {limits : Limits} {bound : Nat}
    (h : ({ limit := limits.arenaBytes } : Budget).Admits bound) :
    ¬(ofLimits limits).OutOfRoom bound := by
  rintro ⟨total, htotal, hadmits⟩
  apply hadmits
  apply h.of_le
  have hzero : (ofLimits limits).budget.used = 0 := rfl
  omega

namespace FieldTree

theorem parse_eq_ok_iff {mode : Mode} {limits : Limits} {input : Bytes} {tree : FieldTree} :
    parse mode limits input = .ok tree ↔
      ∃ built after, Workspace.build mode input (.ofLimits limits) = .ok built after ∧
        tree = ⟨after.arena, built.root⟩ := by
  rw [parse]
  cases Workspace.build mode input (.ofLimits limits) with
  | ok built after => simp [eq_comm]
  | error failure after => simp

/-- A ceiling that admits 24 bytes, and 280 more for each byte of the input, is not hit. -/
theorem parse_ne_outOfMemory (mode : Mode) {limits : Limits} {input : Bytes}
    (hroom : ({ limit := limits.arenaBytes } : Budget).Admits (24 + 280 * input.length)) :
    parse mode limits input ≠ .error (.limit .outOfMemory) := by
  intro hparse
  cases hbuild : Workspace.build mode input (.ofLimits limits) with
  | ok built after =>
      rw [parse, hbuild] at hparse
      cases hparse
  | error failure after =>
      rw [parse, hbuild] at hparse
      cases hparse
      have hfull := ((sound_ofLimits limits).build_failed hbuild).1.allowed
      have hcover : cover (ofLimits limits).arena (ofLimits limits).buffer = 0 := rfl
      apply not_outOfRoom_ofLimits hroom
      rw [← Nat.zero_add 24, ← hcover]
      exact hfull

/-- The tree that a parse gives has its top level in the first set, and can be read out. -/
theorem nodes_of_parse {mode : Mode} {limits : Limits} {input : Bytes} {tree : FieldTree}
    (h : parse mode limits input = .ok tree) : tree.root = 0 ∧ ∃ nodes, tree.nodes = .ok nodes := by
  obtain ⟨built, after, hbuild, rfl⟩ := parse_eq_ok_iff.mp h
  obtain ⟨_, fields, _, hfinished⟩ := (sound_ofLimits limits).build_done hbuild
  exact ⟨hfinished.root_eq, canonicalFields fields, hfinished.nodes_eq⟩

/-- **A parse undoes an encoding**, if the depth admits the nesting of the fields and the ceiling is
not hit. A ceiling that admits 24 bytes, and 280 more for each byte of the input, is not hit. -/
theorem parse_of_encodes {input : Bytes} {fields : List (Node Unit)} (h : Encodes input fields)
    (mode : Mode) (limits : Limits) (hdepth : nesting fields < max limits.maxDepth 1) :
    (∃ tree nodes, parse mode limits input = .ok tree ∧ tree.nodes = .ok nodes ∧
      nodes.map Node.erase = canonicalFields fields) ∨
    (parse mode limits input = .error (.limit .outOfMemory) ∧
      ¬({ limit := limits.arenaBytes } : Budget).Admits (24 + 280 * input.length)) := by
  have hends := (sound_ofLimits limits).build_of_encodes h mode
  rcases hends with ⟨_, built, after, read, hbuild, hread, hfinished⟩ | ⟨hdeep, _⟩ |
    ⟨hroom, after, hbuild⟩
  · refine Or.inl ⟨⟨after.arena, built.root⟩, canonicalFields read, ?_, hfinished.nodes_eq, ?_⟩
    · rw [parse, hbuild]
    · rw [← canonicalFields_erase, hread]
  · have hlimit : (ofLimits limits).depth = limits.maxDepth := rfl
    omega
  · refine Or.inr ⟨?_, fun hadmits => ?_⟩
    · rw [parse, hbuild]
    · apply not_outOfRoom_ofLimits hadmits
      have hcover : cover (ofLimits limits).arena (ofLimits limits).buffer = 0 := rfl
      rw [hcover, Nat.zero_add] at hroom
      exact hroom

theorem parse_group_behind_field :
    Encodes [0x10, 0x02, 0x0b, 0x08, 0x01, 0x0c]
      [.leaf ⟨16⟩ (.varint 2), .group ⟨11⟩ () [.leaf ⟨8⟩ (.varint 1)]] ∧
    nesting ([.leaf ⟨16⟩ (.varint 2), .group ⟨11⟩ () [.leaf ⟨8⟩ (.varint 1)]] : List (Node Unit)) <
      max 2 1 ∧
    ∃ tree nodes,
      parse .strict { maxDepth := 2 } [0x10, 0x02, 0x0b, 0x08, 0x01, 0x0c] = .ok tree ∧
      tree.nodes = .ok nodes ∧
      nodes.map Node.erase = [.group ⟨11⟩ () [.leaf ⟨8⟩ (.varint 1)], .leaf ⟨16⟩ (.varint 2)] := by
  have hinside : Encodes [0x08, 0x01] [.leaf ⟨8⟩ (.varint 1)] :=
    .leaf (Token.written_pair (by decide) (by decide) rfl (by decide)) .nil
  have hencodes : Encodes [0x10, 0x02, 0x0b, 0x08, 0x01, 0x0c]
      [.leaf ⟨16⟩ (.varint 2), .group ⟨11⟩ () [.leaf ⟨8⟩ (.varint 1)]] :=
    .leaf (Token.written_pair (by decide) (by decide) rfl (by decide))
      (.group (.opening (Tag.written_single (by decide) (by decide) rfl)) hinside
        (.closing (Tag.written_single (by decide) (by decide) rfl)) rfl .nil)
  have hsorted : canonicalFields [.leaf ⟨16⟩ (.varint 2), .group ⟨11⟩ () [.leaf ⟨8⟩ (.varint 1)]] =
      ([.group ⟨11⟩ () [.leaf ⟨8⟩ (.varint 1)], .leaf ⟨16⟩ (.varint 2)] : List (Node Unit)) := by
    simp [canonicalFields, Node.canonical, sortByTag, List.mergeSort, List.cons_merge_cons, inOrder,
      Node.tag]
    decide
  have hdepth : nesting ([.leaf ⟨16⟩ (.varint 2), .group ⟨11⟩ () [.leaf ⟨8⟩ (.varint 1)]] :
      List (Node Unit)) < max 2 1 := by simp
  rw [← hsorted]
  exact ⟨hencodes, hdepth, (parse_of_encodes hencodes .strict { maxDepth := 2 } hdepth).resolve_right
    fun hfull => hfull.2 (by decide)⟩

end FieldTree

end UnknownFields
