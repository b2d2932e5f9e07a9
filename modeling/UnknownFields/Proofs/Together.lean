import UnknownFields.Proofs.Build.Isolation
import UnknownFields.Proofs.Comparing

/-!
Two builds in one workspace, and the same builds without a ceiling in workspaces of their own. The
second build finds the sets of the first one and its merge buffer; what it adds to the total is its
arena, and the room by which its buffer would be larger. So the total does not depend on which of
the two comes first, and a ceiling stops a comparison exactly if it is below this total.
-/

namespace UnknownFields

open Workspace

/-! ### Ceilings -/

namespace Limits

/-- The greatest total within the limits. Without a ceiling this is the greatest 64-bit number. -/
def ceiling (limits : Limits) : Nat :=
  min (limits.arenaBytes.getD (Budget.capacity - 1)) (Budget.capacity - 1)

def unbounded (limits : Limits) : Limits := { maxDepth := limits.maxDepth }

theorem admits_iff_le_ceiling (limits : Limits) (total : Nat) :
    ({ limit := limits.arenaBytes } : Budget).Admits total ↔ total ≤ limits.ceiling := by
  have hcapacity : 0 < Budget.capacity := by decide
  rw [Budget.Admits, ceiling]
  cases limits.arenaBytes with
  | none =>
      simp only [Option.not_mem_none, false_implies, implies_true, and_true, Option.getD_none]
      omega
  | some limit =>
      simp only [Option.mem_some_iff, forall_eq', Option.getD_some]
      omega

end Limits

namespace Workspace

variable {limits : Limits} {mode : Mode} {before alone together : Workspace}

theorem Reachable.admits_iff (h : before.Reachable limits) (total : Nat) :
    before.budget.Admits total ↔ total ≤ limits.ceiling := by
  rw [← limits.admits_iff_le_ceiling, Budget.Admits, h.limit_eq]
  rfl

/-- A build in a workspace that has been used under a ceiling, next to a build without a ceiling. -/
theorem Reachable.follows_unbounded (h : before.Reachable limits) (mode : Mode) (input : Bytes) :
    Follows before (Build.SameBuilt before) (build mode input (ofLimits limits.unbounded))
      (build mode input before) :=
  Build.build_follows mode input h.sound h.depth_eq fun _ hadmits =>
    ⟨hadmits.1, fun _ hlimit => nomatch hlimit⟩

/-- The bytes that two builds take in one workspace. -/
def bytesTogether (first second : Workspace) : Nat :=
  first.arena.charged + second.arena.charged +
    Arena.slotBytes * max first.buffer.room second.buffer.room

theorem bytesTogether_comm (first second : Workspace) :
    bytesTogether first second = bytesTogether second first := by
  rw [bytesTogether, bytesTogether, Nat.add_comm first.arena.charged, Nat.max_comm]

theorem totalBeside_ofLimits (limits : Limits) (alone : Workspace) :
    (ofLimits limits).totalBeside alone = alone.bytes := by
  have hused : (ofLimits limits).budget.used = 0 := rfl
  have hroom : (ofLimits limits).buffer.room = 0 := rfl
  rw [totalBeside, hused, hroom, bytes, Nat.zero_add, Nat.zero_max, Nat.sub_zero]

theorem bytes_le_bytesTogether (first second : Workspace) :
    first.bytes ≤ bytesTogether first second := by
  rw [bytes, bytesTogether, Arena.slotBytes]
  omega

/-- The total behind a first build. -/
theorem Beside.totalBeside_eq (h : Beside (ofLimits limits) alone together) (second : Workspace) :
    together.totalBeside second = bytesTogether alone second := by
  have hroom : together.buffer.room = alone.buffer.room := by
    rw [h.room_eq]
    exact Nat.zero_max _
  have hused : together.budget.used = alone.bytes := by
    rw [h.used_together, totalBeside_ofLimits]
  rw [totalBeside, hused, hroom, bytes, bytesTogether, Arena.slotBytes]
  omega

end Workspace

namespace FieldTree

variable {mode : Mode} {limits : Limits} {input : Bytes} {tree : FieldTree}

/-- Two trees that parses give are compared by their fields. -/
theorem agrees_of_parse {mode' : Mode} {limits' : Limits} {input' : Bytes} {other : FieldTree}
    (h : parse mode limits input = .ok tree) (h' : parse mode' limits' input' = .ok other) :
    ∃ nodes nodes', tree.nodes = .ok nodes ∧ other.nodes = .ok nodes' ∧
      ∃ agree, tree.agrees other = .ok agree ∧
        (agree = true ↔ nodes.map Node.erase = nodes'.map Node.erase) := by
  obtain ⟨_, nodes, hnodes⟩ := nodes_of_parse h
  obtain ⟨_, nodes', hnodes'⟩ := nodes_of_parse h'
  exact ⟨nodes, nodes', hnodes, hnodes', Arena.setsAgree_eq hnodes hnodes'⟩

/-- A parse that a ceiling lets pass gives the tree of the parse without a ceiling. -/
theorem parse_unbounded (h : parse mode limits input = .ok tree) :
    parse mode limits.unbounded input = .ok tree := by
  obtain ⟨built, after, hbuild, rfl⟩ := parse_eq_ok_iff.mp h
  have hfollows := (Reachable.fresh : (ofLimits limits).Reachable limits).follows_unbounded mode input
  rw [hbuild] at hfollows
  obtain ⟨⟨arena, root⟩, hparse, hroot, harena⟩ := hfollows.parse_of_ok
  have hroot' : built.root = root := hroot.trans (Nat.zero_add root)
  have harena' : after.arena = arena := harena.trans (Arena.empty_beside arena)
  rw [hparse, hroot', harena']

def roomLeft (mode : Mode) (limits : Limits) (input : Bytes) : Nat :=
  (leftBehind (Workspace.build mode input (.ofLimits limits))).buffer.room

end FieldTree

/-! ### Both builds -/

namespace Comparison

variable {limits : Limits} {mode : Mode} {left right : Bytes} {first second : Built}
  {alone alone' : Workspace}

/-- The sets of two builds in one workspace agree as the trees do that the builds make on their
own. -/
theorem setsAgree_together {first' second' : Built} {middle after : Workspace}
    (hfirst : Workspace.build mode left (ofLimits limits.unbounded) = .ok first alone)
    (hsecond : Workspace.build mode right (ofLimits limits.unbounded) = .ok second alone')
    (hmiddle : Beside (ofLimits limits) alone middle) (hafter : Beside middle alone' after)
    (hkept : after.arena.Extends middle.arena)
    (hroot : Build.SameBuilt (ofLimits limits) first first')
    (hroot' : Build.SameBuilt middle second second') :
    after.arena.setsAgree after.arena first'.root second'.root =
      alone.arena.setsAgree alone'.arena first.root second.root := by
  obtain ⟨_, _, _, hfinished⟩ := (sound_ofLimits limits.unbounded).build_done hfirst
  obtain ⟨_, _, _, hfinished'⟩ := (sound_ofLimits limits.unbounded).build_done hsecond
  have hnodes := hmiddle.nodes_eq hfinished.nodes_eq
  have hnodes' := hafter.nodes_eq hfinished'.nodes_eq
  rw [hroot, hroot']
  exact Arena.setsAgree_congr hfinished.nodes_eq hfinished'.nodes_eq (hkept.nodes_eq hnodes) hnodes'
    (Node.map_erase_map _ _) (Node.map_erase_map _ _)

/-- Two builds that succeed on their own succeed in one workspace, if its ceiling is not below the
bytes that both take there, and then their sets agree as their trees do. -/
theorem buildBoth_of_builds {agree : Bool}
    (hfirst : Workspace.build mode left (ofLimits limits.unbounded) = .ok first alone)
    (hsecond : Workspace.build mode right (ofLimits limits.unbounded) = .ok second alone')
    (hagree : alone.arena.setsAgree alone'.arena first.root second.root = .ok agree) :
    (bytesTogether alone alone' ≤ limits.ceiling ∧ ∃ after,
      buildBoth mode left right (ofLimits limits) = .ok agree after) ∨
    (limits.ceiling < bytesTogether alone alone' ∧ ∃ after,
      buildBoth mode left right (ofLimits limits) = .error (.limit .outOfMemory) after) := by
  have hfresh : (ofLimits limits).Reachable limits := .fresh
  have hfollows := hfresh.follows_unbounded mode left
  rw [hfirst] at hfollows
  generalize hstep : Workspace.build mode left (ofLimits limits) = result at hfollows
  cases hfollows with
  | @full _ after exceeds =>
      refine Or.inr ⟨?_, after, ?_⟩
      · rw [hfresh.admits_iff, totalBeside_ofLimits] at exceeds
        exact (not_le.mp exceeds).trans_le (bytes_le_bytesTogether alone alone')
      · simp only [buildBoth, bind, EStateM.bind, hstep]
  | @done _ first' _ middle hroot hmiddle =>
      have hreachable := hfresh.built hstep
      have hfollows' := hreachable.follows_unbounded mode right
      rw [hsecond] at hfollows'
      generalize hstep' : Workspace.build mode right middle = result' at hfollows'
      have htotal := hmiddle.totalBeside_eq alone'
      cases hfollows' with
      | @full _ after exceeds =>
          refine Or.inr ⟨?_, after, ?_⟩
          · rw [hreachable.admits_iff, leftBehind, htotal] at exceeds
            exact not_le.mp exceeds
          · simp only [buildBoth, bind, EStateM.bind, hstep, hstep']
      | @done _ second' _ after hroot' hafter =>
          obtain ⟨_, _, _, hdone⟩ := hreachable.sound.build_done hstep'
          have hagree' :=
            setsAgree_together hfirst hsecond hmiddle hafter hdone.extends_base hroot hroot'
          rw [hagree] at hagree'
          refine Or.inl ⟨?_, after, ?_⟩
          · rw [← htotal, ← hafter.used_together, ← hreachable.admits_iff, ← hafter.pays.admits_iff]
            exact hafter.pays.sound.admits
          · simp only [buildBoth, bind, EStateM.bind, hstep, hstep', hagree']

/-- The bytes that two builds take in one workspace, by what they take on their own. -/
def bytesForBoth (mode : Mode) (limits : Limits) (left right : Bytes) : Nat :=
  bytesTogether (leftBehind (Workspace.build mode left (ofLimits limits)))
    (leftBehind (Workspace.build mode right (ofLimits limits)))

theorem bytesForBoth_comm (mode : Mode) (limits : Limits) (left right : Bytes) :
    bytesForBoth mode limits left right = bytesForBoth mode limits right left :=
  bytesTogether_comm _ _

theorem buildBoth_of_parses {tree other : FieldTree} {agree : Bool}
    (hparse : FieldTree.parse mode limits.unbounded left = .ok tree)
    (hparse' : FieldTree.parse mode limits.unbounded right = .ok other)
    (hagree : tree.agrees other = .ok agree) :
    (bytesForBoth mode limits.unbounded left right ≤ limits.ceiling ∧ ∃ after,
      buildBoth mode left right (ofLimits limits) = .ok agree after) ∨
    (limits.ceiling < bytesForBoth mode limits.unbounded left right ∧ ∃ after,
      buildBoth mode left right (ofLimits limits) = .error (.limit .outOfMemory) after) := by
  obtain ⟨first, alone, hfirst, rfl⟩ := FieldTree.parse_eq_ok_iff.mp hparse
  obtain ⟨second, alone', hsecond, rfl⟩ := FieldTree.parse_eq_ok_iff.mp hparse'
  rw [bytesForBoth, hfirst, hsecond]
  exact buildBoth_of_builds hfirst hsecond hagree

end Comparison

theorem Verdict.ofAgreement_ne_limit (agree : Bool) (error : LimitError) :
    ofAgreement agree ≠ limit error := by
  cases agree <;> simp [ofAgreement]

/-- **The threshold of a ceiling.** Take two different buffers that are not empty and that parse
without a ceiling. A comparison runs out of memory exactly if its ceiling is below the bytes of both
arenas and of the larger merge buffer, and otherwise it says whether the two trees are equal. -/
theorem compareInputs_threshold {left right : Bytes} (hleft : left ≠ []) (hright : right ≠ [])
    (hne : left ≠ right) {mode : Mode} {limits : Limits} {tree other : FieldTree}
    (hparse : FieldTree.parse mode limits.unbounded left = .ok tree)
    (hparse' : FieldTree.parse mode limits.unbounded right = .ok other) :
    ∃ agree, tree.agrees other = .ok agree ∧
      (compareInputs mode limits left right = .ok (.limit .outOfMemory) ↔
        limits.ceiling < tree.arenaBytes + other.arenaBytes +
          32 * max (FieldTree.roomLeft mode limits.unbounded left)
            (FieldTree.roomLeft mode limits.unbounded right)) ∧
      (compareInputs mode limits left right ≠ .ok (.limit .outOfMemory) →
        compareInputs mode limits left right = .ok (.ofAgreement agree)) := by
  obtain ⟨_, _, _, _, agree, hagree, _⟩ := FieldTree.agrees_of_parse hparse hparse'
  have hbytes : tree.arenaBytes + other.arenaBytes +
      32 * max (FieldTree.roomLeft mode limits.unbounded left)
        (FieldTree.roomLeft mode limits.unbounded right) =
      Comparison.bytesForBoth mode limits.unbounded left right := by
    obtain ⟨first, alone, hfirst, rfl⟩ := FieldTree.parse_eq_ok_iff.mp hparse
    obtain ⟨second, alone', hsecond, rfl⟩ := FieldTree.parse_eq_ok_iff.mp hparse'
    rw [FieldTree.roomLeft, FieldTree.roomLeft, Comparison.bytesForBoth, hfirst, hsecond]
    rfl
  refine ⟨agree, hagree, ?_⟩
  rw [hbytes, compareInputs_of_ne mode limits hne hleft hright]
  rcases Comparison.buildBoth_of_parses hparse hparse' hagree with
    ⟨hle, after, hboth⟩ | ⟨hlt, after, hboth⟩
  · rw [hboth]
    refine ⟨⟨fun hfull => ?_, fun hlt => absurd hle (not_le.mpr hlt)⟩, fun _ => rfl⟩
    exact absurd (Except.ok.inj hfull) (Verdict.ofAgreement_ne_limit agree _)
  · rw [hboth]
    exact ⟨⟨fun _ => hlt, fun _ => rfl⟩, fun hnot => absurd rfl hnot⟩

/-- Two fields in both orders: 152 bytes for each arena, and a buffer of 8 slots for one of them. -/
theorem compareInputs_threshold_swapped :
    FieldTree.roomLeft .lenient { maxDepth := 1 } [0x10, 0x02, 0x08, 0x01] = 8 ∧
    FieldTree.roomLeft .lenient { maxDepth := 1 } [0x08, 0x01, 0x10, 0x02] = 0 ∧
    compareInputs .lenient ⟨1, some 559⟩ [0x10, 0x02, 0x08, 0x01] [0x08, 0x01, 0x10, 0x02] =
      .ok (.limit .outOfMemory) ∧
    compareInputs .lenient ⟨1, some 560⟩ [0x10, 0x02, 0x08, 0x01] [0x08, 0x01, 0x10, 0x02] =
      .ok .equal := by
  have hroom : FieldTree.roomLeft .lenient { maxDepth := 1 } [0x10, 0x02, 0x08, 0x01] = 8 := by cbv
  have hroom' : FieldTree.roomLeft .lenient { maxDepth := 1 } [0x08, 0x01, 0x10, 0x02] = 0 := by cbv
  obtain ⟨tree, hparse, hparse', hbytes, hequal⟩ : ∃ tree,
      FieldTree.parse .lenient { maxDepth := 1 } [0x10, 0x02, 0x08, 0x01] = .ok tree ∧
      FieldTree.parse .lenient { maxDepth := 1 } [0x08, 0x01, 0x10, 0x02] = .ok tree ∧
      tree.arenaBytes = 152 ∧ tree.agrees tree = .ok true :=
    ⟨⟨⟨#[⟨⟨8⟩, .scalar (.varint 1)⟩, ⟨⟨16⟩, .scalar (.varint 2)⟩, .vacant, .vacant],
      #[⟨0, 2, 4⟩], 152⟩, 0⟩, by cbv, by cbv, rfl, by cbv⟩
  have hsmall : (⟨1, some 559⟩ : Limits).ceiling = 559 := by decide
  have hlarge : (⟨1, some 560⟩ : Limits).ceiling = 560 := by decide
  obtain ⟨_, _, hfull, _⟩ := @compareInputs_threshold _ _ (by decide) (by decide) (by decide) .lenient
    ⟨1, some 559⟩ _ _ hparse hparse'
  obtain ⟨agree, hagree, hfull', hverdict⟩ := @compareInputs_threshold _ _ (by decide) (by decide)
    (by decide) .lenient ⟨1, some 560⟩ _ _ hparse hparse'
  simp only [Limits.unbounded, hroom, hroom', hbytes, hsmall] at hfull
  simp only [Limits.unbounded, hroom, hroom', hbytes, hlarge] at hfull'
  rw [hequal] at hagree
  refine ⟨hroom, hroom', hfull.mpr (by decide), ?_⟩
  rw [hverdict (mt hfull'.mp (by decide)), ← Except.ok.inj hagree]
  rfl

end UnknownFields
