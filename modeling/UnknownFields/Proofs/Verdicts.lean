import UnknownFields.Proofs.Together

/-!
Verdicts as a relation between buffers. A comparison that reaches a verdict says what the trees of
both buffers say, each parsed on its own; so the verdict does not depend on which buffer comes first,
and equality goes from one buffer to the next. The shortcuts for empty buffers and for the same bytes
agree with this. A limit can only come in between where one of the buffers does not parse, or where
the ceiling is below what both take together.
-/

namespace UnknownFields

open Workspace

namespace FieldTree

variable {mode : Mode} {limits : Limits} {input : Bytes} {tree other : FieldTree}

/-- The tree of encoded fields. -/
theorem nodes_of_encodes {fields : List (Node Unit)} (h : Encodes input fields)
    (hparse : parse mode limits input = .ok tree) :
    ∃ nodes, tree.nodes = .ok nodes ∧ nodes.map Node.erase = canonicalFields fields := by
  obtain ⟨built, after, hbuild, rfl⟩ := parse_eq_ok_iff.mp hparse
  rcases (sound_ofLimits limits).build_of_encodes h mode with
    ⟨_, built', after', read, hbuild', hread, hfinished⟩ | ⟨_, after', hbuild'⟩ | ⟨_, after', hbuild'⟩
  · rw [hbuild] at hbuild'
    cases hbuild'
    exact ⟨canonicalFields read, hfinished.nodes_eq, by rw [← canonicalFields_erase, hread]⟩
  · rw [hbuild] at hbuild'
    cases hbuild'
  · rw [hbuild] at hbuild'
    cases hbuild'

section Agreement

variable {left middle right : Bytes} {first second third : FieldTree} {agree : Bool}

theorem agrees_comm (hparse : parse mode limits left = .ok first)
    (hparse' : parse mode limits right = .ok second) (h : first.agrees second = .ok agree) :
    second.agrees first = .ok agree := by
  obtain ⟨nodes, nodes', hnodes, hnodes', same, hsame, hiff⟩ := agrees_of_parse hparse hparse'
  obtain ⟨same', hsame', hiff'⟩ := Arena.setsAgree_eq hnodes' hnodes
  rw [h] at hsame
  cases hsame
  rw [agrees, hsame', Bool.eq_iff_iff.mpr (hiff'.trans (eq_comm.trans hiff.symm))]

theorem agrees_trans (hfirst : parse mode limits left = .ok first)
    (hsecond : parse mode limits middle = .ok second) (hthird : parse mode limits right = .ok third)
    (h : first.agrees second = .ok true) (h' : second.agrees third = .ok true) :
    first.agrees third = .ok true := by
  obtain ⟨_, nodes, hnodes⟩ := nodes_of_parse hfirst
  obtain ⟨_, nodes', hnodes'⟩ := nodes_of_parse hsecond
  obtain ⟨_, nodes'', hnodes''⟩ := nodes_of_parse hthird
  obtain ⟨same, hsame, hiff⟩ := Arena.setsAgree_eq hnodes hnodes'
  obtain ⟨same', hsame', hiff'⟩ := Arena.setsAgree_eq hnodes' hnodes''
  obtain ⟨same'', hsame'', hiff''⟩ := Arena.setsAgree_eq hnodes hnodes''
  rw [agrees, hsame] at h
  rw [agrees, hsame'] at h'
  cases h
  cases h'
  rw [agrees, hsame'', hiff''.mpr ((hiff.mp rfl).trans (hiff'.mp rfl))]

theorem agrees_self (hparse : parse mode limits left = .ok first) :
    first.agrees first = .ok true := by
  obtain ⟨_, nodes, hnodes⟩ := nodes_of_parse hparse
  obtain ⟨same, hsame, hiff⟩ := Arena.setsAgree_eq hnodes hnodes
  rw [agrees, hsame, hiff.mpr rfl]

/-- The trees of two encodings agree only if they encode as many fields. -/
theorem agrees_false_of_length {fields others : List (Node Unit)} (h : Encodes left fields)
    (h' : Encodes right others) (hparse : parse mode limits left = .ok first)
    (hparse' : parse mode limits right = .ok second) (hlength : fields.length ≠ others.length) :
    first.agrees second = .ok false := by
  obtain ⟨nodes, hnodes, hfields⟩ := nodes_of_encodes h hparse
  obtain ⟨nodes', hnodes', hothers⟩ := nodes_of_encodes h' hparse'
  obtain ⟨same, hsame, hiff⟩ := Arena.setsAgree_eq hnodes hnodes'
  cases same with
  | false => exact hsame
  | true =>
      have hsizes := congrArg List.length (hiff.mp rfl)
      rw [hfields, hothers, length_canonicalFields, length_canonicalFields] at hsizes
      exact absurd hsizes hlength

end Agreement

end FieldTree

namespace Comparison

variable {mode : Mode} {limits : Limits} {left middle right : Bytes} {agree : Bool}

/-- The ways in which two builds in a new workspace can end. -/
theorem buildBoth_cases (mode : Mode) (limits : Limits) (left right : Bytes) :
    (∃ failure after, Workspace.build mode left (ofLimits limits) = .error failure after ∧
      buildBoth mode left right (ofLimits limits) = .error failure after) ∨
    ∃ first between, Workspace.build mode left (ofLimits limits) = .ok first between ∧
      ((∃ failure after, Workspace.build mode right between = .error failure after ∧
        buildBoth mode left right (ofLimits limits) = .error failure after) ∨
      ∃ second after agree, Workspace.build mode right between = .ok second after ∧
        buildBoth mode left right (ofLimits limits) = .ok agree after) := by
  cases hfirst : Workspace.build mode left (ofLimits limits) with
  | error failure after =>
      refine Or.inl ⟨failure, after, rfl, ?_⟩
      simp only [buildBoth, bind, EStateM.bind, hfirst]
  | ok first between =>
      refine Or.inr ⟨first, between, rfl, ?_⟩
      cases hsecond : Workspace.build mode right between with
      | error failure after =>
          refine Or.inl ⟨failure, after, rfl, ?_⟩
          simp only [buildBoth, bind, EStateM.bind, hfirst, hsecond]
      | ok second after =>
          obtain ⟨_, _, _, hfinished⟩ := (sound_ofLimits limits).build_done hfirst
          obtain ⟨_, _, _, hfinished'⟩ := hfinished.pays.sound.build_done hsecond
          have hnodes := hfinished'.extends_base.nodes_eq hfinished.nodes_eq
          obtain ⟨agree, hagree, _⟩ := Arena.setsAgree_eq hnodes hfinished'.nodes_eq
          refine Or.inr ⟨second, after, agree, rfl, ?_⟩
          simp only [buildBoth, bind, EStateM.bind, hfirst, hsecond, hagree]

/-- In lenient mode there is a verdict or a limit. -/
theorem buildBoth_lenient (limits : Limits) (left right : Bytes) :
    (∃ agree after, buildBoth .lenient left right (ofLimits limits) = .ok agree after) ∨
    ∃ error after, buildBoth .lenient left right (ofLimits limits) = .error (.limit error) after := by
  rcases buildBoth_cases .lenient limits left right with
    ⟨failure, after, hfirst, hboth⟩ | ⟨first, between, hfirst, hrest⟩
  · cases failure with
    | limit error => exact Or.inr ⟨error, after, hboth⟩
    | fault fault => exact absurd hfirst ((sound_ofLimits limits).build_lenient left fault after)
  · have hsound := (Reachable.fresh.built hfirst).sound
    rcases hrest with ⟨failure, after, hsecond, hboth⟩ | ⟨_, after, agree, _, hboth⟩
    · cases failure with
      | limit error => exact Or.inr ⟨error, after, hboth⟩
      | fault fault => exact absurd hsecond (hsound.build_lenient right fault after)
    · exact Or.inl ⟨agree, after, hboth⟩

/-- Memory runs out only where the budget does not admit a total that is linear in the lengths. -/
theorem not_admits_of_outOfMemory {after : Workspace}
    (h : buildBoth mode left right (ofLimits limits) = .error (.limit .outOfMemory) after) :
    ¬({ limit := limits.arenaBytes } : Budget).Admits (48 + 280 * (left.length + right.length)) := by
  have hcover : cover (ofLimits limits).arena (ofLimits limits).buffer = 0 := rfl
  intro hadmits
  apply not_outOfRoom_ofLimits hadmits
  rcases buildBoth_cases mode limits left right with
    ⟨failure, after', hfirst, hboth⟩ | ⟨first, between, hfirst, hrest⟩
  · rw [h] at hboth
    cases hboth
    have hfull := ((sound_ofLimits limits).build_failed hfirst).1.allowed
    exact hfull.mono (by simp only [Build.task, hcover]; omega)
  · obtain ⟨_, _, _, hfinished⟩ := (sound_ofLimits limits).build_done hfirst
    have hle : cover between.arena between.buffer ≤ 0 + 24 + 280 * left.length := hfinished.cover_le
    rcases hrest with ⟨failure, after', hsecond, hboth⟩ | ⟨_, _, _, _, hboth⟩
    · rw [h] at hboth
      cases hboth
      have hfull := (hfinished.pays.sound.build_failed hsecond).1.allowed
      exact (hfinished.pays.outOfRoom hfull).mono (by simp only [Build.task]; omega)
    · rw [h] at hboth
      cases hboth

/-- Two builds that have led to a verdict succeed on their own as well, and the verdict is that on
their trees. -/
theorem parse_of_buildBoth {after : Workspace}
    (h : buildBoth mode left right (ofLimits limits) = .ok agree after) :
    ∃ tree other, FieldTree.parse mode limits.unbounded left = .ok tree ∧
      FieldTree.parse mode limits.unbounded right = .ok other ∧ tree.agrees other = .ok agree := by
  rcases buildBoth_cases mode limits left right with
    ⟨_, _, _, hboth⟩ | ⟨first, between, hfirst, ⟨_, _, _, hboth⟩ | ⟨_, _, _, hsecond, _⟩⟩
  · rw [h] at hboth
    cases hboth
  · rw [h] at hboth
    cases hboth
  · have hparse : FieldTree.parse mode limits left = .ok ⟨between.arena, first.root⟩ :=
      FieldTree.parse_eq_ok_iff.mpr ⟨first, between, hfirst, rfl⟩
    obtain ⟨_, other, _, hparse', _⟩ := (Reachable.fresh.built hfirst).build_beside hsecond
    have hparse := FieldTree.parse_unbounded hparse
    have hparse' := FieldTree.parse_unbounded hparse'
    obtain ⟨_, _, _, _, same, hsame, _⟩ := FieldTree.agrees_of_parse hparse hparse'
    refine ⟨_, other, hparse, hparse', ?_⟩
    rcases buildBoth_of_parses hparse hparse' hsame with ⟨_, _, hboth⟩ | ⟨_, _, hboth⟩
    · rw [h] at hboth
      cases hboth
      exact hsame
    · rw [h] at hboth
      cases hboth

/-- The verdict does not depend on which buffer is built first. -/
theorem buildBoth_swap {after : Workspace}
    (h : buildBoth mode left right (ofLimits limits) = .ok agree after) :
    ∃ after', buildBoth mode right left (ofLimits limits) = .ok agree after' := by
  obtain ⟨tree, other, hparse, hparse', hagree⟩ := parse_of_buildBoth h
  have hagree' := FieldTree.agrees_comm hparse hparse' hagree
  rcases buildBoth_of_parses hparse hparse' hagree with ⟨hle, _⟩ | ⟨_, _, hboth⟩
  · rw [bytesForBoth_comm] at hle
    rcases buildBoth_of_parses hparse' hparse hagree' with ⟨_, hswapped⟩ | ⟨hlt, _⟩
    · exact hswapped
    · exact absurd hle (not_le.mpr hlt)
  · rw [h] at hboth
    cases hboth

/-- A limit is not that of the memory if there is no ceiling and the buffers have a realistic
length. -/
theorem eq_maxDepthExceeded {error : LimitError} {after : Workspace}
    (h : buildBoth mode left right (ofLimits limits) = .error (.limit error) after)
    (hceiling : limits.arenaBytes = none) (hleft : left.length < 2 ^ 48)
    (hright : right.length < 2 ^ 48) : error = .maxDepthExceeded := by
  cases error with
  | maxDepthExceeded => rfl
  | outOfMemory =>
      refine absurd ?_ (not_admits_of_outOfMemory h)
      rw [hceiling]
      exact admits_of_length_lt hleft hright

end Comparison

/-! ### Symmetry and transitivity -/

section Verdicts

variable {mode : Mode} {limits : Limits} {left middle right : Bytes}

/-- Different buffers that are equal have been built, and their sets agree. -/
theorem buildBoth_of_equal (hne : left ≠ right)
    (h : compareInputs mode limits left right = .ok .equal) :
    left ≠ [] ∧ right ≠ [] ∧
      ∃ after, Comparison.buildBoth mode left right (ofLimits limits) = .ok true after := by
  have hnonempty : ¬(left = [] ∨ right = []) := by
    intro hempty
    rw [compareInputs_of_empty mode limits hne hempty] at h
    cases h
  obtain ⟨hleft, hright⟩ := not_or.mp hnonempty
  refine ⟨hleft, hright, ?_⟩
  rw [compareInputs_of_ne mode limits hne hleft hright] at h
  match hboth : Comparison.buildBoth mode left right (ofLimits limits) with
  | .ok true after => exact ⟨after, rfl⟩
  | .ok false after =>
      rw [hboth] at h
      cases h
  | .error (.limit error) after =>
      rw [hboth] at h
      cases h
  | .error (.fault fault) after =>
      rw [hboth] at h
      cases h

/-- In lenient mode there is a verdict, or one of the two builds has met a limit. -/
theorem compareInputs_cases (limits : Limits) (left right : Bytes) :
    (∃ agree, compareInputs .lenient limits left right = .ok (.ofAgreement agree)) ∨
    ∃ error after, compareInputs .lenient limits left right = .ok (.limit error) ∧
      Comparison.buildBoth .lenient left right (ofLimits limits) = .error (.limit error) after := by
  by_cases hne : left = right
  · subst hne
    exact Or.inl ⟨true, compareInputs_self .lenient limits left⟩
  by_cases hempty : left = [] ∨ right = []
  · exact Or.inl ⟨false, compareInputs_of_empty .lenient limits hne hempty⟩
  obtain ⟨hleft, hright⟩ := not_or.mp hempty
  rw [compareInputs_of_ne .lenient limits hne hleft hright]
  rcases Comparison.buildBoth_lenient limits left right with
    ⟨agree, after, hboth⟩ | ⟨error, after, hboth⟩
  · exact Or.inl ⟨agree, by rw [hboth]⟩
  · exact Or.inr ⟨error, after, by rw [hboth], hboth⟩

/-- Different buffers that are not empty have the same verdict both ways, or limits both ways. -/
theorem compareInputs_swap_of_ne (limits : Limits) (hne : left ≠ right) (hleft : left ≠ [])
    (hright : right ≠ []) :
    (∃ agree, compareInputs .lenient limits left right = .ok (.ofAgreement agree) ∧
      compareInputs .lenient limits right left = .ok (.ofAgreement agree)) ∨
    ∃ error error' after after', compareInputs .lenient limits left right = .ok (.limit error) ∧
      compareInputs .lenient limits right left = .ok (.limit error') ∧
      Comparison.buildBoth .lenient left right (ofLimits limits) = .error (.limit error) after ∧
      Comparison.buildBoth .lenient right left (ofLimits limits) = .error (.limit error') after' := by
  rw [compareInputs_of_ne .lenient limits hne hleft hright,
    compareInputs_of_ne .lenient limits hne.symm hright hleft]
  rcases Comparison.buildBoth_lenient limits left right with
    ⟨agree, after, hboth⟩ | ⟨error, after, hboth⟩
  · obtain ⟨after', hswapped⟩ := Comparison.buildBoth_swap hboth
    exact Or.inl ⟨agree, by rw [hboth], by rw [hswapped]⟩
  · rcases Comparison.buildBoth_lenient limits right left with
      ⟨agree, after', hswapped⟩ | ⟨error', after', hswapped⟩
    · obtain ⟨_, hback⟩ := Comparison.buildBoth_swap hswapped
      rw [hboth] at hback
      cases hback
    · exact Or.inr ⟨error, error', after, after', by rw [hboth], by rw [hswapped], hboth, hswapped⟩

theorem compareInputs_trans (hceiling : limits.arenaBytes = none) (hleft : left.length < 2 ^ 48)
    (hright : right.length < 2 ^ 48) (h : compareInputs mode limits left middle = .ok .equal)
    (h' : compareInputs mode limits middle right = .ok .equal) :
    compareInputs mode limits left right = .ok .equal := by
  by_cases hfirst : left = middle
  · rwa [hfirst]
  by_cases hsecond : middle = right
  · rwa [← hsecond]
  by_cases hthird : left = right
  · rw [hthird]
    exact compareInputs_self mode limits right
  obtain ⟨hnonempty, _, _, hboth⟩ := buildBoth_of_equal hfirst h
  obtain ⟨_, hnonempty', _, hboth'⟩ := buildBoth_of_equal hsecond h'
  obtain ⟨first, second, hparse, hparse', hagree⟩ := Comparison.parse_of_buildBoth hboth
  obtain ⟨_, third, hagain, hparse'', hagree'⟩ := Comparison.parse_of_buildBoth hboth'
  rw [hparse'] at hagain
  cases hagain
  have hagree'' := FieldTree.agrees_trans hparse hparse' hparse'' hagree hagree'
  rw [compareInputs_of_ne mode limits hthird hnonempty hnonempty']
  rcases Comparison.buildBoth_of_parses hparse hparse'' hagree'' with
    ⟨_, _, hlast⟩ | ⟨_, _, hlast⟩
  · rw [hlast]
    rfl
  · cases Comparison.eq_maxDepthExceeded hlast hceiling hleft hright

end Verdicts

/-- **Comparing is symmetric and transitive**, for any bytes. The two ways round there is the same
verdict, or a limit both times; without a ceiling it is the same limit, and equality goes from one
buffer to the next. -/
theorem compareInputs_symm_trans (limits : Limits) (left middle right : Bytes) :
    ((compareInputs .lenient limits left middle = .ok .equal ∧
        compareInputs .lenient limits middle left = .ok .equal) ∨
      (compareInputs .lenient limits left middle = .ok .notEqual ∧
        compareInputs .lenient limits middle left = .ok .notEqual) ∨
      ∃ error error', compareInputs .lenient limits left middle = .ok (.limit error) ∧
        compareInputs .lenient limits middle left = .ok (.limit error')) ∧
    (limits.arenaBytes = none → left.length < 2 ^ 48 → middle.length < 2 ^ 48 →
      compareInputs .lenient limits left middle = compareInputs .lenient limits middle left) ∧
    (limits.arenaBytes = none →
      left.length < 2 ^ 48 → middle.length < 2 ^ 48 → right.length < 2 ^ 48 →
      compareInputs .lenient limits left middle = .ok .equal →
      compareInputs .lenient limits middle right = .ok .equal →
      compareInputs .lenient limits left right = .ok .equal) := by
  rw [← and_assoc]
  refine ⟨?_, fun hceiling hleft _ hright => compareInputs_trans hceiling hleft hright⟩
  by_cases hne : left = middle
  · subst hne
    have hself := compareInputs_self .lenient limits left
    exact ⟨Or.inl ⟨hself, hself⟩, fun _ _ _ => rfl⟩
  by_cases hempty : left = [] ∨ middle = []
  · have hnot := compareInputs_of_empty .lenient limits hne hempty
    have hnot' := compareInputs_of_empty .lenient limits (Ne.symm hne) hempty.symm
    exact ⟨Or.inr (Or.inl ⟨hnot, hnot'⟩), fun _ _ _ => hnot.trans hnot'.symm⟩
  obtain ⟨hleft, hmiddle⟩ := not_or.mp hempty
  rcases compareInputs_swap_of_ne limits hne hleft hmiddle with
    ⟨agree, hverdict, hswapped⟩ | ⟨error, error', _, _, hlimit, hswapped, hboth, hboth'⟩
  · refine ⟨?_, fun _ _ _ => hverdict.trans hswapped.symm⟩
    cases agree with
    | true => exact Or.inl ⟨hverdict, hswapped⟩
    | false => exact Or.inr (Or.inl ⟨hverdict, hswapped⟩)
  · refine ⟨Or.inr (Or.inr ⟨error, error', hlimit, hswapped⟩), fun hceiling hshort hshort' => ?_⟩
    rw [hlimit, hswapped, Comparison.eq_maxDepthExceeded hboth hceiling hshort hshort',
      Comparison.eq_maxDepthExceeded hboth' hceiling hshort' hshort]

set_option maxRecDepth 2000 in
/-- One order of two fields, the other one, and one of the numbers spelled in two bytes. -/
theorem compareInputs_trans_overlong :
    compareInputs .lenient {} [0x10, 0x02, 0x08, 0x01] [0x08, 0x01, 0x10, 0x02] = .ok .equal ∧
    compareInputs .lenient {} [0x08, 0x01, 0x10, 0x02] [0x08, 0x81, 0x00, 0x10, 0x02] = .ok .equal ∧
    compareInputs .lenient {} [0x08, 0x01, 0x10, 0x02] [0x10, 0x02, 0x08, 0x01] = .ok .equal ∧
    compareInputs .lenient {} [0x10, 0x02, 0x08, 0x01] [0x08, 0x81, 0x00, 0x10, 0x02] = .ok .equal := by
  have hfirst : compareInputs .lenient {} [0x10, 0x02, 0x08, 0x01] [0x08, 0x01, 0x10, 0x02] =
      .ok .equal := by cbv
  have hsecond : compareInputs .lenient {} [0x08, 0x01, 0x10, 0x02] [0x08, 0x81, 0x00, 0x10, 0x02] =
      .ok .equal := by cbv
  obtain ⟨_, hsymm, htrans⟩ := compareInputs_symm_trans {} [0x10, 0x02, 0x08, 0x01]
    [0x08, 0x01, 0x10, 0x02] [0x08, 0x81, 0x00, 0x10, 0x02]
  exact ⟨hfirst, hsecond, (hsymm rfl (by decide) (by decide)).symm.trans hfirst,
    htrans rfl (by decide) (by decide) (by decide) hfirst hsecond⟩

/-! ### Parsing each on its own -/

section Parses

variable {mode : Mode} {limits : Limits} {left right : Bytes} {tree other : FieldTree}

/-- An empty buffer and one that is not hold different trees, if both are well-formed. -/
theorem agrees_false_of_empty (hleft : WellFormed.check left = .ok ())
    (hright : WellFormed.check right = .ok ()) (hne : left ≠ right) (hempty : left = [] ∨ right = [])
    (hparse : FieldTree.parse mode limits left = .ok tree)
    (hparse' : FieldTree.parse mode limits right = .ok other) : tree.agrees other = .ok false := by
  obtain ⟨fields, hfields⟩ := WellFormed.encodes_of_check hleft
  obtain ⟨others, hothers⟩ := WellFormed.encodes_of_check hright
  exact FieldTree.agrees_false_of_length hfields hothers hparse hparse'
    (hfields.length_ne hothers hne hempty)

/-- Buffers that parse each on its own are compared as their trees are, unless both together are
more than the ceiling admits. -/
theorem compareInputs_parse_cases {agree : Bool}
    (hbuffers : (left ≠ [] ∧ right ≠ []) ∨ (left = [] ∧ right = []) ∨
      (WellFormed.check left = .ok () ∧ WellFormed.check right = .ok ()))
    (hparse : FieldTree.parse mode limits left = .ok tree)
    (hparse' : FieldTree.parse mode limits right = .ok other) (hagree : tree.agrees other = .ok agree) :
    compareInputs mode limits left right = .ok (.ofAgreement agree) ∨
    ∃ after, compareInputs mode limits left right = .ok (.limit .outOfMemory) ∧
      Comparison.buildBoth mode left right (ofLimits limits) = .error (.limit .outOfMemory) after := by
  by_cases hne : left = right
  · subst hne
    rw [hparse] at hparse'
    cases hparse'
    rw [FieldTree.agrees_self hparse] at hagree
    cases hagree
    exact Or.inl (compareInputs_self mode limits left)
  by_cases hempty : left = [] ∨ right = []
  · rcases hbuffers with ⟨hleft, hright⟩ | ⟨hleft, hright⟩ | ⟨hleft, hright⟩
    · exact absurd hempty (not_or.mpr ⟨hleft, hright⟩)
    · exact absurd (hleft.trans hright.symm) hne
    · rw [agrees_false_of_empty hleft hright hne hempty hparse hparse'] at hagree
      cases hagree
      exact Or.inl (compareInputs_of_empty mode limits hne hempty)
  obtain ⟨hleft, hright⟩ := not_or.mp hempty
  rw [compareInputs_of_ne mode limits hne hleft hright]
  rcases Comparison.buildBoth_of_parses (FieldTree.parse_unbounded hparse)
    (FieldTree.parse_unbounded hparse') hagree with ⟨_, after, hboth⟩ | ⟨_, after, hboth⟩
  · exact Or.inl (by rw [hboth])
  · exact Or.inr ⟨after, by rw [hboth], hboth⟩

end Parses

/-- **The shortcuts agree with the plain path.** Take two buffers that are both empty or both not, or
that are both well-formed, and that both parse in arenas of their own. Unless the ceiling does not
admit both together, comparing them says whether their trees are equal. -/
theorem compareInputs_of_parse {mode : Mode} {limits : Limits} {left right : Bytes}
    {tree other : FieldTree}
    (hbuffers : (left ≠ [] ∧ right ≠ []) ∨ (left = [] ∧ right = []) ∨
      (WellFormed.check left = .ok () ∧ WellFormed.check right = .ok ()))
    (hparse : FieldTree.parse mode limits left = .ok tree)
    (hparse' : FieldTree.parse mode limits right = .ok other) :
    ∃ agree, tree.agrees other = .ok agree ∧
      (compareInputs mode limits left right = .ok (.limit .outOfMemory) ∨
        compareInputs mode limits left right = .ok (.ofAgreement agree)) ∧
      compareInputs mode limits left right ≠ .ok (.limit .maxDepthExceeded) ∧
      (limits.arenaBytes = none → left.length < 2 ^ 48 → right.length < 2 ^ 48 →
        compareInputs mode limits left right = .ok (.ofAgreement agree)) := by
  obtain ⟨_, _, _, _, agree, hagree, _⟩ := FieldTree.agrees_of_parse hparse hparse'
  refine ⟨agree, hagree, ?_⟩
  rcases compareInputs_parse_cases hbuffers hparse hparse' hagree with
    hverdict | ⟨after, hfull, hboth⟩
  · refine ⟨Or.inr hverdict, fun hdeep => ?_, fun _ _ _ => hverdict⟩
    rw [hverdict] at hdeep
    exact Verdict.ofAgreement_ne_limit agree _ (Except.ok.inj hdeep)
  · refine ⟨Or.inl hfull, fun hdeep => ?_, fun hceiling hleft hright => ?_⟩
    · rw [hfull] at hdeep
      cases hdeep
    · cases Comparison.eq_maxDepthExceeded hboth hceiling hleft hright

/-- A number that is missing reads as zero. -/
theorem compareInputs_of_parse_missing :
    WellFormed.check [0x08] ≠ .ok () ∧
    compareInputs .lenient {} [0x08] [0x08, 0x00] = .ok .equal := by
  obtain ⟨tree, hparse, hparse', hequal⟩ : ∃ tree,
      FieldTree.parse .lenient {} [0x08] = .ok tree ∧
      FieldTree.parse .lenient {} [0x08, 0x00] = .ok tree ∧ tree.agrees tree = .ok true :=
    ⟨⟨⟨#[⟨⟨8⟩, .scalar (.varint 0)⟩, .vacant, .vacant, .vacant], #[⟨0, 1, 4⟩], 152⟩, 0⟩, by cbv,
      by cbv, by cbv⟩
  have hrejected : WellFormed.check [0x08] ≠ .ok () := by
    have hcheck : WellFormed.check [0x08] = .error ⟨0, .truncatedVarint⟩ := by cbv
    rw [hcheck]
    intro haccepted
    cases haccepted
  obtain ⟨agree, hagree, _, _, hverdict⟩ :=
    compareInputs_of_parse (Or.inl ⟨by decide, by decide⟩) hparse hparse'
  rw [hequal] at hagree
  cases hagree
  exact ⟨hrejected, hverdict rfl (by decide) (by decide)⟩

end UnknownFields
