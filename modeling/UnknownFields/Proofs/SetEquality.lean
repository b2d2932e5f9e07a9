import UnknownFields.Proofs.Build.Ownership

/-!
What comparing sets decides. A set denotes a tree of plain values: numbers, byte strings and the trees
of its groups, with no ids in it and no word on where anything is stored or under which wire type a
number came. Of the sets that builds make, two agree exactly if they denote one tree. Numbers of two
wire types would denote the same value and never agree; they do not get in the way because every
payload is what its tag says, and tags are compared first.
-/

namespace UnknownFields

/-- What a payload says, apart from where it is stored and under which wire type it came. -/
inductive Value where
  | word (number : UInt64)
  | half (number : UInt32)
  | bytes (span : Bytes)
  | tree (fields : List (Tag × Value))

namespace Scalar

def value : Scalar → Value
  | varint number => .word number
  | fixed64 bits => .word bits
  | fixed32 bits => .half bits
  | delimited span => .bytes span

/-- Payloads of one wire type agree exactly if they say the same. -/
theorem agree_iff_value {left right : Scalar} (h : left.wireType = right.wireType) :
    left.agree right = true ↔ left.value = right.value := by
  cases left <;> cases right <;> simp_all [agree, value, wireType]

theorem value_ne_tree (scalar : Scalar) (fields : List (Tag × Value)) :
    scalar.value ≠ .tree fields := by
  cases scalar <;> exact nofun

end Scalar

namespace Arena

mutual

/-- A set denotes the tree that one gets by following its groups. -/
inductive Denotes (arena : Arena) : Nat → List (Tag × Value) → Prop where
  | set {id : Nat} {fields : List Field} {tree : List (Tag × Value)}
      (fields_eq : arena.fields id = .ok fields) (each : DenoteEach arena fields tree) :
      Denotes arena id tree

inductive DenoteEach (arena : Arena) : List Field → List (Tag × Value) → Prop where
  | nil : DenoteEach arena [] []
  | cons {field : Field} {entry : Tag × Value} {fields : List Field} {tree : List (Tag × Value)}
      (first : FieldDenotes arena field entry) (rest : DenoteEach arena fields tree) :
      DenoteEach arena (field :: fields) (entry :: tree)

inductive FieldDenotes (arena : Arena) : Field → Tag × Value → Prop where
  | scalar {tag : Tag} {value : Scalar} : FieldDenotes arena ⟨tag, .scalar value⟩ (tag, value.value)
  | group {tag : Tag} {member : Nat} {inside : List (Tag × Value)}
      (members : Denotes arena member inside) :
      FieldDenotes arena ⟨tag, .group member⟩ (tag, .tree inside)

end

variable {arena other : Arena} {id otherId : Nat} {tree tree' : List (Tag × Value)}

mutual

theorem Denotes.unique : ∀ {id : Nat} {tree tree' : List (Tag × Value)},
    arena.Denotes id tree → arena.Denotes id tree' → tree = tree'
  | _, _, _, .set hfields heach, .set hfields' heach' => by
      have hsame := Except.ok.inj (hfields.symm.trans hfields')
      exact DenoteEach.unique heach (hsame ▸ heach')

theorem DenoteEach.unique : ∀ {fields : List Field} {tree tree' : List (Tag × Value)},
    arena.DenoteEach fields tree → arena.DenoteEach fields tree' → tree = tree'
  | _, _, _, .nil, .nil => rfl
  | _, _, _, .cons hfirst hrest, .cons hfirst' hrest' => by
      rw [FieldDenotes.unique hfirst hfirst', DenoteEach.unique hrest hrest']

theorem FieldDenotes.unique : ∀ {field : Field} {entry entry' : Tag × Value},
    arena.FieldDenotes field entry → arena.FieldDenotes field entry' → entry = entry'
  | _, _, _, .scalar, .scalar => rfl
  | _, _, _, .group hmembers, .group hmembers' => by rw [Denotes.unique hmembers hmembers']

end

theorem exists_denoteEach {fields : List Field}
    (h : ∀ tag member, ⟨tag, .group member⟩ ∈ fields → ∃ inside, arena.Denotes member inside) :
    ∃ tree, arena.DenoteEach fields tree := by
  induction fields with
  | nil => exact ⟨[], .nil⟩
  | cons field rest ih =>
      obtain ⟨tree, hrest⟩ := ih fun tag member hmem => h tag member (List.mem_cons_of_mem _ hmem)
      obtain ⟨tag, value | member⟩ := field
      · exact ⟨_, .cons .scalar hrest⟩
      · obtain ⟨inside, hmembers⟩ := h tag member List.mem_cons_self
        exact ⟨_, .cons (.group hmembers) hrest⟩

/-- Every set of a closed arena denotes a tree: groups are younger, so following them ends. -/
theorem Closed.exists_denotes (h : arena.Closed) (hsound : arena.Sound) (hid : id < arena.setCount) :
    ∃ tree, arena.Denotes id tree := by
  induction hcount : arena.setCount - id using Nat.strong_induction_on generalizing id with
  | _ count ih =>
      obtain ⟨window, hwindow⟩ := window_of_lt hid
      obtain ⟨fields, hfields⟩ : ∃ fields, arena.fields id = .ok fields :=
        ⟨_, fields_eq hwindow (hsound.fits hwindow).stop_le⟩
      obtain ⟨tree, heach⟩ : ∃ tree, arena.DenoteEach fields tree := by
        refine exists_denoteEach fun tag member hmem => ?_
        have hyounger := h.younger hfields hmem
        exact ih (arena.setCount - member) (by omega) hyounger.2 rfl
      exact ⟨tree, .set hfields heach⟩

/-! ### Comparing -/

/-- Two typed fields agree exactly if they denote the same. Where their tags are equal they are of one
kind, so it is their values that are compared. -/
theorem FieldDenotes.fieldsAgree_eq {agree : Nat → Nat → Except Fault Bool} {left right : Field}
    {entry entry' : Tag × Value} (h : arena.FieldDenotes left entry)
    (h' : other.FieldDenotes right entry') (htyped : left.Typed) (htyped' : right.Typed)
    (hagree : ∀ member member' inside inside', left.payload = .group member →
      arena.Denotes member inside → other.Denotes member' inside' →
      ∃ same, agree member member' = .ok same ∧ (same = true ↔ inside = inside')) :
    ∃ same, fieldsAgree agree left right = .ok same ∧ (same = true ↔ entry = entry') := by
  rw [fieldsAgree]
  cases h with
  | @scalar tag value =>
      cases h' with
      | @scalar tag' value' =>
          by_cases htag : tag = tag'
          · subst htag
            have htype : value.wireType = value'.wireType :=
              Option.some.inj (htyped.symm.trans htyped')
            refine ⟨_, if_pos rfl, ?_⟩
            rw [Scalar.agree_iff_value htype, Prod.mk.injEq]
            exact (and_iff_right rfl).symm
          · exact ⟨false, if_neg htag, by simp [htag]⟩
      | @group tag' member inside hmembers =>
          refine ⟨false, ite_self _, ?_⟩
          simp [value.value_ne_tree inside]
  | @group tag member inside hmembers =>
      cases h' with
      | @scalar tag' value =>
          refine ⟨false, ite_self _, ?_⟩
          simp [(value.value_ne_tree inside).symm]
      | @group tag' member' inside' hmembers' =>
          by_cases htag : tag = tag'
          · obtain ⟨same, hsame, hiff⟩ := hagree member member' inside inside' rfl hmembers hmembers'
            refine ⟨same, ?_, ?_⟩
            · rw [if_pos htag]
              exact hsame
            · rw [hiff]
              simp [htag]
          · exact ⟨false, if_neg htag, by simp [htag]⟩

theorem DenoteEach.agreeAll_eq {agree : Field → Field → Except Fault Bool}
    {lefts rights : List Field} (h : arena.DenoteEach lefts tree)
    (h' : other.DenoteEach rights tree')
    (hagree : ∀ left ∈ lefts, ∀ right ∈ rights, ∀ entry entry', arena.FieldDenotes left entry →
      other.FieldDenotes right entry' →
      ∃ same, agree left right = .ok same ∧ (same = true ↔ entry = entry')) :
    ∃ same, agreeAll agree lefts rights = .ok same ∧ (same = true ↔ tree = tree') := by
  induction lefts generalizing rights tree tree' with
  | nil =>
      cases h
      cases h' with
      | nil => exact ⟨true, rfl, by simp⟩
      | cons => exact ⟨false, rfl, by simp⟩
  | cons left lefts ih =>
      cases h with
      | cons hfirst hrest =>
          cases h' with
          | nil => exact ⟨false, rfl, by simp⟩
          | @cons right _ rights _ hfirst' hrest' =>
              obtain ⟨same, hsame, hiff⟩ :=
                hagree left List.mem_cons_self right List.mem_cons_self _ _ hfirst hfirst'
              rw [agreeAll, hsame, ok_bind, List.cons.injEq, ← hiff]
              cases same with
              | false => exact ⟨false, rfl, by simp⟩
              | true =>
                  obtain ⟨others, hothers, hothersIff⟩ := ih hrest hrest'
                    fun left hleft right hright => hagree left (List.mem_cons_of_mem _ hleft) right
                      (List.mem_cons_of_mem _ hright)
                  refine ⟨others, hothers, ?_⟩
                  rw [hothersIff]
                  exact (and_iff_right rfl).symm

theorem DenoteEach.length_eq {fields : List Field} (h : arena.DenoteEach fields tree) :
    fields.length = tree.length := by
  induction fields generalizing tree with
  | nil =>
      cases h
      rfl
  | cons field fields ih =>
      cases h with
      | cons _ hrest => rw [List.length_cons, List.length_cons, ih hrest]

/-- Comparing two sets ends without a fault and says whether they denote one tree. The left arena
is closed, so each step goes to a younger set of it. -/
theorem Denotes.setsAgree_eq (h : arena.Denotes id tree) (h' : other.Denotes otherId tree')
    (hclosed : arena.Closed) (htyped : arena.Typed) (htyped' : other.Typed) :
    ∃ same, setsAgree arena other id otherId = .ok same ∧ (same = true ↔ tree = tree') := by
  induction hcount : arena.setCount - id using Nat.strong_induction_on
    generalizing id otherId tree tree' with
  | _ count ih =>
      obtain @⟨_, lefts, _, hfields, heach⟩ := h
      obtain @⟨_, rights, _, hfields', heach'⟩ := h'
      rw [setsAgree, hfields, hfields', ok_bind, ok_bind]
      by_cases hlength : lefts.length = rights.length
      · rw [if_pos hlength]
        apply heach.agreeAll_eq heach'
        intro left hleft right hright entry entry' hentry hentry'
        apply hentry.fieldsAgree_eq hentry' (htyped.typed hfields left hleft)
          (htyped'.typed hfields' right hright)
        intro member member' inside inside' hpayload hinside hinside'
        obtain ⟨tag, payload⟩ := left
        cases hpayload
        have hyounger := hclosed.younger hfields hleft
        rw [dif_pos hyounger]
        exact ih (arena.setCount - member) (by omega) hinside hinside' rfl
      · refine ⟨false, if_neg hlength, ?_⟩
        have hne : tree ≠ tree' := by
          rintro rfl
          exact hlength (heach.length_eq.trans heach'.length_eq.symm)
        simp [hne]

end Arena

/-- A set that builds have made, in whatever workspace and behind whatever other builds. -/
structure StoredSet where
  limits : Limits
  workspace : Workspace
  reachable : workspace.Reachable limits
  id : Nat
  exists_set : id < workspace.arena.setCount

namespace StoredSet

def Denotes (set : StoredSet) (tree : List (Tag × Value)) : Prop :=
  set.workspace.arena.Denotes set.id tree

def agrees (set other : StoredSet) : Except Fault Bool :=
  Arena.setsAgree set.workspace.arena other.workspace.arena set.id other.id

theorem existsUnique_denotes (set : StoredSet) : ∃! tree, set.Denotes tree := by
  have hsound := set.reachable.sound
  obtain ⟨tree, htree⟩ := hsound.closed.exists_denotes hsound.arena set.exists_set
  exact ⟨tree, htree, fun tree' htree' => htree'.unique htree⟩

theorem agrees_eq (set other : StoredSet) :
    ∃ same, set.agrees other = .ok same ∧
      (same = true ↔ ∃ tree, set.Denotes tree ∧ other.Denotes tree) := by
  obtain ⟨tree, htree, _⟩ := set.existsUnique_denotes
  obtain ⟨tree', htree', _⟩ := other.existsUnique_denotes
  obtain ⟨roots, harranged⟩ := set.reachable.arranged
  obtain ⟨roots', harranged'⟩ := other.reachable.arranged
  obtain ⟨same, hsame, hiff⟩ :=
    htree.setsAgree_eq htree' harranged.sound.closed harranged.typed harranged'.typed
  refine ⟨same, hsame, hiff.trans ⟨?_, ?_⟩⟩
  · rintro rfl
    exact ⟨tree, htree, htree'⟩
  · rintro ⟨common, hcommon, hcommon'⟩
    exact (htree.unique hcommon).trans (hcommon'.unique htree')

theorem agrees_eq_true_iff (set other : StoredSet) :
    set.agrees other = .ok true ↔ ∃ tree, set.Denotes tree ∧ other.Denotes tree := by
  obtain ⟨same, hsame, hiff⟩ := set.agrees_eq other
  rw [hsame, Except.ok.injEq, hiff]

/-- **Comparing sets decides whether they denote one tree.** Every set that builds have made denotes
exactly one tree of values. For any two of them, in one workspace or in two, the comparison ends
without a fault, and it says yes exactly if both denote the same tree. So it is an equivalence. -/
theorem agrees_decides_equality :
    (∀ set : StoredSet, ∃! tree, set.Denotes tree) ∧
    (∀ set other : StoredSet, ∃ same, set.agrees other = .ok same ∧
      (same = true ↔ ∃ tree, set.Denotes tree ∧ other.Denotes tree)) ∧
    Equivalence fun set other : StoredSet => set.agrees other = .ok true := by
  refine ⟨existsUnique_denotes, agrees_eq, ?_, ?_, ?_⟩
  · intro set
    obtain ⟨tree, htree, _⟩ := set.existsUnique_denotes
    exact (set.agrees_eq_true_iff set).mpr ⟨tree, htree, htree⟩
  · intro set other hagrees
    obtain ⟨tree, htree, htree'⟩ := (set.agrees_eq_true_iff other).mp hagrees
    exact (other.agrees_eq_true_iff set).mpr ⟨tree, htree', htree⟩
  · intro first second third hagrees hagrees'
    obtain ⟨tree, hfirst, hsecond⟩ := (first.agrees_eq_true_iff second).mp hagrees
    obtain ⟨tree', hsecond', hthird⟩ := (second.agrees_eq_true_iff third).mp hagrees'
    cases hsecond.unique hsecond'
    exact (first.agrees_eq_true_iff third).mpr ⟨tree, hfirst, hthird⟩

set_option maxRecDepth 2000 in
/-- A field and a group in two orders, in arenas where their sets lie in different places. The tops
agree, and neither of them agrees with a group. -/
theorem agrees_in_other_places :
    ∃ set other group : StoredSet, set.workspace.arena ≠ other.workspace.arena ∧
      set.Denotes [(⟨11⟩, .tree [(⟨8⟩, .word 1)]), (⟨16⟩, .word 2)] ∧
      set.agrees other = .ok true ∧ set.agrees group = .ok false := by
  have hfirst : Workspace.build .lenient [0x10, 0x02, 0x0b, 0x08, 0x01, 0x0c] (.ofLimits {}) =
      .ok ⟨0, 6⟩ ⟨⟨#[⟨⟨11⟩, .group 1⟩, .varint 16 2, .vacant, .vacant,
        .varint 8 1, .vacant, .vacant, .vacant], #[⟨0, 2, 4⟩, ⟨4, 1, 4⟩], 304⟩,
        ⟨8, [.varint 16 2, ⟨⟨11⟩, .group 1⟩]⟩, ⟨none, 560⟩, 100⟩ := by cbv
  have hsecond : Workspace.build .lenient [0x0b, 0x08, 0x81, 0x00, 0x0c, 0x10, 0x02]
        (.ofLimits { maxDepth := 2 }) =
      .ok ⟨0, 7⟩ ⟨⟨#[.varint 8 1, .vacant, .vacant, .vacant, ⟨⟨11⟩, .group 1⟩, .varint 16 2,
        .vacant, .vacant], #[⟨4, 2, 4⟩, ⟨0, 1, 4⟩], 304⟩, {}, ⟨none, 304⟩, 2⟩ := by cbv
  have hreachable := Workspace.Reachable.fresh.built hfirst
  have hreachable' := Workspace.Reachable.fresh.built hsecond
  let set : StoredSet := ⟨_, _, hreachable, 0, by decide⟩
  let other : StoredSet := ⟨_, _, hreachable', 0, by decide⟩
  let group : StoredSet := ⟨_, _, hreachable', 1, by decide⟩
  have hgroup : group.Denotes [(⟨8⟩, .word 1)] := .set rfl (.cons .scalar .nil)
  have hinside : set.workspace.arena.Denotes 1 [(⟨8⟩, .word 1)] := .set rfl (.cons .scalar .nil)
  have hinside' : other.workspace.arena.Denotes 1 [(⟨8⟩, .word 1)] := .set rfl (.cons .scalar .nil)
  have hset : set.Denotes [(⟨11⟩, .tree [(⟨8⟩, .word 1)]), (⟨16⟩, .word 2)] :=
    .set rfl (.cons (.group hinside) (.cons .scalar .nil))
  have hother : other.Denotes [(⟨11⟩, .tree [(⟨8⟩, .word 1)]), (⟨16⟩, .word 2)] :=
    .set rfl (.cons (.group hinside') (.cons .scalar .nil))
  obtain ⟨_, hagrees, _⟩ := agrees_decides_equality
  refine ⟨set, other, group, ?_, hset, ?_, ?_⟩
  · intro hsame
    have hwindows : #[⟨0, 2, 4⟩, ⟨4, 1, 4⟩] = (#[⟨4, 2, 4⟩, ⟨0, 1, 4⟩] : Array Window) :=
      congrArg Arena.windows hsame
    exact absurd hwindows (by decide)
  · obtain ⟨same, hsame, hiff⟩ := hagrees set other
    rw [hsame, hiff.mpr ⟨_, hset, hother⟩]
  · obtain ⟨same, hsame, hiff⟩ := hagrees set group
    cases same with
    | false => exact hsame
    | true =>
        obtain ⟨tree, htree, htree'⟩ := hiff.mp rfl
        cases (hset.unique htree).trans (htree'.unique hgroup)

end StoredSet

end UnknownFields
