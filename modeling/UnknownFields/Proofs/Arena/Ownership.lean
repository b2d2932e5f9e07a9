import Mathlib
import UnknownFields.Proofs.Arena.Closed
import UnknownFields.Proofs.Wire.Typing

/-!
Who holds a set. The groups that all sets name, together with the sets that no field names, are the
sets of the arena, each of them once. A new set is named by no field; a push of a group names one of
these; and sorting a set moves the names that it holds to other places.
-/

namespace UnknownFields

/-- The set that a field names, if it is a group. -/
def Field.member? (field : Field) : Option Nat :=
  match field.payload with
  | .scalar _ => none
  | .group member => some member

theorem Field.member?_eq_some_iff {field : Field} {member : Nat} :
    field.member? = some member ↔ field = ⟨field.tag, .group member⟩ := by
  obtain ⟨tag, value | id⟩ := field
  · simp [member?]
  · simp [member?]

namespace Arena

open scoped List

def members (arena : Arena) (id : Nat) : List Nat :=
  match arena.fields id with
  | .ok fields => fields.filterMap Field.member?
  | .error _ => []

/-- The sets that any set names, as often as they are named. -/
def references (arena : Arena) : List Nat := (List.range arena.setCount).flatMap arena.members

/-- Every set is one of the roots or is named by a field, and only once. -/
structure Owned (arena : Arena) (roots : List Nat) : Prop where
  perm : (arena.references ++ roots).Perm (List.range arena.setCount)

structure Typed (arena : Arena) : Prop where
  typed : ∀ {id : Nat} {fields : List Field}, arena.fields id = .ok fields →
    ∀ field ∈ fields, field.Typed

variable {arena later : Arena} {id : Nat} {fields old : List Field} {roots : List Nat}

theorem members_eq (h : arena.fields id = .ok fields) :
    arena.members id = fields.filterMap Field.member? := by
  rw [members, h]

theorem mem_members (h : arena.fields id = .ok fields) {member : Nat} :
    member ∈ arena.members id ↔ ∃ tag, ⟨tag, .group member⟩ ∈ fields := by
  rw [members_eq h, List.mem_filterMap]
  constructor
  · rintro ⟨field, hmem, hmember⟩
    exact ⟨field.tag, Field.member?_eq_some_iff.mp hmember ▸ hmem⟩
  · rintro ⟨tag, hmem⟩
    exact ⟨_, hmem, rfl⟩

/-! ### Types -/

theorem typed_empty : Typed {} := by
  refine ⟨fun {id fields} hfields => ?_⟩
  rw [fields_of_le (Nat.zero_le id)] at hfields
  cases hfields

theorem Typed.withSet (h : arena.Typed) (hsound : arena.Sound) : arena.withSet.Typed := by
  refine ⟨fun {id fields} hfields => ?_⟩
  have hid := lt_of_fields hfields
  rw [setCount_withSet] at hid
  rcases Nat.lt_succ_iff_lt_or_eq.mp hid with hold | rfl
  · rw [hsound.fields_withSet hold] at hfields
    exact h.typed hfields
  · rw [fields_withSet_self] at hfields
    cases hfields
    exact List.forall_mem_nil _

/-- An arena stays typed if the fields that one of its sets holds now are. -/
theorem Typed.changes (h : arena.Typed) (hchanges : arena.Changes later id fields)
    (hfields : ∀ field ∈ fields, field.Typed) : later.Typed := by
  refine ⟨fun {other found} hfound => ?_⟩
  by_cases hother : other = id
  · subst hother
    rw [hchanges.self_eq] at hfound
    cases hfound
    exact hfields
  · rw [hchanges.fields_eq other hother] at hfound
    exact h.typed hfound

/-! ### Owners -/

theorem owned_empty : Owned {} [] := ⟨.refl _⟩

theorem Owned.lt_of_mem (h : arena.Owned roots) {root : Nat} (hmem : root ∈ roots) :
    root < arena.setCount :=
  List.mem_range.mp (h.perm.mem_iff.mp (List.mem_append_right _ hmem))

/-- A set that is not a root is named by a field. -/
theorem Owned.exists_holder (h : arena.Owned roots) (hid : id < arena.setCount)
    (hroot : id ∉ roots) : ∃ holder tag fields, arena.fields holder = .ok fields ∧
      ⟨tag, .group id⟩ ∈ fields := by
  have hmem := h.perm.mem_iff.mpr (List.mem_range.mpr hid)
  rcases List.mem_append.mp hmem with hreference | hmem
  · obtain ⟨holder, _, hmember⟩ := List.mem_flatMap.mp hreference
    cases hfields : arena.fields holder with
    | error fault =>
        rw [members, hfields] at hmember
        cases hmember
    | ok fields =>
        obtain ⟨tag, hfield⟩ := (mem_members hfields).mp hmember
        exact ⟨holder, tag, fields, hfields, hfield⟩
  · exact absurd hmem hroot

theorem Owned.nodup (h : arena.Owned roots) : arena.references.Nodup :=
  (h.perm.nodup_iff.mpr List.nodup_range).of_append_left

theorem Owned.holder_unique (h : arena.Owned roots) {holder other member : Nat}
    (hholder : holder < arena.setCount) (hother : other < arena.setCount)
    (hmem : member ∈ arena.members holder) (hmem' : member ∈ arena.members other) :
    holder = other := by
  by_contra hne
  obtain ⟨_, hacross⟩ := List.nodup_flatMap.mp h.nodup
  have hsymm : Std.Symm (Function.onFun List.Disjoint arena.members) :=
    ⟨fun _ _ hdisjoint => hdisjoint.symm⟩
  exact hacross.forall (List.mem_range.mpr hholder) (List.mem_range.mpr hother) hne hmem hmem'

theorem Owned.index_unique (h : arena.Owned roots) (hfields : arena.fields id = .ok fields)
    {index index' member : Nat} {tag tag' : Tag} (hfield : fields[index]? = some ⟨tag, .group member⟩)
    (hfield' : fields[index']? = some ⟨tag', .group member⟩) : index = index' := by
  have hnodup := (List.nodup_flatMap.mp h.nodup).1 id (List.mem_range.mpr (lt_of_fields hfields))
  rw [members_eq hfields, List.Nodup, List.pairwise_filterMap, List.pairwise_iff_getElem] at hnodup
  have hapart : ∀ {first second : Nat} {tag tag' : Tag},
      fields[first]? = some ⟨tag, .group member⟩ →
      fields[second]? = some ⟨tag', .group member⟩ → ¬first < second := by
    intro first second tag tag' hfirst hsecond hlt
    obtain ⟨hfirst_lt, hfirst⟩ := List.getElem?_eq_some_iff.mp hfirst
    obtain ⟨hsecond_lt, hsecond⟩ := List.getElem?_eq_some_iff.mp hsecond
    apply hnodup first second hfirst_lt hsecond_lt hlt member _ member _ rfl
    · rw [hfirst]
      rfl
    · rw [hsecond]
      rfl
  have hle := not_lt.mp (hapart hfield' hfield)
  have hle' := not_lt.mp (hapart hfield hfield')
  exact Nat.le_antisymm hle hle'

/-- **No set is named by two fields**, neither of two sets nor of one. -/
theorem Owned.unique (h : arena.Owned roots) {holder other : Nat} {others : List Field}
    (hfields : arena.fields holder = .ok fields) (hothers : arena.fields other = .ok others)
    {index index' member : Nat} {tag tag' : Tag} (hfield : fields[index]? = some ⟨tag, .group member⟩)
    (hfield' : others[index']? = some ⟨tag', .group member⟩) : holder = other ∧ index = index' := by
  have hmem := (mem_members hfields).mpr ⟨tag, List.mem_of_getElem? hfield⟩
  have hmem' := (mem_members hothers).mpr ⟨tag', List.mem_of_getElem? hfield'⟩
  obtain rfl := h.holder_unique (lt_of_fields hfields) (lt_of_fields hothers) hmem hmem'
  rw [hfields] at hothers
  cases hothers
  exact ⟨rfl, h.index_unique hfields hfield hfield'⟩

theorem Sound.members_withSet (h : arena.Sound) (hid : id < arena.setCount) :
    arena.withSet.members id = arena.members id := by
  rw [members, members, h.fields_withSet hid]

theorem Sound.references_withSet (h : arena.Sound) : arena.withSet.references = arena.references := by
  have hold : (List.range arena.setCount).flatMap arena.withSet.members = arena.references :=
    List.flatMap_congr fun id hid => h.members_withSet (List.mem_range.mp hid)
  rw [references, setCount_withSet, List.range_succ, List.flatMap_append, hold,
    List.flatMap_singleton, members_eq fields_withSet_self, List.filterMap_nil, List.append_nil]

/-- A new set is a root. -/
theorem Owned.withSet (h : arena.Owned roots) (hsound : arena.Sound) :
    arena.withSet.Owned (arena.setCount :: roots) := by
  constructor
  rw [hsound.references_withSet, setCount_withSet, List.range_succ]
  calc arena.references ++ arena.setCount :: roots
    _ ~ arena.setCount :: (arena.references ++ roots) := List.perm_middle
    _ ~ arena.setCount :: List.range arena.setCount := h.perm.cons _
    _ ~ List.range arena.setCount ++ [arena.setCount] := (List.perm_append_singleton _ _).symm

/-- Two concatenations that differ in one part are the same up to order when the parts are
exchanged. -/
theorem flatMap_range_perm {f g : Nat → List Nat} {count id : Nat} (hid : id < count)
    (h : ∀ other ≠ id, g other = f other) :
    ((List.range count).flatMap g ++ f id).Perm ((List.range count).flatMap f ++ g id) := by
  induction count with
  | zero => exact absurd hid (Nat.not_lt_zero id)
  | succ count ih =>
      rw [List.range_succ, List.flatMap_append, List.flatMap_append, List.flatMap_singleton,
        List.flatMap_singleton]
      rcases Nat.lt_succ_iff_lt_or_eq.mp hid with hlt | rfl
      · rw [h count hlt.ne', List.append_assoc, List.append_assoc]
        calc (List.range count).flatMap g ++ (f count ++ f id)
          _ ~ ((List.range count).flatMap g ++ f id) ++ f count := by
            rw [List.append_assoc]
            exact List.perm_append_comm.append_left _
          _ ~ ((List.range count).flatMap f ++ g id) ++ f count := (ih hlt).append_right _
          _ ~ (List.range count).flatMap f ++ (f count ++ g id) := by
            rw [List.append_assoc]
            exact List.perm_append_comm.append_left _
      · have hrest : (List.range id).flatMap g = (List.range id).flatMap f :=
          List.flatMap_congr fun other hother => h other (List.mem_range.mp hother).ne
        rw [hrest, List.append_assoc, List.append_assoc]
        exact List.perm_append_comm.append_left _

theorem Changes.references_perm (h : arena.Changes later id fields)
    (hold : arena.fields id = .ok old) :
    (later.references ++ old.filterMap Field.member?).Perm
      (arena.references ++ fields.filterMap Field.member?) := by
  rw [← members_eq hold, ← members_eq h.self_eq, references, references, h.setCount_eq]
  refine flatMap_range_perm (lt_of_fields hold) fun other hother => ?_
  rw [members, members, h.fields_eq other hother]

/-- The roots stay as they are if a set names what it named before. -/
theorem Owned.changes (h : arena.Owned roots) (hchanges : arena.Changes later id fields)
    (hold : arena.fields id = .ok old)
    (hsame : (fields.filterMap Field.member?).Perm (old.filterMap Field.member?)) :
    later.Owned roots := by
  have hreferences := (hchanges.references_perm hold).trans (hsame.append_left _)
  constructor
  rw [hchanges.setCount_eq]
  exact ((List.perm_append_right_iff _).mp hreferences).append_right _ |>.trans h.perm

/-- A root is no root any more when a field names it. -/
theorem Owned.push {root : Nat} {tag : Tag} (h : arena.Owned (root :: roots))
    (hchanges : arena.Changes later id (old ++ [⟨tag, .group root⟩]))
    (hold : arena.fields id = .ok old) : later.Owned roots := by
  have hreferences : later.references.Perm (arena.references ++ [root]) := by
    apply (List.perm_append_right_iff (old.filterMap Field.member?)).mp
    calc later.references ++ old.filterMap Field.member?
      _ ~ arena.references ++ (old ++ [Field.mk tag (.group root)]).filterMap Field.member? :=
        hchanges.references_perm hold
      _ ~ arena.references ++ ([root] ++ old.filterMap Field.member?) := by
        rw [List.filterMap_append]
        exact List.perm_append_comm.append_left _
      _ = arena.references ++ [root] ++ old.filterMap Field.member? := by rw [List.append_assoc]
  constructor
  rw [hchanges.setCount_eq]
  calc later.references ++ roots
    _ ~ arena.references ++ [root] ++ roots := hreferences.append_right _
    _ = arena.references ++ root :: roots := by rw [List.append_assoc, List.singleton_append]
    _ ~ List.range arena.setCount := h.perm

end Arena

end UnknownFields
