import UnknownFields.Proofs.Arena.Reading

/-!
Arenas in which every group can be followed. A group that is stored in a set is a set of the arena
and younger than its holder, so reading out comes to an end and meets no fault: every id denotes a
tree. This also holds of the sets that a build has left half full.
-/

namespace UnknownFields.Arena

/-- Every group that a set holds is a younger set of the arena. -/
structure Closed (arena : Arena) : Prop where
  younger : ∀ {id : Nat} {fields : List Field}, arena.fields id = .ok fields →
    ∀ {tag : Tag} {member : Nat}, ⟨tag, .group member⟩ ∈ fields → id < member ∧ member < arena.setCount

variable {arena later : Arena} {id : Nat}

theorem closed_empty : Closed {} := by
  refine ⟨fun {id fields} hfields => ?_⟩
  rw [fields_of_le (Nat.zero_le id)] at hfields
  cases hfields

theorem Closed.withSet (h : arena.Closed) (hsound : arena.Sound) : arena.withSet.Closed := by
  refine ⟨fun {id fields} hfields {tag member} hmem => ?_⟩
  have hid := lt_of_fields hfields
  rw [setCount_withSet] at hid ⊢
  rcases Nat.lt_succ_iff_lt_or_eq.mp hid with hold | rfl
  · rw [hsound.fields_withSet hold] at hfields
    have := h.younger hfields hmem
    omega
  · rw [fields_withSet_self] at hfields
    cases hfields
    cases hmem

/-- An arena stays closed if the groups that one of its sets holds now are younger sets. -/
theorem Closed.changes {fields : List Field} (h : arena.Closed) (hchanges : arena.Changes later id fields)
    (hgroups : ∀ {tag : Tag} {member : Nat}, ⟨tag, .group member⟩ ∈ fields →
      id < member ∧ member < arena.setCount) : later.Closed := by
  refine ⟨fun {other found} hfound {tag member} hmem => ?_⟩
  rw [hchanges.setCount_eq]
  by_cases hother : other = id
  · subst hother
    rw [hchanges.self_eq] at hfound
    cases hfound
    exact hgroups hmem
  · rw [hchanges.fields_eq other hother] at hfound
    exact h.younger hfound hmem

theorem nodesOf_eq_ok {inside : Nat → Except Fault (List (Node Nat))} {fields : List Field}
    (h : ∀ {tag : Tag} {member : Nat}, ⟨tag, .group member⟩ ∈ fields →
      ∃ nodes, inside member = .ok nodes) : ∃ nodes, nodesOf inside fields = .ok nodes := by
  induction fields with
  | nil => exact ⟨[], rfl⟩
  | cons field rest ih =>
      obtain ⟨others, hrest⟩ := ih fun hmem => h (List.mem_cons_of_mem _ hmem)
      obtain ⟨tag, value | member⟩ := field
      · exact ⟨.leaf tag value :: others, by rw [nodesOf, hrest]; rfl⟩
      · obtain ⟨nodes, hinside⟩ := h List.mem_cons_self
        exact ⟨.group tag member nodes :: others, by rw [nodesOf, hinside, hrest]; rfl⟩

/-- **Every set of a closed arena reads out.** -/
theorem Closed.nodes_eq_ok (h : arena.Closed) (hsound : arena.Sound) (hid : id < arena.setCount) :
    ∃ nodes, arena.nodes id = .ok nodes := by
  induction hcount : arena.setCount - id using Nat.strong_induction_on generalizing id with
  | _ count ih =>
      obtain ⟨window, hwindow⟩ := window_of_lt hid
      have hfields := fields_eq hwindow (hsound.fits hwindow).stop_le
      rw [Arena.nodes, hfields, ok_bind]
      apply nodesOf_eq_ok
      intro tag member hmem
      have hyounger := h.younger hfields hmem
      rw [dif_pos hyounger]
      exact ih (arena.setCount - member) (by omega) hyounger.2 rfl

end UnknownFields.Arena
