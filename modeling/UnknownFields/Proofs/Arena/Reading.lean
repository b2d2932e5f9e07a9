import UnknownFields.Arena.Nodes
import UnknownFields.Proofs.Arena.Lists
import UnknownFields.Proofs.Canonical

/-!
What it means that a set reads out as some nodes: its list of fields is the list of the nodes, and
every group among them is younger than the set and reads out as the fields of its node. So the
nodes of a set depend on younger sets only, and an arena that grows keeps the nodes of all sets that
it had.
-/

namespace UnknownFields

/-- The field by which a node is stored. -/
def Node.stored : Node Nat → Field
  | leaf tag value => ⟨tag, .scalar value⟩
  | group tag label _ => ⟨tag, .group label⟩

@[simp]
theorem Node.tag_stored (node : Node Nat) : node.stored.tag = node.tag := by
  cases node <;> rfl

namespace Arena

/-- Nodes are read back from the fields that store them. -/
theorem nodesOf_map_stored {inside : Nat → Except Fault (List (Node Nat))}
    {nodes : List (Node Nat)}
    (h : ∀ tag label members, .group tag label members ∈ nodes → inside label = .ok members) :
    nodesOf inside (nodes.map Node.stored) = .ok nodes := by
  induction nodes with
  | nil => rfl
  | cons node rest ih =>
      have hrest := ih fun tag label members hmem =>
        h tag label members (List.mem_cons_of_mem _ hmem)
      cases node with
      | leaf tag value =>
          rw [List.map_cons, Node.stored, nodesOf, hrest]
          rfl
      | group tag label members =>
          rw [List.map_cons, Node.stored, nodesOf, h tag label members List.mem_cons_self, hrest]
          rfl

theorem stored_of_nodesOf {inside : Nat → Except Fault (List (Node Nat))} {fields : List Field}
    {nodes : List (Node Nat)} (h : nodesOf inside fields = .ok nodes) :
    fields = nodes.map Node.stored ∧
      ∀ tag label members, .group tag label members ∈ nodes → inside label = .ok members := by
  induction fields generalizing nodes with
  | nil =>
      cases h
      exact ⟨rfl, by simp⟩
  | cons field rest ih =>
      obtain ⟨tag, value | label⟩ := field
      · obtain ⟨others, hrest, h⟩ := bind_eq_ok.mp h
        cases h
        obtain ⟨rfl, hgroups⟩ := ih hrest
        exact ⟨rfl, by simpa using hgroups⟩
      · obtain ⟨members, hinside, h⟩ := bind_eq_ok.mp h
        obtain ⟨others, hrest, h⟩ := bind_eq_ok.mp h
        cases h
        obtain ⟨rfl, hgroups⟩ := ih hrest
        refine ⟨rfl, fun tag' label' members' hmem => ?_⟩
        rcases List.mem_cons.mp hmem with h | hmem
        · cases h
          exact hinside
        · exact hgroups tag' label' members' hmem

variable {arena later : Arena} {id : Nat} {nodes : List (Node Nat)}

theorem lt_of_nodes (h : arena.nodes id = .ok nodes) : id < arena.setCount := by
  rw [Arena.nodes] at h
  obtain ⟨_, hfields, _⟩ := bind_eq_ok.mp h
  exact lt_of_fields hfields

/-- A set reads out as some nodes if it is the list of these, and every group among them is younger
and reads out as the fields of its node. -/
theorem nodes_eq_ok_iff :
    arena.nodes id = .ok nodes ↔ arena.fields id = .ok (nodes.map Node.stored) ∧
      ∀ tag label members, .group tag label members ∈ nodes →
        id < label ∧ arena.nodes label = .ok members := by
  rw [Arena.nodes, bind_eq_ok]
  constructor
  · rintro ⟨fields, hfields, h⟩
    obtain ⟨rfl, hgroups⟩ := stored_of_nodesOf h
    refine ⟨hfields, fun tag label members hmem => ?_⟩
    have hinside := hgroups tag label members hmem
    split at hinside
    · next hyounger => exact ⟨hyounger.1, hinside⟩
    · cases hinside
  · rintro ⟨hfields, hgroups⟩
    refine ⟨_, hfields, nodesOf_map_stored fun tag label members hmem => ?_⟩
    obtain ⟨hyounger, hinside⟩ := hgroups tag label members hmem
    rw [dif_pos ⟨hyounger, lt_of_nodes hinside⟩, hinside]

/-- The nodes of a set depend on this set and the younger ones only. -/
theorem nodes_of_fields_eq (h : arena.nodes id = .ok nodes)
    (hkept : ∀ younger, id ≤ younger → younger < arena.setCount →
      later.fields younger = arena.fields younger) : later.nodes id = .ok nodes := by
  induction hcount : arena.setCount - id using Nat.strong_induction_on generalizing id nodes with
  | _ count ih =>
      obtain ⟨hfields, hgroups⟩ := nodes_eq_ok_iff.mp h
      refine nodes_eq_ok_iff.mpr ⟨?_, fun tag label members hmem => ?_⟩
      · rw [hkept id (Nat.le_refl id) (lt_of_fields hfields), hfields]
      · obtain ⟨hyounger, hinside⟩ := hgroups tag label members hmem
        have hlabel := lt_of_nodes hinside
        refine ⟨hyounger, ih (arena.setCount - label) (by omega) hinside ?_ rfl⟩
        intro younger hle
        exact hkept younger (hyounger.le.trans hle)

/-- The later arena has all sets that the other one has, with the same fields. -/
structure Extends (later arena : Arena) : Prop where
  setCount_le : arena.setCount ≤ later.setCount
  fields_eq : ∀ id < arena.setCount, later.fields id = arena.fields id

theorem Extends.refl (arena : Arena) : Extends arena arena := ⟨Nat.le_refl _, fun _ _ => rfl⟩

theorem Extends.trans {latest : Arena} (h : latest.Extends later) (h' : later.Extends arena) :
    latest.Extends arena where
  setCount_le := h'.setCount_le.trans h.setCount_le
  fields_eq id hid := (h.fields_eq id (hid.trans_le h'.setCount_le)).trans (h'.fields_eq id hid)

theorem Extends.withSet (h : arena.Sound) : arena.withSet.Extends arena where
  setCount_le := by
    rw [setCount_withSet]
    exact Nat.le_succ _
  fields_eq _ := h.fields_withSet

/-- One set of the arena holds other fields now, and all other sets are as they were. -/
structure Changes (arena later : Arena) (id : Nat) (fields : List Field) : Prop where
  setCount_eq : later.setCount = arena.setCount
  self_eq : later.fields id = .ok fields
  fields_eq : ∀ other ≠ id, later.fields other = arena.fields other

theorem Sound.changes_pushed {window : Window} {fields : List Field} (h : arena.Sound)
    (hwindow : arena.windows[id]? = some window) (hfields : arena.fields id = .ok fields)
    (field : Field) : arena.Changes (arena.pushed id window field) id (fields ++ [field]) where
  setCount_eq := setCount_pushed
  self_eq := h.fields_pushed_self hwindow hfields
  fields_eq _ := h.fields_pushed_of_ne hwindow

theorem Sound.changes_replaced {window : Window} {fields : List Field} (h : arena.Sound)
    (hwindow : arena.windows[id]? = some window) (hlength : fields.length = window.length) :
    arena.Changes (arena.replaced window fields) id fields where
  setCount_eq := rfl
  self_eq := h.fields_replaced_self hwindow hlength
  fields_eq _ := h.fields_replaced_of_ne hwindow hlength

/-- An arena that has grown still has the sets that it had before, if none of these is changed. -/
theorem Extends.changes {latest : Arena} {fields : List Field} (h : later.Extends arena)
    (hchanges : later.Changes latest id fields) (hid : arena.setCount ≤ id) :
    latest.Extends arena where
  setCount_le := by
    rw [hchanges.setCount_eq]
    exact h.setCount_le
  fields_eq other hother := by
    rw [hchanges.fields_eq other (by omega)]
    exact h.fields_eq other hother

/-- Sets keep their nodes when an arena grows. -/
theorem Extends.nodes_eq (h : later.Extends arena) (hnodes : arena.nodes id = .ok nodes) :
    later.nodes id = .ok nodes :=
  nodes_of_fields_eq hnodes fun younger _ => h.fields_eq younger

/-! ### Comparing -/

/-- The comparison of fields decides whether their nodes are the same up to labels, if that of sets
does for the groups. -/
theorem fieldsAgree_stored {agree : Nat → Nat → Except Fault Bool} (left right : Node Nat)
    (h : ∀ tag label members tag' label' members', left = .group tag label members →
      right = .group tag' label' members' → ∃ same, agree label label' = .ok same ∧
        (same = true ↔ members.map Node.erase = members'.map Node.erase)) :
    ∃ same, fieldsAgree agree left.stored right.stored = .ok same ∧
      (same = true ↔ left.erase = right.erase) := by
  rw [fieldsAgree, Node.tag_stored, Node.tag_stored]
  by_cases htag : left.tag = right.tag
  · rw [if_pos htag]
    cases left with
    | leaf tag value =>
        cases right with
        | leaf tag' value' =>
            refine ⟨_, rfl, ?_⟩
            rw [Node.erase_leaf, Node.erase_leaf, Scalar.agree_iff, Node.leaf.injEq]
            exact (and_iff_right htag).symm
        | group tag' label' members' => exact ⟨false, rfl, by simp⟩
    | group tag label members =>
        cases right with
        | leaf tag' value' => exact ⟨false, rfl, by simp⟩
        | group tag' label' members' =>
            obtain ⟨same, hsame, hiff⟩ := h _ _ _ _ _ _ rfl rfl
            refine ⟨same, hsame, ?_⟩
            rw [Node.erase_group, Node.erase_group, Node.group.injEq, hiff]
            exact ⟨fun heq => ⟨htag, rfl, heq⟩, fun heq => heq.2.2⟩
  · refine ⟨false, if_neg htag, ?_⟩
    have hne : left.erase ≠ right.erase := by
      intro heq
      apply htag
      rw [← left.tag_erase, heq, right.tag_erase]
    simp [hne]

theorem agreeAll_stored {agree : Field → Field → Except Fault Bool} (lefts rights : List (Node Nat))
    (h : ∀ left ∈ lefts, ∀ right ∈ rights, ∃ same, agree left.stored right.stored = .ok same ∧
      (same = true ↔ left.erase = right.erase)) :
    ∃ same, agreeAll agree (lefts.map Node.stored) (rights.map Node.stored) = .ok same ∧
      (same = true ↔ lefts.map Node.erase = rights.map Node.erase) := by
  induction lefts generalizing rights with
  | nil =>
      cases rights with
      | nil => exact ⟨true, rfl, by simp⟩
      | cons right rights => exact ⟨false, rfl, by simp⟩
  | cons left lefts ih =>
      cases rights with
      | nil => exact ⟨false, rfl, by simp⟩
      | cons right rights =>
          obtain ⟨same, hsame, hiff⟩ := h left List.mem_cons_self right List.mem_cons_self
          rw [List.map_cons, List.map_cons, agreeAll, hsame, ok_bind, List.map_cons, List.map_cons,
            List.cons.injEq, ← hiff]
          cases same with
          | false => exact ⟨false, rfl, by simp⟩
          | true =>
              obtain ⟨rest, hrest, hrestIff⟩ := ih rights fun left' hleft right' hright =>
                h left' (List.mem_cons_of_mem _ hleft) right' (List.mem_cons_of_mem _ hright)
              refine ⟨rest, hrest, ?_⟩
              rw [hrestIff]
              exact (and_iff_right rfl).symm

/-- **Two sets that read out agree exactly if they have the same nodes up to labels**, whether they
lie in one arena or in two. -/
theorem setsAgree_eq {other : Arena} {otherId : Nat} {lefts rights : List (Node Nat)}
    (hleft : arena.nodes id = .ok lefts) (hright : other.nodes otherId = .ok rights) :
    ∃ same, setsAgree arena other id otherId = .ok same ∧
      (same = true ↔ lefts.map Node.erase = rights.map Node.erase) := by
  induction hcount : arena.setCount - id using Nat.strong_induction_on
    generalizing id otherId lefts rights with
  | _ count ih =>
      obtain ⟨hfields, hgroups⟩ := nodes_eq_ok_iff.mp hleft
      obtain ⟨hfields', hgroups'⟩ := nodes_eq_ok_iff.mp hright
      rw [setsAgree, hfields, hfields', ok_bind, ok_bind, List.length_map, List.length_map]
      by_cases hlength : lefts.length = rights.length
      · rw [if_pos hlength]
        apply agreeAll_stored
        intro left hmem right hmem'
        apply fieldsAgree_stored
        rintro tag label members tag' label' members' rfl rfl
        obtain ⟨hyounger, hinside⟩ := hgroups tag label members hmem
        have hlabel := lt_of_nodes hinside
        rw [dif_pos ⟨hyounger, hlabel⟩]
        exact ih (arena.setCount - label) (by omega) hinside
          (hgroups' tag' label' members' hmem').2 rfl
      · refine ⟨false, if_neg hlength, ?_⟩
        have hne : lefts.map Node.erase ≠ rights.map Node.erase := by
          intro heq
          apply hlength
          rw [← List.length_map Node.erase, heq, List.length_map]
        simp [hne]

/-- So what two sets are compared by does not depend on where they lie. -/
theorem setsAgree_congr {arena' other other' : Arena} {id' otherId otherId' : Nat}
    {lefts lefts' rights rights' : List (Node Nat)} (hleft : arena.nodes id = .ok lefts)
    (hright : other.nodes otherId = .ok rights) (hleft' : arena'.nodes id' = .ok lefts')
    (hright' : other'.nodes otherId' = .ok rights')
    (hlefts : lefts'.map Node.erase = lefts.map Node.erase)
    (hrights : rights'.map Node.erase = rights.map Node.erase) :
    setsAgree arena' other' id' otherId' = setsAgree arena other id otherId := by
  obtain ⟨same, hsame, hiff⟩ := setsAgree_eq hleft hright
  obtain ⟨same', hsame', hiff'⟩ := setsAgree_eq hleft' hright'
  rw [hlefts, hrights, ← hiff] at hiff'
  rw [hsame, hsame', Bool.eq_iff_iff.mpr hiff']

end Arena

end UnknownFields
