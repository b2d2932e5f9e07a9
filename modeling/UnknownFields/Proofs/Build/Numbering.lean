import UnknownFields.Proofs.Build.Levels

/-!
The ids of groups. What the tokens amount to has its groups numbered one by one in the order in which
they are opened, so the labels stand there in this order without a gap. The sets that can be
followed to from a root are the root and the labels of what it reads out as.
-/

namespace UnknownFields

/-- The labels of a node and of all that is in it; a group comes before its fields. -/
def Node.labels {ι : Type} : Node ι → List ι
  | leaf _ _ => []
  | group _ label fields => label :: fields.flatMap labels

def labels {ι : Type} (fields : List (Node ι)) : List ι := fields.flatMap Node.labels

section Labels

open scoped List

variable {ι : Type}

@[simp]
theorem Node.labels_leaf (tag : Tag) (value : Scalar) :
    (Node.leaf tag value : Node ι).labels = [] := by
  rw [Node.labels]

@[simp]
theorem Node.labels_group (tag : Tag) (label : ι) (fields : List (Node ι)) :
    (Node.group tag label fields).labels = label :: UnknownFields.labels fields := by
  rw [Node.labels, UnknownFields.labels]

@[simp]
theorem labels_nil : labels ([] : List (Node ι)) = [] := rfl

@[simp]
theorem labels_append (fields others : List (Node ι)) :
    labels (fields ++ others) = labels fields ++ labels others := List.flatMap_append

@[simp]
theorem labels_singleton (node : Node ι) : labels [node] = node.labels :=
  List.flatMap_singleton ..

theorem mem_labels {fields : List (Node ι)} {label : ι} :
    label ∈ labels fields ↔ ∃ tag inner members, .group tag inner members ∈ fields ∧
      (label = inner ∨ label ∈ labels members) := by
  rw [labels, List.mem_flatMap]
  constructor
  · rintro ⟨node, hnode, hlabel⟩
    cases node with
    | leaf =>
        rw [Node.labels_leaf] at hlabel
        cases hlabel
    | group tag inner members =>
        rw [Node.labels_group] at hlabel
        exact ⟨tag, inner, members, hnode, List.mem_cons.mp hlabel⟩
  · rintro ⟨tag, inner, members, hnode, hlabel⟩
    refine ⟨_, hnode, ?_⟩
    rw [Node.labels_group]
    exact List.mem_cons.mpr hlabel

/-- Closing the open groups puts the fields behind all that was read before them. -/
theorem labels_closeAll (opened : List Opened) :
    ∃ front, ∀ fields, labels (Opened.closeAll fields opened) = front ++ labels fields := by
  induction opened with
  | nil => exact ⟨[], fun fields => rfl⟩
  | cons group outer ih =>
      obtain ⟨front, hfront⟩ := ih
      refine ⟨front ++ (labels group.fields ++ [group.label]), fun fields => ?_⟩
      rw [Opened.closeAll, hfront, Opened.closed, labels_append, labels_singleton, Node.labels_group]
      simp only [List.append_assoc, List.singleton_append]

/-- Sorting a level moves the labels of its groups with them. -/
theorem labels_sortByTag {fields : List (Node ι)}
    (h : ∀ node ∈ fields, node.canonical.labels.Perm node.labels) :
    (labels (sortByTag Node.tag (fields.map Node.canonical))).Perm (labels fields) := by
  calc labels (sortByTag Node.tag (fields.map Node.canonical))
    _ ~ labels (fields.map Node.canonical) := (sortByTag_perm Node.tag _).flatMap_right _
    _ = fields.flatMap fun node => node.canonical.labels := List.flatMap_map ..
    _ ~ labels fields := List.Perm.flatMap_left fields h

theorem Node.labels_canonical (node : Node ι) : node.canonical.labels.Perm node.labels := by
  fun_induction canonical node with
  | case1 tag value => exact .refl _
  | case2 tag label fields ih =>
      rw [Node.labels_group, Node.labels_group]
      exact (labels_sortByTag ih).cons label

theorem labels_canonicalFields (fields : List (Node ι)) :
    (labels (canonicalFields fields)).Perm (labels fields) :=
  labels_sortByTag fun node _ => node.labels_canonical

end Labels

/-- From any token on the groups are numbered from the next label on. -/
theorem TokenStream.labels_forest {mode : Mode} {stream : TokenStream} {label : Nat}
    {fields : List (Node Nat)} {opened : List Opened} {found : List (Node Nat) × Nat}
    (h : stream.forest mode label fields opened = .ok found) :
    ∃ count, labels found.1 =
      labels (Opened.closeAll fields opened) ++ List.range' label count := by
  induction stream generalizing label fields opened with
  | done position =>
      cases h
      exact ⟨0, (List.append_nil _).symm⟩
  | broken fault => cases h
  | next token position rest ih =>
      obtain ⟨front, hfront⟩ := labels_closeAll opened
      cases token with
      | field tag value =>
          obtain ⟨count, hcount⟩ := ih h
          refine ⟨count, ?_⟩
          rw [hcount, hfront, hfront, labels_append, labels_singleton, Node.labels_leaf,
            List.append_nil]
      | opening tag =>
          obtain ⟨count, hcount⟩ := ih h
          refine ⟨count + 1, ?_⟩
          rw [hcount, Opened.closeAll, Opened.closed, hfront, hfront, labels_append,
            labels_singleton, Node.labels_group, labels_nil, List.range'_succ]
          simp only [List.append_assoc, List.singleton_append]
      | closing tag =>
          rw [forest_closing] at h
          obtain ⟨_, _, h⟩ := bind_eq_ok.mp h
          cases opened with
          | nil =>
              cases h
              exact ⟨0, (List.append_nil _).symm⟩
          | cons group outer =>
              have hrest : rest.forest mode label (group.closed fields) outer = .ok found := h
              obtain ⟨count, hcount⟩ := ih hrest
              exact ⟨count, hcount⟩
      | unknown tag =>
          cases h
          exact ⟨0, (List.append_nil _).symm⟩

/-- **The groups of an input are numbered in the order in which they are opened.** -/
theorem TokenStream.labels_contents {mode : Mode} {input : Bytes} {label : Nat}
    {fields : List (Node Nat)} {position : Nat}
    (h : contents mode input label = .ok (fields, position)) :
    ∃ count, labels fields = List.range' label count := by
  obtain ⟨found, hforest, h⟩ := bind_eq_ok.mp h
  obtain ⟨_, _, h⟩ := bind_eq_ok.mp h
  cases h
  exact labels_forest hforest

/-! ### Following groups -/

namespace Arena

/-- The sets to which the groups of a set can be followed, and this set itself. -/
inductive Within (arena : Arena) (root : Nat) : Nat → Prop where
  | self : Within arena root root
  | member {holder member : Nat} {tag : Tag} {fields : List Field}
      (within : Within arena root holder) (fields_eq : arena.fields holder = .ok fields)
      (mem : ⟨tag, .group member⟩ ∈ fields) : Within arena root member

variable {arena : Arena} {root id : Nat} {nodes items : List (Node Nat)}

theorem Within.trans {middle : Nat} (h : arena.Within root middle) (h' : arena.Within middle id) :
    arena.Within root id := by
  induction h' with
  | self => exact h
  | member _ fields_eq mem ih => exact ih.member fields_eq mem

theorem stored_eq_group {node : Node Nat} {tag : Tag} {member : Nat}
    (h : node.stored = ⟨tag, .group member⟩) : ∃ fields, node = .group tag member fields := by
  cases node with
  | leaf => cases h
  | group tag' label fields =>
      cases h
      exact ⟨fields, rfl⟩

/-- A group that a set holds is one of its nodes. -/
theorem group_mem_nodes (h : arena.nodes id = .ok nodes) {fields : List Field}
    (hfields : arena.fields id = .ok fields) {tag : Tag} {member : Nat}
    (hmem : ⟨tag, .group member⟩ ∈ fields) :
    ∃ inside, .group tag member inside ∈ nodes ∧ arena.nodes member = .ok inside := by
  obtain ⟨hstored, hgroups⟩ := nodes_eq_ok_iff.mp h
  rw [hfields] at hstored
  cases hstored
  obtain ⟨node, hnode, heq⟩ := List.mem_map.mp hmem
  obtain ⟨inside, rfl⟩ := stored_eq_group heq
  exact ⟨inside, hnode, (hgroups tag member inside hnode).2⟩

theorem within_of_mem_labels (h : arena.nodes root = .ok nodes) (hid : id ∈ labels nodes) :
    arena.Within root id := by
  induction hcount : arena.setCount - root using Nat.strong_induction_on
    generalizing root nodes with
  | _ count ih =>
      obtain ⟨hfields, hgroups⟩ := nodes_eq_ok_iff.mp h
      obtain ⟨tag, inner, members, hnode, hlabel⟩ := mem_labels.mp hid
      obtain ⟨hyounger, hinside⟩ := hgroups tag inner members hnode
      have hinner : arena.Within root inner :=
        Within.self.member hfields (List.mem_map_of_mem hnode)
      rcases hlabel with rfl | hlabel
      · exact hinner
      · have hlt := lt_of_nodes hinside
        exact hinner.trans (ih (arena.setCount - inner) (by omega) hinside hlabel rfl)

/-- The labels of a set that is followed to are labels of the root. -/
theorem Within.nodes_subset (h : arena.Within root id) (hnodes : arena.nodes root = .ok nodes) :
    (id = root ∨ id ∈ labels nodes) ∧
      ∃ inside, arena.nodes id = .ok inside ∧ labels inside ⊆ labels nodes := by
  induction h with
  | self => exact ⟨Or.inl rfl, nodes, hnodes, List.Subset.refl _⟩
  | member _ fields_eq mem ih =>
      obtain ⟨_, inside, hinside, hsubset⟩ := ih
      obtain ⟨members, hnode, hmembers⟩ := group_mem_nodes hinside fields_eq mem
      refine ⟨Or.inr (hsubset (mem_labels.mpr ⟨_, _, _, hnode, Or.inl rfl⟩)), members, hmembers, ?_⟩
      intro label hlabel
      exact hsubset (mem_labels.mpr ⟨_, _, _, hnode, Or.inr hlabel⟩)

/-- From a root one can follow to the labels of its nodes, and nowhere else. -/
theorem within_iff (h : arena.nodes root = .ok nodes) :
    arena.Within root id ↔ id = root ∨ id ∈ labels nodes := by
  constructor
  · intro hwithin
    exact (hwithin.nodes_subset h).1
  · rintro (rfl | hid)
    · exact .self
    · exact within_of_mem_labels h hid

/-- Wherever one can follow to from a root in canonical form is in canonical form. -/
theorem Within.canonical (h : arena.Within root id)
    (hnodes : arena.nodes root = .ok (canonicalFields items)) :
    ∃ inside, arena.nodes id = .ok (canonicalFields inside) := by
  induction h with
  | self => exact ⟨items, hnodes⟩
  | member _ fields_eq mem ih =>
      obtain ⟨inside, hinside⟩ := ih
      obtain ⟨members, hnode, hmembers⟩ := group_mem_nodes hinside fields_eq mem
      obtain ⟨found, _, rfl⟩ := mem_canonicalFields hnode
      exact ⟨found, hmembers⟩

/-- The fields of a set in canonical form are sorted. -/
theorem Within.sorted (h : arena.Within root id)
    (hnodes : arena.nodes root = .ok (canonicalFields items)) {fields : List Field}
    (hfields : arena.fields id = .ok fields) : Sorted Field.tag fields := by
  obtain ⟨inside, hinside⟩ := h.canonical hnodes
  rw [(nodes_eq_ok_iff.mp hinside).1, map_stored_canonicalFields] at hfields
  cases hfields
  exact sortByTag_sorted Field.tag _

end Arena

end UnknownFields
