import UnknownFields.Node
import UnknownFields.Proofs.StableSort

/-!
Trees up to the order of fields with different tags. Two lists of fields are equivalent if they have
the same runs up to equivalence inside groups. Sorting every level gives a canonical form: lists are
equivalent if and only if their canonical forms are the same. The definition of equivalence does not
mention sorting.
-/

namespace UnknownFields

namespace Node

variable {ι κ : Type} (f : ι → κ)

@[simp]
theorem map_leaf (tag : Tag) (value : Scalar) : (leaf tag value).map f = leaf tag value := by
  rw [map]

@[simp]
theorem map_group (tag : Tag) (label : ι) (fields : List (Node ι)) :
    (group tag label fields).map f = group tag (f label) (fields.map (map f)) := by
  rw [map]

@[simp]
theorem tag_map (node : Node ι) : (node.map f).tag = node.tag := by
  cases node with
  | leaf => rw [map_leaf, tag, tag]
  | group => rw [map_group, tag, tag]

@[simp]
theorem erase_leaf (tag : Tag) (value : Scalar) :
    (leaf tag value : Node ι).erase = leaf tag value := map_leaf _ tag value

@[simp]
theorem erase_group (tag : Tag) (label : ι) (fields : List (Node ι)) :
    (group tag label fields).erase = group tag () (fields.map erase) := map_group _ tag label fields

/-- Other labels are forgotten with the old ones. -/
theorem erase_map (node : Node ι) : (node.map f).erase = node.erase := by
  fun_induction map f node with
  | case1 tag value => rw [erase_leaf, erase_leaf]
  | case2 tag label fields ih =>
      rw [erase_group, erase_group, List.map_map]
      congr 1
      exact List.map_congr_left ih

theorem map_erase_map (nodes : List (Node ι)) :
    (nodes.map (map f)).map erase = nodes.map erase := by
  rw [List.map_map]
  exact List.map_congr_left fun node _ => erase_map f node

@[simp]
theorem tag_erase (node : Node ι) : node.erase.tag = node.tag := tag_map _ node

def canonical : Node ι → Node ι
  | leaf tag value => leaf tag value
  | group tag label fields => group tag label (sortByTag Node.tag (fields.map canonical))

@[simp]
theorem tag_canonical (node : Node ι) : node.canonical.tag = node.tag := by
  cases node with
  | leaf => rw [canonical]
  | group =>
      rw [canonical]
      rfl

end Node

/-- Fields with every level sorted, the top level too. -/
def canonicalFields {ι : Type} (fields : List (Node ι)) : List (Node ι) :=
  sortByTag Node.tag (fields.map Node.canonical)

/-- Sorting inside the groups keeps the runs. -/
theorem withTag_map_canonical {ι : Type} (tag : Tag) (fields : List (Node ι)) :
    withTag Node.tag tag (fields.map Node.canonical) =
      (withTag Node.tag tag fields).map Node.canonical := by
  rw [withTag, List.filter_map]
  simp only [Function.comp_def, Node.tag_canonical]
  rfl

theorem sorted_canonicalFields {ι : Type} (fields : List (Node ι)) :
    Sorted Node.tag (canonicalFields fields) := sortByTag_sorted Node.tag _

/-- The fields with one tag stay in the order in which they came, each in its own canonical form. -/
theorem withTag_canonicalFields {ι : Type} (tag : Tag) (fields : List (Node ι)) :
    withTag Node.tag tag (canonicalFields fields) =
      (withTag Node.tag tag fields).map Node.canonical := by
  rw [canonicalFields, withTag_sortByTag, withTag_map_canonical]

/-- Nothing is lost and nothing is doubled. -/
theorem canonicalFields_perm {ι : Type} (fields : List (Node ι)) :
    (canonicalFields fields).Perm (fields.map Node.canonical) := sortByTag_perm Node.tag _

theorem length_canonicalFields {ι : Type} (fields : List (Node ι)) :
    (canonicalFields fields).length = fields.length := by
  rw [(canonicalFields_perm fields).length_eq, List.length_map]

/-- Labels do not matter for the order. -/
theorem Node.canonical_map {ι κ : Type} (f : ι → κ) (node : Node ι) :
    (node.map f).canonical = node.canonical.map f := by
  fun_induction canonical node with
  | case1 tag value => rw [map_leaf, canonical]
  | case2 tag label fields ih =>
      rw [map_group, canonical, map_group, map_sortByTag Node.tag (tag_map f), List.map_map,
        List.map_map]
      congr 2
      exact List.map_congr_left ih

theorem canonicalFields_map {ι κ : Type} (f : ι → κ) (fields : List (Node ι)) :
    canonicalFields (fields.map (Node.map f)) = (canonicalFields fields).map (Node.map f) := by
  rw [canonicalFields, canonicalFields, map_sortByTag Node.tag (Node.tag_map f), List.map_map,
    List.map_map]
  congr 1
  exact List.map_congr_left fun node _ => Node.canonical_map f node

theorem canonicalFields_erase {ι : Type} (fields : List (Node ι)) :
    canonicalFields (fields.map Node.erase) = (canonicalFields fields).map Node.erase :=
  canonicalFields_map _ fields

/-! ### Equivalence -/

/-- Two fields with one tag carry the same payload: the same scalar, or groups with the same number
of fields for each tag, which agree one by one. -/
inductive Node.Agrees : Node Unit → Node Unit → Prop where
  | leaf (tag : Tag) (value : Scalar) : Agrees (.leaf tag value) (.leaf tag value)
  | group (tag : Tag) {fields others : List (Node Unit)}
      (runs : ∀ key, List.Forall₂ Agrees (withTag Node.tag key fields)
        (withTag Node.tag key others)) :
      Agrees (.group tag () fields) (.group tag () others)

/-- For each tag there are as many fields on both sides, and they agree one by one. -/
def Equivalent (fields others : List (Node Unit)) : Prop :=
  ∀ tag, List.Forall₂ Node.Agrees (withTag Node.tag tag fields) (withTag Node.tag tag others)

/-- Where the fields of one list agree with others as their canonical forms say, so does the list. -/
theorem runs_iff_canonicalFields {fields others : List (Node Unit)}
    (h : ∀ field ∈ fields, ∀ other, field.Agrees other ↔ field.canonical = other.canonical) :
    Equivalent fields others ↔ canonicalFields fields = canonicalFields others := by
  rw [canonicalFields, canonicalFields, sortByTag_eq_iff]
  apply forall_congr'
  intro tag
  have hrun : ∀ field ∈ withTag Node.tag tag fields, ∀ other,
      field.Agrees other ↔ field.canonical = other.canonical :=
    fun field hfield => h field ((mem_withTag Node.tag).mp hfield).1
  rw [withTag_map_canonical, withTag_map_canonical]
  generalize withTag Node.tag tag fields = run at hrun
  generalize withTag Node.tag tag others = run'
  induction run generalizing run' with
  | nil => cases run' <;> simp
  | cons field run ih =>
      cases run' with
      | nil => simp
      | cons other run' =>
          have hrest := ih (fun field hfield => hrun field (List.mem_cons_of_mem _ hfield)) run'
          rw [List.forall₂_cons, List.map_cons, List.map_cons, List.cons.injEq,
            hrun field List.mem_cons_self other]
          exact and_congr_right fun _ => hrest

theorem Node.agrees_iff (node other : Node Unit) :
    node.Agrees other ↔ node.canonical = other.canonical := by
  fun_induction canonical node generalizing other with
  | case1 tag value =>
      constructor
      · intro h
        cases h
        rw [canonical]
      · intro h
        cases other with
        | leaf =>
            rw [canonical] at h
            cases h
            exact .leaf tag value
        | group =>
            rw [canonical] at h
            cases h
  | case2 tag label fields ih =>
      constructor
      · intro h
        cases h with
        | group _ runs =>
            rw [canonical]
            congr 1
            exact (runs_iff_canonicalFields ih).mp runs
      · intro h
        cases other with
        | leaf =>
            rw [canonical] at h
            cases h
        | group tag' label' others =>
            rw [canonical] at h
            injection h with htag _ hfields
            rw [htag]
            exact .group tag' ((runs_iff_canonicalFields ih).mpr hfields)

/-- **Two lists of fields are equivalent if and only if they have the same canonical form.** -/
theorem equivalent_iff (fields others : List (Node Unit)) :
    Equivalent fields others ↔ canonicalFields fields = canonicalFields others :=
  runs_iff_canonicalFields fun field _ other => field.agrees_iff other

end UnknownFields
