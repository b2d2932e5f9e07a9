import UnknownFields.MergeBuffer
import UnknownFields.Proofs.Budget

/-!
Stable sorting by tag, as a matter of lists. A sorted list is determined by its runs, the sublists
of the items with one tag, and a stable sort is the one that leaves every run as it was. The merge
buffer computes this sort whenever it has room for the list.
-/

namespace UnknownFields

namespace Tag

theorem le_iff {left right : Tag} : left ≤ right ↔ left.number.toNat ≤ right.number.toNat :=
  UInt32.le_iff_toNat_le

theorem le_trans {first second third : Tag} (h : first ≤ second) (h' : second ≤ third) :
    first ≤ third := by
  rw [le_iff] at *
  omega

theorem le_of_not_le {left right : Tag} (h : ¬left ≤ right) : right ≤ left := by
  rw [le_iff] at *
  omega

theorem le_antisymm {left right : Tag} (h : left ≤ right) (h' : right ≤ left) : left = right := by
  rw [le_iff] at *
  cases left
  cases right
  rw [mk.injEq, ← UInt32.toNat_inj]
  exact Nat.le_antisymm h h'

@[simp]
theorem le_refl (tag : Tag) : tag ≤ tag := le_iff.mpr (Nat.le_refl _)

end Tag

section Sorting

variable {α β : Type} (key : α → Tag)

def inOrder (left right : α) : Bool := key left ≤ key right

/-- The items in the order of their tags, items with one tag in the order in which they came. -/
def sortByTag (items : List α) : List α := items.mergeSort (inOrder key)

def withTag (tag : Tag) (items : List α) : List α := items.filter (key · = tag)

def Sorted (items : List α) : Prop := items.Pairwise (key · ≤ key ·)

theorem inOrder_iff (left right : α) : inOrder key left right = true ↔ key left ≤ key right := by
  rw [inOrder, decide_eq_true_iff]

theorem inOrder_trans (first second third : α) (h : inOrder key first second = true)
    (h' : inOrder key second third = true) : inOrder key first third = true := by
  rw [inOrder_iff] at *
  exact Tag.le_trans h h'

theorem inOrder_total (left right : α) : (inOrder key left right || inOrder key right left) = true := by
  rw [Bool.or_eq_true, inOrder_iff, inOrder_iff]
  exact (em (key left ≤ key right)).imp_right Tag.le_of_not_le

theorem sorted_iff (items : List α) :
    Sorted key items ↔ items.Pairwise (inOrder key · · = true) := by
  simp only [Sorted, inOrder_iff]

theorem sortByTag_sorted (items : List α) : Sorted key (sortByTag key items) :=
  (sorted_iff key _).mpr
    (List.pairwise_mergeSort (inOrder_trans key) (inOrder_total key) items)

theorem sortByTag_perm (items : List α) : (sortByTag key items).Perm items :=
  List.mergeSort_perm items _

theorem sortByTag_of_sorted {items : List α} (h : Sorted key items) : sortByTag key items = items :=
  List.mergeSort_of_pairwise ((sorted_iff key items).mp h)

theorem mem_withTag {tag : Tag} {items : List α} {item : α} :
    item ∈ withTag key tag items ↔ item ∈ items ∧ key item = tag := by
  simp [withTag]

theorem sorted_withTag (tag : Tag) (items : List α) : Sorted key (withTag key tag items) := by
  apply List.pairwise_of_forall_mem_list
  intro left hleft right hright
  rw [((mem_withTag key).mp hleft).2, ((mem_withTag key).mp hright).2]
  exact Tag.le_refl tag

/-- Sorting is stable: it leaves every run as it was. -/
theorem withTag_sortByTag (tag : Tag) (items : List α) :
    withTag key tag (sortByTag key items) = withTag key tag items := by
  have hkept : (withTag key tag items).Sublist (sortByTag key items) :=
    List.sublist_mergeSort (inOrder_trans key) (inOrder_total key)
      ((sorted_iff key _).mp (sorted_withTag key tag items)) List.filter_sublist
  have hrun : (withTag key tag items).Sublist (withTag key tag (sortByTag key items)) := by
    have := hkept.filter (key · = tag)
    simpa only [withTag, List.filter_filter, Bool.and_self] using this
  exact (hrun.eq_of_length ((sortByTag_perm key items).filter _).length_eq.symm).symm

/-- A sorted list is determined by its runs. -/
theorem eq_of_withTag_eq {items others : List α} (hitems : Sorted key items)
    (hothers : Sorted key others) (h : ∀ tag, withTag key tag items = withTag key tag others) :
    items = others := by
  induction items generalizing others with
  | nil =>
      cases others with
      | nil => rfl
      | cons other others =>
          have := h (key other)
          simp [withTag] at this
  | cons item items ih =>
      cases others with
      | nil =>
          have := h (key item)
          simp [withTag] at this
      | cons other others =>
          have hle : ∀ found ∈ other :: others, key other ≤ key found := by
            rintro found (_ | ⟨_, hfound⟩)
            · exact Tag.le_refl _
            · exact List.rel_of_pairwise_cons hothers hfound
          have hge : ∀ found ∈ item :: items, key item ≤ key found := by
            rintro found (_ | ⟨_, hfound⟩)
            · exact Tag.le_refl _
            · exact List.rel_of_pairwise_cons hitems hfound
          have hfound : item ∈ withTag key (key item) (other :: others) := by
            rw [← h (key item)]
            simp [withTag]
          have hfound' : other ∈ withTag key (key other) (item :: items) := by
            rw [h (key other)]
            simp [withTag]
          have hkey : key item = key other :=
            Tag.le_antisymm (hge _ ((mem_withTag key).mp hfound').1)
              (hle _ ((mem_withTag key).mp hfound).1)
          have hhead := h (key item)
          simp only [withTag, List.filter_cons, hkey, decide_true, if_true, List.cons.injEq] at hhead
          rw [hhead.1]
          congr 1
          refine ih (List.Pairwise.of_cons hitems) (List.Pairwise.of_cons hothers) fun tag => ?_
          by_cases htag : key other = tag
          · rw [← htag]
            exact hhead.2
          · have := h tag
            simpa only [withTag, List.filter_cons, hkey, htag, decide_false, Bool.false_eq_true,
              if_false] using this

/-- Two lists have the same sorted form if and only if they have the same runs. -/
theorem sortByTag_eq_iff (items others : List α) :
    sortByTag key items = sortByTag key others ↔
      ∀ tag, withTag key tag items = withTag key tag others := by
  constructor
  · intro h tag
    rw [← withTag_sortByTag, h, withTag_sortByTag]
  · intro h
    refine eq_of_withTag_eq key (sortByTag_sorted key items) (sortByTag_sorted key others) ?_
    intro tag
    rw [withTag_sortByTag, withTag_sortByTag, h]

/-- A map that keeps tags can be applied before sorting or after it. -/
theorem map_sortByTag {other : β → Tag} {f : α → β} (h : ∀ item, other (f item) = key item)
    (items : List α) : (sortByTag key items).map f = sortByTag other (items.map f) := by
  apply List.map_mergeSort
  intro left _ right _
  simp only [inOrder, h]

end Sorting

namespace MergeBuffer

theorem merge_eq (left right : List Field) :
    merge left right = left.merge right (inOrder Field.tag) := by
  fun_induction merge left right with
  | case1 => simp
  | case2 => simp
  | case3 first left second right h ih =>
      rw [List.cons_merge_cons_pos _ _ _ ((inOrder_iff _ _ _).mpr h), ih]
  | case4 first left second right h ih =>
      rw [List.cons_merge_cons_neg _ _ _ (by rwa [inOrder_iff]), ih]

theorem merge_sorted {left right : List Field} (hleft : Sorted Field.tag left)
    (hright : Sorted Field.tag right) : Sorted Field.tag (merge left right) := by
  rw [sorted_iff] at *
  rw [merge_eq]
  exact List.pairwise_merge (inOrder_trans _) (inOrder_total _) left right hleft hright

/-- A merge puts the run of the left list in front of that of the right one. -/
theorem withTag_merge {left right : List Field} (hleft : Sorted Field.tag left) (tag : Tag) :
    withTag Field.tag tag (merge left right) =
      withTag Field.tag tag left ++ withTag Field.tag tag right := by
  fun_induction merge left right with
  | case1 => rfl
  | case2 => simp [withTag]
  | case3 first left second right _ ih =>
      have := ih (List.Pairwise.of_cons hleft)
      by_cases htag : first.tag = tag <;> simp_all [withTag, List.filter_cons]
  | case4 first left second right h ih =>
      have hrest := ih hleft
      by_cases htag : second.tag = tag
      · have hnone : withTag Field.tag tag (first :: left) = [] := by
          apply List.filter_eq_nil_iff.mpr
          intro found hfound hequal
          have hle : first.tag ≤ found.tag := by
            rcases List.mem_cons.mp hfound with rfl | hfound
            · exact Tag.le_refl _
            · exact List.rel_of_pairwise_cons hleft hfound
          rw [of_decide_eq_true hequal, ← htag] at hle
          exact h hle
        rw [hnone, List.nil_append] at hrest ⊢
        simp only [withTag, List.filter_cons, htag, decide_true, if_true] at hrest ⊢
        rw [hrest]
      · simp only [withTag, List.filter_cons, htag, decide_false, Bool.false_eq_true,
          if_false] at hrest ⊢
        exact hrest

/-- Both halves of a list sorted and merged are the list sorted. -/
theorem merge_halves (count : Nat) (run : List Field) :
    merge (sortByTag Field.tag (run.take count)) (sortByTag Field.tag (run.drop count)) =
      sortByTag Field.tag run := by
  have hleft := sortByTag_sorted Field.tag (run.take count)
  have hright := sortByTag_sorted Field.tag (run.drop count)
  refine eq_of_withTag_eq Field.tag (merge_sorted hleft hright) (sortByTag_sorted _ run) ?_
  intro tag
  rw [withTag_merge hleft, withTag_sortByTag, withTag_sortByTag, withTag_sortByTag, withTag, withTag,
    ← List.filter_append, List.take_append_drop]
  rfl

/-- A buffer with room for a run sorts it. What the merges leave behind fits into the buffer. -/
theorem mergeSort_eq {room : Nat} {held run : List Field} (hrun : run.length ≤ room)
    (hheld : held.length ≤ room) :
    ∃ left, mergeSort ⟨room, held⟩ run = .ok (sortByTag Field.tag run, ⟨room, left⟩) ∧
      left.length ≤ room := by
  induction hlength : run.length using Nat.strong_induction_on generalizing run held with
  | _ length ih =>
      subst hlength
      rw [mergeSort]
      by_cases hshort : run.length ≤ 1
      · have hsorted : Sorted Field.tag run := by
          match run, hshort with
          | [], _ => exact List.Pairwise.nil
          | [field], _ => exact List.pairwise_singleton _ field
        refine ⟨held, ?_, hheld⟩
        rw [dif_pos hshort, sortByTag_of_sorted _ hsorted]
      · have htake : (run.take (run.length / 2)).length < run.length := by
          rw [List.length_take]
          omega
        have hdrop : (run.drop (run.length / 2)).length < run.length := by
          rw [List.length_drop]
          omega
        obtain ⟨held, hfirst, hheld⟩ := ih _ htake (by omega) hheld rfl
        obtain ⟨held, hsecond, hheld⟩ := ih _ hdrop (by omega) hheld rfl
        have hload : (sortByTag Field.tag (run.take (run.length / 2)) ++
            sortByTag Field.tag (run.drop (run.length / 2))).length ≤ room := by
          rw [List.length_append, (sortByTag_perm _ _).length_eq, (sortByTag_perm _ _).length_eq,
            ← List.length_append, List.take_append_drop]
          exact hrun
        refine ⟨_, ?_, hload⟩
        simp only [dif_neg hshort, hfirst, hsecond, ok_bind, load, if_pos hload, merge_halves,
          pure_eq_ok]

/-! ### Room -/

theorem doubled_spec (count : Nat) {room : Nat} (h : 0 < room) :
    count ≤ doubled count room ∧ room ≤ doubled count room ∧
      (doubled count room = room ∨ doubled count room < 2 * count) := by
  fun_induction doubled count room with
  | case1 room hroom _ ih =>
      obtain ⟨hcount, hle, hlt⟩ := ih (by omega)
      exact ⟨hcount, by omega, by omega⟩
  | case2 room hroom => exact ⟨by omega, Nat.le_refl _, Or.inl rfl⟩

theorem minRoom_pos (room : Nat) : 0 < max minRoom room :=
  Nat.lt_of_lt_of_le (by decide) (Nat.le_max_left minRoom room)

theorem le_grownRoom (count room : Nat) : count ≤ grownRoom count room := by
  rw [grownRoom]
  split_ifs with h
  · exact h
  · exact (doubled_spec count (minRoom_pos room)).1

theorem room_le_grownRoom (count room : Nat) : room ≤ grownRoom count room := by
  rw [grownRoom]
  split_ifs
  · exact Nat.le_refl _
  · exact (Nat.le_max_right _ _).trans (doubled_spec count (minRoom_pos room)).2.1

/-- A buffer is never more than twice as large as it has to be, or has its first size. -/
theorem grownRoom_le (count room : Nat) {bound : Nat} (hcount : 2 * count ≤ bound)
    (hmin : minRoom ≤ bound) : grownRoom count room ≤ max room bound := by
  rw [grownRoom]
  split_ifs with hroom
  · exact Nat.le_max_left _ _
  · obtain ⟨_, _, hdoubled⟩ := doubled_spec count (minRoom_pos room)
    omega

/-- A sort that has enough room succeeds and pays nothing, under any budget. -/
theorem sort_of_room {buffer : MergeBuffer} (hheld : buffer.held.length ≤ buffer.room)
    (budget : Budget) {fields : List Field} (hroom : fields.length ≤ buffer.room) :
    ∃ left : List Field, left.length ≤ buffer.room ∧
      sort fields ⟨buffer, budget⟩ =
        .ok (sortByTag Field.tag fields) ⟨⟨buffer.room, left⟩, budget⟩ := by
  obtain ⟨left, hsort, hleft⟩ := mergeSort_eq hroom hheld
  refine ⟨left, hleft, ?_⟩
  simp only [sort, reserve, bind, EStateM.bind, if_pos hroom, hsort]

/-- A sort that lacks room pays for what the buffer gains, and then it succeeds. -/
theorem sort_of_short {buffer : MergeBuffer} (budget : Budget) {fields : List Field}
    (hshort : ¬fields.length ≤ buffer.room) :
    ∃ left : List Field, left.length ≤ grownRoom fields.length buffer.room ∧
      sort fields ⟨buffer, budget⟩ =
        Metered.pay ⟨buffer, budget⟩
          (Arena.slotBytes * (grownRoom fields.length buffer.room - buffer.room))
          ⟨grownRoom fields.length buffer.room, left⟩ (sortByTag Field.tag fields) := by
  obtain ⟨room, held⟩ := buffer
  obtain ⟨left, hsort, hleft⟩ : ∃ left, mergeSort ⟨grownRoom fields.length room, []⟩ fields =
        .ok (sortByTag Field.tag fields, ⟨grownRoom fields.length room, left⟩) ∧
      left.length ≤ grownRoom fields.length room :=
    mergeSort_eq (le_grownRoom fields.length room) (Nat.zero_le _)
  refine ⟨left, hleft, ?_⟩
  simp only [sort, reserve, bind, EStateM.bind, if_neg hshort, Metered.pay]
  cases budget.charge? (Arena.slotBytes * (grownRoom fields.length room - room)) with
  | none => rfl
  | some budget => simp only [hsort]

/-- Where the budget has been kept, a sort pays for the room that the buffer gains, which may be
none, and then it succeeds. -/
theorem sort_eq {buffer : MergeBuffer} {budget : Budget} (hheld : buffer.held.length ≤ buffer.room)
    (hbudget : budget.Admits budget.used) (fields : List Field) :
    ∃ left : List Field, left.length ≤ grownRoom fields.length buffer.room ∧
      sort fields ⟨buffer, budget⟩ =
        Metered.pay ⟨buffer, budget⟩
          (Arena.slotBytes * (grownRoom fields.length buffer.room - buffer.room))
          ⟨grownRoom fields.length buffer.room, left⟩ (sortByTag Field.tag fields) := by
  by_cases hroom : fields.length ≤ buffer.room
  · have hgrown : grownRoom fields.length buffer.room = buffer.room := if_pos hroom
    obtain ⟨left, hleft, hsort⟩ := sort_of_room hheld budget hroom
    refine ⟨left, by rwa [hgrown], ?_⟩
    rw [hgrown, Nat.sub_self, Nat.mul_zero, Metered.pay_zero hbudget]
    exact hsort
  · exact sort_of_short budget hroom

end MergeBuffer

end UnknownFields
