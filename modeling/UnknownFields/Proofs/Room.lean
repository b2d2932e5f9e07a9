import UnknownFields.Proofs.StableSort

/-!
The room of a merge buffer. It is none at first and a power of two later, and what it grows to
depends on the lists that have been sorted and not on their order: to make room for some fields is
to take the larger one of the room that is there and the room that a new buffer would get for them.
-/

namespace UnknownFields.MergeBuffer

def Rounded (room : Nat) : Prop := room = 0 ∨ ∃ steps, room = minRoom * 2 ^ steps

structure Sound (buffer : MergeBuffer) : Prop where
  held_le : buffer.held.length ≤ buffer.room
  rounded : Rounded buffer.room

theorem sound_empty : Sound {} := ⟨Nat.le_refl _, Or.inl rfl⟩

variable {count room steps : Nat}

theorem doubled_of_le (h : count ≤ room) : doubled count room = room := by
  rw [doubled, dif_neg]
  omega

theorem doubled_of_lt (hroom : 0 < room) (h : room < count) :
    doubled count room = doubled count (2 * room) := by
  rw [doubled, dif_pos ⟨hroom, h⟩]

theorem two_mul_minRoom (steps : Nat) : 2 * (minRoom * 2 ^ steps) = minRoom * 2 ^ (steps + 1) := by
  rw [pow_succ]
  ring

theorem minRoom_mul_pos (steps : Nat) : 0 < minRoom * 2 ^ steps :=
  Nat.mul_pos (by decide) (Nat.two_pow_pos steps)

/-- Doubling passes through every room that is too small. -/
theorem doubled_minRoom (h : minRoom * 2 ^ steps < count) :
    doubled count minRoom = doubled count (minRoom * 2 ^ steps) := by
  induction steps with
  | zero => rw [pow_zero, Nat.mul_one]
  | succ steps ih =>
      rw [← two_mul_minRoom] at h ⊢
      have hlt : minRoom * 2 ^ steps < count := by omega
      rw [ih hlt, doubled_of_lt (minRoom_mul_pos steps) hlt]

/-- Doubling ends at a power of two, and behind a room that was too small if it has gone on. -/
theorem doubled_eq (count steps : Nat) :
    ∃ more, doubled count (minRoom * 2 ^ steps) = minRoom * 2 ^ (steps + more) ∧
      (more = 0 ∨ minRoom * 2 ^ (steps + more) < 2 * count) := by
  induction hgap : count - minRoom * 2 ^ steps using Nat.strong_induction_on generalizing steps with
  | _ gap ih =>
      have hpos := minRoom_mul_pos steps
      by_cases hroom : count ≤ minRoom * 2 ^ steps
      · exact ⟨0, doubled_of_le hroom, Or.inl rfl⟩
      · have hlt := not_le.mp hroom
        have hnext := two_mul_minRoom steps
        obtain ⟨more, hdoubled, hmore⟩ := ih (count - minRoom * 2 ^ (steps + 1)) (by omega) _ rfl
        refine ⟨more + 1, ?_, Or.inr ?_⟩
        · rw [doubled_of_lt hpos hlt, hnext, hdoubled, Nat.add_assoc, Nat.add_comm 1]
        · rw [Nat.add_comm more, ← Nat.add_assoc]
          rcases hmore with rfl | hmore
          · rw [Nat.add_zero]
            omega
          · exact hmore

theorem doubled_minRoom_le (h : count ≤ minRoom * 2 ^ steps) :
    doubled count minRoom ≤ minRoom * 2 ^ steps := by
  obtain ⟨more, hdoubled, hmore⟩ := doubled_eq count 0
  rw [pow_zero, Nat.mul_one, Nat.zero_add] at *
  rw [hdoubled]
  apply Nat.mul_le_mul_left
  apply Nat.pow_le_pow_right Nat.two_pos
  rcases hmore with rfl | hmore
  · exact Nat.zero_le _
  · have hlt : minRoom * 2 ^ more < minRoom * 2 ^ (steps + 1) := by
      rw [← two_mul_minRoom]
      omega
    have := (Nat.pow_lt_pow_iff_right Nat.one_lt_two).mp (Nat.lt_of_mul_lt_mul_left hlt)
    omega

theorem Rounded.grownRoom (h : Rounded room) (count : Nat) : Rounded (grownRoom count room) := by
  rw [MergeBuffer.grownRoom]
  split_ifs
  · exact h
  · obtain ⟨steps, hsteps⟩ : ∃ steps, max minRoom room = minRoom * 2 ^ steps := by
      rcases h with rfl | ⟨steps, rfl⟩
      · exact ⟨0, rfl⟩
      · exact ⟨steps, Nat.max_eq_right (Nat.le_mul_of_pos_right _ (Nat.two_pow_pos steps))⟩
    obtain ⟨more, hdoubled, _⟩ := doubled_eq count steps
    exact Or.inr ⟨steps + more, hsteps ▸ hdoubled⟩

/-- **Room for some fields** is the larger one of the room that is there and the room that a new
buffer would get for them. -/
theorem grownRoom_eq_max (h : Rounded room) (count : Nat) :
    grownRoom count room = max room (grownRoom count 0) := by
  by_cases hcount : count ≤ 0
  · rw [grownRoom, grownRoom, if_pos hcount, if_pos (by omega), Nat.max_eq_left (Nat.zero_le _)]
  · have hfresh : grownRoom count 0 = doubled count minRoom := if_neg hcount
    rw [hfresh]
    rcases h with rfl | ⟨steps, rfl⟩
    · rw [hfresh, Nat.max_eq_right (Nat.zero_le _)]
    · rw [grownRoom]
      have hmin : minRoom ≤ minRoom * 2 ^ steps :=
        Nat.le_mul_of_pos_right _ (Nat.two_pow_pos steps)
      split_ifs with hroom
      · exact (Nat.max_eq_left (doubled_minRoom_le hroom)).symm
      · have hspec := doubled_spec count (minRoom_mul_pos steps)
        rw [Nat.max_eq_right hmin, doubled_minRoom (not_le.mp hroom)]
        exact (Nat.max_eq_right hspec.2.1).symm

/-- The larger one of two rooms grows to the larger one of what both grow to. -/
theorem grownRoom_max {other : Nat} (h : Rounded room) (h' : Rounded other) (count : Nat) :
    grownRoom count (max room other) = max room (grownRoom count other) := by
  have hmax : Rounded (max room other) := by
    rcases Nat.le_total room other with hle | hle
    · rwa [Nat.max_eq_right hle]
    · rwa [Nat.max_eq_left hle]
  rw [grownRoom_eq_max hmax, grownRoom_eq_max h', Nat.max_assoc]

/-! ### The least room -/

/-- The rooms that doubling passes through and that suffice for some fields. -/
def fitting (count : Nat) : Set Nat := {room | (∃ steps, room = minRoom * 2 ^ steps) ∧ count ≤ room}

/-- A new buffer gets the least room that suffices. -/
theorem grownRoom_isLeast (h : 0 < count) : IsLeast (fitting count) (grownRoom count 0) := by
  have hfresh : grownRoom count 0 = doubled count minRoom := if_neg (by omega)
  rw [hfresh]
  constructor
  · obtain ⟨more, hdoubled, _⟩ := doubled_eq count 0
    rw [pow_zero, Nat.mul_one, Nat.zero_add] at hdoubled
    exact ⟨⟨more, hdoubled⟩, (doubled_spec count (by decide)).1⟩
  · rintro room ⟨⟨steps, rfl⟩, hcount⟩
    exact doubled_minRoom_le hcount

/-- A buffer that has grown has the larger one of its room before and the least that suffices. -/
theorem exists_isLeast_grownRoom (hroom : Rounded room) (h : 0 < count) :
    ∃ least, IsLeast (fitting count) least ∧ grownRoom count room = max room least :=
  ⟨_, grownRoom_isLeast h, grownRoom_eq_max hroom count⟩

theorem grownRoom_mono {more : Nat} (h : count ≤ more) : grownRoom count 0 ≤ grownRoom more 0 := by
  rcases Nat.eq_zero_or_pos count with rfl | hcount
  · exact Nat.zero_le _
  · obtain ⟨hsteps, hmore⟩ := (grownRoom_isLeast (Nat.lt_of_lt_of_le hcount h)).1
    exact (grownRoom_isLeast hcount).2 ⟨hsteps, h.trans hmore⟩

/-- To make room for some fields and then for others is to make room for the longer list. -/
theorem grownRoom_grownRoom (h : Rounded room) (count more : Nat) :
    grownRoom more (grownRoom count room) = grownRoom (max count more) room := by
  rw [grownRoom_eq_max (h.grownRoom count), grownRoom_eq_max h, grownRoom_eq_max h, Nat.max_assoc]
  congr 1
  rcases Nat.le_total count more with hle | hle
  · rw [Nat.max_eq_right hle, Nat.max_eq_right (grownRoom_mono hle)]
  · rw [Nat.max_eq_left hle, Nat.max_eq_left (grownRoom_mono hle)]

end UnknownFields.MergeBuffer
