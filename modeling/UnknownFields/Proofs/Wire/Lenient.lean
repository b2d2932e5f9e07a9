import UnknownFields.Proofs.Wire.Forest

/-!
Reading in lenient mode, which meets no fault whatever the input is: what is missing is cut off, and
what is not expected is passed over. So every buffer holds something, malformed ones included.
-/

namespace UnknownFields

theorem Token.read_lenient (reader : Reader) :
    ∃ token after, Token.read .lenient reader = .ok (token, after) := by
  have hpayload : ∀ tag after, ∃ token later,
      Token.readPayload .lenient tag after = .ok (token, later) := by
    intro tag after
    unfold Token.readPayload
    split <;> exact ⟨_, _, rfl⟩
  exact hpayload _ _

namespace TokenStream

/-- The stream of a buffer is not broken off. -/
theorem ofReader_lenient {reader : Reader} (hrest : reader.rest ≠ []) :
    ∃ token after, after.remaining < reader.remaining ∧
      ofReader .lenient reader = next token after.position (ofReader .lenient after) := by
  obtain ⟨token, after, hread⟩ := Token.read_lenient reader
  refine ⟨token, after, Token.remaining_lt_of_read hrest hread, ?_⟩
  rw [ofReader, dif_neg hrest]
  split
  · next fault hfault =>
      rw [hread] at hfault
      cases hfault
  · next token' after' hread' =>
      rw [hread] at hread'
      cases hread'
      rfl

theorem forest_lenient (reader : Reader) (label : Nat) (fields : List (Node Nat))
    (opened : List Opened) :
    ∃ found, forest .lenient (ofReader .lenient reader) label fields opened = .ok found := by
  induction hcount : reader.remaining using Nat.strong_induction_on
    generalizing reader label fields opened with
  | _ count ih =>
      by_cases hrest : reader.rest = []
      · refine ⟨(Opened.closeAll fields opened, reader.position), ?_⟩
        rw [ofReader, dif_pos hrest, forest]
      · obtain ⟨token, after, hlt, hstream⟩ := ofReader_lenient hrest
        have hafter := fun label fields opened =>
          ih after.remaining (hcount ▸ hlt) after label fields opened rfl
        rw [hstream]
        cases token with
        | field tag value => exact hafter _ _ _
        | opening tag => exact hafter _ _ _
        | closing tag =>
            rw [forest_closing, Mode.lenient_expect, ok_bind]
            cases opened with
            | nil => exact ⟨_, rfl⟩
            | cons group outer => exact hafter _ _ _
        | unknown tag => exact ⟨_, rfl⟩

/-- **Every buffer holds something** in lenient mode. -/
theorem contents_lenient (input : Bytes) (label : Nat) :
    ∃ found, contents .lenient input label = .ok found := by
  obtain ⟨found, hforest⟩ := forest_lenient { rest := input } label [] []
  refine ⟨found, ?_⟩
  rw [contents, ofBytes, hforest, ok_bind, Mode.lenient_expect]
  rfl

end TokenStream

end UnknownFields
