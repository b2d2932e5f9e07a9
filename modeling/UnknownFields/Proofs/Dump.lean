import UnknownFields.Proofs.Json
import UnknownFields.Proofs.Together
import UnknownFields.Report

/-!
The document of a tree as a description of it. A document has every tag and every payload, under a key
that tells the kinds of payloads apart, and it has nothing of the arena: so two documents are the same
exactly if the trees agree and what is said about the inputs is the same, and this can be read off
their texts too.
-/

namespace UnknownFields

/-! ### Payloads -/

theorem Hex.encodeChars_inj {bytes others : Bytes} (h : encodeChars bytes = encodeChars others) :
    bytes = others := by
  induction bytes generalizing others with
  | nil =>
      cases others with
      | nil => rfl
      | cons => cases h
  | cons byte bytes ih =>
      cases others with
      | nil => cases h
      | cons other others =>
          injection h with hhigh h
          injection h with hlow hrest
          have hbyte := byte.toNat_lt
          have hother := other.toNat_lt
          have hhigh := congrArg digitValue hhigh
          have hlow := congrArg digitValue hlow
          rw [digitValue_digitChar (by omega), digitValue_digitChar (by omega)] at hhigh hlow
          have hsame : byte = other := by
            rw [← UInt8.toNat_inj]
            omega
          rw [hsame, ih hrest]

theorem Hex.encode_injective : Function.Injective encode := fun _ _ h =>
  encodeChars_inj (String.ofList_injective h)

theorem Scalar.toJson_injective : Function.Injective toJson := by
  intro value other h
  -- Payloads of different kinds have different keys.
  cases value <;> cases other <;>
    simp only [toJson, Json.object.injEq, List.cons.injEq, Prod.mk.injEq, Json.number.injEq,
      Json.text.injEq, UInt64.toNat_inj, UInt32.toNat_inj, String.reduceEq, false_and, true_and,
      and_true] at h
  · rw [h]
  · rw [h]
  · rw [h]
  · rw [Hex.encode_injective h]

namespace Node

theorem entry_inj {tag other : Tag} {value value' : Json} (h : entry tag value = entry other value') :
    tag = other ∧ value = value' := by
  obtain ⟨number⟩ := tag
  obtain ⟨number'⟩ := other
  simp only [entry, Json.object.injEq, List.cons.injEq, Prod.mk.injEq, Json.number.injEq,
    UInt32.toNat_inj, true_and, and_true] at h
  obtain ⟨-, -, rfl, hvalue⟩ := h
  exact ⟨rfl, hvalue⟩

/-- The key of a group is that of no scalar. -/
theorem toJson_scalar_ne (value : Scalar) (fields : Json) :
    value.toJson ≠ .object [("group", fields)] := by
  cases value <;> simp [Scalar.toJson]

variable {ι κ : Type}

theorem map_erase_of_map_toJson {fields : List (Node ι)} {others : List (Node κ)}
    (hfields : ∀ field ∈ fields, ∀ other : Node κ, field.toJson = other.toJson →
      field.erase = other.erase)
    (h : fields.map toJson = others.map toJson) : fields.map erase = others.map erase := by
  induction fields generalizing others with
  | nil =>
      cases others with
      | nil => rfl
      | cons => cases h
  | cons field fields ih =>
      cases others with
      | nil => cases h
      | cons other others =>
          rw [List.map_cons, List.map_cons, List.cons.injEq] at h
          rw [List.map_cons, List.map_cons, hfields field List.mem_cons_self other h.1,
            ih (fun field hfield => hfields field (List.mem_cons_of_mem _ hfield)) h.2]

theorem erase_eq_of_toJson (node : Node ι) (other : Node κ) (h : node.toJson = other.toJson) :
    node.erase = other.erase := by
  fun_induction toJson node generalizing other with
  | case1 tag value =>
      cases other with
      | leaf tag' value' =>
          rw [toJson] at h
          obtain ⟨rfl, hvalue⟩ := entry_inj h
          rw [Scalar.toJson_injective hvalue, erase_leaf, erase_leaf]
      | group tag' label fields =>
          rw [toJson] at h
          exact absurd (entry_inj h).2 (toJson_scalar_ne value _)
  | case2 tag label fields ih =>
      cases other with
      | leaf tag' value' =>
          rw [toJson] at h
          exact absurd (entry_inj h).2.symm (toJson_scalar_ne value' _)
      | group tag' label' others =>
          rw [toJson] at h
          obtain ⟨rfl, hvalue⟩ := entry_inj h
          simp only [Json.object.injEq, List.cons.injEq, Prod.mk.injEq, Json.list.injEq, true_and,
            and_true] at hvalue
          rw [erase_group, erase_group, map_erase_of_map_toJson ih hvalue]

theorem toJson_erase (node : Node ι) : node.erase.toJson = node.toJson := by
  fun_induction toJson node with
  | case1 tag value => rw [erase_leaf, toJson]
  | case2 tag label fields ih =>
      have hfields : (fields.map erase).map toJson = fields.map toJson := by
        rw [List.map_map]
        exact List.map_congr_left ih
      rw [erase_group, toJson, hfields]

theorem map_toJson_erase (fields : List (Node ι)) :
    (fields.map erase).map toJson = fields.map toJson := by
  rw [List.map_map]
  exact List.map_congr_left fun field _ => toJson_erase field

/-- Labels are not written, and everything else is. -/
theorem map_toJson_eq_iff (fields : List (Node ι)) (others : List (Node κ)) :
    fields.map toJson = others.map toJson ↔ fields.map erase = others.map erase := by
  constructor
  · exact map_erase_of_map_toJson fun field _ => erase_eq_of_toJson field
  · intro h
    rw [← map_toJson_erase fields, h, map_toJson_erase others]

end Node

namespace Report

theorem Input.toJson_injective : Function.Injective Input.toJson := by
  rintro ⟨path, length, sha256⟩ ⟨path', length', sha256'⟩ h
  simpa [Input.toJson] using h

theorem dump_eq_iff {ι κ : Type} (input other : Input) (fields : List (Node ι))
    (others : List (Node κ)) :
    dump input fields = dump other others ↔
      input = other ∧ fields.map Node.erase = others.map Node.erase := by
  rw [← Node.map_toJson_eq_iff, ← Input.toJson_injective.eq_iff]
  simp [dump]

end Report

/-- **The document of a tree loses nothing.** Take two trees that parses give, and what is to be said
about their inputs. The documents are the same exactly if the inputs are described in the same way and
the trees agree, and so are their texts in each of the layouts. -/
theorem dump_eq_iff_agrees {mode mode' : Mode} {limits limits' : Limits} {left right : Bytes}
    {tree other : FieldTree} (hparse : FieldTree.parse mode limits left = .ok tree)
    (hparse' : FieldTree.parse mode' limits' right = .ok other) (input input' : Report.Input) :
    ∃ nodes nodes' agree, tree.nodes = .ok nodes ∧ other.nodes = .ok nodes' ∧
      tree.agrees other = .ok agree ∧
      (Report.dump input nodes = Report.dump input' nodes' ↔ input = input' ∧ agree = true) ∧
      ∀ layout, (Report.dump input nodes).render layout = (Report.dump input' nodes').render layout ↔
        input = input' ∧ agree = true := by
  obtain ⟨nodes, nodes', hnodes, hnodes', agree, hagree, hiff⟩ :=
    FieldTree.agrees_of_parse hparse hparse'
  have hdump : Report.dump input nodes = Report.dump input' nodes' ↔
      input = input' ∧ agree = true := by
    rw [Report.dump_eq_iff, hiff]
  refine ⟨nodes, nodes', agree, hnodes, hnodes', hagree, hdump, fun layout => ?_⟩
  rw [(Json.render_injective layout).eq_iff, hdump]

set_option maxRecDepth 2000 in
/-- A field and a group in two orders, in arenas where their sets lie in different places. -/
theorem dump_eq_iff_agrees_other_places : ∃ tree other nodes nodes',
    FieldTree.parse .lenient {} [0x10, 0x02, 0x0b, 0x08, 0x01, 0x0c] = .ok tree ∧
    FieldTree.parse .lenient { maxDepth := 2 } [0x0b, 0x08, 0x81, 0x00, 0x0c, 0x10, 0x02] =
      .ok other ∧
    tree.nodes = .ok nodes ∧ other.nodes = .ok nodes' ∧ tree ≠ other ∧
    (∀ layout, (Report.dump ⟨"a\x01", 6, "00"⟩ nodes).render layout =
      (Report.dump ⟨"a\x01", 6, "00"⟩ nodes').render layout) ∧
    ∀ layout, (Report.dump ⟨"a\x01", 6, "00"⟩ nodes).render layout ≠
      (Report.dump ⟨"a\\u0001", 6, "00"⟩ nodes').render layout := by
  obtain ⟨tree, other, hparse, hparse', hagree, hne⟩ : ∃ tree other,
      FieldTree.parse .lenient {} [0x10, 0x02, 0x0b, 0x08, 0x01, 0x0c] = .ok tree ∧
      FieldTree.parse .lenient { maxDepth := 2 } [0x0b, 0x08, 0x81, 0x00, 0x0c, 0x10, 0x02] =
        .ok other ∧
      tree.agrees other = .ok true ∧ tree ≠ other :=
    ⟨⟨⟨#[⟨⟨11⟩, .group 1⟩, .varint 16 2, .vacant, .vacant,
          .varint 8 1, .vacant, .vacant, .vacant], #[⟨0, 2, 4⟩, ⟨4, 1, 4⟩], 304⟩, 0⟩,
      ⟨⟨#[.varint 8 1, .vacant, .vacant, .vacant,
          ⟨⟨11⟩, .group 1⟩, .varint 16 2, .vacant, .vacant], #[⟨4, 2, 4⟩, ⟨0, 1, 4⟩], 304⟩, 0⟩,
      by cbv, by cbv, by cbv, by decide⟩
  obtain ⟨nodes, nodes', agree, hnodes, hnodes', hsame, _, htexts⟩ :=
    dump_eq_iff_agrees hparse hparse' ⟨"a\x01", 6, "00"⟩ ⟨"a\x01", 6, "00"⟩
  obtain ⟨found, found', _, hfound, hfound', hsame', _, htexts'⟩ :=
    dump_eq_iff_agrees hparse hparse' ⟨"a\x01", 6, "00"⟩ ⟨"a\\u0001", 6, "00"⟩
  rw [hagree] at hsame
  cases hsame
  rw [hnodes] at hfound
  rw [hnodes'] at hfound'
  cases hfound
  cases hfound'
  refine ⟨tree, other, nodes, nodes', hparse, hparse', hnodes, hnodes', hne,
    fun layout => (htexts layout).mpr ⟨rfl, rfl⟩, fun layout hlayout => ?_⟩
  have hinputs := ((htexts' layout).mp hlayout).1
  exact absurd hinputs (by decide)

end UnknownFields
