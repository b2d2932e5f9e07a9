import UnknownFields.Proofs.Canonical
import UnknownFields.Proofs.Wire.Stream

/-!
What the tokens of a stream amount to, without memory and without limits: the fields in the order in
which they come, with the groups labelled in the order in which they are opened. This is the
specification of a build. On an encoding of some fields it gives these fields, and the greatest
number of groups that are open at once is their nesting. On anything else the check has a say: if
it finds a malformation, strict mode meets a fault that shows it.
-/

namespace UnknownFields

/-- How many groups are in each other at most. -/
def Node.nesting {ι : Type} : Node ι → Nat
  | leaf _ _ => 0
  | group _ _ fields => (fields.map nesting).foldr max 0 + 1

def nesting {ι : Type} (fields : List (Node ι)) : Nat := (fields.map Node.nesting).foldr max 0

@[simp]
theorem nesting_nil {ι : Type} : nesting ([] : List (Node ι)) = 0 := rfl

@[simp]
theorem nesting_leaf {ι : Type} (tag : Tag) (value : Scalar) (rest : List (Node ι)) :
    nesting (.leaf tag value :: rest) = nesting rest := by
  rw [nesting, List.map_cons, List.foldr_cons, Node.nesting, Nat.zero_max]
  rfl

@[simp]
theorem nesting_group {ι : Type} (tag : Tag) (label : ι) (fields rest : List (Node ι)) :
    nesting (.group tag label fields :: rest) = max (nesting fields + 1) (nesting rest) := by
  rw [nesting, List.map_cons, List.foldr_cons, Node.nesting]
  rfl

/-- A group that is open: its tag and its label, and the fields in front of it in the level around
it. -/
structure Opened where
  tag : Tag
  label : Nat
  fields : List (Node Nat)

namespace Opened

def closed (group : Opened) (fields : List (Node Nat)) : List (Node Nat) :=
  group.fields ++ [.group group.tag group.label fields]

def closeAll (fields : List (Node Nat)) : List Opened → List (Node Nat)
  | [] => fields
  | group :: outer => closeAll (group.closed fields) outer

def field? (opened : List Opened) : Option Nat := opened.head?.map (·.tag.fieldNumber)

end Opened

namespace TokenStream

/-- The fields of the top level and the number of bytes that have been read, behind `fields` in the
innermost of the groups `opened`. The next group is labelled `label`. -/
def forest (mode : Mode) :
    TokenStream → Nat → List (Node Nat) → List Opened → Except Fault (List (Node Nat) × Nat)
  | done position, _, fields, opened => .ok (Opened.closeAll fields opened, position)
  | broken fault, _, _, _ => .error fault
  | next (.field tag value) _ rest, label, fields, opened =>
    forest mode rest label (fields ++ [.leaf tag value]) opened
  | next (.opening tag) _ rest, label, fields, opened =>
    forest mode rest (label + 1) [] (⟨tag, label, fields⟩ :: opened)
  | next (.closing tag) position rest, label, fields, opened => do
    mode.expect (Opened.field? opened = some tag.fieldNumber)
      (.strayEndGroup (Opened.field? opened) tag.fieldNumber)
    match opened with
    | [] => return (fields, position)
    | group :: outer => forest mode rest label (group.closed fields) outer
  | next (.unknown _) position _, _, fields, opened =>
    .ok (Opened.closeAll fields opened, position)

theorem forest_closing (mode : Mode) (tag : Tag) (position : Nat) (rest : TokenStream) (label : Nat)
    (fields : List (Node Nat)) (opened : List Opened) :
    forest mode (next (.closing tag) position rest) label fields opened = (do
      mode.expect (Opened.field? opened = some tag.fieldNumber)
        (.strayEndGroup (Opened.field? opened) tag.fieldNumber)
      match opened with
      | [] => return (fields, position)
      | group :: outer => forest mode rest label (group.closed fields) outer) := by
  cases opened <;> rw [forest]

/-- What a buffer holds, and how many of its bytes have been read. -/
def contents (mode : Mode) (input : Bytes) (label : Nat) :
    Except Fault (List (Node Nat) × Nat) := do
  let found ← forest mode (.ofBytes mode input) label [] []
  mode.expect (found.2 = input.length) (.unreadBytes (input.length - found.2))
  return found

/-- The greatest number of groups that are open at once, when `count` of them already are. -/
def height : TokenStream → (count : Nat) → Nat
  | done _, count => count
  | broken _, count => count
  | next (.field _ _) _ rest, count => rest.height count
  | next (.opening _) _ rest, count => rest.height (count + 1)
  | next (.closing _) _ _, 0 => 0
  | next (.closing _) _ rest, count + 1 => max (count + 1) (rest.height count)
  | next (.unknown _) _ _, count => count

theorem le_height (stream : TokenStream) (count : Nat) : count ≤ stream.height count := by
  fun_induction height stream count with
  | case1 => exact Nat.le_refl _
  | case2 => exact Nat.le_refl _
  | case3 _ _ _ _ _ ih => exact ih
  | case4 _ _ _ _ ih => exact Nat.le_of_succ_le ih
  | case5 => exact Nat.le_refl _
  | case6 => exact Nat.le_max_left _ _
  | case7 => exact Nat.le_refl _

/-! ### Encoded fields -/

/-- Encoded fields are read in both modes, and what follows them is read as if they stood alone. -/
theorem forest_append {bytes : Bytes} {fields : List (Node Unit)} (h : Encodes bytes fields)
    (mode : Mode) (tail : Bytes) (position label : Nat) (before : List (Node Nat))
    (opened : List Opened) :
    ∃ read label', read.map Node.erase = fields ∧
      forest mode (ofReader mode ⟨bytes ++ tail, position⟩) label before opened =
        forest mode (ofReader mode ⟨tail, position + bytes.length⟩) label' (before ++ read)
          opened := by
  induction h generalizing tail position label before opened with
  | nil => exact ⟨[], label, rfl, by simp⟩
  | @leaf tag value bytes rest others item _ ih =>
      obtain ⟨read, label', hread, hforest⟩ :=
        ih tail (position + bytes.length) label (before ++ [.leaf tag value]) opened
      refine ⟨.leaf tag value :: read, label', ?_, ?_⟩
      · rw [List.map_cons, Node.erase_leaf, hread]
      · rw [List.append_assoc, ofReader_of_written item, forest, hforest, List.append_assoc,
          List.singleton_append, List.length_append, Nat.add_assoc]
  | @group tag closing front inside back rest fields others item _ itemClosed same _ ihInside ihRest =>
      obtain ⟨members, label', hmembers, hinside⟩ :=
        ihInside (back ++ (rest ++ tail)) (position + front.length) (label + 1) []
          (⟨tag, label, before⟩ :: opened)
      obtain ⟨read, label'', hread, hforest⟩ :=
        ihRest tail (position + front.length + inside.length + back.length) label'
          (before ++ [.group tag label members]) opened
      have hexpected : Opened.field? (⟨tag, label, before⟩ :: opened) = some closing.fieldNumber := by
        rw [same]
        rfl
      refine ⟨.group tag label members :: read, label'', ?_, ?_⟩
      · rw [List.map_cons, Node.erase_group, hmembers, hread]
      · rw [List.append_assoc, List.append_assoc, List.append_assoc, ofReader_of_written item, forest,
          hinside, List.nil_append, ofReader_of_written itemClosed, forest,
          mode.expect_of_holds _ hexpected, ok_bind]
        rw [Opened.closed, hforest, List.append_assoc, List.singleton_append]
        simp only [List.length_append, Nat.add_assoc]

theorem height_append {bytes : Bytes} {fields : List (Node Unit)} (h : Encodes bytes fields)
    (mode : Mode) (tail : Bytes) (position count : Nat) :
    (ofReader mode ⟨bytes ++ tail, position⟩).height count =
      max (count + nesting fields)
        ((ofReader mode ⟨tail, position + bytes.length⟩).height count) := by
  induction h generalizing tail position count with
  | nil => simp [le_height]
  | @leaf tag value bytes rest others item _ ih =>
      rw [List.append_assoc, ofReader_of_written item, height, ih, nesting_leaf, List.length_append,
        Nat.add_assoc]
  | @group tag closing front inside back rest fields others item _ itemClosed same _ ihInside ihRest =>
      rw [List.append_assoc, List.append_assoc, List.append_assoc, ofReader_of_written item, height,
        ihInside, ofReader_of_written itemClosed, height, ihRest, nesting_group]
      simp only [List.length_append, Nat.add_assoc]
      omega

/-- An encoding holds the fields that it encodes, and all of it is read. -/
theorem contents_of_encodes {input : Bytes} {fields : List (Node Unit)} (h : Encodes input fields)
    (mode : Mode) (label : Nat) :
    ∃ read, read.map Node.erase = fields ∧ contents mode input label = .ok (read, input.length) := by
  obtain ⟨read, label', hread, hforest⟩ := forest_append h mode [] 0 label [] []
  refine ⟨read, hread, ?_⟩
  rw [List.append_nil, Nat.zero_add, List.nil_append, ofReader_nil, forest] at hforest
  rw [contents, ofBytes, hforest, ok_bind, mode.expect_of_holds _ rfl]
  rfl

theorem height_of_encodes {input : Bytes} {fields : List (Node Unit)} (h : Encodes input fields)
    (mode : Mode) : (ofBytes mode input).height 0 = nesting fields := by
  have hheight := height_append h mode [] 0 0
  rw [List.append_nil, ofReader_nil, height, Nat.zero_add, Nat.max_zero] at hheight
  exact hheight

end TokenStream

/-- A buffer encodes one list of fields at most. -/
theorem Encodes.unique {bytes : Bytes} {fields others : List (Node Unit)} (h : Encodes bytes fields)
    (h' : Encodes bytes others) : fields = others := by
  obtain ⟨read, hread, hcontents⟩ := TokenStream.contents_of_encodes h .lenient 0
  obtain ⟨read', hread', hcontents'⟩ := TokenStream.contents_of_encodes h' .lenient 0
  rw [hcontents] at hcontents'
  cases hcontents'
  rw [← hread, hread']

/-! ### Malformed input -/

namespace TokenStream

open WellFormed

/-- The check and the builder have the same groups open. -/
def SameGroups (groups : List OpenGroup) (opened : List Opened) : Prop :=
  groups.map OpenGroup.field = opened.map (·.tag.fieldNumber)

variable {offset : Nat} {groups balanced : List OpenGroup} {opened : List Opened} {tag : Tag}

/-- A closing tag that the check accepts is the one that the builder expects. -/
theorem field?_of_balance (hsame : SameGroups groups opened)
    (h : balance offset groups (.closing tag.fieldNumber) = .ok balanced) :
    ∃ innermost others, opened = innermost :: others ∧
      Opened.field? opened = some tag.fieldNumber ∧ SameGroups balanced others := by
  cases groups with
  | nil => cases h
  | cons group outer =>
      cases opened with
      | nil => cases hsame
      | cons innermost others =>
          obtain ⟨hhead, hothers⟩ := List.cons.inj hsame
          rw [balance] at h
          split at h
          · next hfield =>
              cases h
              refine ⟨innermost, others, rfl, ?_, hothers⟩
              rw [← hfield, hhead]
              rfl
          · cases h

/-- At a closing tag that the check rejects strict mode meets a fault. -/
theorem shows_of_balance (hsame : SameGroups groups opened) {reason : Malformation}
    (h : balance offset groups (.closing tag.fieldNumber) = .error reason) :
    ∃ fault, Mode.strict.expect (Opened.field? opened = some tag.fieldNumber)
      (.strayEndGroup (Opened.field? opened) tag.fieldNumber) = .error fault ∧
      fault.Shows reason := by
  cases groups with
  | nil =>
      cases h
      cases opened with
      | nil => exact ⟨_, rfl, .unexpectedEndGroup _⟩
      | cons => cases hsame
  | cons group outer =>
      cases opened with
      | nil => cases hsame
      | cons innermost others =>
          obtain ⟨hhead, _⟩ := List.cons.inj hsame
          rw [balance] at h
          split at h
          · cases h
          next hfield =>
          cases h
          rw [hhead] at hfield ⊢
          refine ⟨_, ?_, .mismatchedEndGroup _ _⟩
          rw [Opened.field?, List.head?_cons, Option.map_some, Mode.expect, if_neg]
          simpa using hfield

/-- Where the check finds a malformation, strict mode meets a fault that shows it. The check and the
builder have gone over the same items until then, with the same groups open. -/
theorem forest_strict_of_scan {input : Bytes} {malformed : Malformed}
    (h : scan offset groups input = .error malformed)
    (hfield : malformed.reason ≠ .fieldNumberZero)
    (hgroup : ∀ field, malformed.reason ≠ .unterminatedGroup field)
    (hsame : SameGroups groups opened) (position label : Nat) (fields : List (Node Nat)) :
    ∃ fault, forest .strict (ofReader .strict ⟨input, position⟩) label fields opened =
      .error fault ∧ fault.Shows malformed.reason := by
  fun_induction scan offset groups input generalizing opened position label fields with
  | case1 offset groups =>
      cases groups with
      | nil => cases h
      | cons group outer =>
          cases h
          exact absurd rfl (hgroup group.field)
  | case2 offset groups input hinput reason hitem =>
      cases h
      obtain ⟨fault, hfault, hshows⟩ := Token.read_strict_of_error hitem hfield position
      refine ⟨fault, ?_, hshows⟩
      rw [ofReader_of_error hinput hfault, forest]
  | case3 offset groups input hinput item length hitem reason hbalance =>
      cases h
      obtain ⟨token, bytes, tail, rfl, rfl, rfl, hwritten⟩ := written_of_readItem hitem
      rw [ofReader_of_written hwritten]
      cases hwritten with
      | field => cases hbalance
      | opening => cases hbalance
      | closing =>
          obtain ⟨fault, hexpect, hshows⟩ := shows_of_balance hsame hbalance
          refine ⟨fault, ?_, hshows⟩
          rw [forest_closing, hexpect, error_bind]
  | case4 offset groups input hinput item length hitem balanced hbalance _ ih =>
      obtain ⟨token, bytes, tail, rfl, rfl, rfl, hwritten⟩ := written_of_readItem hitem
      rw [List.drop_left] at h ih
      rw [ofReader_of_written hwritten]
      cases hwritten with
      | field =>
          cases hbalance
          rw [forest]
          exact ih h hsame _ _ _
      | @opening tag =>
          cases hbalance
          rw [forest]
          refine ih h ?_ _ _ _
          rw [SameGroups, List.map_cons, List.map_cons, hsame]
      | closing =>
          obtain ⟨innermost, others, rfl, hexpected, hothers⟩ := field?_of_balance hsame hbalance
          rw [forest, Mode.expect_of_holds _ _ hexpected, ok_bind]
          exact ih h hothers _ _ _

theorem contents_strict_of_check {input : Bytes} {malformed : Malformed}
    (h : check input = .error malformed) (hfield : malformed.reason ≠ .fieldNumberZero)
    (hgroup : ∀ field, malformed.reason ≠ .unterminatedGroup field) (label : Nat) :
    ∃ fault, contents .strict input label = .error fault ∧ fault.Shows malformed.reason := by
  have hsame : SameGroups [] [] := rfl
  obtain ⟨fault, hforest, hshows⟩ := forest_strict_of_scan h hfield hgroup hsame 0 label []
  refine ⟨fault, ?_, hshows⟩
  rw [contents, ofBytes, hforest, error_bind]

end TokenStream

end UnknownFields
