import Mathlib.Data.List.Forall2
import UnknownFields.Proofs.Json

/-!
The texts of a document, apart from how documents are laid out here: a reader of JSON takes each of
them for the document. White space may stand around every value and every key, and a character
between quotation marks stands for itself or is escaped. Rendering gives one of these texts.
-/

namespace UnknownFields

theorem forall₂_map_self {α β : Type} {related : α → β → Prop} {f : α → β} {items : List α}
    (h : ∀ item ∈ items, related item (f item)) : List.Forall₂ related items (items.map f) := by
  rw [List.forall₂_map_right_iff, List.forall₂_same]
  exact h

namespace Json

def Blank (text : List Char) : Prop := ∀ char ∈ text, char ∈ [' ', '\t', '\n', '\r']

/-- The ways to write a character between quotation marks. -/
inductive Letter : Char → List Char → Prop where
  | plain {char : Char} (printable : 0x20 ≤ char.toNat) (ne_mark : char ≠ '"')
      (ne_escape : char ≠ '\\') : Letter char [char]
  | mark : Letter '"' ['\\', '"']
  | backslash : Letter '\\' ['\\', '\\']
  | backspace : Letter '\x08' ['\\', 'b']
  | tab : Letter '\t' ['\\', 't']
  | lineFeed : Letter '\n' ['\\', 'n']
  | formFeed : Letter '\x0c' ['\\', 'f']
  | carriageReturn : Letter '\r' ['\\', 'r']
  | code {char : Char} {high low : Nat} (high_lt : high < 16) (low_lt : low < 16)
      (toNat_eq : char.toNat = 16 * high + low) :
      Letter char ['\\', 'u', '0', '0', high.digitChar, low.digitChar]

/-- A key, which is written like a text, and its value. -/
inductive Member (written : Json → List Char → Prop) : String × Json → List Char → Prop where
  | intro {key : String} {value : Json} {keyText valueText : List Char}
      (key_written : written (.text key) keyText) (value_written : written value valueText) :
      Member written (key, value) (keyText ++ ':' :: valueText)

/-- The text is one of the document. -/
inductive Written : Json → List Char → Prop where
  | yes : Written (.bool true) ['t', 'r', 'u', 'e']
  | no : Written (.bool false) ['f', 'a', 'l', 's', 'e']
  | number {value : Nat} : Written (.number value) (Nat.toDigits 10 value)
  | text {value : String} {letters : List (List Char)}
      (spelled : List.Forall₂ Letter value.toList letters) :
      Written (.text value) ('"' :: letters.flatten ++ ['"'])
  | list {items : List Json} {pieces : List (List Char)}
      (written : List.Forall₂ Written items pieces) :
      Written (.list items) ('[' :: [','].intercalate pieces ++ [']'])
  | object {members : List (String × Json)} {pieces : List (List Char)}
      (written : List.Forall₂ (Member Written) members pieces) :
      Written (.object members) ('\x7b' :: [','].intercalate pieces ++ ['\x7d'])
  | spaced {json : Json} {before text behind : List Char} (blank_before : Blank before)
      (blank_behind : Blank behind) (written : Written json text) :
      Written json (before ++ text ++ behind)

theorem letter_escape (char : Char) : Letter char (escape char) := by
  rw [escape]
  split_ifs with hmark hbackslash hb ht hn hf hr hcontrol
  · rw [hmark]; exact .mark
  · rw [hbackslash]; exact .backslash
  · rw [hb]; exact .backspace
  · rw [ht]; exact .tab
  · rw [hn]; exact .lineFeed
  · rw [hf]; exact .formFeed
  · rw [hr]; exact .carriageReturn
  · exact .code (by omega) (by omega) (Nat.div_add_mod _ 16).symm
  · exact .plain (Nat.le_of_not_lt hcontrol) hmark hbackslash

theorem written_quote (text : String) : Written (.text text) (quote text) := by
  have hletters : List.Forall₂ Letter text.toList (text.toList.map escape) :=
    forall₂_map_self fun char _ => letter_escape char
  rw [quote, List.flatMap_def]
  exact .text hletters

/-! ### White space -/

theorem blank_nil : Blank [] := nofun

theorem blank_lineStart (layout : Layout) (depth : Nat) : Blank (lineStart layout depth) := by
  cases layout with
  | compact => exact blank_nil
  | pretty =>
      intro char hchar
      rcases List.mem_cons.mp hchar with rfl | hspace
      · decide
      · rw [List.eq_of_mem_replicate hspace]
        decide

/-- White space may be put around what is written. -/
def Spaceable {α : Type} (written : α → List Char → Prop) : Prop :=
  ∀ item before text behind, Blank before → Blank behind → written item text →
    written item (before ++ text ++ behind)

theorem spaceable_written : Spaceable Written := fun _ _ _ _ hbefore hbehind hwritten =>
  .spaced hbefore hbehind hwritten

theorem spaceable_member : Spaceable (Member Written) := by
  intro member before text behind hbefore hbehind hmember
  obtain ⟨hkey, hvalue⟩ := hmember
  -- What stands in front belongs to the key, and what stands behind to the value.
  have hspaced := Member.intro (Written.spaced hbefore blank_nil hkey)
    (Written.spaced blank_nil hbehind hvalue)
  simpa using hspaced

section Pieces

variable {α : Type} {written : α → List Char → Prop}

/-- White space in front of each piece and behind the last one belongs to the pieces. -/
theorem exists_spaced_pieces (hspaceable : Spaceable written) {lead ending : List Char}
    (hlead : Blank lead) (hending : Blank ending) {item : α} {items : List α} {piece : List Char}
    {pieces : List (List Char)} (h : List.Forall₂ written (item :: items) (piece :: pieces)) :
    ∃ spaced, List.Forall₂ written (item :: items) spaced ∧
      [','].intercalate spaced = lead ++ piece ++ pieces.flatMap (',' :: lead ++ ·) ++ ending := by
  induction items generalizing item piece pieces with
  | nil =>
      obtain ⟨hpiece, hrest⟩ := List.forall₂_cons.mp h
      cases hrest
      exact ⟨[lead ++ piece ++ ending],
        .cons (hspaceable _ _ _ _ hlead hending hpiece) .nil, by simp⟩
  | cons next items ih =>
      obtain ⟨hpiece, hrest⟩ := List.forall₂_cons.mp h
      obtain ⟨second, rest, _, _, rfl⟩ := List.forall₂_cons_left_iff.mp hrest
      obtain ⟨spaced, hspaced, heq⟩ := ih hrest
      obtain ⟨first, others, _, _, rfl⟩ := List.forall₂_cons_left_iff.mp hspaced
      refine ⟨(lead ++ piece ++ []) :: first :: others,
        .cons (hspaceable _ _ _ _ hlead blank_nil hpiece) hspaced, ?_⟩
      calc [','].intercalate ((lead ++ piece ++ []) :: first :: others)
        _ = lead ++ piece ++ [] ++ [','] ++ [','].intercalate (first :: others) :=
          List.intercalate_cons_cons
        _ = lead ++ piece ++ [] ++ [','] ++
              (lead ++ second ++ rest.flatMap (',' :: lead ++ ·) ++ ending) := by rw [heq]
        _ = lead ++ piece ++ (second :: rest).flatMap (',' :: lead ++ ·) ++ ending := by simp

theorem exists_pieces_bracketed (hspaceable : Spaceable written) (layout : Layout) (depth : Nat)
    (opening closing : Char) {items : List α} {pieces : List (List Char)}
    (h : List.Forall₂ written items pieces) :
    ∃ spaced, List.Forall₂ written items spaced ∧
      opening :: [','].intercalate spaced ++ [closing] =
        bracketed layout depth opening closing pieces := by
  cases h with
  | nil => exact ⟨[], .nil, rfl⟩
  | cons hpiece hpieces =>
      obtain ⟨spaced, hspaced, heq⟩ := exists_spaced_pieces hspaceable
        (blank_lineStart layout (depth + 1)) (blank_lineStart layout depth) (.cons hpiece hpieces)
      exact ⟨spaced, hspaced, by rw [heq, bracketed]; simp⟩

end Pieces

/-! ### Documents -/

theorem Member.of_written {layout : Layout} {depth : Nat} {member : String × Json}
    (h : Written member.2 (writtenAt layout depth member.2)) :
    Member Written member (memberAt layout depth member) := by
  have hkey := written_quote member.1
  cases layout with
  | compact => exact .intro hkey h
  | pretty =>
      have hspace : Blank [' '] := by simp [Blank]
      have hvalue := Written.spaced hspace blank_nil h
      rw [List.append_nil] at hvalue
      exact .intro hkey hvalue

theorem written_writtenAt (layout : Layout) (json : Json) (depth : Nat) :
    Written json (writtenAt layout depth json) := by
  induction json using induct generalizing depth with
  | bool value =>
      rw [writtenAt_bool]
      cases value
      · exact .no
      · exact .yes
  | number value =>
      rw [writtenAt_number]
      exact .number
  | text value =>
      rw [writtenAt_text]
      exact written_quote value
  | list items ih =>
      have hitems : List.Forall₂ Written items (items.map (writtenAt layout (depth + 1))) :=
        forall₂_map_self fun item hitem => ih item hitem (depth + 1)
      obtain ⟨spaced, hspaced, heq⟩ :=
        exists_pieces_bracketed spaceable_written layout depth '[' ']' hitems
      rw [writtenAt_list, ← heq]
      exact .list hspaced
  | object members ih =>
      have hmembers : List.Forall₂ (Member Written) members
          (members.map (memberAt layout (depth + 1))) :=
        forall₂_map_self fun member hmember => .of_written (ih member hmember (depth + 1))
      obtain ⟨spaced, hspaced, heq⟩ :=
        exists_pieces_bracketed spaceable_member layout depth '\x7b' '\x7d' hmembers
      rw [writtenAt_object, ← heq]
      exact .object hspaced

/-- **What is rendered is a text of the document.** -/
theorem written_render (layout : Layout) (json : Json) :
    Written json (json.render layout).toList := by
  rw [render, String.toList_ofList, chars_eq]
  exact written_writtenAt layout json 0

end Json

end UnknownFields
