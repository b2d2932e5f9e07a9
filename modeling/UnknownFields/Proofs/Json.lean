import Mathlib.Tactic
import UnknownFields.Json

/-!
Reading documents back from their text. A written document tells where it ends: its first character
says of which kind it is, brackets and quotation marks are closed, and a number goes on up to the
first character that is no digit. So with any text behind it no document is mistaken for another one,
and rendering loses nothing in either layout.
-/

namespace UnknownFields

def digitValue (char : Char) : Nat := "0123456789abcdef".toList.idxOf char

theorem digitValue_digitChar {digit : Nat} (h : digit < 16) : digitValue digit.digitChar = digit := by
  have hall : ∀ digit < 16, digitValue digit.digitChar = digit := by decide
  exact hall digit h

namespace Json

/-! ### Texts between quotation marks -/

/-- Takes the character back that has been escaped at the front. -/
def unescape : List Char → Option (Char × List Char)
  | [] => none
  | '"' :: _ => none
  | '\\' :: '"' :: rest => some ('"', rest)
  | '\\' :: '\\' :: rest => some ('\\', rest)
  | '\\' :: 'b' :: rest => some ('\x08', rest)
  | '\\' :: 't' :: rest => some ('\t', rest)
  | '\\' :: 'n' :: rest => some ('\n', rest)
  | '\\' :: 'f' :: rest => some ('\x0c', rest)
  | '\\' :: 'r' :: rest => some ('\r', rest)
  | '\\' :: 'u' :: '0' :: '0' :: high :: low :: rest =>
    some (Char.ofNat (16 * digitValue high + digitValue low), rest)
  | '\\' :: _ => none
  | char :: rest => some (char, rest)

theorem unescape_escape (char : Char) (rest : List Char) :
    unescape (escape char ++ rest) = some (char, rest) := by
  rw [escape]
  split_ifs with hquote hback hb ht hn hf hr hcontrol
  · rw [hquote]; rfl
  · rw [hback]; rfl
  · rw [hb]; rfl
  · rw [ht]; rfl
  · rw [hn]; rfl
  · rw [hf]; rfl
  · rw [hr]; rfl
  · have hvalue : 16 * (char.toNat / 16) + char.toNat % 16 = char.toNat := Nat.div_add_mod _ 16
    show some (Char.ofNat (16 * digitValue (Nat.digitChar (char.toNat / 16)) +
      digitValue (Nat.digitChar (char.toNat % 16))), rest) = _
    rw [digitValue_digitChar (by omega), digitValue_digitChar (by omega), hvalue, Char.ofNat_toNat]
  · rw [List.singleton_append, unescape]
    · exact hquote
    all_goals simp [hback]

/-- A quotation mark inside a text is escaped, so the first one that is not ends the text. -/
theorem escaped_append_inj {chars others rest rest' : List Char}
    (h : chars.flatMap escape ++ '"' :: rest = others.flatMap escape ++ '"' :: rest') :
    chars = others ∧ rest = rest' := by
  have hend : ∀ rest, unescape ('"' :: rest) = none := fun _ => rfl
  induction chars generalizing others with
  | nil =>
      cases others with
      | nil => exact ⟨rfl, (List.cons.inj h).2⟩
      | cons other others =>
          have hread := congrArg unescape h
          rw [List.flatMap_nil, List.nil_append, hend, List.flatMap_cons, List.append_assoc,
            unescape_escape] at hread
          cases hread
  | cons char chars ih =>
      have hread := congrArg unescape h
      rw [List.flatMap_cons, List.append_assoc, unescape_escape] at hread
      cases others with
      | nil =>
          rw [List.flatMap_nil, List.nil_append, hend] at hread
          cases hread
      | cons other others =>
          rw [List.flatMap_cons, List.append_assoc, unescape_escape, Option.some.injEq,
            Prod.mk.injEq] at hread
          obtain ⟨hchars, hrest⟩ := ih hread.2
          exact ⟨by rw [hread.1, hchars], hrest⟩

theorem quote_append_inj {text other : String} {rest rest' : List Char}
    (h : quote text ++ rest = quote other ++ rest') : text = other ∧ rest = rest' := by
  simp only [quote, List.cons_append, List.append_assoc, List.cons.injEq, true_and,
    List.nil_append] at h
  obtain ⟨hchars, hrest⟩ := escaped_append_inj h
  exact ⟨String.toList_inj.mp hchars, hrest⟩

/-! ### Numbers -/

/-- The text has a first character, of this sort. -/
def Starts (sort : Char → Prop) (text : List Char) : Prop :=
  ∃ first rest, text = first :: rest ∧ sort first

theorem Starts.append {sort : Char → Prop} {text : List Char} (h : Starts sort text)
    (more : List Char) : Starts sort (text ++ more) := by
  obtain ⟨first, rest, rfl, hfirst⟩ := h
  exact ⟨first, rest ++ more, rfl, hfirst⟩

theorem starts_cons {sort : Char → Prop} {first : Char} {rest : List Char} :
    Starts sort (first :: rest) ↔ sort first := by
  constructor
  · rintro ⟨_, _, heq, hfirst⟩
    rwa [(List.cons.inj heq).1]
  · exact fun hfirst => ⟨first, rest, rfl, hfirst⟩

/-- A number does not go on in this text. -/
def EndsNumber (text : List Char) : Prop := ¬Starts (·.isDigit) text

theorem toDigits_append_inj {number other : Nat} {rest rest' : List Char} (hends : EndsNumber rest)
    (hends' : EndsNumber rest')
    (h : Nat.toDigits 10 number ++ rest = Nat.toDigits 10 other ++ rest') :
    number = other ∧ rest = rest' := by
  have hspan (number : Nat) {rest : List Char} (hends : EndsNumber rest) :
      (Nat.toDigits 10 number ++ rest).takeWhile Char.isDigit = Nat.toDigits 10 number := by
    have hdigits : ∀ char ∈ Nat.toDigits 10 number, char.isDigit = true :=
      fun _ => Nat.isDigit_of_mem_toDigits (by decide) (by decide)
    have hnone : rest.takeWhile Char.isDigit = [] := by
      cases rest with
      | nil => rfl
      | cons first rest =>
          exact List.takeWhile_cons_of_neg fun hfirst => hends (starts_cons.mpr hfirst)
    rw [List.takeWhile_append_of_pos hdigits, hnone, List.append_nil]
  have hdigits := congrArg (List.takeWhile Char.isDigit) h
  rw [hspan number hends, hspan other hends'] at hdigits
  have hnumber := congrArg (Nat.ofDigitChars 10 · 0) hdigits
  simp only [Nat.ofDigitChars_ten_toDigits] at hnumber
  rw [hdigits] at h
  exact ⟨hnumber, List.append_cancel_left h⟩

/-! ### Pieces between brackets -/

/-- No other item can be read from the front of a text that starts with this one, however it goes
on. -/
def Readable {α : Type} (write : α → List Char) (item : α) : Prop :=
  ∀ other rest rest', EndsNumber rest → EndsNumber rest' →
    write item ++ rest = write other ++ rest' → item = other ∧ rest = rest'

/-- What stands before a piece or a closing bracket inside `depth` brackets. -/
def lineStart : Layout → Nat → List Char
  | .compact, _ => []
  | .pretty, depth => newline depth

def bracketed (layout : Layout) (depth : Nat) (opening closing : Char) :
    List (List Char) → List Char
  | [] => [opening, closing]
  | piece :: pieces =>
    opening :: lineStart layout (depth + 1) ++ piece ++
      pieces.flatMap (',' :: lineStart layout (depth + 1) ++ ·) ++ lineStart layout depth ++ [closing]

theorem intercalate_cons {α : Type} (separator piece : List α) (pieces : List (List α)) :
    separator.intercalate (piece :: pieces) = piece ++ pieces.flatMap (separator ++ ·) := by
  induction pieces generalizing piece with
  | nil => simp
  | cons next pieces ih =>
      rw [List.intercalate_cons_cons, ih, List.flatMap_cons, List.append_assoc, List.append_assoc]

theorem compact_brackets (depth : Nat) (opening closing : Char) (pieces : List (List Char)) :
    opening :: [','].intercalate pieces ++ [closing] =
      bracketed .compact depth opening closing pieces := by
  cases pieces with
  | nil => rfl
  | cons piece pieces =>
      rw [intercalate_cons, bracketed]
      simp [lineStart]

theorem block_eq (depth : Nat) (opening closing : Char) (pieces : List (List Char)) :
    block depth opening closing pieces = bracketed .pretty depth opening closing pieces := by
  cases pieces with
  | nil => rfl
  | cons piece pieces =>
      rw [block, intercalate_cons, bracketed]
      · simp [lineStart]
      · nofun

theorem starts_lineStart {sort : Char → Prop} (layout : Layout) (depth : Nat) (hline : sort '\n')
    {text : List Char} (h : Starts sort text) : Starts sort (lineStart layout depth ++ text) := by
  cases layout with
  | compact => exact h
  | pretty => exact starts_cons.mpr hline

section Pieces

variable {α : Type} {write : α → List Char} {items : List α}

/-- Pieces behind commas are told apart up to a text that starts with no comma. -/
theorem pieces_append_inj {lead ending : List Char}
    (hending : Starts (fun char => char ≠ ',' ∧ ¬char.isDigit) ending)
    (hitems : ∀ item ∈ items, Readable write item) {others : List α} {rest rest' : List Char}
    (h : (items.map write).flatMap (',' :: lead ++ ·) ++ (ending ++ rest) =
      (others.map write).flatMap (',' :: lead ++ ·) ++ (ending ++ rest')) :
    items = others ∧ rest = rest' := by
  obtain ⟨first, tail, rfl, hcomma, hdigit⟩ := hending
  -- Behind a piece there is a comma or the ending.
  have hends (items : List α) (rest : List Char) :
      EndsNumber ((items.map write).flatMap (',' :: lead ++ ·) ++ (first :: tail ++ rest)) := by
    cases items with
    | nil => exact fun hstarts => hdigit (starts_cons.mp hstarts)
    | cons item items =>
        intro hstarts
        have hcomma : ','.isDigit = true := starts_cons.mp hstarts
        exact absurd hcomma (by decide)
  induction items generalizing others with
  | nil =>
      cases others with
      | nil => exact ⟨rfl, List.append_cancel_left h⟩
      | cons other others => exact absurd (List.cons.inj h).1 hcomma
  | cons item items ih =>
      cases others with
      | nil => exact absurd (List.cons.inj h).1.symm hcomma
      | cons other others =>
          simp only [List.map_cons, List.flatMap_cons, List.cons_append, List.append_assoc,
            List.cons.injEq, true_and, List.append_cancel_left_eq] at h
          obtain ⟨hitem, hmore⟩ := hitems item List.mem_cons_self other _ _ (hends items rest)
            (hends others rest') h
          obtain ⟨hothers, hrest⟩ :=
            ih (fun item hmem => hitems item (List.mem_cons_of_mem _ hmem)) hmore
          exact ⟨by rw [hitem, hothers], hrest⟩

theorem bracketed_cons_append (layout : Layout) (depth : Nat) (opening closing : Char) (item : α)
    (items : List α) (rest : List Char) :
    bracketed layout depth opening closing ((item :: items).map write) ++ rest =
      opening :: (lineStart layout (depth + 1) ++ (write item ++
        ((items.map write).flatMap (',' :: lineStart layout (depth + 1) ++ ·) ++
          (lineStart layout depth ++ [closing] ++ rest)))) := by
  simp [bracketed]

theorem bracketed_append_inj {layout : Layout} {depth : Nat} {opening closing : Char}
    (hclosing : closing ≠ '\n' ∧ closing ≠ ',' ∧ ¬closing.isDigit)
    (hstarts : ∀ item, Starts (· ≠ closing) (write item))
    (hitems : ∀ item ∈ items, Readable write item) {others : List α} {rest rest' : List Char}
    (h : bracketed layout depth opening closing (items.map write) ++ rest =
      bracketed layout depth opening closing (others.map write) ++ rest') :
    items = others ∧ rest = rest' := by
  obtain ⟨hline, hcomma, hdigit⟩ := hclosing
  -- Where a piece is expected there is no closing bracket.
  have hpiece {item : α} {more rest : List Char} :
      closing :: rest ≠ lineStart layout (depth + 1) ++ (write item ++ more) := by
    intro heq
    have hfirst := starts_lineStart layout (depth + 1) hline.symm ((hstarts item).append more)
    rw [← heq] at hfirst
    exact absurd rfl (starts_cons.mp hfirst)
  have hending : Starts (fun char => char ≠ ',' ∧ ¬char.isDigit)
      (lineStart layout depth ++ [closing]) :=
    starts_lineStart layout depth ⟨by decide, by decide⟩ (starts_cons.mpr ⟨hcomma, hdigit⟩)
  cases items with
  | nil =>
      cases others with
      | nil => exact ⟨rfl, List.append_cancel_left h⟩
      | cons other others =>
          rw [bracketed_cons_append] at h
          exact absurd (List.cons.inj h).2 hpiece
  | cons item items =>
      cases others with
      | nil =>
          rw [bracketed_cons_append] at h
          exact absurd (List.cons.inj h).2.symm hpiece
      | cons other others =>
          rw [bracketed_cons_append, bracketed_cons_append] at h
          apply pieces_append_inj hending hitems
          rw [List.map_cons, List.map_cons, List.flatMap_cons, List.flatMap_cons]
          simp only [List.cons_append, List.append_assoc] at h ⊢
          exact congrArg (',' :: ·) (List.cons.inj h).2

end Pieces

/-! ### Documents -/

/-- The written form of a document inside `depth` brackets. -/
def writtenAt : Layout → Nat → Json → List Char
  | .compact, _, json => json.compact
  | .pretty, depth, json => json.prettyAt depth

def colon : Layout → List Char
  | .compact => [':']
  | .pretty => [':', ' ']

def memberAt (layout : Layout) (depth : Nat) (member : String × Json) : List Char :=
  quote member.1 ++ (colon layout ++ writtenAt layout depth member.2)

theorem compactItems_eq (items : List Json) : compactItems items = items.map compact := by
  induction items with
  | nil => rfl
  | cons item items ih => rw [compactItems, List.map_cons, ih]

theorem compactMembers_eq (depth : Nat) (members : List (String × Json)) :
    compactMembers members = members.map (memberAt .compact depth) := by
  induction members with
  | nil => rfl
  | cons member members ih =>
      rw [compactMembers, List.map_cons, ih]
      rfl

theorem prettyItems_eq (depth : Nat) (items : List Json) :
    prettyItems depth items = items.map (prettyAt depth) := by
  induction items with
  | nil => rfl
  | cons item items ih => rw [prettyItems, List.map_cons, ih]

theorem prettyMembers_eq (depth : Nat) (members : List (String × Json)) :
    prettyMembers depth members = members.map (memberAt .pretty depth) := by
  induction members with
  | nil => rfl
  | cons member members ih =>
      rw [prettyMembers, List.map_cons, ih]
      rfl

theorem writtenAt_bool (layout : Layout) (depth : Nat) (value : Bool) :
    writtenAt layout depth (.bool value) = if value then "true".toList else "false".toList := by
  cases layout with
  | compact => rw [writtenAt, compact]
  | pretty => rw [writtenAt, prettyAt]

theorem writtenAt_number (layout : Layout) (depth value : Nat) :
    writtenAt layout depth (.number value) = Nat.toDigits 10 value := by
  cases layout with
  | compact => rw [writtenAt, compact]
  | pretty => rw [writtenAt, prettyAt]

theorem writtenAt_text (layout : Layout) (depth : Nat) (value : String) :
    writtenAt layout depth (.text value) = quote value := by
  cases layout with
  | compact => rw [writtenAt, compact]
  | pretty => rw [writtenAt, prettyAt]

theorem writtenAt_list (layout : Layout) (depth : Nat) (items : List Json) :
    writtenAt layout depth (.list items) =
      bracketed layout depth '[' ']' (items.map (writtenAt layout (depth + 1))) := by
  cases layout with
  | compact =>
      rw [writtenAt, compact, compactItems_eq, compact_brackets depth]
      rfl
  | pretty =>
      rw [writtenAt, prettyAt, prettyItems_eq, block_eq]
      rfl

theorem writtenAt_object (layout : Layout) (depth : Nat) (members : List (String × Json)) :
    writtenAt layout depth (.object members) =
      bracketed layout depth '\x7b' '\x7d' (members.map (memberAt layout (depth + 1))) := by
  cases layout with
  | compact => rw [writtenAt, compact, compactMembers_eq (depth + 1), compact_brackets depth]
  | pretty => rw [writtenAt, prettyAt, prettyMembers_eq, block_eq]

inductive Kind where
  | bool
  | number
  | text
  | list
  | object
  deriving DecidableEq

def kind : Json → Kind
  | bool _ => .bool
  | number _ => .number
  | text _ => .text
  | list _ => .list
  | object _ => .object

/-- The kind of the documents that start with a character. -/
def kindOf? (first : Char) : Option Kind :=
  if first.isDigit then some .number
  else if first = 't' ∨ first = 'f' then some .bool
  else if first = '"' then some .text
  else if first = '[' then some .list
  else if first = '\x7b' then some .object
  else none

theorem starts_bracketed (layout : Layout) (depth : Nat) (opening closing : Char)
    (pieces : List (List Char)) :
    Starts (· = opening) (bracketed layout depth opening closing pieces) := by
  cases pieces <;> exact starts_cons.mpr rfl

theorem starts_writtenAt (layout : Layout) (depth : Nat) (json : Json) :
    Starts (kindOf? · = some json.kind) (writtenAt layout depth json) := by
  cases json with
  | bool value =>
      rw [writtenAt_bool]
      cases value <;> exact starts_cons.mpr (by decide)
  | number value =>
      rw [writtenAt_number]
      obtain ⟨first, rest, hdigits⟩ :=
        List.exists_cons_of_ne_nil (Nat.toDigits_ne_nil : Nat.toDigits 10 value ≠ [])
      have hmem : first ∈ Nat.toDigits 10 value := hdigits ▸ List.mem_cons_self
      have hfirst : first.isDigit = true :=
        Nat.isDigit_of_mem_toDigits (by decide) (by decide) hmem
      rw [hdigits]
      exact starts_cons.mpr (if_pos hfirst)
  | text value =>
      rw [writtenAt_text]
      exact starts_cons.mpr rfl
  | list items =>
      rw [writtenAt_list]
      obtain ⟨first, rest, heq, rfl⟩ := starts_bracketed layout depth '[' ']'
        (items.map (writtenAt layout (depth + 1)))
      exact ⟨_, rest, heq, rfl⟩
  | object members =>
      rw [writtenAt_object]
      obtain ⟨first, rest, heq, rfl⟩ := starts_bracketed layout depth '\x7b' '\x7d'
        (members.map (memberAt layout (depth + 1)))
      exact ⟨_, rest, heq, rfl⟩

theorem kind_eq_of_writtenAt {layout : Layout} {depth : Nat} {json other : Json}
    {rest rest' : List Char}
    (h : writtenAt layout depth json ++ rest = writtenAt layout depth other ++ rest') :
    json.kind = other.kind := by
  obtain ⟨first, more, heq, hkind⟩ := (starts_writtenAt layout depth json).append rest
  have hother := (starts_writtenAt layout depth other).append rest'
  rw [← h, heq, starts_cons, hkind] at hother
  exact Option.some.inj hother

/-- Where an item is expected there is no closing bracket. -/
theorem starts_ne_bracket (layout : Layout) (depth : Nat) (item : Json) :
    Starts (· ≠ ']') (writtenAt layout depth item) := by
  obtain ⟨first, more, heq, hfirst⟩ := starts_writtenAt layout depth item
  refine ⟨first, more, heq, ?_⟩
  rintro rfl
  cases hfirst

theorem Readable.member {layout : Layout} {depth : Nat} {member : String × Json}
    (h : Readable (writtenAt layout depth) member.2) : Readable (memberAt layout depth) member := by
  intro other rest rest' hends hends' heq
  simp only [memberAt, List.append_assoc] at heq
  obtain ⟨hkey, hvalues⟩ := quote_append_inj heq
  obtain ⟨hvalue, hrest⟩ := h other.2 rest rest' hends hends' (List.append_cancel_left hvalues)
  exact ⟨Prod.ext hkey hvalue, hrest⟩

/-- Induction on documents, with the items of lists and the values of members below them. -/
@[elab_as_elim]
theorem induct {motive : Json → Prop} (bool : ∀ value, motive (.bool value))
    (number : ∀ value, motive (.number value)) (text : ∀ value, motive (.text value))
    (list : ∀ items, (∀ item ∈ items, motive item) → motive (.list items))
    (object : ∀ members, (∀ member ∈ members, motive member.2) → motive (.object members))
    (json : Json) : motive json :=
  match json with
  | .bool value => bool value
  | .number value => number value
  | .text value => text value
  | .list items => list items fun item _ => induct bool number text list object item
  | .object members =>
    object members fun member _ => induct bool number text list object member.2
termination_by sizeOf json
decreasing_by
  · have hlt := List.sizeOf_lt_of_mem ‹item ∈ items›
    simp only [Json.list.sizeOf_spec]
    omega
  · have hlt := List.sizeOf_lt_of_mem ‹member ∈ members›
    have hvalue : sizeOf member.2 < sizeOf member := by
      obtain ⟨key, value⟩ := member
      simp only [Prod.mk.sizeOf_spec]
      omega
    simp only [Json.object.sizeOf_spec]
    omega

/-- **A document is uniquely readable** from the front of any text in which a number at its end does
not go on. -/
theorem readable (layout : Layout) (json : Json) (depth : Nat) :
    Readable (writtenAt layout depth) json := by
  induction json using induct generalizing depth with
  | bool value =>
      intro other rest rest' _ _ h
      have hkind := kind_eq_of_writtenAt h
      cases other with
      | bool value' =>
          rw [writtenAt_bool, writtenAt_bool] at h
          cases value <;> cases value' <;> simp_all
      | _ => cases hkind
  | number value =>
      intro other rest rest' hends hends' h
      have hkind := kind_eq_of_writtenAt h
      cases other with
      | number value' =>
          rw [writtenAt_number, writtenAt_number] at h
          obtain ⟨hvalue, hrest⟩ := toDigits_append_inj hends hends' h
          exact ⟨congrArg number hvalue, hrest⟩
      | _ => cases hkind
  | text value =>
      intro other rest rest' _ _ h
      have hkind := kind_eq_of_writtenAt h
      cases other with
      | text value' =>
          rw [writtenAt_text, writtenAt_text] at h
          obtain ⟨hvalue, hrest⟩ := quote_append_inj h
          exact ⟨congrArg text hvalue, hrest⟩
      | _ => cases hkind
  | list items ih =>
      intro other rest rest' _ _ h
      have hkind := kind_eq_of_writtenAt h
      cases other with
      | list items' =>
          rw [writtenAt_list, writtenAt_list] at h
          obtain ⟨hitems, hrest⟩ := bracketed_append_inj (by decide)
            (starts_ne_bracket layout (depth + 1)) (fun item hitem => ih item hitem (depth + 1)) h
          exact ⟨congrArg list hitems, hrest⟩
      | _ => cases hkind
  | object members ih =>
      intro other rest rest' _ _ h
      have hkind := kind_eq_of_writtenAt h
      cases other with
      | object members' =>
          rw [writtenAt_object, writtenAt_object] at h
          obtain ⟨hmembers, hrest⟩ := bracketed_append_inj (by decide)
            (fun _ => starts_cons.mpr (by decide))
            (fun member hmember => (ih member hmember (depth + 1)).member) h
          exact ⟨congrArg object hmembers, hrest⟩
      | _ => cases hkind

theorem chars_eq (layout : Layout) (json : Json) : json.chars layout = writtenAt layout 0 json := by
  cases layout <;> rfl

theorem render_injective (layout : Layout) : Function.Injective (render layout) := by
  intro json other h
  have hchars := String.ofList_injective h
  rw [chars_eq, chars_eq] at hchars
  have hends : EndsNumber [] := nofun
  exact (readable layout json 0 other [] [] hends hends (congrArg (· ++ []) hchars)).1

end Json

end UnknownFields
