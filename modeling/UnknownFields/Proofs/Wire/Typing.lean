import Mathlib.Tactic
import UnknownFields.Wire.Token

/-!
Payloads and the tags in front of them. What a tag says about its payload is true of every token that
is read, in both modes and whatever the input is. So no field comes with the tag of the end of a
group, or with one that means nothing.
-/

namespace UnknownFields

def Payload.wireType : Payload → WireType
  | scalar value => value.wireType
  | group _ => .startGroup

/-- The tag of a field says what its payload is. -/
def Field.Typed (field : Field) : Prop := field.tag.wireType? = some field.payload.wireType

theorem WireType.ofCode?_eq_some {code : Nat} {type : WireType} (h : ofCode? code = some type) :
    code = type.code := by
  unfold ofCode? at h
  split at h
  all_goals cases h
  all_goals rfl

theorem Payload.wireType_ne_endGroup (payload : Payload) : payload.wireType ≠ .endGroup := by
  cases payload with
  | scalar value => cases value <;> exact nofun
  | group id => exact nofun

/-- The low bits of the tag of a field are the code of its payload. The codes of the end of a group
and of no wire type do not occur. -/
theorem Field.Typed.wireCode_eq {field : Field} (h : field.Typed) :
    field.tag.wireCode = field.payload.wireType.code ∧
      field.tag.wireCode ≠ 4 ∧ field.tag.wireCode ≠ 6 ∧ field.tag.wireCode ≠ 7 := by
  have hcode := WireType.ofCode?_eq_some h
  have hend := field.payload.wireType_ne_endGroup
  rw [hcode]
  cases htype : field.payload.wireType with
  | endGroup => exact absurd htype hend
  | _ => exact ⟨rfl, by decide, by decide, by decide⟩

def Token.Typed : Token → Prop
  | field tag value => Field.Typed ⟨tag, .scalar value⟩
  | opening tag => tag.wireType? = some .startGroup
  | closing _ | unknown _ => True

theorem Token.typed_of_readPayload {mode : Mode} {tag : Tag} {reader after : Reader} {token : Token}
    (h : readPayload mode tag reader = .ok (token, after)) : token.Typed := by
  unfold readPayload at h
  split at h
  case h_1 htype | h_2 htype | h_3 htype =>
    obtain ⟨_, _, h⟩ := bind_eq_ok.mp h
    cases h
    exact htype
  case h_4 htype =>
    obtain ⟨_, _, h⟩ := bind_eq_ok.mp h
    obtain ⟨_, _, h⟩ := bind_eq_ok.mp h
    cases h
    exact htype
  case h_5 htype =>
    cases h
    exact htype
  case h_6 htype =>
    cases h
    exact trivial
  case h_7 htype =>
    obtain ⟨_, _, h⟩ := bind_eq_ok.mp h
    cases h
    exact trivial

theorem Token.typed_of_read {mode : Mode} {reader after : Reader} {token : Token}
    (h : read mode reader = .ok (token, after)) : token.Typed := by
  obtain ⟨_, _, h⟩ := bind_eq_ok.mp h
  exact typed_of_readPayload h

def TokenStream.Typed : TokenStream → Prop
  | done _ | broken _ => True
  | next token _ rest => token.Typed ∧ rest.Typed

/-- **Whatever is read is typed.** -/
theorem TokenStream.typed_ofReader (mode : Mode) (reader : Reader) : (ofReader mode reader).Typed := by
  fun_induction ofReader mode reader with
  | case1 => exact trivial
  | case2 => exact trivial
  | case3 reader _ token after hread _ ih => exact ⟨Token.typed_of_read hread, ih⟩

end UnknownFields
