import UnknownFields.Text.Invisible

/-!
Text in quotation marks, for messages. What would not be seen, or would end the quotation, is
escaped; everything else stands as it is.
-/

namespace UnknownFields.Text

/-- A code point in hexadecimal digits between braces. -/
def escapeCode (char : Char) : List Char :=
  ['\\', 'u', '\x7b'] ++ Nat.toDigits 16 char.toNat ++ ['\x7d']

/-- A character as it stands between two marks. -/
def escapeIn (mark char : Char) : List Char :=
  if char = '\x00' then ['\\', '0']
  else if char = '\t' then ['\\', 't']
  else if char = '\r' then ['\\', 'r']
  else if char = '\n' then ['\\', 'n']
  else if char = '\\' ∨ char = mark then ['\\', char]
  else if isInvisible char then escapeCode char
  else [char]

/-- A text between two marks. -/
def quotedIn (mark : Char) (text : List Char) : String :=
  String.ofList (mark :: text.flatMap (escapeIn mark) ++ [mark])

end UnknownFields.Text
