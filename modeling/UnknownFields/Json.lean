/-!
JSON documents and their two written forms: compact, with no space at all, and pretty, with one
member or item on a line, two spaces of indentation for each level, and a space behind the colon. In
a text only the quotation mark, the backslash and the control characters below the space are
escaped. Numbers are natural numbers.
-/

namespace UnknownFields

inductive Json where
  | bool (value : Bool)
  | number (value : Nat)
  | text (value : String)
  | list (items : List Json)
  /-- The members are written in the order in which they stand. -/
  | object (members : List (String × Json))
  deriving BEq, Repr, Inhabited

namespace Json

/-- A character as it stands between quotation marks. -/
def escape (char : Char) : List Char :=
  if char = '"' then ['\\', '"']
  else if char = '\\' then ['\\', '\\']
  else if char = '\x08' then ['\\', 'b']
  else if char = '\t' then ['\\', 't']
  else if char = '\n' then ['\\', 'n']
  else if char = '\x0c' then ['\\', 'f']
  else if char = '\r' then ['\\', 'r']
  else if char.toNat < 0x20 then
    ['\\', 'u', '0', '0', Nat.digitChar (char.toNat / 16), Nat.digitChar (char.toNat % 16)]
  else [char]

def quote (text : String) : List Char := '"' :: text.toList.flatMap escape ++ ['"']

mutual

def compact : Json → List Char
  | bool value => if value then "true".toList else "false".toList
  | number value => Nat.toDigits 10 value
  | text value => quote value
  | list items => '[' :: [','].intercalate (compactItems items) ++ [']']
  | object members => '\x7b' :: [','].intercalate (compactMembers members) ++ ['\x7d']

def compactItems : List Json → List (List Char)
  | [] => []
  | item :: rest => compact item :: compactItems rest

def compactMembers : List (String × Json) → List (List Char)
  | [] => []
  | (key, value) :: rest => (quote key ++ ':' :: compact value) :: compactMembers rest

end

/-- The start of a line inside `depth` brackets. -/
def newline (depth : Nat) : List Char := '\n' :: List.replicate (2 * depth) ' '

/-- Pieces on lines of their own between two brackets, or the brackets alone if there are none. -/
def block (depth : Nat) (opening closing : Char) (pieces : List (List Char)) : List Char :=
  match pieces with
  | [] => [opening, closing]
  | _ =>
    opening :: newline (depth + 1) ++ (',' :: newline (depth + 1)).intercalate pieces ++
      newline depth ++ [closing]

mutual

/-- The pretty form of a document inside `depth` brackets. -/
def prettyAt (depth : Nat) : Json → List Char
  | bool value => if value then "true".toList else "false".toList
  | number value => Nat.toDigits 10 value
  | text value => quote value
  | list items => block depth '[' ']' (prettyItems (depth + 1) items)
  | object members => block depth '\x7b' '\x7d' (prettyMembers (depth + 1) members)

def prettyItems (depth : Nat) : List Json → List (List Char)
  | [] => []
  | item :: rest => prettyAt depth item :: prettyItems depth rest

def prettyMembers (depth : Nat) : List (String × Json) → List (List Char)
  | [] => []
  | (key, value) :: rest =>
    (quote key ++ ':' :: ' ' :: prettyAt depth value) :: prettyMembers depth rest

end

/-- How a document is laid out. -/
inductive Layout where
  | compact
  | pretty
  deriving DecidableEq, Repr

def chars (layout : Layout) (json : Json) : List Char :=
  match layout with
  | .compact => json.compact
  | .pretty => json.prettyAt 0

/-- The text of a document. -/
def render (layout : Layout) (json : Json) : String := String.ofList (json.chars layout)

end Json

end UnknownFields
