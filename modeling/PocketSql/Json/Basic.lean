/-
  JSON documents and their texts.

  * `Json` is a document; the fields of an object keep their order;
  * `Json.compact` writes it without spaces, `Json.pretty` with one entry a line and two spaces of
    indentation a level.

  In a text only `"`, `\` and the control characters below U+0020 are escaped.  Decimals that are not
  finite are written as null.
-/
import PocketSql.Number.DecimalText

namespace PocketSql

/-- A JSON document. -/
inductive Json
  | null
  | bool (b : Bool)
  | integer (i : Int)
  | decimal (x : Binary64)
  | text (s : String)
  | list (items : List Json)
  | object (fields : List (String × Json))

namespace Json

/-! ## Scalars -/

/-- A character of a text, escaped if need be. -/
def escapeChar (c : Char) : List Char :=
  if c = '"' then ['\\', '"']
  else if c = '\\' then ['\\', '\\']
  else if c = '\n' then ['\\', 'n']
  else if c = '\r' then ['\\', 'r']
  else if c = '\t' then ['\\', 't']
  else if c = '\x08' then ['\\', 'b']
  else if c = '\x0C' then ['\\', 'f']
  else if c.toNat < 0x20 then
    ['\\', 'u', '0', '0', Nat.digitChar (c.toNat / 16), Nat.digitChar (c.toNat % 16)]
  else [c]

/-- A text in quotes. -/
def quote (s : String) : List Char :=
  '"' :: s.toList.flatMap escapeChar ++ ['"']

/-- A decimal as it is written. -/
def decimalText (x : Binary64) : List Char :=
  if x.isFinite then x.jsonText.toList else "null".toList

/-! ## Texts of documents -/

mutual

/-- A document without spaces. -/
def compactChars : Json → List Char
  | null => "null".toList
  | bool b => (if b then "true" else "false").toList
  | integer i => (toString i).toList
  | decimal x => decimalText x
  | text s => quote s
  | list items => '[' :: compactItems items ++ [']']
  | object fields => '\x7b' :: compactFields fields ++ ['\x7d']

/-- Items with commas between them. -/
def compactItems : List Json → List Char
  | [] => []
  | [item] => item.compactChars
  | item :: items => item.compactChars ++ ',' :: compactItems items

/-- Fields with commas between them. -/
def compactFields : List (String × Json) → List Char
  | [] => []
  | [(name, value)] => quote name ++ ':' :: value.compactChars
  | (name, value) :: fields =>
    quote name ++ ':' :: value.compactChars ++ ',' :: compactFields fields

end

/-- The start of a line at a level. -/
def newLine (level : Nat) : List Char :=
  '\n' :: List.replicate (2 * level) ' '

mutual

/-- A document with one entry a line, `level` being its own level. -/
def prettyChars (level : Nat) : Json → List Char
  | null => "null".toList
  | bool b => (if b then "true" else "false").toList
  | integer i => (toString i).toList
  | decimal x => decimalText x
  | text s => quote s
  | list [] => ['[', ']']
  | list items => '[' :: prettyItems (level + 1) items ++ newLine level ++ [']']
  | object [] => ['\x7b', '\x7d']
  | object fields => '\x7b' :: prettyFields (level + 1) fields ++ newLine level ++ ['\x7d']

/-- Items, each on a line of its own. -/
def prettyItems (level : Nat) : List Json → List Char
  | [] => []
  | [item] => newLine level ++ item.prettyChars level
  | item :: items => newLine level ++ item.prettyChars level ++ ',' :: prettyItems level items

/-- Fields, each on a line of its own. -/
def prettyFields (level : Nat) : List (String × Json) → List Char
  | [] => []
  | [(name, value)] => newLine level ++ quote name ++ ':' :: ' ' :: value.prettyChars level
  | (name, value) :: fields =>
    newLine level ++ quote name ++ ':' :: ' ' :: value.prettyChars level ++
      ',' :: prettyFields level fields

end

/-- The text of a document, without spaces. -/
def compact (j : Json) : String :=
  String.ofList j.compactChars

/-- The text of a document, with one entry a line. -/
def pretty (j : Json) : String :=
  String.ofList (j.prettyChars 0)

end Json

end PocketSql
