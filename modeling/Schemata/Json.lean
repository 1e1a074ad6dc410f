/-!
# JSON

JSON values and their printed form: members one to a line, two spaces for each level, strings with
as few escapes as JSON allows.

Printing follows the value: `Json.render` and the functions for items and members call one another
along it, with the level as their argument.  An empty array or object stands on one line.  Texts are
read in `Schemata.Json.Scan`, and only as far as settings need it.
-/

namespace Schemata

/-- A JSON value.  The only numbers are natural. -/
inductive Json where
  | null
  | bool (value : Bool)
  | number (value : Nat)
  | string (value : String)
  | array (items : List Json)
  | object (members : List (String × Json))
  deriving Repr, Inhabited

namespace Json

/-- The value, or null when there is none. -/
def ofOption {α : Type} (toJson : α → Json) : Option α → Json
  | some value => toJson value
  | none => null

/-- An array of values. -/
def ofList {α : Type} (toJson : α → Json) (values : List α) : Json :=
  array (values.map toJson)

/-! ## Strings -/

/-- A hexadecimal digit in lower case. -/
def hexDigit (value : Nat) : Char :=
  if value < 10 then Char.ofNat ('0'.toNat + value) else Char.ofNat ('a'.toNat + (value - 10))

/-- One character of a string as printed. -/
def escape (c : Char) : List Char :=
  if c == '\x22' then ['\\', '\x22']
  else if c == '\\' then ['\\', '\\']
  else if c == '\x08' then ['\\', 'b']
  else if c == '\x0c' then ['\\', 'f']
  else if c == '\n' then ['\\', 'n']
  else if c == '\r' then ['\\', 'r']
  else if c == '\t' then ['\\', 't']
  else if c.toNat < 0x20 then
    ['\\', 'u', '0', '0', hexDigit (c.toNat / 16), hexDigit (c.toNat % 16)]
  else [c]

/-- A string as printed. -/
def quoted (text : String) : List Char :=
  '\x22' :: (text.toList.flatMap escape ++ ['\x22'])

/-! ## Values -/

/-- A line break and the blanks of a level. -/
def newline (level : Nat) : List Char :=
  '\n' :: List.replicate (2 * level) ' '

mutual

/-- A value as printed at a level. -/
def render (level : Nat) : Json → List Char
  | null => "null".toList
  | bool true => "true".toList
  | bool false => "false".toList
  | number value => Nat.toDigits 10 value
  | string value => quoted value
  | array [] => ['[', ']']
  | array (item :: items) =>
      '[' :: (newline (level + 1) ++ render (level + 1) item ++ renderItems (level + 1) items
        ++ newline level ++ [']'])
  | object [] => ['\x7b', '\x7d']
  | object (member :: members) =>
      '\x7b' :: (newline (level + 1) ++ renderMember (level + 1) member
        ++ renderMembers (level + 1) members ++ newline level ++ ['\x7d'])

/-- The further items of an array as printed at a level. -/
def renderItems (level : Nat) : List Json → List Char
  | [] => []
  | item :: items => ',' :: (newline level ++ render level item ++ renderItems level items)

/-- A member of an object as printed at a level. -/
def renderMember (level : Nat) : String × Json → List Char
  | (name, value) => quoted name ++ [':', ' '] ++ render level value

/-- The further members of an object as printed at a level. -/
def renderMembers (level : Nat) : List (String × Json) → List Char
  | [] => []
  | member :: members =>
      ',' :: (newline level ++ renderMember level member ++ renderMembers level members)

end

/-- A value as printed. -/
def pretty (json : Json) : String :=
  String.ofList (render 0 json)

end Json

end Schemata
