/-!
# `Json` — JSON values laid out on lines

`Json.pretty` writes a value with one item per line and two spaces for each level. Characters above
ASCII stand for themselves; quotation marks, backslashes and controls are escaped.
-/

namespace SchoolMath

/-- A JSON value; a number is kept as its text. -/
inductive Json where
  | null
  | number (text : String)
  | string (text : String)
  | array (items : List Json)
  | object (fields : List (String × Json))

namespace Json

/-- How a character is written inside a JSON string. -/
def escape (c : Char) : List Char :=
  match c with
  | '"' => ['\\', '"']
  | '\\' => ['\\', '\\']
  | '\n' => ['\\', 'n']
  | '\r' => ['\\', 'r']
  | '\t' => ['\\', 't']
  | '\x08' => ['\\', 'b']
  | '\x0c' => ['\\', 'f']
  | c =>
    if c.toNat < 32 then
      let hex := Nat.toDigits 16 c.toNat
      '\\' :: 'u' :: (List.replicate (4 - hex.length) '0' ++ hex)
    else [c]

/-- A JSON string. -/
def quote (text : String) : List Char := '"' :: text.toList.flatMap escape ++ ['"']

/-- The start of a line at a level. -/
def lineAt (level : Nat) : List Char := '\n' :: List.replicate (2 * level) ' '

/-- Items between an opening and a closing bracket, each on a line of its own one level deeper. -/
def block (opening closing : Char) (level : Nat) (items : List (List Char)) : List Char :=
  if items.isEmpty then [opening, closing]
  else
    opening :: List.intercalate [','] (items.map (lineAt (level + 1) ++ ·)) ++ lineAt level ++
      [closing]

mutual

/-- The characters of a value at a level. -/
def chars (level : Nat) : Json → List Char
  | .null => ['n', 'u', 'l', 'l']
  | .number text => text.toList
  | .string text => quote text
  | .array items => block '[' ']' level (itemChars (level + 1) items)
  | .object fields => block '\x7b' '\x7d' level (fieldChars (level + 1) fields)

/-- The characters of the items of an array. -/
def itemChars (level : Nat) : List Json → List (List Char)
  | [] => []
  | item :: items => item.chars level :: itemChars level items

/-- The characters of the fields of an object. -/
def fieldChars (level : Nat) : List (String × Json) → List (List Char)
  | [] => []
  | (name, value) :: fields => (quote name ++ ':' :: ' ' :: value.chars level) :: fieldChars level fields

end

/-- The text of a value. -/
def pretty (value : Json) : String := String.ofList (value.chars 0)

/-- A string, or null. -/
def ofText? : Option String → Json
  | some text => .string text
  | none => .null

end Json

end SchoolMath
