import DialogueLint.Json.Basic

/-!
# Writing JSON

Two forms of a value: compact, without blanks, and indented, one item or member a line with two
spaces a level. Strings are escaped where JSON demands it and nowhere else.
-/

namespace DialogueLint.Json

/-- The form of a character inside a string. -/
def escapeChar : Char → List Char
  | '"' => ['\\', '"']
  | '\\' => ['\\', '\\']
  | '\n' => ['\\', 'n']
  | '\r' => ['\\', 'r']
  | '\t' => ['\\', 't']
  | '\x08' => ['\\', 'b']
  | '\x0c' => ['\\', 'f']
  | c =>
    if c.toNat < 0x20 then
      ['\\', 'u', '0', '0', Nat.digitChar (c.toNat / 16), Nat.digitChar (c.toNat % 16)]
    else [c]

/-- The form of a string. -/
def renderString (s : String) : String :=
  String.ofList ('"' :: s.toList.flatMap escapeChar ++ ['"'])

/-- The form of a value without parts. -/
def renderScalar : Json → String
  | null => "null"
  | bool true => "true"
  | bool false => "false"
  | number n => n.text
  | string s => renderString s
  | array _ => "[]"
  | object _ => "\x7b\x7d"

mutual

/-- The compact form of a value. -/
def compact : Json → String
  | array items => "[" ++ compactItems true items ++ "]"
  | object members => "\x7b" ++ compactMembers true members ++ "\x7d"
  | value => renderScalar value

/-- The compact forms of items, with commas between them. -/
def compactItems (first : Bool) : List Json → String
  | [] => ""
  | item :: rest => (if first then "" else ",") ++ compact item ++ compactItems false rest

/-- The compact forms of members, with commas between them. -/
def compactMembers (first : Bool) : List (String × Json) → String
  | [] => ""
  | (key, item) :: rest =>
    (if first then "" else ",") ++ renderString key ++ ":" ++ compact item ++
      compactMembers false rest

end

/-- A new line at an indentation level. -/
def newLine (level : Nat) : String :=
  "\n" ++ String.ofList (List.replicate (2 * level) ' ')

mutual

/-- The indented form of a value at a level. -/
def indented (level : Nat) : Json → String
  | array (item :: items) =>
    "[" ++ newLine (level + 1) ++ indented (level + 1) item ++ indentedItems (level + 1) items ++
      newLine level ++ "]"
  | object ((key, item) :: members) =>
    "\x7b" ++ newLine (level + 1) ++ renderString key ++ ": " ++ indented (level + 1) item ++
      indentedMembers (level + 1) members ++ newLine level ++ "\x7d"
  | value => renderScalar value

/-- The indented forms of the items behind the first. -/
def indentedItems (level : Nat) : List Json → String
  | [] => ""
  | item :: rest => "," ++ newLine level ++ indented level item ++ indentedItems level rest

/-- The indented forms of the members behind the first. -/
def indentedMembers (level : Nat) : List (String × Json) → String
  | [] => ""
  | (key, item) :: rest =>
    "," ++ newLine level ++ renderString key ++ ": " ++ indented level item ++
      indentedMembers level rest

end

/-- The indented form of a value. -/
def pretty (value : Json) : String :=
  indented 0 value

end DialogueLint.Json
