import DialogueLint.Text.Graphic

/-!
# Quoted text

How messages show a text that came from a document: between double quotes, with escapes for the
quote, the backslash and every character that would not show on its own.
-/

namespace DialogueLint.Text

/-- The quoted form of one character: a short escape, the character itself, or its code point in
base sixteen. -/
def quoteChar : Char → List Char
  | '"' => ['\\', '"']
  | '\\' => ['\\', '\\']
  | '\n' => ['\\', 'n']
  | '\r' => ['\\', 'r']
  | '\t' => ['\\', 't']
  | '\x00' => ['\\', '0']
  | c => if isGraphic c then [c] else ['\\', 'u', '{'] ++ Nat.toDigits 16 c.toNat ++ ['}']

/-- The quoted form of a text. -/
def quote (s : String) : String :=
  String.ofList ('"' :: s.toList.flatMap quoteChar ++ ['"'])

end DialogueLint.Text
