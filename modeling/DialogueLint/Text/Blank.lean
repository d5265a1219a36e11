/-!
# Blank characters

The characters with the Unicode property White_Space, and the four that separate JSON tokens.
-/

namespace DialogueLint.Text

/-- The Unicode property White_Space, which has twenty-five members. -/
def isBlank (c : Char) : Bool :=
  let n := c.toNat
  (0x09 ≤ n && n ≤ 0x0d) || n == 0x20 || n == 0x85 || n == 0xa0 || n == 0x1680 ||
    (0x2000 ≤ n && n ≤ 0x200a) || n == 0x2028 || n == 0x2029 || n == 0x202f || n == 0x205f ||
    n == 0x3000

/-- The blanks that JSON allows between tokens: space, tab, line feed and carriage return. -/
def isTokenBlank (c : Char) : Bool :=
  c == ' ' || c == '\t' || c == '\n' || c == '\r'

end DialogueLint.Text
