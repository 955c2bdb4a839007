import ValuePath.Text.Printable

/-!
# Quoted text

Text shown between double quotes, so that every character of it can be seen: a double quote and
a backslash get a backslash in front, the usual control characters have short names, and every
other character that does not show by itself is given by its number.
-/

namespace ValuePath.Text

/-- A code point in lower case hexadecimal between `\u{` and `}`. -/
def escapedCodePoint (n : Nat) : String :=
  "\\u\x7b" ++ String.ofList (Nat.toDigits 16 n) ++ "\x7d"

/-- How a character is written inside quotes. An apostrophe stands for itself. -/
def quotedChar (c : Char) : String :=
  if c = '"' then "\\\""
  else if c = '\\' then "\\\\"
  else if c = '\n' then "\\n"
  else if c = '\t' then "\\t"
  else if c = '\r' then "\\r"
  else if c = '\x00' then "\\0"
  else if isPrintable c then String.singleton c
  else escapedCodePoint c.toNat

/-- The text between double quotes. -/
def quoted (s : String) : String :=
  "\"" ++ String.join (s.toList.map quotedChar) ++ "\""

end ValuePath.Text
