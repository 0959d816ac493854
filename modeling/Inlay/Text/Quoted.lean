import Inlay.Text.Shown

/-!
# Quoted text

The quoted form in which messages show a text or a single character: the quote that encloses it and
the backslash get a backslash, four control characters have short escapes, and every other
character without a glyph of its own is written by its code point.
-/

namespace Inlay.Text

/-- `\u` and the code point in lowercase hexadecimal digits between braces. -/
def codePointEscape (c : Char) : String :=
  "\\u\x7b" ++ String.ofList (Nat.toDigits 16 c.toNat) ++ "\x7d"

/-- One character inside `quote` … `quote`. -/
def escapeIn (quote c : Char) : String :=
  if c = '\x00' then "\\0"
  else if c = '\t' then "\\t"
  else if c = '\n' then "\\n"
  else if c = '\r' then "\\r"
  else if c = '\\' || c = quote then "\\" ++ c.toString
  else if isShown c then c.toString
  else codePointEscape c

/-- A text in double quotes. -/
def quoted (s : String) : String :=
  "\"" ++ String.join (s.toList.map (escapeIn '"')) ++ "\""

/-- A single character in single quotes. -/
def quotedChar (c : Char) : String :=
  "'" ++ escapeIn '\'' c ++ "'"

end Inlay.Text
