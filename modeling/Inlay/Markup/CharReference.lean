import Inlay.Markup.NamedReference

/-!
# Character references

`&name;`, `&#decimal;` and `&#xhex;` inside text and attribute values. A reference is read one
character at a time; a `Reference` is what has been read of it so far. A name is read up to the
first character that is neither letter nor digit, and decided then.
-/

namespace Inlay.Markup

/-- The part of a reference that has been read. -/
inductive Reference where
  /-- `&` -/
  | ampersand
  /-- `&` and letters or digits. -/
  | named (name : String)
  /-- `&#` -/
  | number
  /-- `&#` and decimal digits. -/
  | decimal (n : Nat)
  /-- `&#` and `x` or `X`. -/
  | hexMark (x : Char)
  /-- `&#x` and hexadecimal digits. -/
  | hex (n : Nat)

/-- The characters that the numbers 0x80 to 0x9f stand for where they differ from the characters
with these numbers. -/
def c1Replacements : List (Nat × Nat) := [
  (0x80, 0x20ac), (0x82, 0x201a), (0x83, 0x0192), (0x84, 0x201e), (0x85, 0x2026), (0x86, 0x2020),
  (0x87, 0x2021), (0x88, 0x02c6), (0x89, 0x2030), (0x8a, 0x0160), (0x8b, 0x2039), (0x8c, 0x0152),
  (0x8e, 0x017d), (0x91, 0x2018), (0x92, 0x2019), (0x93, 0x201c), (0x94, 0x201d), (0x95, 0x2022),
  (0x96, 0x2013), (0x97, 0x2014), (0x98, 0x02dc), (0x99, 0x2122), (0x9a, 0x0161), (0x9b, 0x203a),
  (0x9c, 0x0153), (0x9e, 0x017e), (0x9f, 0x0178)]

/-- The character that a numeric reference stands for. Zero, surrogates and numbers that are no code
points give U+FFFD. -/
def numberedChar (n : Nat) : Char :=
  if n = 0 ∨ 0x10ffff < n ∨ (0xd800 ≤ n ∧ n ≤ 0xdfff) then '\ufffd'
  else Char.ofNat ((c1Replacements.lookup n).getD n)

/-- The longest of the first `n` prefixes of a name that is a reference without a semicolon, and
what is left of the name. -/
def longestBare? (name : List Char) : Nat → Option (String × List Char)
  | 0 => none
  | n + 1 =>
    let p := String.ofList (name.take (n + 1))
    if bareNames.contains p then some (p, name.drop (n + 1)) else longestBare? name n

/-- The text for a name without a semicolon behind it. Inside an attribute value nothing may follow
that could make it part of a query string: neither the rest of a longer name nor an equals sign. -/
def bareText (inValue : Bool) (name : String) (next : Option Char) : String :=
  match longestBare? name.toList name.toList.length with
  | none => "&" ++ name
  | some (p, rest) =>
    if inValue && (!rest.isEmpty || next == some '=') then "&" ++ name
    else (namedText? p).getD "" ++ String.ofList rest

/-- What a reference that ends before `next` adds to the text, and whether `next` is a semicolon
that belongs to it. -/
def Reference.close (r : Reference) (inValue : Bool) (next : Option Char) : String × Bool :=
  match r with
  | .ampersand => ("&", false)
  | .number => ("&#", false)
  | .hexMark x => ("&#" ++ x.toString, false)
  | .decimal n | .hex n => ((numberedChar n).toString, next == some ';')
  | .named name =>
    match next, namedText? name with
    | some ';', some text => (text, true)
    | _, _ => (bareText inValue name next, false)

/-- The value of a hexadecimal digit. -/
def hexValue (c : Char) : Nat :=
  if c.isDigit then c.toNat - '0'.toNat
  else if c.isUpper then c.toNat - 'A'.toNat + 10
  else c.toNat - 'a'.toNat + 10

/-- Whether a character is a hexadecimal digit. -/
def isHexDigit (c : Char) : Bool :=
  c.isDigit || ('a' ≤ c && c ≤ 'f') || ('A' ≤ c && c ≤ 'F')

/-- The reference with one more character, if that can belong to it. -/
def Reference.extend? (r : Reference) (c : Char) : Option Reference :=
  match r with
  | .ampersand =>
    if c.isAlphanum then some (.named c.toString) else if c = '#' then some .number else none
  | .named name => if c.isAlphanum then some (.named (name.push c)) else none
  | .number =>
    if c.isDigit then some (.decimal (hexValue c))
    else if c = 'x' ∨ c = 'X' then some (.hexMark c)
    else none
  | .decimal n => if c.isDigit then some (.decimal (n * 10 + hexValue c)) else none
  | .hexMark _ => if isHexDigit c then some (.hex (hexValue c)) else none
  | .hex n => if isHexDigit c then some (.hex (n * 16 + hexValue c)) else none

end Inlay.Markup
