/-!
# White space

The characters with the Unicode property `White_Space`: wider than `Char.isWhitespace`, which
knows four ASCII characters, and narrower than everything that looks empty (U+200B is not in it).
-/

namespace Inlay.Text

/-- The property `White_Space`. -/
def isBlank (c : Char) : Bool :=
  let n := c.toNat
  (0x09 ≤ n && n ≤ 0x0d) || n == 0x20 || n == 0x85 || n == 0xa0 || n == 0x1680 ||
    (0x2000 ≤ n && n ≤ 0x200a) || n == 0x2028 || n == 0x2029 || n == 0x202f || n == 0x205f ||
    n == 0x3000

/-- Whether a text has no character that is not white space; the empty text has none. -/
def allBlank (s : String) : Bool :=
  s.toList.all isBlank

end Inlay.Text
