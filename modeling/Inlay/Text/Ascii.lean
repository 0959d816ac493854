/-!
# ASCII case and ASCII words

Markup names, attribute names and keywords are compared up to the case of the letters `A` to `Z`
only; class lists are split at ASCII white space only. Letters outside ASCII are never folded.
-/

namespace Inlay.Text

/-- Equal up to the case of ASCII letters. -/
def eqIgnoreCase (a b : String) : Bool :=
  a.toLower == b.toLower

/-- Tab, line feed, form feed, carriage return and space. -/
def isAsciiSpace (c : Char) : Bool :=
  c == ' ' || c == '\t' || c == '\n' || c == '\x0c' || c == '\r'

/-- The maximal runs of characters that are not ASCII white space, in order. -/
def wordsOf : List Char → List (List Char)
  | [] => []
  | c :: cs =>
    if isAsciiSpace c then wordsOf cs
    else (c :: cs.takeWhile (!isAsciiSpace ·)) :: wordsOf (cs.dropWhile (!isAsciiSpace ·))
termination_by cs => cs.length
decreasing_by
  · simp
  · have := (List.dropWhile_sublist (fun c => !isAsciiSpace c) (l := cs)).length_le
    simp only [List.length_cons]
    omega

/-- Whether `word` is one of the white-space separated words of `text`. -/
def hasWord (text word : String) : Bool :=
  (wordsOf text.toList).contains word.toList

end Inlay.Text
