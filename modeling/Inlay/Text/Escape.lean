/-!
# Markup escapes

Text and attribute values are written with the five characters that markup could mistake for its
own replaced by character references; every other character stands for itself.
-/

namespace Inlay.Text

/-- One character as markup writes it inside text or a quoted attribute value. -/
def escapeChar : Char → List Char
  | '&' => ['&', 'a', 'm', 'p', ';']
  | '<' => ['&', 'l', 't', ';']
  | '>' => ['&', 'g', 't', ';']
  | '"' => ['&', 'q', 'u', 'o', 't', ';']
  | '\'' => ['&', '#', '3', '9', ';']
  | c => [c]

/-- A text as markup writes it. -/
def escapeChars (cs : List Char) : List Char :=
  cs.flatMap escapeChar

@[simp] theorem escapeChars_nil : escapeChars [] = [] := rfl

@[simp] theorem escapeChars_cons (c : Char) (cs : List Char) :
    escapeChars (c :: cs) = escapeChar c ++ escapeChars cs := rfl

/-- Escaping works character by character, so it commutes with joining texts. -/
theorem escapeChars_append (s t : List Char) :
    escapeChars (s ++ t) = escapeChars s ++ escapeChars t := by
  simp [escapeChars]

/-- A text as markup writes it. -/
def escape (s : String) : String :=
  String.ofList (escapeChars s.toList)

@[simp] theorem toList_escape (s : String) : (escape s).toList = escapeChars s.toList := by
  simp [escape]

end Inlay.Text
