import Inlay.Selector.Basic

/-!
# Printing selectors

One spelling per selector: attribute values in double quotes, one space around combinators and after
commas, the conditions of a compound sorted by kind, and `*` only where nothing else would stand.
-/

namespace Inlay.Selector

def AttrTest.text : AttrTest → String
  | present name => "[" ++ name ++ "]"
  | equals name value => "[" ++ name ++ "=\"" ++ value ++ "\"]"

/-- The text between two compounds. -/
def Combinator.text : Combinator → String
  | descendant => " "
  | child => " > "
  | adjacent => " + "
  | sibling => " ~ "

mutual

def Pseudo.text : Pseudo → String
  | .firstChild => ":first-child"
  | .lastChild => ":last-child"
  | .nthChild n => ":nth-child(" ++ n.text ++ ")"
  | .not cs => ":not(" ++ compoundsText cs ++ ")"

def Compound.text : Compound → String
  | ⟨tag, id, classes, attrs, pseudos⟩ =>
    (match tag with
      | some t => t
      | none =>
        if id.isNone && classes.isEmpty && attrs.isEmpty && pseudos.isEmpty then "*" else "") ++
    (match id with
      | some i => "#" ++ i
      | none => "") ++
    String.join (classes.map ("." ++ ·)) ++ String.join (attrs.map AttrTest.text) ++
    pseudosText pseudos

def compoundsText : List Compound → String
  | [] => ""
  | [c] => c.text
  | c :: cs => c.text ++ ", " ++ compoundsText cs

def pseudosText : List Pseudo → String
  | [] => ""
  | p :: ps => p.text ++ pseudosText ps

end

def Complex.text : Complex → String
  | compound c => c.text
  | combine left k right => left.text ++ k.text ++ right.text

/-- A selector in its one spelling. -/
def text (s : Selector) : String :=
  ", ".intercalate (s.alternatives.map Complex.text)

end Inlay.Selector
