import Inlay.Arena.Tree
import Inlay.Text.Escape

/-!
# Printing trees

Trees as markup: every element with explicit tags and quoted attributes, except void elements, which
have neither content nor an end tag; text and attribute values escaped; comments as they are; a
fragment as its content.
-/

namespace Inlay

namespace Markup

/-- Elements that never have content. -/
def voidTags : List String :=
  ["area", "base", "br", "col", "embed", "hr", "img", "input", "link", "meta", "source", "track",
    "wbr"]

/-- Whether a (lowercase) tag name is that of a void element. -/
def isVoid (tag : String) : Bool :=
  voidTags.contains tag

/-- The attributes of a start tag, each with a space before it. -/
def attrsHtml : List (String × String) → String
  | [] => ""
  | (name, value) :: rest => " " ++ name ++ "=\"" ++ Text.escape value ++ "\"" ++ attrsHtml rest

/-- The start tag of an element. -/
def startTagHtml (e : Element) : String :=
  "<" ++ e.tag ++ attrsHtml e.attrs ++ ">"

end Markup

namespace Tree

mutual

/-- A tree as markup. -/
def html : Tree → String
  | node (.text s) _ => Text.escape s
  | node (.comment s) _ => "<!--" ++ s ++ "-->"
  | node .fragment cs => htmlAll cs
  | node (.element e) cs =>
    if Markup.isVoid e.tag then Markup.startTagHtml e
    else Markup.startTagHtml e ++ htmlAll cs ++ "</" ++ e.tag ++ ">"

/-- Trees one after the other as markup. -/
def htmlAll : List Tree → String
  | [] => ""
  | t :: ts => t.html ++ htmlAll ts

end

end Tree

namespace Arena

/-- The tree at a node as markup; nothing for the id of a freed node. -/
def html (a : Arena) (id : NodeId) : String :=
  match a.tree? id with
  | some t => t.html
  | none => ""

/-- Nodes one after the other as markup. -/
def htmlAll (a : Arena) (ids : List NodeId) : String :=
  String.join (ids.map a.html)

end Arena

end Inlay
