import Inlay.Markup.Tokenizer
import Inlay.Markup.Print
import Inlay.Text.Blank

/-!
# From tokens to nodes

A fragment collects what a markup text holds. Start tags open elements, which stay open until an end
tag of that name closes them together with everything opened inside; an end tag without an open
element of its name does nothing, and the end of the text closes all. Consecutive text tokens make
one node; doctypes and errors make none and separate nothing.
-/

namespace Inlay.Markup

/-- The state between two tokens. -/
structure Builder where
  fragment : NodeId
  /-- The open elements, innermost first. -/
  opened : List NodeId
  /-- Text that is not in a node yet. -/
  text : String

namespace Builder

/-- Where the next node goes. -/
def current (b : Builder) : NodeId :=
  b.opened.headD b.fragment

/-- Makes a node the last child of the current one. -/
def place (b : Builder) (kind : NodeKind) : TreeM NodeId := do
  let id ← Arena.create kind
  Arena.appendChild b.current id
  return id

/-- Puts the collected text into a node of its own. -/
def flush (b : Builder) : TreeM Builder := do
  if b.text.isEmpty then return b
  else
    let _ ← b.place (.text b.text)
    return { b with text := "" }

/-- The elements that stay open after an end tag: those outside the innermost one of that name. -/
def afterEndTag (a : Arena) (name : String) (opened : List NodeId) : List NodeId :=
  match opened.dropWhile (!a.hasTag · name) with
  | [] => opened
  | _ :: outer => outer

/-- Takes in one token. -/
def take (b : Builder) : Token → TreeM Builder
  | .text s => return { b with text := b.text ++ s }
  | .startTag name attrs selfClosing => do
    let b ← b.flush
    let id ← b.place (.element (.of name attrs))
    return if selfClosing || isVoid name then b else { b with opened := id :: b.opened }
  | .endTag name => do
    let b ← b.flush
    return { b with opened := afterEndTag (← get) name b.opened }
  | .comment s => do
    let b ← b.flush
    let _ ← b.place (.comment s)
    return b
  | .doctype | .error => return b

/-- Takes in tokens one after the other. -/
def takeAll (b : Builder) : List Token → TreeM Builder
  | [] => return b
  | t :: ts => do (← b.take t).takeAll ts

end Builder

/-- A new fragment holding the nodes of a row of tokens. -/
def buildFragment (tokens : List Token) : TreeM NodeId := do
  let fragment ← Arena.create .fragment
  let b ← (Builder.mk fragment [] "").takeAll tokens
  let _ ← b.flush
  return fragment

/-- A new fragment holding the nodes of a markup text. -/
def parse (markup : String) : TreeM NodeId :=
  buildFragment (tokenize markup)

/-! ### Cleaning -/

/-- Elements whose white space matters. -/
def preservingTags : List String :=
  ["pre", "textarea"]

/-- The texts without a visible character among the nodes of the agenda and below them, except
inside preserving elements. Of the children of a node the last is looked at first. -/
def blankTexts (a : Arena) : Nat → List NodeId → List NodeId
  | 0, _ => []
  | _, [] => []
  | fuel + 1, id :: agenda =>
    match a.kind? id with
    | some (.text s) => if Text.allBlank s then id :: blankTexts a fuel agenda
      else blankTexts a fuel agenda
    | some (.element e) =>
      if preservingTags.contains e.tag then blankTexts a fuel agenda
      else blankTexts a fuel ((a.children id).reverse ++ agenda)
    | _ => blankTexts a fuel ((a.children id).reverse ++ agenda)

/-- Frees nodes one after the other. -/
def freeAll : List NodeId → TreeM Unit
  | [] => pure ()
  | id :: ids => do
    Arena.free id
    freeAll ids

/-- Frees the texts at and below `root` that consist of white space only, except inside preserving
elements. -/
def stripBlankTexts (root : NodeId) : TreeM Unit := do
  let a ← get
  freeAll (blankTexts a (a.slots.size + 1) [root])

/-- Frees all elements of that tag name below `root`; how many there were, those inside another one
not counted. -/
def removeByTag (root : NodeId) (tag : String) : TreeM Nat := do
  let a ← get
  Arena.freeLive ((a.descendants root).filter (a.hasTag · tag))

end Inlay.Markup
