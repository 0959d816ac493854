import Inlay.Markup.Fragment
import Inlay.Template.Placeholder

/-!
# Templates

A template is one element, without the white space between its elements, together with the
placeholders in it. Either the element is a placeholder itself, or it contains some, none of them
inside another. Each placeholder has a position, which is the same in every copy of the tree.
-/

namespace Inlay

/-- A compiled template. -/
structure Template where
  arena : Arena
  root : NodeId
  /-- The root is the only placeholder. -/
  single : Bool
  /-- In document order. -/
  placeholders : List Placeholder

namespace Template

def isPlaceholder (a : Arena) (id : NodeId) : Bool :=
  a.tag? id == some Placeholder.tag

/-- Numbers the elements of the agenda and those below them, from `next` on in document order, and
picks the placeholders. The content of placeholders is neither numbered nor searched. -/
def pickPlaceholders (a : Arena) : Nat → Position → List NodeId → List (Position × NodeId)
  | 0, _, _ => []
  | _, _, [] => []
  | fuel + 1, next, id :: agenda =>
    if isPlaceholder a id then (next, id) :: pickPlaceholders a fuel (next + 1) agenda
    else pickPlaceholders a fuel (next + 1) (a.elementChildren id ++ agenda)

/-- The placeholder elements below `root` with their positions. -/
def placeholdersBelow (a : Arena) (root : NodeId) : List (Position × NodeId) :=
  pickPlaceholders a a.slots.size 0 (a.elementChildren root)

/-- The only top-level element of a markup text, as a tree of its own without blank texts. -/
def canonicalRoot (source : String) : Except TemplateError (NodeId × Arena) :=
  match (Markup.parse source).run .empty with
  | .error fault _ => .error (.tree fault)
  | .ok fragment a =>
    match a.elementChildren fragment with
    | [] => .error .noRoot
    | [root] =>
      let clean : TreeM Unit := do
        Arena.detach root
        Arena.free fragment
        Markup.stripBlankTexts root
      match clean.run a with
      | .ok () a => .ok (root, a)
      | .error fault _ => .error (.tree fault)
    | top => .error (.multipleRoots top.length)

/-- Validates one placeholder element of a tree, in which no other placeholder may lie. -/
def examineAt (a : Arena) (single : Bool) (position : Position) (id : NodeId) :
    ReportM Placeholder := do
  if (a.descendants id).any (isPlaceholder a) then throw (.nestedPlaceholder position)
  match a.element? id with
  | none => throw (.missingElement position)
  | some e => Placeholder.examine e position single

/-- Validates placeholder elements in turn. -/
def examineAll (a : Arena) : List (Position × NodeId) → ReportM (List Placeholder)
  | [] => return []
  | (position, id) :: rest => do
    let p ← examineAt a false position id
    return p :: (← examineAll a rest)

/-- Compiles a template from its source. -/
def compile (source : String) : ReportM Template := do
  if source.isEmpty then throw .emptyTemplate
  let (root, a) ← check (canonicalRoot source)
  if isPlaceholder a root then
    return ⟨a, root, true, [← examineAt a true 0 root]⟩
  else
    match placeholdersBelow a root with
    | [] => throw .noPlaceholder
    | found => return ⟨a, root, false, ← examineAll a found⟩

/-- The tree of the template as markup. -/
def html (t : Template) : String :=
  t.arena.html t.root

end Template

end Inlay
