import Inlay.Arena.Basic

/-!
# Walking an arena

The way up from a node, and the nodes below it in document order. Both follow links for at most as
many steps as there are slots; in an arena whose nodes form a forest that bound is never met.
-/

namespace Inlay.Arena

/-- The node, its parent, and so on, for at most `fuel` nodes. -/
def climb (a : Arena) : Nat → NodeId → List NodeId
  | 0, _ => []
  | fuel + 1, id =>
    id :: match a.parent? id with
      | some p => a.climb fuel p
      | none => []

/-- The node itself, then its ancestors, nearest first. The id of a freed node has none. -/
def pathToRoot (a : Arena) (id : NodeId) : List NodeId :=
  a.climb (a.slots.size + 1) id

/-- The ancestors of a node that are reached through elements only, nearest first. -/
def elementAncestors (a : Arena) (id : NodeId) : List NodeId :=
  (a.pathToRoot id).tail.takeWhile a.isElement

/-- Whether `node` is `ancestor` or lies below it. -/
def contains (a : Arena) (ancestor node : NodeId) : Bool :=
  (a.pathToRoot node).contains ancestor

/-- Visits the first node of the agenda and puts its children before the others, for at most `fuel`
visits. -/
def preorder (a : Arena) : Nat → List NodeId → List NodeId
  | 0, _ => []
  | _, [] => []
  | fuel + 1, id :: agenda => id :: a.preorder fuel (a.children id ++ agenda)

/-- The nodes below `id` in document order, `id` excluded. -/
def descendants (a : Arena) (id : NodeId) : List NodeId :=
  a.preorder a.slots.size (a.children id)

/-- The text of one node, if it is a text. -/
def ownText (a : Arena) (id : NodeId) : String :=
  match a.kind? id with
  | some (.text s) => s
  | _ => ""

/-- The texts at and below a node, joined in document order. -/
def textContent (a : Arena) (id : NodeId) : String :=
  String.join ((id :: a.descendants id).map a.ownText)

/-- The element children of the node's parent, and how many of them stand before the node. A node
without a parent is its own only sibling. -/
def siblingPlace (a : Arena) (id : NodeId) : List NodeId × Nat :=
  match a.parent? id with
  | some p =>
    let siblings := a.elementChildren p
    (siblings, if siblings.contains id then siblings.idxOf id else 0)
  | none => ([id], 0)

end Inlay.Arena
