import Inlay.Arena.Edit

/-!
# Trees by value

`Tree` is what a node and the nodes below it look like, without ids and slots. `Arena.tree?` reads
it off an arena and `Arena.plant` makes a fresh copy of it in one; copying a subtree from one arena
to another is one after the other.
-/

namespace Inlay

/-- A node with its children, in order. -/
inductive Tree where
  | node (kind : NodeKind) (children : List Tree)

namespace Tree

def kind : Tree → NodeKind
  | node k _ => k

def children : Tree → List Tree
  | node _ cs => cs

mutual

/-- Number of nodes. -/
def size : Tree → Nat
  | node _ cs => sizeAll cs + 1

/-- Number of nodes of a row of trees. -/
def sizeAll : List Tree → Nat
  | [] => 0
  | t :: ts => t.size + sizeAll ts

end

mutual

/-- The nodes in document order, each with its depth, the topmost at depth `d`. -/
def rows (d : Nat) : Tree → List (Nat × NodeKind)
  | node k cs => (d, k) :: rowsAll (d + 1) cs

/-- The rows of the trees one after the other. -/
def rowsAll (d : Nat) : List Tree → List (Nat × NodeKind)
  | [] => []
  | t :: ts => t.rows d ++ rowsAll d ts

end

end Tree

namespace Arena

/-- The tree at a node, if it is at most `fuel` levels deep. -/
def treeWithin (a : Arena) : Nat → NodeId → Option Tree
  | 0, _ => none
  | fuel + 1, id =>
    match a.get? id with
    | none => none
    | some node => (node.children.mapM (a.treeWithin fuel)).map (.node node.kind)

/-- The tree at a node; none if the node was freed. -/
def tree? (a : Arena) (id : NodeId) : Option Tree :=
  a.treeWithin (a.slots.size + 1) id

/-- Makes `child` the last child of `parent`, both known to be unrelated so far. -/
def adopt (parent child : NodeId) : TreeM Unit := do
  update child fun node => { node with parent := some parent }
  update parent fun node => { node with children := node.children ++ [child] }

mutual

/-- Makes the nodes of a tree, the topmost first and without a parent. -/
def plant : Tree → TreeM NodeId
  | .node kind cs => do
    let id ← create kind
    plantAll id cs
    return id

/-- Makes a row of trees and appends each to `parent` as soon as it stands. -/
def plantAll (parent : NodeId) : List Tree → TreeM Unit
  | [] => pure ()
  | t :: ts => do
    adopt parent (← plant t)
    plantAll parent ts

end

/-- A copy of the tree at `id` of another arena, without a parent. -/
def copyFrom (source : Arena) (id : NodeId) : TreeM NodeId :=
  match source.tree? id with
  | none => throw (.copyFreed id)
  | some t => plant t

end Arena

end Inlay
