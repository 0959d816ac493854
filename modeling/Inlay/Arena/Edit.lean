import Inlay.Arena.Walk

/-!
# Changing an arena

The operations that make, link, unlink and free nodes. Each keeps the arena a forest: a node has one
parent at most, stands once in that parent's children, and never below itself. Operations that
refuse say why with a `TreeFault`; the arena they leave behind is part of the result.
-/

namespace Inlay

/-- Why an operation on an arena was refused. -/
inductive TreeFault where
  /-- The id's slot does not exist. -/
  | behindEnd (id : NodeId)
  /-- The id names a node that was freed. -/
  | freed (id : NodeId)
  | insertFreed (child : NodeId)
  /-- The node to insert is the parent or one of its ancestors. -/
  | cycle (child : NodeId)
  /-- Texts and comments have no children. -/
  | childless (parent : NodeId)
  | freedParent (parent : NodeId)
  | foreignReference (reference parent : NodeId)
  | lostReference (reference : NodeId)
  | notAChild (child parent : NodeId)
  | freedTwice (id : NodeId)
  | copyFreed (id : NodeId)
deriving DecidableEq

/-- An id as messages show it. -/
def NodeId.describe (id : NodeId) : String :=
  "NodeId \x7b index: " ++ toString id.index.toNat ++ ", generation: " ++
    toString id.generation.toNat ++ " \x7d"

namespace TreeFault

def message : TreeFault → String
  | behindEnd id => "node id " ++ id.describe ++ " is behind the end of the arena"
  | freed id => "node id " ++ id.describe ++ " refers to a freed node"
  | insertFreed child => "can't insert freed node " ++ child.describe
  | cycle child =>
    "can't insert node " ++ child.describe ++ " into itself or one of its descendants"
  | childless parent => "node " ++ parent.describe ++ " can't have children"
  | freedParent parent => "parent " ++ parent.describe ++ " refers to a freed node"
  | foreignReference reference parent =>
    "reference node " ++ reference.describe ++ " is not a child of " ++ parent.describe
  | lostReference reference => "reference node " ++ reference.describe ++ " vanished"
  | notAChild child parent =>
    "node " ++ child.describe ++ " is not a child of " ++ parent.describe
  | freedTwice id => "free_subtree: node " ++ id.describe ++ " was already freed"
  | copyFreed id => "clone: node " ++ id.describe ++ " was freed"

end TreeFault

/-- A computation on an arena; a refusal keeps the arena as it was at that moment. -/
abbrev TreeM := EStateM TreeFault Arena

namespace Arena

/-- A new node of that kind, without a parent. -/
def create (kind : NodeKind) : TreeM NodeId :=
  modifyGet (·.alloc kind)

/-- A new element; names are lowercased. -/
def createElement (tag : String) (attrs : List (String × String)) : TreeM NodeId :=
  create (.element (.of tag attrs))

/-- Changes a node that must exist. -/
def update (id : NodeId) (f : Node → Node) : TreeM Unit := do
  let a ← get
  match a.slots[id.index.toNat]? with
  | none => throw (.behindEnd id)
  | some slot =>
    if slot.generation = id.generation ∧ slot.node.isSome then set (a.modifySlot id.index f)
    else throw (.freed id)

/-- Takes a node out of its parent's children, if it has a parent. -/
def detach (id : NodeId) : TreeM Unit := do
  match (← get).parent? id with
  | none => pure ()
  | some parent =>
    update parent fun node => { node with children := node.children.filter (· ≠ id) }
    update id fun node => { node with parent := none }

/-- Refuses a child that was freed or that contains the parent, and a parent that cannot have
children. -/
def mayInsert (a : Arena) (parent child : NodeId) : Except TreeFault Unit :=
  if !a.isLive child then .error (.insertFreed child)
  else if a.contains child parent then .error (.cycle child)
  else
    match a.kind? parent with
    | none => .error (.freedParent parent)
    | some kind => if kind.isContainer then .ok () else .error (.childless parent)

/-- Makes `child` the last child of `parent`, wherever it was before. -/
def appendChild (parent child : NodeId) : TreeM Unit := do
  match (← get).mayInsert parent child with
  | .error fault => throw fault
  | .ok () =>
    detach child
    update parent fun node => { node with children := node.children ++ [child] }
    update child fun node => { node with parent := some parent }

/-- The list with `child` right before the first `reference`, if that stands in it. -/
def insertedBefore (reference child : NodeId) : List NodeId → Option (List NodeId)
  | [] => none
  | c :: cs =>
    if c = reference then some (child :: c :: cs)
    else (insertedBefore reference child cs).map (c :: ·)

/-- Makes `child` a child of `parent`, right before `reference`; at the end without one. A node that
is its own reference stays where it is. -/
def insertBefore (parent child : NodeId) (reference : Option NodeId) : TreeM Unit := do
  match reference with
  | none => appendChild parent child
  | some r =>
    if r = child then pure ()
    else if (← get).parent? r ≠ some parent then throw (.foreignReference r parent)
    else
      match (← get).mayInsert parent child with
      | .error fault => throw fault
      | .ok () =>
        detach child
        match insertedBefore r child ((← get).children parent) with
        | none => throw (.lostReference r)
        | some children =>
          update parent fun node => { node with children }
          update child fun node => { node with parent := some parent }

/-- Inserts nodes one by one before the same reference, which brings them there in list order. -/
def insertAllBefore (parent reference : NodeId) : List NodeId → TreeM Unit
  | [] => pure ()
  | n :: ns => do
    insertBefore parent n (some reference)
    insertAllBefore parent reference ns

/-- Takes a child away from the given parent. -/
def removeChild (parent child : NodeId) : TreeM Unit := do
  if (← get).parent? child ≠ some parent then throw (.notAChild child parent)
  else detach child

/-- Frees a node and everything below it: first the nodes below in document order, then the node
itself. -/
def free (id : NodeId) : TreeM Unit := do
  if !(← get).isLive id then throw (.freedTwice id)
  else
    detach id
    modify fun a => (a.descendants id ++ [id]).foldl (fun a n => a.release n.index) a

/-- Frees those nodes of a list that are still there when their turn comes; the number of these. -/
def freeLive : List NodeId → TreeM Nat
  | [] => pure 0
  | id :: ids => do
    if (← get).isLive id then
      free id
      return (← freeLive ids) + 1
    else freeLive ids

end Arena

end Inlay
