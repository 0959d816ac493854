import Inlay.Instance.Basic
import Inlay.Markup.Fragment
import Inlay.Request.Error

/-!
# Putting a response into the tree

The response becomes nodes without scripts. For a single placeholder they are what the instance
shows. Otherwise they take the place of the placeholder element or, if the placeholder is tracked
and had a response before, of the nodes of that response; where a tracked placeholder would be left
with no nodes at all, an empty comment keeps its place.
-/

namespace Inlay

/-- Something that observers are told. -/
inductive Notification where
  /-- The status of a request has changed; the placeholder's position unless it is a single one. -/
  | status (code : Nat) (position : Option Position)
  /-- The response to the request of a single placeholder. -/
  | fragment (id : NodeId)
  /-- The nodes that took the place of a placeholder. -/
  | nodes (ids : List NodeId) (position : Position)
  /-- The tree has changed; its root. -/
  | root (id : NodeId)
deriving DecidableEq

/-- A change of an instance; a failure keeps the instance as it was at that moment. -/
abbrev InsertM := EStateM InsertError Instance

namespace Instance

/-- A change of the tree of an instance. -/
def onTree {α : Type} (m : TreeM α) : InsertM α := fun i =>
  match m.run i.arena with
  | .ok x a => .ok x { i with arena := a }
  | .error fault a => .error (.tree fault) { i with arena := a }

/-- Puts nodes in the place of a placeholder element; their parent. -/
def replaceElement (p : Position) (id : NodeId) (nodes : List NodeId) : InsertM NodeId := do
  match (← get).arena.parent? id with
  | none => throw (.unattached p)
  | some parent =>
    onTree (Arena.insertAllBefore parent id nodes)
    onTree (Arena.free id)
    return parent

/-- The nodes that hold the place of a tracked placeholder: those of the response, or else a new
empty comment. -/
def trackedNodes (nodes : List NodeId) : InsertM (List NodeId) := do
  if nodes.isEmpty then return [← onTree (Arena.create (.comment ""))]
  else return nodes

/-- Puts nodes in the place of those of the region of a placeholder, or in the place of the
placeholder element if there are none yet. -/
def replaceRegion (p : Position) (id : NodeId) (nodes : List NodeId) : InsertM Unit := do
  let region := ((← get).region? p).getD {}
  modify (·.setRegion p region)
  let tracked ← trackedNodes nodes
  match region.parent, region.nodes.getLast? with
  | some parent, some last =>
    onTree (Arena.insertAllBefore parent last tracked)
    modify (·.setRegion p { region with nodes := [] })
    let _ ← onTree (Arena.freeLive region.nodes)
    modify (·.setRegion p { region with nodes := tracked })
  | _, _ =>
    let parent ← replaceElement p id tracked
    modify (·.setRegion p ⟨some parent, tracked⟩)

/-- Makes a fragment what the instance of a single placeholder shows. -/
def replaceFragment (fragment : NodeId) : InsertM Unit := do
  let old := (← get).fragment
  modify ({ · with fragment := some fragment })
  let _ ← onTree (Arena.freeLive old.toList)

/-- Puts a response into the tree; what observers are told then, in order. -/
def insertResponse (job : Job) (body : String) : InsertM (List Notification) := do
  let fragment ← onTree (Markup.parse body)
  let _ ← onTree (Markup.removeByTag fragment "script")
  match job.destination with
  | .whole =>
    replaceFragment fragment
    return [.fragment fragment]
  | .element id =>
    let nodes := (← get).arena.children fragment
    if job.tracked then replaceRegion job.position id nodes
    else
      let _ ← replaceElement job.position id nodes
    onTree (Arena.free fragment)
    modify (·.updateRecord job.position ({ · with response := some nodes }))
    return [.nodes nodes job.position, .root (← get).root]

end Instance

end Inlay
