import Inlay.Scene.Start

/-!
# Dispatching events

An event at a node reaches the placeholders that listen there or at an ancestor, each once. A
placeholder whose previous request is still running lets the event pass; the others start a
request, after which a placeholder that fires once only stops listening.
-/

namespace Inlay

/-- The placeholders that an event reaches, nearest first, each once. -/
def Instance.reachedBy (i : Instance) (target : NodeId) (event : String) : List Position :=
  ((i.listeners.reached i.arena target event).map (·.listener)).eraseDups

namespace Scene

variable {σ : Type}

/-- Fires a waiting placeholder; whether a request was started. -/
def fire (observe : Observer σ) (p : Position) : SceneM σ Bool := do
  match (← get).inst.standby? p with
  | none => return false
  | some standby =>
    if (← get).inst.isRunning p then
      modify (·.mapHost (·.report [.triggerDropped p]))
      return false
    else
      launch observe standby.job
      if standby.mode = .one then modify (·.mapInst (·.standDown p))
      return true

/-- Fires waiting placeholders in turn; how many requests were started. -/
def fireAll (observe : Observer σ) : List Position → SceneM σ Nat
  | [] => return 0
  | p :: ps => do
    let fired ← fire observe p
    return (← fireAll observe ps) + if fired then 1 else 0

/-- Dispatches an event; how many requests were started. -/
def dispatch (observe : Observer σ) (target : NodeId) (event : String) : SceneM σ Nat := do
  fireAll observe ((← get).inst.reachedBy target event)

end Scene

end Inlay
