import Inlay.Arena.Walk

/-!
# Listeners

Who listens for which event at which node. A listener is a plain value; what an event does to the
listeners it reaches is up to the owner. An event reaches the listeners at its target first and
then those at each ancestor, nearest first; within one node in the order in which they subscribed.
-/

namespace Inlay

/-- Names one subscription of a registry. -/
structure Subscription where
  number : Nat
deriving DecidableEq

/-- An active subscription. -/
structure Listening (α : Type) where
  subscription : Subscription
  node : NodeId
  event : String
  listener : α

/-- A registry of subscriptions. -/
structure Listeners (α : Type) where
  /-- The number of the next subscription. -/
  next : Nat
  /-- The subscriptions that are not cancelled, in the order in which they were made. -/
  active : List (Listening α)

namespace Listeners

variable {α : Type}

def empty : Listeners α := ⟨0, []⟩

def subscribe (r : Listeners α) (node : NodeId) (event : String) (listener : α) :
    Subscription × Listeners α :=
  (⟨r.next⟩, ⟨r.next + 1, r.active ++ [⟨⟨r.next⟩, node, event, listener⟩]⟩)

/-- Subscribes at several nodes in turn. -/
def subscribeAll (r : Listeners α) (event : String) (listener : α) :
    List NodeId → List Subscription × Listeners α
  | [] => ([], r)
  | node :: nodes =>
    let (s, r) := r.subscribe node event listener
    let (ss, r) := r.subscribeAll event listener nodes
    (s :: ss, r)

def isActive (r : Listeners α) (s : Subscription) : Bool :=
  r.active.any (·.subscription == s)

/-- Ends a subscription; whether it was active. -/
def cancel (r : Listeners α) (s : Subscription) : Bool × Listeners α :=
  (r.isActive s, { r with active := r.active.filter (·.subscription ≠ s) })

/-- Ends several subscriptions. -/
def cancelAll (r : Listeners α) (ss : List Subscription) : Listeners α :=
  ss.foldl (fun r s => (r.cancel s).2) r

def count (r : Listeners α) : Nat :=
  r.active.length

/-- The subscriptions at one node for an event. -/
def hearing (r : Listeners α) (event : String) (node : NodeId) : List (Listening α) :=
  r.active.filter fun l => l.node = node ∧ l.event = event

/-- The subscriptions that an event at `target` reaches. -/
def reached (r : Listeners α) (a : Arena) (target : NodeId) (event : String) :
    List (Listening α) :=
  (a.pathToRoot target).flatMap (r.hearing event)

end Listeners

end Inlay
