import Inlay.Arena.Listeners
import Inlay.Markup.Print
import Inlay.Options.Basic
import Inlay.Request.Method
import Inlay.Template.Placeholder

/-!
# Instances

An instance is a copy of a template's tree in which placeholders are replaced by what their requests
bring. Everything it keeps about a placeholder is kept under the placeholder's position.
-/

namespace Inlay

/-- Names a request that was started, whether it runs or has ended. -/
structure TaskId where
  number : Nat
deriving DecidableEq

/-- Where a response goes. -/
inductive Destination where
  /-- The template is a single placeholder: the response is what the instance shows. -/
  | whole
  /-- The placeholder element in the tree of the instance. -/
  | element (id : NodeId)
deriving DecidableEq

/-- All that is needed to run the request of a placeholder, any number of times. -/
structure Job where
  position : Position
  destination : Destination
  method : Method
  source : String
  /-- Each response replaces the previous one, instead of the first one the placeholder. -/
  tracked : Bool
  options : RequestOptions
deriving DecidableEq

/-- What the request of one placeholder has come to. -/
structure RequestRecord where
  position : Position
  /-- Zero until a response came, and again while a further request runs. -/
  status : Nat := 0
  /-- The nodes that the last success put into the tree. -/
  response : Option (List NodeId) := none
  running : Bool := false
deriving DecidableEq

/-- The nodes that a tracked placeholder put into the tree last, and their parent. -/
structure Region where
  parent : Option NodeId := none
  nodes : List NodeId := []
deriving DecidableEq

/-- A placeholder that waits for events. -/
structure Standby where
  job : Job
  mode : Mode
  subscriptions : List Subscription
deriving DecidableEq

/-- A live copy of a template. -/
structure Instance where
  id : Nat
  /-- The template is a single placeholder. -/
  single : Bool
  arena : Arena
  /-- The copy of the template's root. -/
  root : NodeId
  /-- The status of the only request, for a single placeholder. -/
  status : Nat
  /-- The response to the only request, a fragment, for a single placeholder. -/
  fragment : Option NodeId
  /-- One record per placeholder in document order, unless the template is a single one. -/
  requests : List RequestRecord
  regions : List (Position × Region)
  standbys : List Standby
  /-- Which placeholders listen where. -/
  listeners : Listeners Position
  /-- The latest request per placeholder that nobody has taken yet, by ascending position. -/
  pending : List (Position × TaskId)

namespace Instance

/-! ### Records and regions -/

/-- The record of a placeholder. -/
def record? (i : Instance) (p : Position) : Option RequestRecord :=
  i.requests.find? (·.position == p)

/-- Changes the record of a placeholder. -/
def updateRecord (i : Instance) (p : Position) (f : RequestRecord → RequestRecord) : Instance :=
  { i with requests := i.requests.map fun r => if r.position = p then f r else r }

def isRunning (i : Instance) (p : Position) : Bool :=
  (i.record? p).any (·.running)

def region? (i : Instance) (p : Position) : Option Region :=
  i.regions.lookup p

/-- Sets the value for a position, in place if there is one. -/
def assign {α : Type} (p : Position) (x : α) : List (Position × α) → List (Position × α)
  | [] => [(p, x)]
  | (q, y) :: rest => if q = p then (p, x) :: rest else (q, y) :: assign p x rest

def setRegion (i : Instance) (p : Position) (r : Region) : Instance :=
  { i with regions := assign p r i.regions }

/-! ### Waiting for events -/

def standby? (i : Instance) (p : Position) : Option Standby :=
  i.standbys.find? (·.job.position == p)

/-- Lets a placeholder wait for an event at some nodes. -/
def standBy (i : Instance) (job : Job) (mode : Mode) (event : String) (nodes : List NodeId) :
    Instance :=
  let (subscriptions, listeners) := i.listeners.subscribeAll event job.position nodes
  { i with listeners, standbys := i.standbys ++ [⟨job, mode, subscriptions⟩] }

/-- Ends the subscriptions of a placeholder. -/
def standDown (i : Instance) (p : Position) : Instance :=
  let subscriptions := ((i.standby? p).map (·.subscriptions)).getD []
  { i with
    listeners := i.listeners.cancelAll subscriptions
    standbys := i.standbys.map fun b =>
      if b.job.position = p then { b with subscriptions := [] } else b }

/-! ### Requests nobody has taken -/

/-- Puts a request into a list by ascending position, in place of an earlier one of its
placeholder. -/
def putPending (p : Position) (t : TaskId) : List (Position × TaskId) → List (Position × TaskId)
  | [] => [(p, t)]
  | (q, u) :: rest =>
    if p < q then (p, t) :: (q, u) :: rest
    else if p = q then (p, t) :: rest
    else (q, u) :: putPending p t rest

def addPending (i : Instance) (p : Position) (t : TaskId) : Instance :=
  { i with pending := putPending p t i.pending }

/-- The requests that were started and not taken yet, which are taken now. -/
def collect (i : Instance) : List (Position × TaskId) × Instance :=
  (i.pending, { i with pending := [] })

/-! ### What is seen -/

/-- What the instance shows: the response for a single placeholder, else the root. -/
def shown (i : Instance) : Option NodeId :=
  if i.single then i.fragment else some i.root

/-- What the instance shows, as markup. -/
def html (i : Instance) : String :=
  match i.shown with
  | some id => i.arena.html id
  | none => ""

end Instance

end Inlay
