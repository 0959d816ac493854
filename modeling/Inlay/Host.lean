import Inlay.Diagnostic
import Inlay.Instance.Basic
import Inlay.Request.Error
import Inlay.Request.Signal

/-!
# The host of instances

What instances share: the clock with its signals, the transport, the list of diagnostics, and the
requests that run in the background. A request does nothing until it is its turn; the requests
whose turn it is stand in a queue.
-/

namespace Inlay

/-- How far a request has come. -/
inductive Phase where
  /-- It was started and had no turn yet. -/
  | started
  /-- The transport will answer at a time. -/
  | waiting (due : Nat) (response : Response)
  | ended (result : Except RequestError Unit)

/-- A request in the background. -/
structure Task where
  /-- The id of its instance. -/
  owner : Nat
  job : Job
  request : Outgoing
  phase : Phase

namespace Task

def result? (t : Task) : Option (Except RequestError Unit) :=
  match t.phase with
  | .ended r => some r
  | _ => none

def isEnded (t : Task) : Bool :=
  t.result?.isSome

/-- Whether a request has asked the transport and waits for the answer. -/
def hasAsked (t : Task) : Bool :=
  match t.phase with
  | .waiting _ _ => true
  | _ => false

/-- Whether a request waits for an answer that is not there yet, when timers have rung up to a
moment. When the answer is there, the request is in the queue or has its turn. -/
def isWaiting (t : Task) (rung : Nat) : Bool :=
  match t.phase with
  | .waiting due _ => decide (rung < due)
  | _ => false

end Task

/-- What instances share. -/
structure Host where
  signals : Signals
  transport : CannedTransport
  diagnostics : List Diagnostic
  /-- All requests started so far, in the order of their ids. -/
  tasks : List Task
  /-- The requests whose turn it is. -/
  ready : List TaskId

namespace Host

def empty : Host := ⟨.empty, .empty, [], [], []⟩

def now (h : Host) : Nat :=
  h.signals.now

/-- The moment up to which timers have rung. -/
def rung (h : Host) : Nat :=
  h.signals.rung

def task? (h : Host) (id : TaskId) : Option Task :=
  h.tasks[id.number]?

def isEnded (h : Host) (id : TaskId) : Bool :=
  (h.task? id).any Task.isEnded

/-- Takes in a request, which gets its turn after those in the queue. -/
def enqueue (h : Host) (t : Task) : TaskId × Host :=
  let id : TaskId := ⟨h.tasks.length⟩
  (id, { h with tasks := h.tasks ++ [t], ready := h.ready ++ [id] })

def setPhase (h : Host) (id : TaskId) (phase : Phase) : Host :=
  { h with tasks := h.tasks.modify id.number ({ · with phase }) }

/-- Adds diagnostics. -/
def report (h : Host) (ds : List Diagnostic) : Host :=
  { h with diagnostics := h.diagnostics ++ ds }

/-- When a waiting request goes on by itself: when the timer of the answer rings, or that of the
deadline of its signal. -/
def wakeTime (h : Host) (t : Task) : Option Nat :=
  match t.phase with
  | .waiting due _ =>
    match (t.request.signal.bind h.signals.get?).bind (·.deadline) with
    | some d => some (min due d)
    | none => some due
  | _ => none

/-- The ids of the requests with a property, in the order in which they were started. -/
def tasksWhere (h : Host) (p : Task → Bool) : List TaskId :=
  (h.tasks.zipIdx.filter fun x => p x.1).map fun x => ⟨x.2⟩

/-- Puts requests into the queue, behind the others. -/
def wake (h : Host) (ids : List TaskId) : Host :=
  { h with ready := h.ready ++ ids.filter (!h.ready.contains ·) }

/-- Aborts a signal; the waiting requests that have it get their turn. -/
def abort (h : Host) (id : SignalId) : Host :=
  let h := { h with signals := h.signals.abort id }
  h.wake (h.tasksWhere fun t => t.isWaiting h.rung && t.request.signal == some id)

/-- The next time at which a waiting request goes on. -/
def nextWake (h : Host) : Option Nat :=
  (h.tasks.filterMap h.wakeTime).min?

/-- Sets the clock and rings the timers; the requests that go on by then get their turn. -/
def advance (h : Host) (now : Nat) : Host :=
  let h := { h with signals := h.signals.advance now }
  h.wake (h.tasksWhere fun t =>
    match h.wakeTime t with
    | some time => decide (time ≤ h.rung)
    | none => false)

end Host

end Inlay
