import Inlay.Host
import Inlay.Instance.Response

/-!
# Scenes

A scene is one instance at work: the instance, its host, and whatever the observers keep. Observers
are told of changes at once and can act on the scene themselves, so everything that can cause a
notification takes the observer as an argument.
-/

namespace Inlay

/-- An instance at work. -/
structure Scene (σ : Type) where
  inst : Instance
  host : Host
  /-- What the observers keep. -/
  memory : σ

/-- What happens when the observer of a given name is told something. -/
abbrev Observer (σ : Type) := String → Notification → Scene σ → Scene σ

/-- A step in a scene; a failure keeps the scene as it was at that moment. -/
abbrev SceneM (σ : Type) := EStateM Failure (Scene σ)

/-! ### Status and flight -/

namespace Instance

/-- The status of a placeholder's request. -/
def statusOf (i : Instance) (job : Job) : Nat :=
  match job.destination with
  | .whole => i.status
  | .element _ => ((i.record? job.position).map (·.status)).getD 0

def setStatus (i : Instance) (job : Job) (code : Nat) : Instance :=
  match job.destination with
  | .whole => { i with status := code }
  | .element _ => i.updateRecord job.position ({ · with status := code })

/-- Marks the request of a placeholder as running or not; a single placeholder has no such mark. -/
def setRunning (i : Instance) (job : Job) (flag : Bool) : Instance :=
  match job.destination with
  | .whole => i
  | .element _ => i.updateRecord job.position ({ · with running := flag })

end Instance

/-- The position that goes with notifications about a request. -/
def Job.shownPosition (job : Job) : Option Position :=
  match job.destination with
  | .whole => none
  | .element _ => some job.position

namespace Scene

variable {σ : Type}

def mapInst (f : Instance → Instance) (s : Scene σ) : Scene σ :=
  { s with inst := f s.inst }

def mapHost (f : Host → Host) (s : Scene σ) : Scene σ :=
  { s with host := f s.host }

/-- Tells the observer of a request, if it has one. -/
def notify (observe : Observer σ) (job : Job) (n : Notification) (s : Scene σ) : Scene σ :=
  match job.options.observer with
  | some label => observe label n s
  | none => s

/-- Tells the observer of a request several things in turn. -/
def notifyAll (observe : Observer σ) (job : Job) (ns : List Notification) (s : Scene σ) : Scene σ :=
  ns.foldl (fun s n => s.notify observe job n) s

/-- Changes the status of a request. The observer is told only if it is another one than before. -/
def changeStatus (observe : Observer σ) (job : Job) (code : Nat) (s : Scene σ) : Scene σ :=
  if s.inst.statusOf job = code then s
  else (s.mapInst (·.setStatus job code)).notify observe job (.status code job.shownPosition)

end Scene

end Inlay
