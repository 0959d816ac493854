import Inlay.Session.Watch
import Inlay.Template.Compile

/-!
# Sessions

A session has one template and any number of instances of it on one host. All instances share one
observer, the one that keeps the log and reacts.
-/

namespace Inlay

/-- A template in use. -/
structure Session where
  template : Template
  host : Host
  watch : Watch
  /-- The instances by their ids; none where an instance could not be made. -/
  instances : List (Option Instance)
  /-- Requests that the program has taken and not waited for. -/
  taken : List (Position × TaskId)
  /-- How many results the program has collected since it last let turns pass. -/
  spent : Nat

namespace Session

def start (template : Template) (host : Host) : Session :=
  ⟨template, host, .empty, [], [], 0⟩

def instance? (s : Session) (id : Nat) : Option Instance :=
  (s.instances[id]?).join

/-- The observer of all instances. -/
def observer (s : Session) : Observer Watch :=
  Scene.watching (s.watch.charges + 1)

/-- Lets something happen to an instance. -/
def inScene {α : Type} (s : Session) (i : Instance) (f : Scene Watch → α × Scene Watch) :
    α × Session :=
  let (x, scene) := f ⟨i, s.host, s.watch⟩
  (x, { s with
    host := scene.host
    watch := scene.memory
    instances := s.instances.set scene.inst.id (some scene.inst) })

end Session

end Inlay
