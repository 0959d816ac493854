import Inlay.Session.Time
import Inlay.Template.Instantiate

/-!
# Steps of a session

What a program can do with a session: make instances, fire events at their nodes, and take requests
and wait for them.
-/

namespace Inlay.Session

/-- Makes an instance, whose observers have the given reactions. -/
def instantiate (s : Session) (input : InstanceOptions)
    (reactions : List (String × List Reaction)) :
    Except Failure Nat × Session :=
  let id := s.instances.length
  let watch := { s.watch with
    reactions := s.watch.reactions ++ reactions.map fun r => ((id, r.1), r.2) }
  let observe := Scene.watching (watch.charges + 1)
  match (s.template.instantiate observe input id).run (s.host, watch) with
  | .ok i (host, watch) =>
    (.ok id, { s with host, watch, instances := s.instances ++ [some i] })
  | .error f (host, watch) =>
    (.error f, { s with host, watch, instances := s.instances ++ [none] })

/-- Fires an event at a node of an instance. -/
def fire (s : Session) (i : Instance) (aim : Aim) (event : String) :
    Except FireError Nat × Session :=
  s.inScene i (·.fireAt s.observer aim event)

/-- Remembers a node under a name. -/
def mark (s : Session) (i : Instance) (aim : Aim) (name : String) :
    Except FireError Unit × Session :=
  match Scene.locate i s.watch.marks aim with
  | .ok id =>
    (.ok (), { s with watch := { s.watch with marks := (name, id) :: s.watch.marks } })
  | .error e => (.error e, s)

/-- The markup of the elements that a selector finds. -/
def query (i : Instance) (source : String) : Except FireError (List String) := do
  return (← Scene.find i source).map i.arena.html

/-- Takes the requests of an instance that nobody has taken. -/
def take (s : Session) (i : Instance) : List (Position × TaskId) × Session :=
  s.inScene i fun scene =>
    let (pending, inst) := scene.inst.collect
    (pending, { scene with inst })

/-- Takes requests and waits for them until there are none to take, at most `n` times. -/
def settleRounds (id : Nat) : Nat → Session →
    List (Position × Option (Except RequestError Unit)) × Session
  | 0, s => ([], s)
  | n + 1, s =>
    match s.instance? id with
    | none => ([], s)
    | some i =>
      match s.take i with
      | ([], s) => ([], s)
      | (pending, s) =>
        let (results, s) := s.waitForAll pending
        let (more, s) := settleRounds id n s
        (results ++ more, s)

/-- Waits for all requests of an instance that nobody has taken, those that are started meanwhile
included. -/
def settle (s : Session) (i : Instance) :
    List (Position × Option (Except RequestError Unit)) × Session :=
  settleRounds i.id s.bound s

/-- Takes requests and keeps them. -/
def keep (s : Session) (i : Instance) : List (Position × TaskId) × Session :=
  let (pending, s) := s.take i
  (pending, { s with taken := s.taken ++ pending })

/-- Waits for the requests that are kept. -/
def waitForKept (s : Session) :
    List (Position × Option (Except RequestError Unit)) × Session :=
  waitForAll { s with taken := [] } s.taken

end Inlay.Session
