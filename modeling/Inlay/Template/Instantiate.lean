import Inlay.Scene.Start
import Inlay.Selector.Match
import Inlay.Template.Compile

/-!
# Making an instance

First everything is looked up and checked for all placeholders, then requests are started and
placeholders set to wait, in document order. So a placeholder that does not fit keeps all others
from starting anything.
-/

namespace Inlay

/-- What is to be done for a placeholder. -/
inductive Plan where
  /-- Start its request at once. -/
  | start (job : Job)
  /-- Wait for an event at some nodes. -/
  | standBy (job : Job) (mode : Mode) (event : String) (nodes : List NodeId)

namespace Instance

/-- A copy of the template's tree with nothing started. -/
def ofTemplate (t : Template) (id : Nat) : Except TemplateError Instance :=
  match (Arena.copyFrom t.arena t.root).run .empty with
  | .error fault _ => .error (.tree fault)
  | .ok root arena =>
    let requests := if t.single then [] else t.placeholders.map fun p => { position := p.position }
    .ok { id, single := t.single, arena, root, status := 0, fragment := none, requests
          regions := [], standbys := [], listeners := .empty, pending := [] }

/-- The placeholder elements of the copy with their positions; the root is not among them. -/
def elements (i : Instance) : List (Position × NodeId) :=
  if i.single then [] else Template.placeholdersBelow i.arena i.root

/-- Where the response for a placeholder goes. -/
def destination (i : Instance) (p : Placeholder) : Except TemplateError Destination :=
  if i.single && !p.isDeferred then .ok .whole
  else
    match i.elements.lookup p.position with
    | some id => .ok (.element id)
    | none => .error (.missingElement p.position)

/-- The job of a placeholder under the given options. -/
def jobOf (i : Instance) (given : InstanceOptions) (p : Placeholder) :
    Except TemplateError Job := do
  let options ← Options.resolve given p
  let destination ← i.destination p
  return { position := p.position, destination, method := p.method, source := p.source,
           tracked := p.isTracked, options }

/-- The elements of a trigger, of which there must be some. -/
def triggerNodes (i : Instance) (p : Position) (t : Trigger) : Except Failure (List NodeId) :=
  match i.arena.select i.root t.selector with
  | .error fault => .error (.arithmetic fault)
  | .ok [] => .error (.template (.noTriggerElements p t.source))
  | .ok nodes => .ok nodes

/-- Looks up and checks everything for one placeholder. -/
def plan (i : Instance) (given : InstanceOptions) (p : Placeholder) : Except Failure Plan :=
  match i.jobOf given p with
  | .error error => .error (.template error)
  | .ok job =>
    match p.trigger with
    | none => .ok (.start job)
    | some t => do return .standBy job p.mode t.event (← i.triggerNodes p.position t)

/-- Looks up and checks everything for placeholders in turn. -/
def planAll (i : Instance) (given : InstanceOptions) :
    List Placeholder → Except Failure (List Plan)
  | [] => .ok []
  | p :: ps => do
    let first ← i.plan given p
    return first :: (← planAll i given ps)

end Instance

namespace Scene

variable {σ : Type}

/-- Does what is planned for one placeholder. -/
def carryOut (observe : Observer σ) : Plan → SceneM σ Unit
  | .start job => launch observe job
  | .standBy job mode event nodes => modify (·.mapInst (·.standBy job mode event nodes))

/-- Does what is planned for placeholders in turn. -/
def carryOutAll (observe : Observer σ) : List Plan → SceneM σ Unit
  | [] => return ()
  | p :: ps => do
    carryOut observe p
    carryOutAll observe ps

end Scene

namespace Template

variable {σ : Type}

/-- An instance that fits the options, with what is to be done for its placeholders. -/
def planInstance (t : Template) (given : InstanceOptions) (id : Nat) :
    Except Failure (Instance × List Plan) :=
  match Options.validate t.single given with
  | .error error => .error (.template error)
  | .ok () =>
    match Instance.ofTemplate t id with
    | .error error => .error (.template error)
    | .ok i => do return (i, ← i.planAll given t.placeholders)

/-- Makes an instance on a host. The state is the host and what the observers keep; a failure keeps
it as it was at that moment. -/
def instantiate (observe : Observer σ) (t : Template) (given : InstanceOptions) (id : Nat) :
    EStateM Failure (Host × σ) Instance := fun (host, memory) =>
  match t.planInstance given id with
  | .error failure => .error failure (host, memory)
  | .ok (inst, plans) =>
    match (Scene.carryOutAll observe plans).run ⟨inst, host, memory⟩ with
    | .ok () s => .ok s.inst (s.host, s.memory)
    | .error failure s => .error failure (s.host, s.memory)

end Template

end Inlay
