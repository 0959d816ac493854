import Inlay.Request.Method
import Inlay.Selector.Syntax
import Inlay.Template.Error

/-!
# Placeholders

A `request` element stands for content that is to be fetched: `src` says from where, `method` how,
`ref` with which options, `after` upon which event at which elements, and `mode` how often. Without
`after` the content is fetched as soon as an instance of the template is made.
-/

namespace Inlay

/-- How often an event fires a placeholder. -/
inductive Mode where
  /-- On the first event only. -/
  | one
  /-- On every event, each time replacing the previous output. -/
  | all
deriving DecidableEq

/-- The mode of that name, in any ASCII case. -/
def Mode.parse? (s : String) : Option Mode :=
  if Text.eqIgnoreCase s "one" then some .one
  else if Text.eqIgnoreCase s "all" then some .all
  else none

/-- Which event at which elements fires a placeholder. -/
structure Trigger where
  event : String
  selector : Selector
  /-- The selector as written. -/
  source : String

/-- A validated placeholder. -/
structure Placeholder where
  position : Position
  source : String
  method : Method
  ref : Option String
  trigger : Option Trigger
  /-- Matters with a trigger only. -/
  mode : Mode

namespace Placeholder

/-- The tag name of placeholders. -/
def tag : String := "request"

/-- The attributes that mean something on a placeholder. -/
def knownAttributes : List String :=
  ["src", "method", "ref", "after", "mode"]

/-- A warning for each attribute without a meaning. -/
def unknownAttributes (e : Element) : List Diagnostic :=
  (e.attrs.filter (!knownAttributes.contains ·.1)).map (.unknownAttribute e.tag ·.1)

/-- The parts of an `after` value around its first colon, if neither the event is empty nor the
selector blank. -/
def triggerParts? (value : String) : Option (String × String) :=
  let event := value.toList.takeWhile (· ≠ ':')
  match value.toList.dropWhile (· ≠ ':') with
  | [] => none
  | _ :: selector =>
    if event.isEmpty || selector.all Text.isBlank then none
    else some (String.ofList event, String.ofList selector)

/-- Reads a trigger that is not empty. -/
def readTrigger (position : Position) (value : String) : Except TemplateError Trigger :=
  match triggerParts? value with
  | none => .error (.malformedTrigger position value)
  | some (event, source) =>
    match Selector.parse source with
    | .ok selector => .ok ⟨event, selector, source⟩
    | .error e => .error (.invalidSelector position source e)

def readSource (e : Element) (position : Position) : Except TemplateError String :=
  match e.attribute? "src" with
  | some s => if s.isEmpty then .error (.missingSource position) else .ok s
  | none => .error (.missingSource position)

/-- The method, which is GET unless given. -/
def readMethod (e : Element) (position : Position) : Except TemplateError Method :=
  match e.attribute? "method" with
  | none => .ok .get
  | some value =>
    match Method.parse? value with
    | some m => .ok m
    | none => .error (.invalidMethod position value)

/-- The mode, which is ALL unless given. -/
def readMode (e : Element) (position : Position) : Except TemplateError Mode :=
  match e.attribute? "mode" with
  | none => .ok .all
  | some value =>
    match Mode.parse? value with
    | some m => .ok m
    | none => .error (.invalidMode position value)

/-- The value of `after`, where an empty one counts as absent. -/
def triggerValue (e : Element) : Option String :=
  (e.attribute? "after").filter (!·.isEmpty)

/-- Validates the attributes of a placeholder element; `single` says that it is the root of its
template. -/
def ofElement (e : Element) (position : Position) (single : Bool) :
    Except TemplateError Placeholder := do
  let source ← readSource e position
  let method ← readMethod e position
  if (triggerValue e).isSome && single then throw .triggerOnSingle
  let mode ← readMode e position
  let trigger ← (match triggerValue e with
    | some value => some <$> readTrigger position value
    | none => if e.hasAttribute "mode" then throw (.modeWithoutTrigger position) else pure none :
    Except TemplateError (Option Trigger))
  return { position, source, method, ref := e.attribute? "ref", trigger, mode }

/-- Validates a placeholder element, after reporting the attributes that mean nothing. -/
def examine (e : Element) (position : Position) (single : Bool) : ReportM Placeholder := do
  report (unknownAttributes e)
  check (ofElement e position single)

/-- Whether an event fires the placeholder. -/
def isDeferred (p : Placeholder) : Bool :=
  p.trigger.isSome

/-- Whether firing again replaces the previous output. -/
def isTracked (p : Placeholder) : Bool :=
  p.trigger.isSome && p.mode == .all

end Placeholder

end Inlay
