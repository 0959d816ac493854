import Inlay.Arena.Edit
import Inlay.Diagnostic
import Inlay.Options.Fault
import Inlay.Selector.Message

/-!
# Template errors

Everything that can be wrong with a template or with the options it is used with, and what is
reported when an instance cannot be made or an event cannot be dispatched.
-/

namespace Inlay

/-- Why options cannot be selected by id. -/
inductive IdMisuse where
  /-- A template that is a single placeholder takes one record. -/
  | singleTemplate
  /-- A placeholder has a `ref`, but the options are one record. -/
  | plainRecord
deriving DecidableEq

def IdMisuse.message : IdMisuse → String
  | singleTemplate => "a single request template takes one options record"
  | plainRecord => "placeholder has a ref, but options were not given as a list"

/-- Why a template, its options or an event is refused. -/
inductive TemplateError where
  | emptyTemplate
  | multipleRoots (count : Nat)
  | noRoot
  | noPlaceholder
  | nestedPlaceholder (position : Position)
  | missingSource (position : Position)
  | invalidMethod (position : Position) (value : String)
  | invalidMode (position : Position) (value : String)
  | modeWithoutTrigger (position : Position)
  | triggerOnSingle
  | malformedTrigger (position : Position) (value : String)
  | invalidSelector (position : Position) (source : String) (error : Selector.SyntaxError)
  | idNotApplicable (why : IdMisuse)
  | unknownOptionsId (position : Position) (id : String)
  | duplicateOptionsId (id : String)
  | observerInData
  | invalidHeaderValue (name : String)
  | invalidHeaderName (name : String)
  | invalidOptions (fault : Options.Fault)
  | noTriggerElements (position : Position) (source : String)
  | missingElement (position : Position)
  | tree (fault : TreeFault)

/-- The beginning of messages about one placeholder. -/
def atPosition (position : Position) : String :=
  "placeholder at position " ++ toString position

def TemplateError.message : TemplateError → String
  | emptyTemplate => "template string is empty"
  | multipleRoots count =>
    "template must have exactly one top-level element, found " ++ toString count
  | noRoot => "template has no top-level element"
  | noPlaceholder => "no <request> placeholder found in the template"
  | nestedPlaceholder p => atPosition p ++ " contains another placeholder"
  | missingSource p => atPosition p ++ ": the \"src\" attribute is missing or empty"
  | invalidMethod p value =>
    atPosition p ++ ": method \"" ++ value ++ "\" is not one of GET, POST, PUT, PATCH or DELETE"
  | invalidMode p value => atPosition p ++ ": mode \"" ++ value ++ "\" is not ONE or ALL"
  | modeWithoutTrigger p => atPosition p ++ ": the \"mode\" attribute requires \"after\""
  | triggerOnSingle =>
    "the \"after\" attribute can't be used on a single request template, there is no event target"
  | malformedTrigger p value =>
    atPosition p ++ ": \"after\" value \"" ++ value ++ "\" is not of the form event:selector"
  | invalidSelector p source error =>
    atPosition p ++ ": invalid selector \"" ++ source ++ "\": " ++ error.message source
  | idNotApplicable why => "options ids are not applicable: " ++ why.message
  | unknownOptionsId p id =>
    "options id \"" ++ id ++ "\" referenced by the " ++ atPosition p ++ " not found"
  | duplicateOptionsId id => "options id \"" ++ id ++ "\" is given more than once"
  | observerInData => "the \"get\" observer option must be a function"
  | invalidHeaderValue name => "header \"" ++ name ++ "\" does not have a valid string value"
  | invalidHeaderName name => "invalid header name \"" ++ name ++ "\""
  | invalidOptions fault => "invalid options: " ++ fault.message
  | noTriggerElements p source =>
    atPosition p ++ ": trigger selector \"" ++ source ++ "\" matches no elements"
  | missingElement p => atPosition p ++ " is missing from the instance tree"
  | tree fault => fault.message

/-- A check that reports diagnostics on the way; those reported before a failure are kept. -/
abbrev ReportM := EStateM TemplateError (List Diagnostic)

/-- Reports diagnostics. -/
def report (ds : List Diagnostic) : ReportM Unit :=
  modify (· ++ ds)

/-- A check that reports nothing. -/
def check {α : Type} : Except TemplateError α → ReportM α
  | .ok x => pure x
  | .error e => throw e

end Inlay
