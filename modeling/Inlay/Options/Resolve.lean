import Inlay.Options.Basic
import Inlay.Template.Placeholder

/-!
# Options of a placeholder

Which of the given options apply to a placeholder. A plain record applies to all placeholders, none
of which may then have a `ref`; of a list a placeholder takes the record whose id is its `ref`, and
default options without one. Headers are checked once the record is known.
-/

namespace Inlay.Options

/-- The earliest id that repeats one before it. -/
def repeatedId? (seen : List String) : List OptionsEntry → Option String
  | [] => none
  | e :: rest => if seen.contains e.id then some e.id else repeatedId? (e.id :: seen) rest

/-- Refuses a list in which an id stands twice. -/
def validateIds (entries : List OptionsEntry) : Except TemplateError Unit :=
  match repeatedId? [] entries with
  | some id => .error (.duplicateOptionsId id)
  | none => .ok ()

/-- Checks the options as a whole, for a template that is a single placeholder or not. -/
def validate (single : Bool) : InstanceOptions → Except TemplateError Unit
  | .plain _ => .ok ()
  | .byId entries =>
    if single then .error (.idNotApplicable .singleTemplate) else validateIds entries

/-- The characters of header names. -/
def isHeaderNameChar (c : Char) : Bool :=
  c.isAlphanum || "!#$%&'*+-.^_`|~".toList.contains c

def isHeaderName (name : String) : Bool :=
  !name.isEmpty && name.toList.all isHeaderNameChar

/-- Header values have neither line breaks nor NUL. -/
def isHeaderValue (value : String) : Bool :=
  value.toList.all fun c => c != '\r' && c != '\n' && c != '\x00'

/-- Refuses the first header that cannot be sent. -/
def validateHeaders : List (String × String) → Except TemplateError Unit
  | [] => .ok ()
  | (name, value) :: rest =>
    if !isHeaderName name then .error (.invalidHeaderName name)
    else if !isHeaderValue value then .error (.invalidHeaderValue name)
    else validateHeaders rest

/-- The record that applies to a placeholder. -/
def choose (input : InstanceOptions) (p : Placeholder) : Except TemplateError RequestOptions :=
  match input, p.ref with
  | .plain o, none => .ok o
  | .plain _, some _ => .error (.idNotApplicable .plainRecord)
  | .byId _, none => .ok {}
  | .byId entries, some id =>
    match entries.find? (·.id == id) with
    | some e => .ok e.options
    | none => .error (.unknownOptionsId p.position id)

/-- The options of a placeholder, with headers that can be sent. -/
def resolve (input : InstanceOptions) (p : Placeholder) : Except TemplateError RequestOptions := do
  let o ← choose input p
  validateHeaders o.headers
  return o

end Inlay.Options
