/-!
# Request options

What a caller can say about the requests of a template: one record for all placeholders, or several
that the placeholders select by id.
-/

namespace Inlay

/-- Names an abort signal of the host. -/
structure SignalId where
  number : Nat
deriving DecidableEq

/-- Options for the requests of one or more placeholders. -/
structure RequestOptions where
  credentials : Option String := none
  body : Option String := none
  mode : Option String := none
  cache : Option String := none
  redirect : Option String := none
  referrerPolicy : Option String := none
  integrity : Option String := none
  referrer : Option String := none
  window : Option String := none
  headers : List (String × String) := []
  signal : Option SignalId := none
  /-- Milliseconds; zero means none. -/
  timeout : Option Nat := none
  /-- Has no effect. -/
  keepalive : Option Bool := none
  /-- The name under which what happens to these requests is observed. -/
  observer : Option String := none
deriving DecidableEq

/-- Adds a header behind the others. -/
def RequestOptions.withHeader (o : RequestOptions) (name value : String) : RequestOptions :=
  { o with headers := o.headers ++ [(name, value)] }

/-- Options for the placeholders with that `ref`. -/
structure OptionsEntry where
  id : String
  options : RequestOptions
deriving DecidableEq

/-- The options given for one instance. -/
inductive InstanceOptions where
  /-- One record for all placeholders. -/
  | plain (options : RequestOptions)
  /-- A placeholder selects its record by id. -/
  | byId (entries : List OptionsEntry)

/-- Changes every record. -/
def InstanceOptions.map (f : RequestOptions → RequestOptions) : InstanceOptions → InstanceOptions
  | plain o => plain (f o)
  | byId entries => byId (entries.map fun e => { e with options := f e.options })

end Inlay
