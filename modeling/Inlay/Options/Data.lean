import Inlay.Options.Basic
import Inlay.Template.Error

/-!
# Options from JSON data

An object is one record for all placeholders, an array a list of entries with an `id` and
`options`, and null no options. Fields are read in the order of their names, so of several faults
in one record the one in the first field is reported; a faulty header goes before all of them.
Unknown fields of a sound record are reported and ignored.
-/

namespace Inlay.Options

/-- A field that holds a string, where null means unset. -/
def string? : Json → Except Fault (Option String)
  | .null => .ok none
  | .str s => .ok (some s)
  | j => .error (.wrongType j .string)

/-- A field that holds a whole number from zero on, where null means unset. -/
def unsigned? : Json → Except Fault (Option Nat)
  | .null => .ok none
  | .int n =>
    if 0 ≤ n then .ok (some n.toNat) else .error (.wrongValue (.int n) .unsigned)
  | j => .error (.wrongType j .unsigned)

/-- A field that holds a truth value, where null means unset. -/
def boolean? : Json → Except Fault (Option Bool)
  | .null => .ok none
  | .bool b => .ok (some b)
  | j => .error (.wrongType j .boolean)

/-- How a field changes a record; none for a field of an unknown name. -/
def setField? (name : String) (value : Json) (o : RequestOptions) :
    Option (Except Fault RequestOptions) :=
  match name with
  | "body" => some do return { o with body := ← string? value }
  | "cache" => some do return { o with cache := ← string? value }
  | "credentials" => some do return { o with credentials := ← string? value }
  | "integrity" => some do return { o with integrity := ← string? value }
  | "keepalive" => some do return { o with keepalive := ← boolean? value }
  | "mode" => some do return { o with mode := ← string? value }
  | "redirect" => some do return { o with redirect := ← string? value }
  | "referrer" => some do return { o with referrer := ← string? value }
  | "referrerPolicy" => some do return { o with referrerPolicy := ← string? value }
  | "timeout" => some do return { o with timeout := ← unsigned? value }
  | "window" => some do return { o with window := ← string? value }
  | _ => none

/-- Applies fields in turn to a record; the record and the names of the unknown fields. -/
def setFields (o : RequestOptions) :
    List (String × Json) → Except Fault (RequestOptions × List String)
  | [] => .ok (o, [])
  | (name, value) :: rest =>
    match setField? name value o with
    | some changed => do setFields (← changed) rest
    | none => do
      let (o, unknown) ← setFields o rest
      return (o, name :: unknown)

/-- The headers of a record: strings by name. -/
def headersOf : List (String × Json) → Except TemplateError (List (String × String))
  | [] => .ok []
  | (name, .str value) :: rest => do return (name, value) :: (← headersOf rest)
  | (name, _) :: _ => .error (.invalidHeaderValue name)

/-- The headers field of a record. -/
def headersField (fields : List (String × Json)) : Except TemplateError (List (String × String)) :=
  match fields.lookup "headers" with
  | none | some .null => .ok []
  | some (.obj headers) => headersOf headers
  | some _ => .error (.invalidOptions .headersNoObject)

/-- Whether there is a field of that name. -/
def hasField (name : String) (fields : List (String × Json)) : Bool :=
  (fields.lookup name).isSome

/-- One record, and the names of its fields that mean nothing. -/
def recordOf (fields : List (String × Json)) :
    Except TemplateError (RequestOptions × List String) :=
  if hasField "get" fields then .error .observerInData
  else do
    let headers ← headersField fields
    match setFields { headers } (fields.filter (·.1 ≠ "headers")) with
    | .ok result => return result
    | .error fault => .error (.invalidOptions fault)

/-- One record; the fields that mean nothing are reported. -/
def readRecord (fields : List (String × Json)) : ReportM RequestOptions := do
  let (o, unknown) ← check (recordOf fields)
  report (unknown.map .unsupportedOption)
  return o

/-- The id of an entry, which must not be among those of the entries before it. -/
def entryId (index : Nat) (seen : List String) : Json → Except TemplateError String
  | .obj fields =>
    if hasField "get" fields then .error .observerInData
    else
      match fields.lookup "id" with
      | some (.str id) => if seen.contains id then .error (.duplicateOptionsId id) else .ok id
      | _ => .error (.invalidOptions (.entryIdNoString index))
  | _ => .error (.invalidOptions (.entryNoObject index))

/-- The options of an entry. -/
def readEntryOptions (index : Nat) (entry : Json) : ReportM RequestOptions :=
  match entry.get? "options" with
  | none | some .null => return {}
  | some (.obj fields) => readRecord fields
  | some _ => throw (.invalidOptions (.entryOptionsNoObject index))

/-- Entries in turn, the first of them at `index`, after entries with the ids in `seen`. -/
def readEntries (index : Nat) (seen : List String) : List Json → ReportM (List OptionsEntry)
  | [] => return []
  | entry :: rest => do
    let id ← check (entryId index seen entry)
    let options ← readEntryOptions index entry
    return ⟨id, options⟩ :: (← readEntries (index + 1) (id :: seen) rest)

/-- The options that JSON data denote. -/
def read : Json → ReportM InstanceOptions
  | .null => return .plain {}
  | .obj fields => return .plain (← readRecord fields)
  | .arr entries => return .byId (← readEntries 0 [] entries)
  | _ => throw (.invalidOptions .wrongShape)

end Inlay.Options
