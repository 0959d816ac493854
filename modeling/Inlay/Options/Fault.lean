import Inlay.Json.Value
import Inlay.Decimal.Layout
import Inlay.Text.Quoted

/-!
# Faults in options data

What can be wrong with options that are given as JSON data, apart from headers and ids.
-/

namespace Inlay.Options

/-- What the value of a typed option has to be. -/
inductive Expected where
  | string
  /-- A whole number from zero on. -/
  | unsigned
  | boolean
deriving DecidableEq

def Expected.text : Expected → String
  | string => "a string"
  | unsigned => "u64"
  | boolean => "a boolean"

/-- A JSON value as messages name it. -/
def describe : Json → String
  | .null => "null"
  | .bool b => "boolean `" ++ toString b ++ "`"
  | .int n => "integer `" ++ toString n ++ "`"
  | .real x => "floating point `" ++ Decimal.RealLayout.message.render x ++ "`"
  | .str s => "string " ++ Text.quoted s
  | .arr _ => "sequence"
  | .obj _ => "map"

/-- Why JSON data are no options. -/
inductive Fault where
  /-- Neither an object, an array nor null. -/
  | wrongShape
  | headersNoObject
  | entryNoObject (index : Nat)
  | entryIdNoString (index : Nat)
  | entryOptionsNoObject (index : Nat)
  | wrongType (found : Json) (expected : Expected)
  /-- A number of the right type that is out of range. -/
  | wrongValue (found : Json) (expected : Expected)

def Fault.message : Fault → String
  | wrongShape => "options must be an object, an array or null"
  | headersNoObject => "the \"headers\" property must be an object"
  | entryNoObject i => "options entry " ++ toString i ++ " is not an object"
  | entryIdNoString i => "options entry " ++ toString i ++ ": \"id\" must be a string"
  | entryOptionsNoObject i => "options entry " ++ toString i ++ ": \"options\" must be an object"
  | wrongType found expected =>
    "invalid type: " ++ describe found ++ ", expected " ++ expected.text
  | wrongValue found expected =>
    "invalid value: " ++ describe found ++ ", expected " ++ expected.text

end Inlay.Options
