/-!
# JSON values

Whole numbers in the range of 64-bit integers, signed or unsigned, are kept exactly; all other
numbers are doubles. The fields of an object are held in ascending order of their names, each name
once.
-/

namespace Inlay

/-- A JSON value. -/
inductive Json where
  | null
  | bool (b : Bool)
  | int (n : Int)
  | real (x : Float)
  | str (s : String)
  | arr (items : List Json)
  | obj (fields : List (String × Json))
deriving Inhabited

namespace Json

/-- Puts a field into an ordered list of fields; a field of the same name is replaced. -/
def putField (name : String) (value : Json) : List (String × Json) → List (String × Json)
  | [] => [(name, value)]
  | (k, v) :: rest =>
    if name < k then (name, value) :: (k, v) :: rest
    else if name = k then (name, value) :: rest
    else (k, v) :: putField name value rest

/-- The object with the given fields; of two fields of one name the later one counts. -/
def ofFields (fields : List (String × Json)) : Json :=
  .obj (fields.foldl (fun acc f => putField f.1 f.2 acc) [])

/-- The field of that name, if the value is an object and has one. -/
def get? (name : String) : Json → Option Json
  | obj fields => fields.lookup name
  | _ => none

end Json

end Inlay
