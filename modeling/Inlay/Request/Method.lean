import Inlay.Text.Quoted

/-!
# Request methods
-/

namespace Inlay

/-- The methods that a placeholder may use. -/
inductive Method where
  | get
  | post
  | put
  | patch
  | delete
deriving DecidableEq

namespace Method

def text : Method → String
  | get => "GET"
  | post => "POST"
  | put => "PUT"
  | patch => "PATCH"
  | delete => "DELETE"

/-- Every method. -/
def all : List Method := [get, post, put, patch, delete]

/-- The method of that name, in any ASCII case. -/
def parse? (s : String) : Option Method :=
  all.find? fun m => m.text == s.toUpper

/-- The message about a name that no method has. -/
def unknownMessage (s : String) : String :=
  "invalid http request method " ++ Text.quoted s

end Method

end Inlay
