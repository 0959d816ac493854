import Inlay.Request.Transport
import Inlay.Template.Error

/-!
# Failures

How a request that was started can end without success, and what a synchronous operation on an
instance can fail with.
-/

namespace Inlay

/-- Why a response could not be put into the tree. -/
inductive InsertError where
  | tree (fault : TreeFault)
  /-- The placeholder has no parent any more. -/
  | unattached (position : Position)
deriving DecidableEq

def InsertError.message : InsertError → String
  | tree fault => fault.message
  | unattached p => atPosition p ++ " is not attached to the tree"

/-- Why a request did not succeed. -/
inductive RequestError where
  /-- A response came, with a status that means failure. -/
  | failed (status : Nat)
  | transport (cause : NoRoute)
  | aborted
  | timedOut
  | insertion (cause : InsertError)
deriving DecidableEq

namespace RequestError

def message : RequestError → String
  | failed status => "request error with code " ++ toString status
  | transport cause => "transport error: " ++ cause.message
  | aborted => "request was aborted"
  | timedOut => "request timed out"
  | insertion cause => "inserting the response: " ++ cause.message

/-- The status, if a response came. -/
def status? : RequestError → Option Nat
  | failed status => some status
  | _ => none

end RequestError

/-- Why an instance cannot be made, or an event not be dispatched. -/
inductive Failure where
  | template (error : TemplateError)
  /-- The arithmetic of a trigger selector has no result, or that of the deadline of a request. -/
  | arithmetic (fault : Selector.ArithmeticFault)

end Inlay
