import Inlay.Options.Basic
import Inlay.Request.Delay
import Inlay.Request.Method

/-!
# Transport

What goes out and what comes back, and a transport that serves prepared replies. Several replies for
one method and address are served in order, the last one again and again. Every request is
recorded, those without a reply too.
-/

namespace Inlay

/-- A request as it is handed to the transport. -/
structure Outgoing where
  method : Method
  url : String
  headers : List (String × String) := []
  body : Option String := none
  credentials : Option String := none
  mode : Option String := none
  cache : Option String := none
  redirect : Option String := none
  referrerPolicy : Option String := none
  integrity : Option String := none
  referrer : Option String := none
  window : Option String := none
  signal : Option SignalId := none
deriving DecidableEq

/-- A response; error statuses are responses like any other. -/
structure Response where
  status : Nat
  body : String
deriving DecidableEq

/-- Whether a status means success. -/
def isSuccess (status : Nat) : Bool :=
  200 ≤ status && status ≤ 299

/-- A prepared reply. -/
structure Reply where
  response : Response
  /-- How long it is to take, in milliseconds. -/
  delay : Nat
deriving DecidableEq

/-- How long a reply takes. -/
def Reply.duration (r : Reply) : Nat :=
  Delay.actual r.delay

/-- Method and address. -/
structure Endpoint where
  method : Method
  url : String
deriving DecidableEq

def Endpoint.text (e : Endpoint) : String :=
  e.method.text ++ " " ++ e.url

def Outgoing.endpoint (r : Outgoing) : Endpoint :=
  ⟨r.method, r.url⟩

/-- There is no reply for an endpoint; with the endpoints that have some. -/
structure NoRoute where
  endpoint : Endpoint
  known : List Endpoint
deriving DecidableEq

def NoRoute.message (e : NoRoute) : String :=
  let known := (e.known.map Endpoint.text).mergeSort (fun a b => decide (a ≤ b))
  "StubTransport: no route for " ++ e.endpoint.method.text ++ " \"" ++ e.endpoint.url ++
    "\" (have: " ++ ", ".intercalate known ++ ")"

/-- A transport with prepared replies, and the requests it has seen. -/
structure CannedTransport where
  routes : List (Endpoint × List Reply)
  calls : List Outgoing

namespace CannedTransport

def empty : CannedTransport := ⟨[], []⟩

/-- Puts a reply behind those that the endpoint has. -/
def addReply (e : Endpoint) (reply : Reply) :
    List (Endpoint × List Reply) → List (Endpoint × List Reply)
  | [] => [(e, [reply])]
  | (e', replies) :: rest =>
    if e' = e then (e', replies ++ [reply]) :: rest else (e', replies) :: addReply e reply rest

/-- Prepares one more reply. -/
def route (t : CannedTransport) (e : Endpoint) (reply : Reply) : CannedTransport :=
  { t with routes := addReply e reply t.routes }

/-- The replies that an endpoint has after one was served: the last one is kept. -/
def afterServing : List Reply → List Reply
  | _ :: next :: rest => next :: rest
  | replies => replies

/-- Takes the next reply of an endpoint. -/
def takeReply (e : Endpoint) :
    List (Endpoint × List Reply) → Option (Reply × List (Endpoint × List Reply))
  | [] => none
  | (e', replies) :: rest =>
    if e' = e then replies.head?.map (·, (e', afterServing replies) :: rest)
    else (takeReply e rest).map fun r => (r.1, (e', replies) :: r.2)

/-- Records a request and finds its reply. -/
def fetch (t : CannedTransport) (r : Outgoing) : Except NoRoute Reply × CannedTransport :=
  let calls := t.calls ++ [r]
  match takeReply r.endpoint t.routes with
  | some (reply, routes) => (.ok reply, ⟨routes, calls⟩)
  | none => (.error ⟨r.endpoint, t.routes.map (·.1)⟩, { t with calls })

end CannedTransport

end Inlay
