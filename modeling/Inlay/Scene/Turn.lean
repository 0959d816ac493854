import Inlay.Scene.Basic

/-!
# Turns of requests

At its turn a request first looks at its signal; with a reason to stop it ends without touching
anything. Only then is the transport asked, or its answer used. A request that waits for an answer
looks at its signal again only when that stirs; so it is not the clock that says whether the
deadline has passed for it, but the timer.
-/

namespace Inlay

/-- The error of a request whose signal has a reason. -/
def StopReason.error : StopReason → RequestError
  | .aborted => .aborted
  | .timedOut => .timedOut

namespace Scene

variable {σ : Type}

/-- Ends a request, whatever came of it. -/
def finish (id : TaskId) (job : Job) (result : Except RequestError Unit) (s : Scene σ) : Scene σ :=
  (s.mapInst (·.setRunning job false)).mapHost (·.setPhase id (.ended result))

/-- Uses the answer of the transport. -/
def receive (observe : Observer σ) (id : TaskId) (job : Job) (r : Response) (s : Scene σ) :
    Scene σ :=
  let s := s.changeStatus observe job r.status
  if isSuccess r.status then
    match (Instance.insertResponse job r.body).run s.inst with
    | .ok ns inst => ({ s with inst }.notifyAll observe job ns).finish id job (.ok ())
    | .error cause inst => { s with inst }.finish id job (.error (.insertion cause))
  else s.finish id job (.error (.failed r.status))

/-- Asks the transport. An answer without delay is used at once. -/
def ask (observe : Observer σ) (id : TaskId) (t : Task) (s : Scene σ) : Scene σ :=
  let (answer, transport) := s.host.transport.fetch t.request
  let s := s.mapHost ({ · with transport })
  match answer with
  | .error cause => s.finish id t.job (.error (.transport cause))
  | .ok reply =>
    if reply.delay = 0 then s.receive observe id t.job reply.response
    else s.mapHost (·.setPhase id (.waiting (s.host.now + reply.duration) reply.response))

/-- Looks at the signal of a request, or waits on for it to stir. -/
def lookAtSignal (t : Task) (s : Scene σ) : Option StopReason × Scene σ :=
  match t.request.signal with
  | none => (none, s)
  | some id =>
    if t.hasAsked && !s.host.signals.stirs id then (none, s)
    else
      let (reason, signals) := s.host.signals.look id
      (reason, s.mapHost ({ · with signals }))

/-- Gives a request its turn. -/
def turn (observe : Observer σ) (id : TaskId) (t : Task) (s : Scene σ) : Scene σ :=
  if t.isEnded then s
  else
    match s.lookAtSignal t with
    | (some reason, s) => s.finish id t.job (.error reason.error)
    | (none, s) =>
      match t.phase with
      | .started => s.ask observe id t
      | .waiting due r => if due ≤ s.host.rung then s.receive observe id t.job r else s
      | .ended _ => s

end Scene

end Inlay
