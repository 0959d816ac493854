import Inlay.Options.Resolve
import Inlay.Scene.Basic

/-!
# Starting requests

A request that is started joins the queue of its host and does nothing else yet. Its status goes
back to zero before it counts as running.
-/

namespace Inlay

/-- The timeout that counts: none if it is zero. -/
def RequestOptions.effectiveTimeout (o : RequestOptions) : Option Nat :=
  o.timeout.filter (· ≠ 0)

/-- The diagnostics that options cause each time a request is made with them. -/
def RequestOptions.diagnostics (o : RequestOptions) : List Diagnostic :=
  (if o.keepalive.isSome then [.unsupportedOption "keepalive"] else []) ++
  (if o.signal.isSome && o.effectiveTimeout.isSome then [.signalOverridesTimeout] else [])

/-- Whether a request can get its signal: the deadline of a new one has to be a moment that there
is. -/
def Signals.grants (signals : Signals) (o : RequestOptions) : Bool :=
  o.signal.isSome || o.effectiveTimeout.all signals.reaches

/-- The signal that a request gets: the given one, or a new one that times out, or none. -/
def Signals.forRequest (signals : Signals) (o : RequestOptions) : Option SignalId × Signals :=
  match o.signal, o.effectiveTimeout with
  | some id, _ => (some id, signals)
  | none, some time =>
    let (id, signals) := signals.create (some time)
    (some id, signals)
  | none, none => (none, signals)

/-- What is handed to the transport for a job. -/
def Job.outgoing (job : Job) (signal : Option SignalId) : Outgoing :=
  let o := job.options
  { method := job.method, url := job.source, headers := o.headers, body := o.body
    credentials := o.credentials, mode := o.mode, cache := o.cache, redirect := o.redirect
    referrerPolicy := o.referrerPolicy, integrity := o.integrity, referrer := o.referrer
    window := o.window, signal }

namespace Scene

variable {σ : Type}

/-- Makes what is handed to the transport. Fails for headers that cannot be sent; and for a timeout
that would end after the last moment that there is, but only when the diagnostics have been
reported. -/
def makeOutgoing (job : Job) : SceneM σ Outgoing := do
  match Options.validateHeaders job.options.headers with
  | .error error => throw (.template error)
  | .ok () =>
    modify (·.mapHost (·.report job.options.diagnostics))
    let signals := (← get).host.signals
    if signals.grants job.options then
      let (signal, signals) := signals.forRequest job.options
      modify (·.mapHost ({ · with signals }))
      return job.outgoing signal
    else throw (.arithmetic .momentOverflow)

/-- Starts a request. -/
def start (observe : Observer σ) (job : Job) : SceneM σ TaskId := do
  let request ← makeOutgoing job
  modify (·.changeStatus observe job 0)
  modify (·.mapInst (·.setRunning job true))
  let s ← get
  let (id, host) := s.host.enqueue ⟨s.inst.id, job, request, .started⟩
  set { s with host }
  return id

/-- Starts a request and keeps it among those that can be taken. -/
def launch (observe : Observer σ) (job : Job) : SceneM σ Unit := do
  let id ← start observe job
  modify (·.mapInst (·.addPending job.position id))

end Scene

end Inlay
