import Inlay.Request.Delay
import Inlay.Request.Pace
import Inlay.Scene.Turn
import Inlay.Session.Basic

/-!
# Turns and time

The requests run in the background, at the pace of `Inlay.Pace`. What the program gets from them are
results: each one that it collects counts.

Loops are bounded by the number of turns that can be taken before every request has ended. A request
needs two turns at most, and every request that does not exist yet is started by a reaction.
-/

namespace Inlay.Session

/-- How many placeholders wait for events. -/
def standbyCount (s : Session) : Nat :=
  s.instances.foldl (fun n i => n + (i.map (·.standbys.length)).getD 0) 0

/-- How many turns there can be before every request has ended. -/
def bound (s : Session) : Nat :=
  2 * (s.host.tasks.length + s.watch.charges * s.standbyCount) + s.host.ready.length + 2

/-! ### The queue -/

/-- Gives a request its turn. -/
def turn (s : Session) (id : TaskId) : Session :=
  match s.host.task? id with
  | none => s
  | some t =>
    match s.instance? t.owner with
    | none => s
    | some i => (s.inScene i fun scene => ((), scene.turn s.observer id t)).2

/-- Gives the first `n` requests of the queue their turns, those that join it meanwhile included. -/
def turns : Nat → Session → Session
  | 0, s => s
  | n + 1, s =>
    match s.host.ready with
    | [] => s
    | id :: rest => turns n (turn { s with host := { s.host with ready := rest } } id)

/-- Lets a batch of turns pass. -/
def pause (s : Session) : Session :=
  { turns Pace.batch s with spent := 0 }

/-- Gives requests their turns until the queue is empty. -/
def drain (s : Session) : Session :=
  { turns s.bound s with spent := 0 }

/-- Moves the clock to the next time at which something goes on, if that is not after `limit`. -/
def skip? (s : Session) (limit : Option Nat) : Option Session :=
  match s.host.nextWake with
  | none => none
  | some time =>
    if limit.all (time ≤ ·) then some { s with host := s.host.advance time } else none

/-! ### Waiting -/

/-- Waits for a request, for at most `n` batches. -/
def waitRounds (id : TaskId) : Nat → Session → Session
  | 0, s => s
  | n + 1, s =>
    if s.host.isEnded id then s
    else
      let s := s.pause
      if s.host.isEnded id || !s.host.ready.isEmpty then waitRounds id n s
      else
        match s.skip? none with
        | some s => waitRounds id n s
        | none => s

/-- Waits for a request and collects its result. One that has ended is not waited for. -/
def waitFor (s : Session) (id : TaskId) : Option (Except RequestError Unit) × Session :=
  let s := if s.spent < Pace.allowance then s else s.pause
  let s := waitRounds id s.bound s
  ((s.host.task? id).bind Task.result?, { s with spent := s.spent + 1 })

/-- Waits for requests in turn. -/
def waitForAll (s : Session) : List (Position × TaskId) →
    List (Position × Option (Except RequestError Unit)) × Session
  | [] => ([], s)
  | (p, id) :: rest =>
    let (r, s) := s.waitFor id
    let (rs, s) := s.waitForAll rest
    ((p, r) :: rs, s)

/-- Lets everything happen up to a time, at most `n` times until something goes on. -/
def passRounds (limit : Nat) : Nat → Session → Session
  | 0, s => s
  | n + 1, s =>
    let s := s.drain
    match s.skip? (some limit) with
    | some s => passRounds limit n s
    | none => s

/-- Lets time pass; what becomes due at its end still happens. -/
def sleep (s : Session) (time : Nat) : Session :=
  let limit := s.host.now + Delay.actual time
  let s := passRounds limit s.bound s
  { s with host := s.host.advance limit }

end Inlay.Session
