import Inlay.Request.Delay
import Inlay.Request.Pace
import Inlay.Request.Signal

/-!
# Waiting on signals

One program that uses signals while delayed aborts run in the background, at the pace of
`Inlay.Pace`. Whenever time has passed, the program is looked at before anything else that is due at
that moment.

The delay of an abort starts with its first turn, so an abort needs two turns at most. Each round of
waiting takes a turn, or ends a delay, or reaches the moment that the program waits for; that bounds
the rounds.
-/

namespace Inlay

/-- The signals, and the aborts that are still to come. -/
structure Timeline where
  signals : Signals
  /-- The aborts whose turn it is, in the order of the queue, and how long they still have to be
  delayed. -/
  ready : List (SignalId × Nat)
  /-- The aborts that are delayed, and until when. -/
  delayed : List (SignalId × Nat)
  /-- How many things the program got since it last let turns pass. -/
  spent : Nat

namespace Timeline

def empty : Timeline := ⟨.empty, [], [], 0⟩

/-- Aborts a signal after some time. -/
def abortLater (t : Timeline) (id : SignalId) (delay : Nat) : Timeline :=
  { t with ready := t.ready ++ [(id, delay)] }

/-! ### The queue -/

/-- Gives an abort its turn: the signal is aborted, or the delay starts. -/
def turn (t : Timeline) (id : SignalId) (delay : Nat) : Timeline :=
  if delay = 0 then { t with signals := t.signals.abort id }
  else { t with delayed := t.delayed ++ [(id, t.signals.now + Delay.actual delay)] }

/-- Gives the first `n` aborts of the queue their turns. -/
def turns : Nat → Timeline → Timeline
  | 0, t => t
  | n + 1, t =>
    match t.ready with
    | [] => t
    | (id, delay) :: rest => turns n (turn { t with ready := rest } id delay)

/-- Lets a batch of turns pass. -/
def pause (t : Timeline) : Timeline :=
  { turns Pace.batch t with spent := 0 }

/-- Sets the clock forward; the aborts whose delay is over get their turn. -/
def advance (t : Timeline) (now : Nat) : Timeline :=
  { t with
    signals := t.signals.advance now
    ready := t.ready ++ (t.delayed.filter (·.2 ≤ now)).map fun a => (a.1, 0)
    delayed := t.delayed.filter (now < ·.2) }

/-- The next moment at which a delay is over, or the given moment if that is earlier. -/
def nextMoment (t : Timeline) (moment : Nat) : Nat :=
  t.delayed.foldl (fun earliest a => min earliest a.2) moment

/-! ### The program -/

/-- Whether a program that waits for a moment, or for a reason of a signal, can go on. -/
def isOver (t : Timeline) (moment : Nat) (id : Option SignalId) : Bool :=
  decide (moment ≤ t.signals.now) || (id.bind t.signals.reason).isSome

/-- Waits for a moment, or for a reason of a signal, in at most `n` rounds. -/
def waitRounds (moment : Nat) (id : Option SignalId) : Nat → Timeline → Timeline
  | 0, t => t
  | n + 1, t =>
    if t.isOver moment id then t
    else if t.ready.isEmpty then waitRounds moment id n (t.advance (t.nextMoment moment))
    else waitRounds moment id n t.pause

/-- Waits for a moment, or for a reason of a signal, whichever is earlier. -/
def waitFor (t : Timeline) (moment : Nat) (id : Option SignalId) : Timeline :=
  let t := waitRounds moment id (3 * t.ready.length + 2 * t.delayed.length + 2) t
  { t with spent := 1 }

/-- Gets something that is at hand. -/
def spend (t : Timeline) : Timeline :=
  let t := if t.spent < Pace.allowance then t else t.pause
  { t with spent := t.spent + 1 }

/-- Lets time pass. A sleep of no time is over at once. -/
def sleep (t : Timeline) (time : Nat) : Timeline :=
  if time = 0 then t.spend else t.waitFor (t.signals.now + Delay.actual time) none

/-- Waits until a signal has a reason, but no longer than `patience`; that reason, or none. A signal
that has one already is not waited for. -/
def await (t : Timeline) (id : SignalId) (patience : Nat) : Option StopReason × Timeline :=
  match t.signals.reason id with
  | some r => (some r, t)
  | none =>
    let limit := t.signals.now + patience
    let deadline := (t.signals.get? id).bind (·.deadline)
    let t := t.waitFor ((deadline.map (min limit)).getD limit) (some id)
    (t.signals.reason id, t)

end Timeline

end Inlay
