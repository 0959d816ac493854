import Inlay.Options.Basic

/-!
# Abort signals

A signal tells requests to stop, either because it was aborted or because its deadline passed. The
reason that comes first stays. A passed deadline is noticed when somebody looks at the signal or
aborts it; `Signal.reasonAt` does not depend on when that was.

Who waits for a signal does not look at it all the time, but only when woken (`Signals.stirs`): by
somebody who notices a reason, or by the timer of the deadline. The thread that rings the timers can
be busy, so the clock can be ahead of them.
-/

namespace Inlay

/-- Why a signal tells requests to stop. -/
inductive StopReason where
  | aborted
  | timedOut
deriving DecidableEq

/-- A signal; times are milliseconds. -/
structure Signal where
  deadline : Option Nat
  /-- The reason, once it was noticed. -/
  noticed : Option StopReason

namespace Signal

/-- Whether the deadline has passed: it does so at its own moment. -/
def isOverdue (s : Signal) (now : Nat) : Bool :=
  match s.deadline with
  | some d => decide (d ≤ now)
  | none => false

/-- The reason that holds at a time. -/
def reasonAt (s : Signal) (now : Nat) : Option StopReason :=
  match s.noticed with
  | some r => some r
  | none => if s.isOverdue now then some .timedOut else none

/-- Looks at the signal, which notices a passed deadline. -/
def look (s : Signal) (now : Nat) : Option StopReason × Signal :=
  (s.reasonAt now, { s with noticed := s.reasonAt now })

/-- Whether those who wait for the signal are woken: a reason was noticed, or the timer of the
deadline has rung. -/
def stirs (s : Signal) (rung : Nat) : Bool :=
  s.noticed.isSome || s.isOverdue rung

/-- Aborts the signal, unless there is a reason already. -/
def abort (s : Signal) (now : Nat) : Signal :=
  match s.reasonAt now with
  | some r => { s with noticed := some r }
  | none => { s with noticed := some .aborted }

end Signal

/-- A clock with its timers, and the signals made so far, in the order of their ids. -/
structure Signals where
  now : Nat
  /-- The moment up to which timers have rung: they may be late, but not early. -/
  rung : Nat
  table : List Signal
  rung_le_now : rung ≤ now

namespace Signals

def empty : Signals := ⟨0, 0, [], Nat.le_refl 0⟩

/-- The last moment that there is: the clock counts `2 ^ 63` seconds. -/
def horizon : Nat := Nat.pow 2 63 * 1000 - 1

/-- Whether a time that begins now ends at a moment that there is. -/
def reaches (s : Signals) (time : Nat) : Bool :=
  decide (s.now + time ≤ horizon)

/-- A new signal, which times out after some time if one is given. There is no signal with a
deadline after the `horizon`, so whoever makes one asks `reaches` before. -/
def create (s : Signals) (timeout : Option Nat) : SignalId × Signals :=
  (⟨s.table.length⟩, { s with table := s.table ++ [⟨timeout.map (s.now + ·), none⟩] })

def get? (s : Signals) (id : SignalId) : Option Signal :=
  s.table[id.number]?

/-- The reason of a signal at the present time. -/
def reason (s : Signals) (id : SignalId) : Option StopReason :=
  (s.get? id).bind (·.reasonAt s.now)

/-- Whether those who wait for a signal are woken at the present time. -/
def stirs (s : Signals) (id : SignalId) : Bool :=
  (s.get? id).any (·.stirs s.rung)

/-- Looks at a signal. -/
def look (s : Signals) (id : SignalId) : Option StopReason × Signals :=
  (s.reason id, { s with table := s.table.modify id.number fun x => (x.look s.now).2 })

/-- Aborts a signal. -/
def abort (s : Signals) (id : SignalId) : Signals :=
  { s with table := s.table.modify id.number (·.abort s.now) }

/-- Time passes, and timers ring up to a moment that may lie behind the clock. -/
def pass (s : Signals) (now rung : Nat) : Signals :=
  { s with
    now := max s.now now
    rung := min (max s.rung rung) (max s.now now)
    rung_le_now := Nat.min_le_right _ _ }

/-- Sets the clock forward and rings the timers up to then. -/
def advance (s : Signals) (now : Nat) : Signals :=
  s.pass now now

end Signals

end Inlay
