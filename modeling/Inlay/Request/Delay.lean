/-!
# Delays

Nothing sleeps longer than thirty years of 365 days at a time: who asks for more is woken then. A
deadline is no sleep; it can be further away.
-/

namespace Inlay.Delay

/-- The longest sleep, in milliseconds. -/
def longest : Nat := 30 * 365 * 24 * 60 * 60 * 1000

/-- How long a sleep takes that is to take a given time. -/
def actual (time : Nat) : Nat := min time longest

end Inlay.Delay
