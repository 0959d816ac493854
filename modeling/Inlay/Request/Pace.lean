/-!
# Pace

A program and what it has started in the background share one thread. What runs in the background
stands in a queue and gets a turn only while the program waits; time passes only when the queue is
empty. Two numbers keep either side from waiting for ever: a program that waits is looked at again
after every `batch` turns, and goes on if it can, even if the queue is not empty; a program that
finds all it asks for at hand has to let a batch of turns pass after every `allowance` of such
things.
-/

namespace Inlay.Pace

/-- How many turns there are at most before the program is looked at again. -/
def batch : Nat := 61

/-- How many things the program gets at most without letting a batch of turns pass. -/
def allowance : Nat := 128

end Inlay.Pace
