/-!
Instants on the UTC scale.  An instant is a second since the epoch and nanoseconds into it; in a
leap second, which shares the number of the second before it, they run on above 10^9.
-/
namespace ClusterRegistry

structure Instant where
  second : Int
  nano : Nat
deriving DecidableEq, Repr

namespace Instant

def nanosPerSecond : Nat := 1000000000

def isBefore (instant other : Instant) : Bool :=
  instant.second < other.second ||
    (instant.second == other.second && instant.nano < other.nano)

def latest (instant other : Instant) : Instant :=
  if instant.isBefore other then other else instant

/-- The instant that lies `nanos` after the start of the epoch when no leap second counts. -/
def ofNanos (nanos : Int) : Instant :=
  ⟨nanos / nanosPerSecond, (nanos % nanosPerSecond).toNat⟩

/-- Move by a number of nanoseconds.  A move that stays inside a leap second, or leaves it
backwards by less than a second, counts from its position; any other move starts from the edge
of the leap second that it crosses. -/
def advance (instant : Instant) (step : Int) : Instant :=
  let moved := instant.nano + step
  if instant.nano < nanosPerSecond then ofNanos (instant.second * nanosPerSecond + moved)
  else if 2 * nanosPerSecond ≤ moved then
    ofNanos (instant.second * nanosPerSecond + moved - nanosPerSecond)
  else if step ≤ -nanosPerSecond then ofNanos (instant.second * nanosPerSecond + moved)
  else ⟨instant.second, moved.toNat⟩

end Instant

/-- A clock that moves by a fixed step at each reading. -/
structure Clock where
  next : Instant
  step : Int
deriving DecidableEq, Repr

def Clock.read (clock : Clock) : Instant × Clock :=
  (clock.next, { clock with next := clock.next.advance clock.step })

end ClusterRegistry
