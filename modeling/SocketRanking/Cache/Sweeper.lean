import SocketRanking.Cache.Basic

/-!
# The background sweeper

A task that sleeps until the cache's deadline, sweeps the cache if nothing has refreshed it in the
meantime, and sleeps again. `Cache.sweepUntil` is what it does while the clock moves on.
-/

namespace SocketRanking.Cache

variable {α : Type} [Scalar α]

/-- When a sweeper that looks at the cache at `now` acts next: at the deadline, or at once if the
deadline has passed. -/
def nextWake (c : Cache α) (now : Nat) : Nat :=
  max now c.deadline

/-- Lets the sweeper act while the clock moves from `now` to `stop`, both ends included, and adds
its sweeps to a count. A cache that never holds would be swept without end at one instant; it is
swept once. -/
def sweepUntil (c : Cache α) (now stop count : Nat) : Cache α × Nat :=
  if c.nextWake now ≤ stop then
    if 0 < c.ttl then
      (c.sweep (c.nextWake now)).sweepUntil (c.nextWake now) stop (count + 1)
    else (c.sweep stop, count + 1)
  else (c, count)
termination_by stop + 1 - c.nextWake now
decreasing_by
  rename_i wakes holds
  have later : (c.sweep (c.nextWake now)).nextWake (c.nextWake now) = c.nextWake now + c.ttl := by
    simp only [nextWake, deadline, sweep, clean]
    omega
  omega

end SocketRanking.Cache
