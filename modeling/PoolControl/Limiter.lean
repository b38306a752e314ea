import PoolControl.Duration

/-! # Rate limiters

A limiter lets through so many alerts at once and then one per interval, as its `Quota` says. All
that it remembers is one word, so it is told by what it does with that word. How it keeps to its
quota is its own matter: whatever uses it takes any `Limiter`, and `Limiter.cellRate` is the one in
use.

Intervals and moments are in nanoseconds. -/

namespace PoolControl

/-- How many alerts are let through: as many as `burst` at once, and then one per interval. -/
structure Quota where
  interval : Nat
  burst : Nat
  deriving DecidableEq, Repr

/-- What decides whether another alert is due. -/
structure Limiter where
  /-- Whether there can be a limiter of that quota. -/
  makes (q : Quota) : Bool
  /-- What a fresh limiter remembers. -/
  fresh (q : Quota) : Nat
  /-- Asks for one alert, so long after the limiter was made. -/
  check (q : Quota) (word elapsed : Nat) : Bool × Nat

/-- The generic cell rate algorithm. It remembers the moment at which the alerts let through so far
are paid off, one per interval, and lets another through while fewer than `burst` of them are owed.
An interval has to fit a word. -/
def Limiter.cellRate : Limiter where
  makes q := decide (q.interval ≤ maxWord)
  fresh _ := 0
  check q paidOff elapsed :=
    if paidOff ≤ elapsed + q.interval * (q.burst - 1) then
      (true, max paidOff elapsed + q.interval)
    else (false, paidOff)

end PoolControl
