import PoolControl.Pool.Basic

/-! # Shutting a pool down

`Pool.stop` makes the pool take no more tasks. A graceful shutdown keeps the queued tasks and waits
for them; any other drops them. The waiting workers are woken, so that they leave once nothing is
queued.

Waiting for the last worker to leave is done by looking every `terminationPoll` milliseconds until a
deadline on the clock (`Termination`). -/

namespace PoolControl

namespace Pool

/-- Stops a running pool, and gives the queued tasks that were dropped. -/
def stop (p : Pool) : List Task × Pool :=
  let p := { p with running := false }
  if p.waitOnShutdown then ([], { p with queue := p.queue.wakeAll })
  else
    let (dropped, queue) := p.queue.drain
    (dropped, { p with queue := queue.wakeAll })

/-- How long a graceful shutdown waits. -/
def awaitSpan (p : Pool) : Duration := .ofSecs p.awaitSeconds.toNat

end Pool

/-- The time between two looks at a pool that is to terminate, in milliseconds. -/
def terminationPoll : Nat := 20

/-- The number of whole seconds after which the clock of a machine ends. -/
def clockEnd : Nat := 9223372036854775808

/-- A wait for the last worker of a pool to leave. -/
structure Termination where
  /-- The moment of the machine's clock, in nanoseconds, at which the wait is given up. -/
  deadline : Nat
  /-- The moment of the timer clock of the next look. -/
  nextLook : Nat
  deriving DecidableEq, Repr

/-- A wait of that span from now on, unless its deadline lies beyond the end of the clock. -/
def Termination.start? (clock : Clock) (span : Duration) : Option Termination :=
  let deadline := clock.nanos + span.nanos
  if deadline / 1000000000 < clockEnd then some { deadline, nextLook := clock.timer } else none

/-- One look at the pool: whether its last worker has left (`some true`), the wait is given up
(`some false`), or it goes on. -/
def Termination.look (t : Termination) (clock : Clock) (p : Pool) : Option Bool × Termination :=
  if p.size = 0 then (some true, t)
  else if t.deadline ≤ clock.nanos then (some false, t)
  else (none, { t with nextLook := clock.timer + terminationPoll })

end PoolControl
