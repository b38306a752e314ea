import PoolControl.Outbox
import PoolControl.Registry
import PoolControl.Tally
import PoolControl.Throttle

/-! # The control plane

What refreshes, binds and alarm rounds work on: the registered pools, the throttle of their alerts,
the outbox of notices, the counters, and the clocks. -/

namespace PoolControl

/-- The registered pools and all that alerts about them go through. -/
structure ControlPlane where
  registry : Registry := {}
  throttle : Throttle := .single
  outbox : Outbox
  tally : Tally := {}
  clock : Clock := {}

namespace ControlPlane

/-- The moment on the wall clock, in nanoseconds. -/
def nowNanos (c : ControlPlane) : Nat := c.clock.wall * 1000000

/-- The moment that notices bear. -/
def timestamp (c : ControlPlane) : Timestamp := .ofMillis c.clock.wall

/-- The control plane with one more of a counter. -/
def bump (c : ControlPlane) (counter : Counter) : ControlPlane :=
  { c with tally := c.tally.bump counter }

/-- Hands a notice to the outbox and counts whether it was taken. -/
def post (c : ControlPlane) (n : Notice) : Bool × ControlPlane :=
  let (scheduled, outbox) := c.outbox.post n
  (scheduled, { c with outbox }.bump (.notices (if scheduled then "scheduled" else "dropped")))

/-- Asks the throttle for an alert. -/
def ask (c : ControlPlane) (key : GaugeKey) : Bool × ControlPlane :=
  let (granted, throttle) := c.throttle.ask key c.nowNanos
  (granted, { c with throttle })

/-- The control plane with the pool in the place of the registered pool of the same name. -/
def updatePool (c : ControlPlane) (p : Pool) : ControlPlane :=
  { c with registry := c.registry.update p }

end ControlPlane
end PoolControl
