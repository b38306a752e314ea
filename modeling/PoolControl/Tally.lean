/-! # Counters

A `Tally` counts what happened since the start, by counter. A counter that was never touched is not
in it. -/

namespace PoolControl

/-- What is counted. -/
inductive Counter where
  /-- Refreshed records by their outcome. -/
  | refreshed (outcome : String)
  /-- Notices and deliveries by their result. -/
  | notices (result : String)
  /-- Tasks of a pool to which the saturation policy was applied. -/
  | rejected (pool : String)
  deriving DecidableEq, Repr

/-- The name of a counter with its label. -/
def Counter.name : Counter → String
  | refreshed outcome => "dtp_refresh_total\x7boutcome=" ++ outcome ++ "\x7d"
  | notices result => "dtp_notifications_total\x7bresult=" ++ result ++ "\x7d"
  | rejected pool => "dtp_rejected_tasks_total\x7bpool=" ++ pool ++ "\x7d"

/-- How often each counter was touched. -/
structure Tally where
  counts : List (Counter × Nat) := []
  deriving DecidableEq, Repr

namespace Tally

/-- The count of a counter. -/
def count (t : Tally) (c : Counter) : Nat := ((t.counts.find? (·.1 == c)).map (·.2)).getD 0

/-- The tally with one more of a counter. -/
def bump (t : Tally) (c : Counter) : Tally :=
  if t.counts.any (·.1 == c) then
    { counts := t.counts.map fun e => if e.1 = c then (c, e.2 + 1) else e }
  else { counts := t.counts ++ [(c, 1)] }

end Tally
end PoolControl
