import PoolControl.Json.Writer
import PoolControl.Refresh

/-! # Watching a configuration source

A `Watch` refreshes the pools when its source gives another batch than the one that was applied
last. Batches are compared by their serialization, so a default that is written out equals one that
is left out. A batch that is switched off is remembered but not applied. -/

namespace PoolControl

open Settings (Batch)

/-- What a watch remembers. -/
structure Watch where
  /-- The serialization of the batch that was applied last. -/
  applied : Option String := none
  deriving DecidableEq, Repr

namespace Watch

/-- The serialization of a batch. -/
def fingerprint (b : Batch) : String := Json.write b.toDatum

/-- Remembers a batch that was applied elsewhere. -/
def mark (w : Watch) (b : Batch) : Watch := { w with applied := some (fingerprint b) }

/-- Whether the batch is another than the one that was applied last. -/
def isNew (w : Watch) (b : Batch) : Bool := w.applied != some (fingerprint b)

/-- What a look at the source led to. -/
inductive Sync where
  | failed (error : Error)
  | unchanged
  | changed (summary : Summary)
  | broken (fault : Fault)
  deriving DecidableEq, Repr

/-- Deals with what the source gave. -/
def sync (c : ControlPlane) (w : Watch) : Except Error Batch → (Sync × Watch) × ControlPlane
  | .error e => ((.failed e, w), c)
  | .ok b =>
    if !w.isNew b then ((.unchanged, w), c)
    else if !b.enabled then ((.changed [], w.mark b), c)
    else
      match refresh c b with
      | (.ok summary, c) => ((.changed summary, w.mark b), c)
      | (.error fault, c) => ((.broken fault, w), c)

end Watch
end PoolControl
