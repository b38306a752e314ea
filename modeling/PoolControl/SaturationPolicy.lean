import PoolControl.Error
import PoolControl.Text.AsciiCase
import PoolControl.Text.Blank

/-! # Saturation policies

What a pool does with a task that finds neither room in the queue nor a worker to start. A policy is
configured by its name (`SaturationPolicy.resolve`); blanks around the name and the case of its
ASCII letters do not matter. -/

namespace PoolControl

/-- What a saturated pool does with a new task. -/
inductive SaturationPolicy where
  /-- Refuse the task. -/
  | abort
  /-- Let the submitter run the task itself. -/
  | callerRuns
  /-- Drop the task. -/
  | discard
  /-- Drop the oldest queued task and queue the new one. -/
  | discardOldest
  deriving DecidableEq, Repr, Inhabited

namespace SaturationPolicy

/-- The short name of a policy. -/
def shortName : SaturationPolicy → String
  | abort => "Abort"
  | callerRuns => "CallerRuns"
  | discard => "Discard"
  | discardOldest => "DiscardOldest"

/-- The configured name of a policy. -/
def name : SaturationPolicy → String
  | abort => "AbortPolicy"
  | callerRuns => "CallerRunsPolicy"
  | discard => "DiscardPolicy"
  | discardOldest => "DiscardOldestPolicy"

/-- Every policy, the default one first. -/
def all : List SaturationPolicy := [abort, callerRuns, discard, discardOldest]

/-- The policy that a configured name stands for. -/
def resolve (name : String) : Except Error SaturationPolicy :=
  let wanted := Text.trim name
  match all.find? fun p => Text.sameName p.name wanted with
  | some p => .ok p
  | none => .error (.unknownPolicy wanted)

end SaturationPolicy
end PoolControl
