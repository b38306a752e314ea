import PoolControl.Settings.Decoding

/-! # Queue kinds

The five kinds of work queue that a pool can be given. Only the first can be resized while the pool
runs, and the hand-off queue holds no tasks of its own: it accepts a task only for a worker that
already waits. The others differ in name alone. -/

namespace PoolControl.Settings

/-- The kind of a pool's work queue. -/
inductive QueueKind where
  | resizable
  | linked
  | array
  | handOff
  | priority
  deriving DecidableEq, Repr, Inhabited

namespace QueueKind

/-- The configured name of a kind. -/
def name : QueueKind → String
  | resizable => "VariableLinkedBlockingQueue"
  | linked => "LinkedBlockingQueue"
  | array => "ArrayBlockingQueue"
  | handOff => "SynchronousQueue"
  | priority => "PriorityBlockingQueue"

/-- Every kind, the default one first. -/
def all : List QueueKind := [resizable, linked, array, handOff, priority]

/-- Whether a queue of this kind can be given another capacity. -/
def isResizable (k : QueueKind) : Bool := k == resizable

/-- The kind that a datum names. -/
def ofDatum? (format : Format) : Datum → Option QueueKind :=
  variant? format (all.map fun k => (k.name, k))

end QueueKind
end PoolControl.Settings
