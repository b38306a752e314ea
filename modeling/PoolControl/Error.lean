import PoolControl.Settings.QueueKind

/-! # Errors

`Error` lists the causes for which an operation of the library is refused, `Error.kind` sorts them
into the kinds that a user tells apart, and `Error.message` words them: the lead of the kind
(`ErrorKind.lead`) and then the particulars. -/

namespace PoolControl

open Settings (QueueKind)

/-- The kind of an error. -/
inductive ErrorKind where
  | notFound
  | validation
  | unknownPolicy
  | capacityMismatch
  | invalidSize
  | rejected
  | stopped
  | delivery
  | configuration
  | http
  | serialization
  deriving DecidableEq, Repr

/-- The words that messages of a kind begin with. The capacity mismatch has a wording of its own. -/
def ErrorKind.lead : ErrorKind → String
  | notFound => "Executor not found: "
  | validation => "Invalid executor properties: "
  | unknownPolicy => "Unknown rejection policy: "
  | capacityMismatch => "Queue "
  | invalidSize => "Invalid pool size: "
  | rejected => "Task rejected by executor: "
  | stopped => "Executor is shut down: "
  | delivery => "Notification delivery failed: "
  | configuration => "Configuration error: "
  | http => "HTTP error: "
  | serialization => "Serialization error: "

/-- A cause for which an operation is refused. -/
inductive Error where
  /-- No pool is registered under the name. -/
  | notFound (pool : String)
  /-- A record's sizes and keep-alive describe no pool that can be run. -/
  | invalidRecord (pool : String) (core max keepAlive : Int)
  | unknownPolicy (name : String)
  /-- A queue whose kind has a fixed capacity was to be given another one. -/
  | fixedCapacity (pool : String) (kind : QueueKind)
  | coreAboveMax (pool : String) (core max : Nat)
  | maxTooSmall (pool : String) (max core : Nat)
  /-- Core workers may time out only after a nonzero keep-alive. -/
  | zeroKeepAlive (pool : String)
  /-- A saturated pool refused a task. -/
  | rejected (pool : String)
  /-- The pool takes no more tasks. -/
  | stopped (pool : String)
  /-- A channel could not deliver a notice. -/
  | delivery (reason : String)
  /-- A configuration could not be had from its source. -/
  | configuration (reason : String)
  /-- A request was not answered. -/
  | http
  /-- A text is not the serialization of a value. -/
  | serialization
  deriving DecidableEq, Repr

namespace Error

/-- The kind that an error belongs to. -/
def kind : Error → ErrorKind
  | notFound _ => .notFound
  | invalidRecord .. => .validation
  | unknownPolicy _ => .unknownPolicy
  | fixedCapacity .. => .capacityMismatch
  | coreAboveMax .. => .invalidSize
  | maxTooSmall .. => .invalidSize
  | zeroKeepAlive _ => .invalidSize
  | rejected _ => .rejected
  | stopped _ => .stopped
  | delivery _ => .delivery
  | configuration _ => .configuration
  | http => .http
  | serialization => .serialization

/-- The wording of a capacity mismatch. -/
def capacityText (kind pool : String) : String :=
  ErrorKind.lead .capacityMismatch ++ kind ++ " does not support capacity change (executor: " ++
    pool ++ ")"

/-- The particulars of an error, as they follow the lead of its kind. -/
def particulars : Error → String
  | notFound pool => pool
  | invalidRecord pool core max keepAlive =>
    "executor [" ++ pool ++ "]: core_pool_size=" ++ toString core ++ ", maximum_pool_size=" ++
      toString max ++ ", keep_alive_time=" ++ toString keepAlive
  | unknownPolicy name => name
  | fixedCapacity _ kind => kind.name
  | coreAboveMax pool core max =>
    "executor [" ++ pool ++ "]: core size " ++ toString core ++ " exceeds max size " ++ toString max
  | maxTooSmall pool max core =>
    "executor [" ++ pool ++ "]: max size " ++ toString max ++ " must be > 0 and >= core size " ++
      toString core
  | zeroKeepAlive pool => "executor [" ++ pool ++ "]: core threads must have a nonzero keep-alive"
  | rejected pool => pool
  | stopped pool => pool
  | delivery reason => reason
  | configuration reason => reason
  | http => ""
  | serialization => ""

/-- The wording of an error. -/
def message : Error → String
  | fixedCapacity pool kind => capacityText kind.name pool
  | e => e.kind.lead ++ e.particulars

end Error

/-- A failure of the program itself, after which the operation is abandoned where it stands. -/
inductive Fault where
  /-- A throttle interval does not fit the nanosecond counter. -/
  | intervalTooLong
  /-- A deadline lies beyond the last moment of the clock. -/
  | clockOverflow
  /-- A backlog is larger than any can be. -/
  | backlogTooLarge
  /-- A task that its submitter ran itself failed. -/
  | inlineTask
  deriving DecidableEq, Repr

end PoolControl
