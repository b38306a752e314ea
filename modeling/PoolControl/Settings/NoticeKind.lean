import PoolControl.Settings.Decoding

/-! # Kinds of notice

What a notice can be about: a change of a pool's tunables, or one of the three alarms. -/

namespace PoolControl.Settings

/-- What a notice is about. -/
inductive NoticeKind where
  /-- The tunables of a pool were changed. -/
  | change
  /-- The workers running a task reached a share of the maximum size. -/
  | liveness
  /-- The queued tasks reached a share of the queue's capacity. -/
  | capacity
  /-- The rejections since the previous round reached a number. -/
  | reject
  deriving DecidableEq, Repr, Inhabited

namespace NoticeKind

/-- The configured name of a kind. -/
def name : NoticeKind → String
  | change => "change"
  | liveness => "liveness"
  | capacity => "capacity"
  | reject => "reject"

/-- Every kind in the order of the default rules. -/
def all : List NoticeKind := [change, liveness, capacity, reject]

/-- The kind that a datum names. -/
def ofDatum? (format : Format) : Datum → Option NoticeKind :=
  variant? format (all.map fun k => (k.name, k))

end NoticeKind
end PoolControl.Settings
