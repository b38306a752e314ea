import PoolControl.Settings.NoticeKind
import PoolControl.Snapshot
import PoolControl.Timestamp

/-! # Notices

A `Notice` tells the alert platforms that a pool's tunables were changed or that one of its
quantities reached a threshold. `Notice.toDatum` is its own serialization, and `Notice.payload` the
body of a request to a webhook. -/

namespace PoolControl

open Settings (NoticeKind)

/-- The tunables of a pool were changed. -/
structure ChangeNotice where
  pool : String
  diff : Diff
  /-- The tunables before the change. -/
  previous : Snapshot
  /-- The names of the platforms to deliver to. -/
  platforms : List String
  timestamp : Timestamp
  deriving DecidableEq, Repr

/-- A quantity of a pool reached its threshold. -/
structure AlarmNotice where
  pool : String
  kind : NoticeKind
  threshold : Nat
  /-- The quantity: a percentage, or a number of rejections. -/
  value : Nat
  size : Nat
  largest : Nat
  active : Nat
  queued : Nat
  queueCapacity : Nat
  rejected : Nat
  /-- The names of the platforms to deliver to. -/
  platforms : List String
  timestamp : Timestamp
  deriving DecidableEq, Repr

/-- What the alert platforms are told. -/
inductive Notice where
  | change (notice : ChangeNotice)
  | alarm (notice : AlarmNotice)
  deriving DecidableEq, Repr

namespace Notice

/-- The name of the pool that the notice is about. -/
def pool : Notice → String
  | change n => n.pool
  | alarm n => n.pool

/-- The kind of the notice. -/
def kind : Notice → NoticeKind
  | change _ => .change
  | alarm n => n.kind

/-- The names of the platforms to deliver to. -/
def platforms : Notice → List String
  | change n => n.platforms
  | alarm n => n.platforms

/-- The moment of the notice. -/
def timestamp : Notice → Timestamp
  | change n => n.timestamp
  | alarm n => n.timestamp

/-- The measured quantities of an alarm. -/
def quantities (n : AlarmNotice) : List (String × Nat) :=
  [("threshold", n.threshold), ("value", n.value), ("pool_size", n.size),
    ("largest_pool_size", n.largest), ("active_count", n.active), ("queue_size", n.queued),
    ("queue_capacity", n.queueCapacity), ("reject_count", n.rejected)]

/-- The members of the serialization, without the moment. -/
def members : Notice → List (String × Datum)
  | change n =>
    [("notice", .text "change"), ("executor", .text n.pool), ("diff", n.diff.toDatum),
      ("previous", n.previous.toDatum), ("platforms", .texts n.platforms)]
  | alarm n =>
    [("notice", .text "alarm"), ("executor", .text n.pool), ("kind", .text n.kind.name)] ++
      (quantities n).map (fun (name, value) => (name, .nat value)) ++
      [("platforms", .texts n.platforms)]

/-- The serialization of the notice. -/
def toDatum (n : Notice) : Datum :=
  .table (n.members ++ [("timestamp", .text (n.timestamp.text "Z"))])

/-- The title of the notice. -/
def title : Notice → String
  | change n => "DynamicTp executor [" ++ n.pool ++ "] changed"
  | alarm n => "DynamicTp executor [" ++ n.pool ++ "] " ++ n.kind.name ++ " alarm"

/-- The body of a request that delivers the notice to a webhook. -/
def payload (n : Notice) (receivers : List String) : Datum :=
  .table
    ([("type", .text n.kind.name), ("title", .text n.title), ("executor", .text n.pool)] ++
      (match n with
        | change c =>
          [("changes", .list (c.diff.map Change.toDatum)), ("previous", c.previous.toDatum)]
        | alarm a => (quantities a).map fun (name, value) => (name, .nat value)) ++
      [("receivers", .texts receivers), ("timestamp", .text (n.timestamp.text "+00:00"))])

end Notice
end PoolControl
