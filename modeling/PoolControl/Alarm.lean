import PoolControl.ControlPlane

/-! # Alarm rounds

An alarm round looks at every registered pool and raises an alarm where a quantity has reached the
threshold of the pool's rule: the active workers in percent of the maximum size, the queued tasks in
percent of the queue's capacity, or the rejections since the previous round (`Monitor`). The
throttle is asked only when nothing else stands against the alarm. -/

namespace PoolControl

open Settings (NoticeKind NotifyRule)

/-- The monitor's memory between two rounds. -/
structure Monitor where
  enabled : Bool := true
  /-- The rejections of each pool, by name, at the previous round. -/
  lastRejected : List (String × Nat) := []
  deriving DecidableEq, Repr

namespace Monitor

/-- The rejections of a pool at the previous round. -/
def rejectedBefore (m : Monitor) (name : String) : Nat :=
  ((m.lastRejected.find? (·.1 == name)).map (·.2)).getD 0

/-- Remembers the rejections of a pool. -/
def remember (m : Monitor) (name : String) (rejected : Nat) : Monitor :=
  { m with lastRejected := (name, rejected) :: m.lastRejected.filter (·.1 != name) }

/-- A part as a whole-number percentage, none of nothing. The product is clipped to a word. -/
def percent? (part whole : Nat) : Option Nat :=
  if whole = 0 then none else some (min (part * 100) maxWord / whole)

/-- The quantity that a kind of alarm watches. -/
def measure? (m : Monitor) (p : Pool) : NoticeKind → Option Nat
  | .liveness => percent? p.active p.maxSize
  | .capacity => percent? p.queue.size p.queue.capacity
  | .reject => some (p.rejected - m.rejectedBefore p.name)
  | .change => none

/-- The rule that calls for an alarm at that quantity, if one does. -/
def dueRule? (p : Pool) (kind : NoticeKind) (value : Nat) : Option NotifyRule :=
  (NotifyRule.find? p.rules kind).filter fun rule =>
    rule.enabled && decide (0 < rule.thresholdValue) && decide (rule.thresholdValue ≤ value) &&
      !rule.platforms.isEmpty

/-- The notice of an alarm. -/
def notice (p : Pool) (kind : NoticeKind) (rule : NotifyRule) (value : Nat)
    (timestamp : Timestamp) : Notice :=
  .alarm
    { pool := p.name
      kind
      threshold := rule.thresholdValue
      value
      size := p.size
      largest := p.largest
      active := p.active
      queued := p.queue.size
      queueCapacity := p.queue.capacity
      rejected := p.rejected
      platforms := rule.platforms
      timestamp }

/-- Raises an alarm of one kind for one pool if it is due, and says whether it was handed over. -/
def check (c : ControlPlane) (m : Monitor) (p : Pool) (kind : NoticeKind) : Bool × ControlPlane :=
  match (m.measure? p kind).bind fun value => (dueRule? p kind value).map (·, value) with
  | none => (false, c)
  | some (rule, value) =>
    let (granted, c) := c.ask (p.name, kind)
    if granted then c.post (notice p kind rule value c.timestamp) else (false, c)

/-- The kinds of alarm in the order of the checks. -/
def alarmKinds : List NoticeKind := [.liveness, .capacity, .reject]

/-- Checks the kinds one after the other, and gives those that were raised. -/
def checkKinds (c : ControlPlane) (m : Monitor) (p : Pool) :
    List NoticeKind → List (String × NoticeKind) × ControlPlane
  | [] => ([], c)
  | kind :: kinds =>
    let (raised, c) := check c m p kind
    let (rest, c) := checkKinds c m p kinds
    (if raised then (p.name, kind) :: rest else rest, c)

/-- Checks the pools one after the other, and gives the alarms that were raised. -/
def checkPools (c : ControlPlane) (m : Monitor) :
    List Pool → (List (String × NoticeKind) × Monitor) × ControlPlane
  | [] => (([], m), c)
  | p :: ps =>
    let (raised, c) := checkKinds c m p alarmKinds
    let ((rest, m), c) := checkPools c (m.remember p.name p.rejected) ps
    ((raised ++ rest, m), c)

/-- One round over all registered pools. -/
def round (c : ControlPlane) (m : Monitor) :
    (List (String × NoticeKind) × Monitor) × ControlPlane :=
  if m.enabled then checkPools c m c.registry.pools else (([], m), c)

end Monitor
end PoolControl
