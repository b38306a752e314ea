import PoolControl.ControlPlane
import PoolControl.Refresh.Apply

/-! # Refreshing pools from a batch

`refresh` pushes a batch of records into the running pools. Each record has an `Outcome` of its own:
one that is invalid, or that names no registered pool, touches nothing; any other is applied, and if
the pool's snapshot has changed the platforms are notified, as far as the pool's rule for changes,
the throttle and the outbox allow (`notifyChange`). Records without a name are passed over. -/

namespace PoolControl

open Settings (Batch NotifyRule Platform Record)

/-- What became of the notification of a change. -/
inductive Decision where
  | scheduled
  /-- The outbox had no room for it. -/
  | dropped
  /-- The pool has no rule for changes that is enabled. -/
  | disabled
  /-- The batch has no platforms. -/
  | noPlatforms
  | rateLimited
  deriving DecidableEq, Repr

/-- What became of a record. -/
inductive Outcome where
  | invalid (error : Error)
  | notFound
  | unchanged (skipped : List Skip)
  | changed (diff : Diff) (decision : Decision) (skipped : List Skip)
  deriving DecidableEq, Repr

namespace Outcome

/-- The name of an outcome. -/
def label : Outcome → String
  | invalid _ => "invalid"
  | notFound => "not_found"
  | unchanged _ => "unchanged"
  | changed .. => "changed"

/-- The tunables that were refused. -/
def skipped : Outcome → List Skip
  | unchanged skipped => skipped
  | changed _ _ skipped => skipped
  | _ => []

/-- What was changed, if anything. -/
def diff? : Outcome → Option Diff
  | changed diff _ _ => some diff
  | _ => none

/-- Whether something was changed. -/
def isChanged (o : Outcome) : Bool := o.diff?.isSome

/-- Whether a notice was handed over. -/
def isScheduled : Outcome → Bool
  | changed _ .scheduled _ => true
  | _ => false

end Outcome

/-- The outcomes of the named records of a batch, in the order of the batch. -/
abbrev Summary := List (String × Outcome)

namespace Summary

/-- The first outcome of a name. -/
def get? (s : Summary) (name : String) : Option Outcome := (s.find? (·.1 == name)).map (·.2)

/-- How many records changed something. -/
def changed (s : Summary) : Nat := s.countP (·.2.isChanged)

/-- How many notices were handed over. -/
def scheduled (s : Summary) : Nat := s.countP (·.2.isScheduled)

end Summary

/-- Notifies the platforms of a change, if the rules allow it. -/
def notifyChange (c : ControlPlane) (p : Pool) (diff : Diff) (previous : Snapshot)
    (platforms : List Platform) : Decision × ControlPlane :=
  match (NotifyRule.find? p.rules .change).filter (·.enabled) with
  | none => (.disabled, c)
  | some rule =>
    if platforms.isEmpty then (.noPlatforms, c)
    else
      let (granted, c) := c.ask (p.name, .change)
      if granted then
        let (scheduled, c) :=
          c.post (.change
            { pool := p.name
              diff
              previous
              platforms := rule.platforms
              timestamp := c.timestamp })
        (if scheduled then .scheduled else .dropped, c)
      else (.rateLimited, c)

/-- Applies one record to the pool of its name. -/
def refreshRecord (platforms : List Platform) (c : ControlPlane) (r : Record) :
    Except Fault Outcome × ControlPlane :=
  match Pool.checkRecord r with
  | .error e => (.ok (.invalid e), c)
  | .ok _ =>
    match c.registry.get? r.name with
    | none => (.ok .notFound, c)
    | some p =>
      let applied := applyRecord platforms c.throttle c.nowNanos r p
      let c := { c.updatePool applied.pool with throttle := applied.throttle }
      match applied.fault with
      | some fault => (.error fault, c)
      | none =>
        match p.snapshot.diff applied.pool.snapshot with
        | [] => (.ok (.unchanged applied.skipped), c)
        | diff =>
          let (decision, c) := notifyChange c applied.pool diff p.snapshot platforms
          (.ok (.changed diff decision applied.skipped), c)

/-- Applies the records one after the other. A fault ends it. -/
def refreshRecords (platforms : List Platform) (c : ControlPlane) :
    List Record → Except Fault Summary × ControlPlane
  | [] => (.ok [], c)
  | r :: rs =>
    if Text.isBlankText r.name then refreshRecords platforms c rs
    else
      match refreshRecord platforms c r with
      | (.error fault, c) => (.error fault, c)
      | (.ok outcome, c) =>
        let (rest, c) := refreshRecords platforms (c.bump (.refreshed outcome.label)) rs
        (rest.map ((r.name, outcome) :: ·), c)

/-- Pushes a batch into the running pools. A batch without records changes nothing. -/
def refresh (c : ControlPlane) (b : Batch) : Except Fault Summary × ControlPlane :=
  if b.records.isEmpty then (.ok [], c)
  else refreshRecords b.platforms { c with outbox := c.outbox.sync b.platforms } b.records

end PoolControl
