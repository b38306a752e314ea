import PoolControl.Pool.Basic

/-! # Admission of tasks

`Pool.submit` decides what becomes of a new task. As long as fewer workers than the core size hold a
slot, one is started for it; otherwise it is queued; where the queue has no room, a worker is
started up to the maximum size; and a saturated pool follows its policy (`Pool.saturated`). -/

namespace PoolControl

/-- What became of a submitted task. -/
inductive Admission where
  /-- A worker was started for it. -/
  | handed
  /-- It waits in the queue. -/
  | queued
  /-- The pool was shut down before. -/
  | stopped
  /-- It was refused. -/
  | refused
  /-- Its submitter runs it. -/
  | inline
  /-- It was dropped. -/
  | discarded
  /-- The oldest queued task, if there was one, was dropped, and it waits in the queue if that made
  room. -/
  | displaced (oldest : Option Task) (kept : Bool)
  deriving DecidableEq, Repr

namespace Admission

/-- Whether the saturation policy decided. -/
def isSaturated : Admission → Bool
  | handed | queued | stopped => false
  | refused | inline | discarded | displaced .. => true

/-- The error that the submitter is told. -/
def error? (pool : String) : Admission → Option Error
  | stopped => some (.stopped pool)
  | refused => some (.rejected pool)
  | _ => none

end Admission

namespace Pool

/-- What a saturated pool does with a new task. -/
def saturated (p : Pool) (t : Task) : Admission × Pool :=
  let p := { p with rejected := p.rejected + 1 }
  match p.policy with
  | .abort => (.refused, p)
  | .callerRuns => (.inline, p)
  | .discard => (.discarded, p)
  | .discardOldest =>
    let (oldest, queue) := p.queue.poll
    match queue.offer? t with
    | some queue => (.displaced oldest true, { p with queue })
    | none => (.displaced oldest false, { p with queue })

/-- The pool after a task was queued: without any worker, one is started to look for it. -/
def ensureWorker (p : Pool) : Pool :=
  if p.size = 0 then (p.startWorker? p.maxSize .fresh).getD p else p

/-- Submits a task. -/
def submit (p : Pool) (t : Task) : Admission × Pool :=
  if !p.running then (.stopped, p)
  else
    match p.startWorker? p.coreSize (.assigned t) with
    | some p => (.handed, p)
    | none =>
      match p.queue.offer? t with
      | some queue => (.queued, { p with queue }.ensureWorker)
      | none =>
        match p.startWorker? p.maxSize (.assigned t) with
        | some p => (.handed, p)
        | none => p.saturated t

end Pool
end PoolControl
