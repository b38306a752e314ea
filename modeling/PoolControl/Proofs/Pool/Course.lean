import PoolControl.Proofs.Pool.Retuning
import PoolControl.Proofs.Pool.Sound

/-! # The course of a pool

`Pool.InUse` is a pool at a moment, with the two clocks and a `Ledger` of what became of the tasks
that were submitted to it. An `Event` is a submission, a step of a worker, the end of a task, a
setting, a refresh or a bind of whatever control plane holds the pool, a shutdown, or some time that
passes. Events come in any order; in particular the workers take their steps in any order.

The states that can be reached from the pool of a record (`Pool.Reach`) hold a sound pool
(`Reach.sound`). -/

namespace PoolControl

open Settings (Batch Platform Record)

/-! ### The ledger -/

/-- The tasks that are dropped when a submission is answered this way. -/
def Admission.drops (t : Task) : Admission → List Task
  | .discarded => [t]
  | .displaced oldest kept => oldest.toList ++ if kept then [] else [t]
  | _ => []

/-- What became of the tasks that were submitted to a pool. -/
structure Ledger where
  /-- Every submission with its answer, in order. -/
  answers : List (Task × Admission) := []
  /-- The tasks that workers began, in order. -/
  started : List Task := []
  /-- The tasks that workers are done with, in order. -/
  finished : List Task := []
  /-- The queued tasks that a shutdown dropped. -/
  dropped : List Task := []
  deriving DecidableEq, Repr

namespace Ledger

/-- One more submission was answered. -/
def answer (l : Ledger) (t : Task) (a : Admission) : Ledger :=
  { l with answers := l.answers ++ [(t, a)] }

/-- The tasks whose submission was given that answer. -/
def answered (l : Ledger) (a : Admission) : List Task :=
  (l.answers.filter (·.2 = a)).map (·.1)

/-- The tasks whose submission was not turned away by a shutdown. -/
def entered (l : Ledger) : List Task := (l.answers.filter (·.2 ≠ .stopped)).map (·.1)

/-- The tasks that the saturation policy dropped. -/
def discarded (l : Ledger) : List Task := l.answers.flatMap fun (t, a) => a.drops t

/-- How many submissions the saturation policy decided. -/
def saturated (l : Ledger) : Nat := l.answers.countP (·.2.isSaturated)

variable (l : Ledger) (t : Task) (a b : Admission)

theorem entered_answer :
    (l.answer t a).entered = l.entered ++ if a = .stopped then [] else [t] := by
  simp only [Ledger.answer, Ledger.entered, List.filter_append, List.map_append]
  split_ifs with h <;> simp [h]

theorem answered_answer :
    (l.answer t a).answered b = l.answered b ++ if a = b then [t] else [] := by
  simp only [Ledger.answer, Ledger.answered, List.filter_append, List.map_append]
  split_ifs with h <;> simp [h]

theorem discarded_answer : (l.answer t a).discarded = l.discarded ++ a.drops t := by
  simp [Ledger.answer, Ledger.discarded]

theorem saturated_answer :
    (l.answer t a).saturated = l.saturated + if a.isSaturated then 1 else 0 := by
  simp [Ledger.answer, Ledger.saturated, List.countP_append, List.countP_cons]

end Ledger

namespace Pool

/-- The task that the worker is running, if it is. -/
def runs? (p : Pool) (id : Nat) : Option Task := (p.worker? id).bind (·.phase.running?)

/-- The task that the worker has ended and not reported yet, if it has. -/
def ended? (p : Pool) (id : Nat) : Option Task := (p.worker? id).bind (·.phase.ended?)

theorem Sound.runs?_eq {p : Pool} (h : p.Sound) {w : Worker} (hw : w ∈ p.workers) :
    p.runs? w.id = w.phase.running? := by
  rw [runs?, h.worker?_eq hw]
  rfl

theorem Sound.ended?_eq {p : Pool} (h : p.Sound) {w : Worker} (hw : w ∈ p.workers) :
    p.ended? w.id = w.phase.ended? := by
  rw [ended?, h.worker?_eq hw]
  rfl

theorem Sound.runs?_setPhase {p q : Pool} (h : q.Sound) {w : Worker} (hw : w ∈ p.workers)
    {phase : Phase} (hq : q.workers = (p.setPhase w.id phase).workers) :
    q.runs? w.id = phase.running? := by
  have hm : ⟨w.id, phase⟩ ∈ q.workers := by
    rw [hq]
    exact List.mem_map.mpr ⟨w, hw, by simp⟩
  exact h.runs?_eq hm

/-! ### Events -/

/-- What happens to a pool. -/
inductive Event where
  | submit (task : Task)
  /-- A worker takes a step, if it can take one. -/
  | work (id : Nat)
  /-- The task that a worker runs ends, well or badly. -/
  | finish (id : Nat)
  | set (setting : Setting)
  /-- The control plane that holds the pool is refreshed from a batch. -/
  | refresh (plane : ControlPlane) (batch : Batch)
  /-- One record is applied to the pool of its name. -/
  | refreshRecord (plane : ControlPlane) (platforms : List Platform) (record : Record)
  | bind (plane : ControlPlane) (batch : Batch)
  /-- The pool is shut down, if it is running. -/
  | stop
  | advance (timer wall : Nat)

/-- Whether the event is a setting, a refresh or a bind. -/
def Event.isTuning : Event → Bool
  | .set _ | .refresh .. | .refreshRecord .. | .bind .. => true
  | _ => false

/-- A pool at a moment, with what became of the tasks that were submitted to it. -/
structure InUse where
  pool : Pool
  clock : Clock := {}
  ledger : Ledger := {}
  deriving DecidableEq, Repr

namespace InUse

/-- The pool that the control plane holds in the place of this one. -/
def heldBy (s : InUse) (plane : ControlPlane) : Pool :=
  (plane.registry.get? s.pool.name).getD s.pool

/-- Whether the event can happen: a control plane changes a pool that it holds, and holds one pool
for each name. -/
def Allows (s : InUse) : Event → Prop
  | .refresh plane _ | .refreshRecord plane _ _ | .bind plane _ =>
    plane.registry.Distinct ∧ plane.registry.get? s.pool.name = some s.pool
  | _ => True

instance (s : InUse) (e : Event) : Decidable (s.Allows e) := by
  unfold Allows; cases e <;> infer_instance

/-- The state after a submission. -/
def submit (s : InUse) (t : Task) : InUse :=
  { s with
    pool := (s.pool.submit t).2
    ledger := s.ledger.answer t (s.pool.submit t).1 }

/-- The state after a step of a worker that can take one. -/
def work (s : InUse) (w : Worker) : InUse :=
  let pool := s.pool.step s.clock w.id
  { s with
    pool
    ledger :=
      { s.ledger with
        started := s.ledger.started ++ (pool.runs? w.id).toList
        finished := s.ledger.finished ++ (s.pool.ended? w.id).toList } }

/-- The state after a shutdown of a running pool. -/
def stop (s : InUse) : InUse :=
  { s with
    pool := s.pool.stop.2
    ledger := { s.ledger with dropped := s.ledger.dropped ++ s.pool.stop.1 } }

/-- The state after an event. -/
def after (s : InUse) : Event → InUse
  | .submit t => s.submit t
  | .work id =>
    match s.pool.worker? id with
    | some w => if s.pool.canStep s.clock w then s.work w else s
    | none => s
  | .finish id => { s with pool := s.pool.finish id }
  | .set setting =>
    match Session.applySetting s.pool setting with
    | .ok pool => { s with pool }
    | .error _ => s
  | .refresh plane batch => { s with pool := s.heldBy (PoolControl.refresh plane batch).2 }
  | .refreshRecord plane platforms record =>
    { s with pool := s.heldBy (PoolControl.refreshRecord platforms plane record).2 }
  | .bind plane batch => { s with pool := s.heldBy (PoolControl.bind plane batch).2 }
  | .stop => if s.pool.running then s.stop else s
  | .advance timer wall =>
    { s with clock := s.clock.advance timer wall }

/-- The state after a sequence of events, if they can happen one after the other. -/
def follow? (s : InUse) : List Event → Option InUse
  | [] => some s
  | e :: es => if s.Allows e then (s.after e).follow? es else none

end InUse

/-- The states that sequences of events lead to from the pool of a record. -/
inductive Reach : InUse → Prop
  | start {r : Record} {p : Pool} (clock : Clock) (h : ofRecord r = .ok p) :
    Reach { pool := p, clock }
  | next {s : InUse} (h : Reach s) (e : Event) (ok : s.Allows e) : Reach (s.after e)

theorem Reach.follow : ∀ {es : List Event} {s t : InUse},
    Reach s → s.follow? es = some t → Reach t
  | [], s, t, h, he => by cases he; exact h
  | e :: es, s, t, h, he => by
    unfold InUse.follow? at he
    split_ifs at he with ok
    exact (h.next e ok).follow he

/-! ### What an event does to the pool -/

variable {s : InUse}

/-- A step of a worker is one of the cases of a step, but where the pool counts no workers. -/
theorem InUse.work_cases {w : Worker} {id : Nat} (hw : s.pool.worker? id = some w)
    (hc : s.pool.canStep s.clock w = true) :
    w ∈ s.pool.workers ∧ (Stepped s.pool s.clock w (s.work w).pool ∨
      s.pool.size = 0 ∧ (s.work w).pool = s.pool.setPhase w.id (.seeking s.clock.wall)) := by
  obtain ⟨hm, rfl⟩ := mem_of_worker? hw
  have he : (s.work w).pool = s.pool.stepOf s.clock w := by
    simp only [InUse.work, step, hw, hc, if_true]
  rw [he]
  exact ⟨hm, stepped_or_stays hc⟩

theorem InUse.stepped_work (hp : s.pool.Sound) {w : Worker} {id : Nat}
    (hw : s.pool.worker? id = some w) (hc : s.pool.canStep s.clock w = true) :
    w ∈ s.pool.workers ∧ Stepped s.pool s.clock w (s.work w).pool := by
  obtain ⟨hm, hcases⟩ := InUse.work_cases hw hc
  exact ⟨hm, hcases.resolve_right fun h => Nat.ne_of_gt (hp.size_pos hm) h.1⟩

/-- What a control plane carries over is so of the pool that it holds in the place of this one. -/
theorem InUse.heldBy_of_carries {R : Pool → Pool → Prop} {plane plane' : ControlPlane}
    (h : plane.Carries R plane') (hp : plane.registry.get? s.pool.name = some s.pool) :
    R s.pool (s.heldBy plane') := by
  obtain ⟨q, hq, hpq⟩ := h _ _ hp
  rw [InUse.heldBy, hq]
  exact hpq

/-- **The kinds of events**: how an event that changes the pool does so. -/
inductive Happens (s : InUse) : InUse → Prop
  | submit (t : Task) : Happens s (s.submit t)
  | work (w : Worker) (hw : w ∈ s.pool.workers) (h : Stepped s.pool s.clock w (s.work w).pool) :
    Happens s (s.work w)
  | finish (id : Nat) : Happens s { s with pool := s.pool.finish id }
  | retune (p : Pool) (h : s.pool.Retuned p) : Happens s { s with pool := p }
  | stop (h : s.pool.running = true) : Happens s s.stop
  | advance (timer wall : Nat) :
    Happens s { s with clock := s.clock.advance timer wall }

theorem InUse.retuned_after {e : Event} (he : e.isTuning = true) (ok : s.Allows e) :
    ∃ p, s.pool.Retuned p ∧ s.after e = { s with pool := p } := by
  cases e with
  | set setting =>
    simp only [InUse.after]
    split
    · next p hp => exact ⟨p, .single ⟨setting, hp⟩, rfl⟩
    · exact ⟨s.pool, .refl, rfl⟩
  | refresh plane batch =>
    exact ⟨_, InUse.heldBy_of_carries (retunes_refresh plane batch) ok.2, rfl⟩
  | refreshRecord plane platforms record =>
    exact ⟨_, InUse.heldBy_of_carries (retunes_refreshRecord platforms plane record) ok.2, rfl⟩
  | bind plane batch => exact ⟨_, InUse.heldBy_of_carries (retunes_bind plane batch ok.1) ok.2, rfl⟩
  | _ => cases he

/-- **Every event is of one of the kinds.** One that changes nothing is an empty retuning. -/
theorem InUse.happens (hp : s.pool.Sound) {e : Event} (ok : s.Allows e) :
    Happens s (s.after e) := by
  have hidle : Happens s s := .retune s.pool .refl
  by_cases he : e.isTuning = true
  · obtain ⟨p, hretuned, h⟩ := InUse.retuned_after he ok
    rw [h]
    exact .retune p hretuned
  · cases e with
    | submit t => exact .submit t
    | work id =>
      simp only [InUse.after]
      split
      · next w hw =>
        split_ifs with hc
        · obtain ⟨hm, h⟩ := InUse.stepped_work hp hw hc
          exact .work w hm h
        · exact hidle
      · exact hidle
    | finish id => exact .finish id
    | stop =>
      simp only [InUse.after]
      split_ifs with hr
      · exact .stop hr
      · exact hidle
    | advance timer wall => exact .advance timer wall
    | _ => exact absurd rfl he

theorem Happens.sound {t : InUse} (h : Happens s t) (hs : s.pool.Sound) : t.pool.Sound := by
  cases h with
  | submit t => exact hs.submitted (s.pool.submitted t)
  | work w hw h => exact hs.stepped hw h
  | finish id => exact hs.finish id
  | retune p h => exact hs.retuned h
  | stop h => exact hs.stop
  | advance timer wall => exact hs

/-- **Every reachable pool is sound.** -/
theorem Reach.sound (h : Reach s) : s.pool.Sound := by
  induction h with
  | start clock h => exact sound_ofRecord h
  | next _ e ok ih => exact (InUse.happens ih ok).sound ih

end Pool
end PoolControl
