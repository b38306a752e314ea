import Mathlib.Data.List.Perm.Subperm
import PoolControl.Proofs.Pool.Course

/-! # No task is lost or run twice

At every moment of the course of a pool, each task that entered it is in one `Place`: with a worker,
in the queue, finished, run by its submitter, refused, discarded, or dropped by a shutdown. The
ledger says which tasks went where, and `InUse.Conserved` is the account of it, task by task: every
event moves a task from one place to another (`Happens.conserved`).

Tasks are counted, since the same task may be submitted more than once. -/

namespace PoolControl.Pool

/-- Where a task that entered a pool can be. -/
inductive Place where
  /-- A worker was started for it, runs it, or has yet to report its end. -/
  | worker
  | queue
  /-- A worker is done with it. -/
  | finished
  /-- Its submitter ran it. -/
  | inline
  | refused
  /-- The saturation policy dropped it. -/
  | discarded
  /-- A shutdown dropped it. -/
  | dropped
  deriving DecidableEq, Repr

/-- Every place. -/
def Place.all : List Place := [worker, queue, finished, inline, refused, discarded, dropped]

/-- The tasks in a place. -/
def InUse.tasksAt (s : InUse) : Place → List Task
  | .worker => s.pool.held
  | .queue => s.pool.queue.items
  | .finished => s.ledger.finished
  | .inline => s.ledger.answered .inline
  | .refused => s.ledger.answered .refused
  | .discarded => s.ledger.discarded
  | .dropped => s.ledger.dropped

/-- **The account of the tasks**: how often a task entered is how often it is in the places, and it
was started as often as workers have begun it or are done with it. -/
structure InUse.Conserved (s : InUse) : Prop where
  entered : ∀ t, s.ledger.entered.count t =
    s.pool.held.count t + s.pool.queue.items.count t + s.ledger.finished.count t +
      (s.ledger.answered .inline).count t + (s.ledger.answered .refused).count t +
      s.ledger.discarded.count t + s.ledger.dropped.count t
  started : ∀ t, s.ledger.started.count t = s.pool.begun.count t + s.ledger.finished.count t
  completed_eq : s.pool.completed = s.ledger.finished.length
  rejected_eq : s.pool.rejected = s.ledger.saturated

variable {p q : Pool} {s : InUse}

/-! ### The tasks of the workers -/

theorem Sound.count_filterMap_setPhase (h : p.Sound) {w : Worker} (hw : w ∈ p.workers)
    (phase : Phase) (f : Phase → Option Task) (t : Task) :
    ((p.setPhase w.id phase).workers.filterMap fun v => f v.phase).count t +
        (f w.phase).toList.count t =
      (p.workers.filterMap fun v => f v.phase).count t + (f phase).toList.count t := by
  obtain ⟨before, after, heq, -, hphase⟩ := h.exists_split hw
  rw [hphase, heq]
  simp only [List.filterMap_append, List.filterMap_cons, List.count_append]
  cases f w.phase <;> cases f phase <;>
    simp only [Option.toList, List.count_cons, List.count_nil] <;> omega

theorem Sound.count_setPhase (h : p.Sound) {w : Worker} (hw : w ∈ p.workers) (phase : Phase)
    (t : Task) :
    (p.setPhase w.id phase).held.count t + w.phase.task?.toList.count t =
        p.held.count t + phase.task?.toList.count t ∧
      (p.setPhase w.id phase).begun.count t + w.phase.begun?.toList.count t =
        p.begun.count t + phase.begun?.toList.count t :=
  ⟨h.count_filterMap_setPhase hw phase Phase.task? t,
    h.count_filterMap_setPhase hw phase Phase.begun? t⟩

theorem Sound.tasks_setPhase (h : p.Sound) {w : Worker} (hw : w ∈ p.workers) (phase : Phase)
    (ht : phase.task? = w.phase.task?) (hb : phase.begun? = w.phase.begun?) :
    (p.setPhase w.id phase).held = p.held ∧ (p.setPhase w.id phase).begun = p.begun := by
  obtain ⟨before, after, heq, -, hphase⟩ := h.exists_split hw
  constructor
  · simp only [held, hphase, heq, List.filterMap_append, List.filterMap_cons, ht]
  · simp only [begun, hphase, heq, List.filterMap_append, List.filterMap_cons, hb]

theorem count_begun_le (p : Pool) (t : Task) : p.begun.count t ≤ p.held.count t := by
  unfold begun held
  induction p.workers with
  | nil => exact Nat.le_refl _
  | cons w ws ih =>
    simp only [List.filterMap_cons]
    rcases w.phase.begun?_eq with hb | hb
    · rw [hb]
      cases w.phase.task? <;> simp only [List.count_cons] <;> omega
    · rw [hb]
      cases w.phase.task? <;> simp only [List.count_cons] <;> omega

theorem Sound.tasks_removeWorker (h : p.Sound) {w : Worker} (hw : w ∈ p.workers)
    (ht : w.phase.task? = none) (hb : w.phase.begun? = none) :
    (p.removeWorker w.id).held = p.held ∧ (p.removeWorker w.id).begun = p.begun := by
  obtain ⟨before, after, heq, hrest, -⟩ := h.exists_split hw
  constructor
  · simp only [held, hrest, heq, List.filterMap_append, List.filterMap_cons, ht]
  · simp only [begun, hrest, heq, List.filterMap_append, List.filterMap_cons, hb]

theorem tasks_startWorker? {limit : Nat} {phase : Phase} (hb : phase.begun? = none)
    (hs : p.startWorker? limit phase = some q) :
    q.held = p.held ++ phase.task?.toList ∧ q.begun = p.begun := by
  obtain ⟨-, rfl⟩ := startWorker?_eq_some_iff.mp hs
  constructor
  · simp only [held, List.filterMap_append, List.filterMap_cons, List.filterMap_nil]
    cases phase.task? <;> rfl
  · simp [begun, List.filterMap_append, hb]

/-! ### What tuning leaves alone -/

/-- The two pools have the same tasks in the same places, and the same counts. -/
structure SameTasks (p q : Pool) : Prop where
  held : q.held = p.held
  begun : q.begun = p.begun
  items : q.queue.items = p.queue.items
  completed : q.completed = p.completed
  rejected : q.rejected = p.rejected

theorem SameTasks.trans {r : Pool} (h : SameTasks p q) (h' : SameTasks q r) : SameTasks p r :=
  ⟨h'.held.trans h.held, h'.begun.trans h.begun, h'.items.trans h.items,
    h'.completed.trans h.completed, h'.rejected.trans h.rejected⟩

theorem sameTasks_wakeIf (p : Pool) (condition : Bool) : SameTasks p (p.wakeIf condition) := by
  unfold wakeIf
  split_ifs <;> exact ⟨rfl, rfl, rfl, rfl, rfl⟩

theorem sameTasks_startWorkers (limit n : Nat) (p : Pool) :
    SameTasks p (startWorkers limit n p) := by
  obtain ⟨fresh, largest, heq, hphase, -⟩ := startWorkers_spec limit n p
  rw [heq]
  have hnone : ∀ f : Phase → Option Task, f .fresh = none →
      fresh.filterMap (fun w => f w.phase) = [] := by
    intro f hf
    rw [List.filterMap_eq_nil_iff]
    intro w hw
    rw [hphase w hw, hf]
  refine ⟨?_, ?_, rfl, rfl, rfl⟩
  · simp only [held, List.filterMap_append, hnone Phase.task? rfl, List.append_nil]
  · simp only [begun, List.filterMap_append, hnone Phase.begun? rfl, List.append_nil]

theorem Adjusted.sameTasks (h : Adjusted p q) : SameTasks p q := by
  cases h with
  | coreSize n hn =>
    refine .trans ?_ (sameTasks_wakeIf _ _)
    refine .trans ?_ (sameTasks_startWorkers n _ _)
    exact ⟨rfl, rfl, rfl, rfl, rfl⟩
  | maxSize n =>
    refine .trans ?_ (sameTasks_wakeIf _ _)
    exact ⟨rfl, rfl, rfl, rfl, rfl⟩
  | keepAlive span wake =>
    refine .trans ?_ (sameTasks_wakeIf _ _)
    exact ⟨rfl, rfl, rfl, rfl, rfl⟩
  | coreTimeout allow wake =>
    refine .trans ?_ (sameTasks_wakeIf _ _)
    exact ⟨rfl, rfl, rfl, rfl, rfl⟩
  | _ => exact ⟨rfl, rfl, rfl, rfl, rfl⟩

theorem Retuned.sameTasks (h : Retuned p q) : SameTasks p q :=
  Retuned.keeps (fun _ _ hs ht => ht.trans hs.adjusted.sameTasks) h ⟨rfl, rfl, rfl, rfl, rfl⟩

/-! ### Every event keeps the account -/

theorem InUse.Conserved.retuned (h : s.Conserved) (hs : SameTasks s.pool p) :
    ({ s with pool := p } : InUse).Conserved where
  entered t := by
    rw [hs.held, hs.items]
    exact h.entered t
  started t := by
    rw [hs.begun]
    exact h.started t
  completed_eq := hs.completed.trans h.completed_eq
  rejected_eq := hs.rejected.trans h.rejected_eq

theorem sameTasks_ensureWorker (p : Pool) : SameTasks p p.ensureWorker := by
  unfold ensureWorker
  split_ifs
  · cases hs : p.startWorker? p.maxSize .fresh with
    | none => exact ⟨rfl, rfl, rfl, rfl, rfl⟩
    | some q =>
      obtain ⟨hh, hb⟩ := tasks_startWorker? rfl hs
      obtain ⟨-, rfl⟩ := startWorker?_eq_some_iff.mp hs
      exact ⟨hh.trans (List.append_nil _), hb, rfl, rfl, rfl⟩
  · exact ⟨rfl, rfl, rfl, rfl, rfl⟩

/-- One more answer keeps the account if the new task, and what the submission drops, balance. -/
theorem InUse.Conserved.answer (h : s.Conserved) {t : Task} {a : Admission}
    (hb : q.begun = s.pool.begun) (hc : q.completed = s.pool.completed)
    (hr : q.rejected = s.pool.rejected + if a.isSaturated then 1 else 0)
    (hbal : ∀ u, s.pool.held.count u + s.pool.queue.items.count u +
        (if a = .stopped then [] else [t]).count u =
      q.held.count u + q.queue.items.count u + (if a = .inline then [t] else []).count u +
        (if a = .refused then [t] else []).count u + (a.drops t).count u) :
    ({ s with pool := q, ledger := s.ledger.answer t a } : InUse).Conserved := by
  refine ⟨fun u => ?_, fun u => ?_, hc.trans h.completed_eq, ?_⟩
  · have he := h.entered u
    have hu := hbal u
    simp only [Ledger.entered_answer, Ledger.answered_answer, Ledger.discarded_answer,
      List.count_append]
    show _ = q.held.count u + q.queue.items.count u + s.ledger.finished.count u + _ + _ + _ +
      s.ledger.dropped.count u
    omega
  · rw [hb]
    exact h.started u
  · rw [Ledger.saturated_answer, hr, h.rejected_eq]

/-- **A submission** puts the new task in one place, and may drop the oldest queued one. -/
theorem InUse.Conserved.submit (h : s.Conserved) (t : Task) : (s.submit t).Conserved := by
  have hs := s.pool.submitted t
  rw [InUse.submit]
  generalize (s.pool.submit t).1 = a at hs ⊢
  generalize (s.pool.submit t).2 = q at hs ⊢
  cases hs with
  | stopped hr => exact h.answer rfl rfl rfl fun u => by simp [Admission.drops]
  | handed limit q hr hl hw =>
    obtain ⟨hh, hb⟩ := tasks_startWorker? rfl hw
    obtain ⟨-, rfl⟩ := startWorker?_eq_some_iff.mp hw
    refine h.answer hb rfl rfl fun u => ?_
    rw [hh]
    simp [Phase.task?, Admission.drops]
    omega
  | queued queue hr hc ho =>
    have hw := sameTasks_ensureWorker { s.pool with queue }
    have hi := TaskQueue.items_offer? ho
    refine h.answer hw.begun hw.completed hw.rejected fun u => ?_
    rw [hw.held, hw.items]
    show _ = s.pool.held.count u + queue.items.count u + _ + _ + _
    rw [hi]
    simp [Admission.drops]
    omega
  | refused hr hm => exact h.answer rfl rfl rfl fun u => by simp [Admission.drops, held]
  | inline hr hm => exact h.answer rfl rfl rfl fun u => by simp [Admission.drops, held]
  | discarded hr hm => exact h.answer rfl rfl rfl fun u => by simp [Admission.drops, held]
  | displaced queue hr hm ho =>
    have hi := TaskQueue.items_offer? ho
    refine h.answer rfl rfl rfl fun u => ?_
    show _ = s.pool.held.count u + queue.items.count u + _ + _ + _
    rw [hi, TaskQueue.items_poll]
    cases s.pool.queue.items with
    | nil => simp [Admission.drops]
    | cons a items => simp [Admission.drops, List.count_cons]; omega
  | dropped hr hm ho =>
    refine h.answer rfl rfl rfl fun u => ?_
    show _ = s.pool.held.count u + s.pool.queue.poll.2.items.count u + _ + _ + _
    rw [TaskQueue.items_poll]
    cases s.pool.queue.items with
    | nil => simp [Admission.drops]
    | cons a items => simp [Admission.drops, List.count_cons]; omega

/-- A step of a worker keeps the account if what it begins and what it reports balance. -/
theorem InUse.Conserved.step (h : s.Conserved) (started finished : List Task)
    (hc : q.completed = s.pool.completed + finished.length) (hr : q.rejected = s.pool.rejected)
    (hbal : ∀ u, s.pool.held.count u + s.pool.queue.items.count u =
      q.held.count u + q.queue.items.count u + finished.count u)
    (hbeg : ∀ u, started.count u + s.pool.begun.count u = q.begun.count u + finished.count u) :
    ({ s with
        pool := q
        ledger :=
          { s.ledger with
            started := s.ledger.started ++ started
            finished := s.ledger.finished ++ finished } } : InUse).Conserved := by
  refine ⟨fun u => ?_, fun u => ?_, ?_, hr.trans h.rejected_eq⟩
  · have he := h.entered u
    have hu := hbal u
    show s.ledger.entered.count u = q.held.count u + q.queue.items.count u +
      (s.ledger.finished ++ finished).count u + (s.ledger.answered .inline).count u +
      (s.ledger.answered .refused).count u + s.ledger.discarded.count u + s.ledger.dropped.count u
    rw [List.count_append]
    omega
  · have he := h.started u
    have hu := hbeg u
    simp only [List.count_append]
    omega
  · simp only [List.length_append, ← h.completed_eq]
    exact hc

theorem InUse.Conserved.launch (h : s.Conserved) (hp : s.pool.Sound) {w : Worker}
    (hw : w ∈ s.pool.workers) (hb : w.phase.begun? = none) (t : Task) (queue : TaskQueue Task)
    (hbal : ∀ u, w.phase.task?.toList.count u + s.pool.queue.items.count u =
      [t].count u + queue.items.count u) :
    ({ s with
        pool := { s.pool with queue }.launch w.id t
        ledger :=
          { s.ledger with
            started := s.ledger.started ++ [t]
            finished := s.ledger.finished ++ [] } } : InUse).Conserved := by
  refine h.step [t] [] rfl rfl (fun u => ?_) fun u => ?_
  · have hu := (hp.count_setPhase hw (.running t) u).1
    have hq := hbal u
    show _ = (s.pool.setPhase w.id (.running t)).held.count u + queue.items.count u + 0
    simp only [Phase.task?, Option.toList] at hu hq ⊢
    omega
  · have hu := (hp.count_setPhase hw (.running t) u).2
    show _ = (s.pool.setPhase w.id (.running t)).begun.count u + 0
    rw [hb] at hu
    simp only [Phase.begun?, Option.toList, List.count_nil] at hu
    omega

theorem InUse.Conserved.look (h : s.Conserved) (hp : s.pool.Sound) {w : Worker}
    (hw : w ∈ s.pool.workers) (hb : w.phase.begun? = none) (ht : w.phase.task? = none)
    (phase : Phase) (hb' : phase.begun? = none) (ht' : phase.task? = none)
    (queue : TaskQueue Task) (hi : queue.items = s.pool.queue.items) :
    ({ s with
        pool := { s.pool with queue }.setPhase w.id phase
        ledger :=
          { s.ledger with
            started := s.ledger.started ++ []
            finished := s.ledger.finished ++ [] } } : InUse).Conserved := by
  refine h.step [] [] rfl rfl (fun u => ?_) fun u => ?_
  · have hu := (hp.count_setPhase hw phase u).1
    show _ = (s.pool.setPhase w.id phase).held.count u + queue.items.count u + 0
    rw [ht, ht'] at hu
    rw [hi]
    simp only [Option.toList, List.count_nil] at hu
    omega
  · have hu := (hp.count_setPhase hw phase u).2
    show _ = (s.pool.setPhase w.id phase).begun.count u + 0
    rw [hb, hb'] at hu
    simp only [Option.toList, List.count_nil] at hu ⊢
    omega

theorem InUse.Conserved.report (h : s.Conserved) (hp : s.pool.Sound) {id : Nat} {t : Task}
    (hw : ⟨id, .finished t⟩ ∈ s.pool.workers) (since : Nat) :
    ({ s with
        pool :=
          { s.pool.setPhase id (.seeking since) with
            active := s.pool.active - 1
            completed := s.pool.completed + 1 }
        ledger :=
          { s.ledger with
            started := s.ledger.started ++ []
            finished := s.ledger.finished ++ [t] } } : InUse).Conserved := by
  refine h.step [] [t] rfl rfl (fun u => ?_) fun u => ?_
  · have hu := (hp.count_setPhase hw (.seeking since) u).1
    show _ = (s.pool.setPhase id (.seeking since)).held.count u + s.pool.queue.items.count u +
      [t].count u
    simp only [Phase.task?, Option.toList, List.count_nil] at hu
    omega
  · have hu := (hp.count_setPhase hw (.seeking since) u).2
    show _ = (s.pool.setPhase id (.seeking since)).begun.count u + [t].count u
    simp only [Phase.begun?, Option.toList, List.count_nil] at hu ⊢
    omega

theorem InUse.Conserved.leave (h : s.Conserved) (hp : s.pool.Sound) {w : Worker}
    (hw : w ∈ s.pool.workers) (hb : w.phase.begun? = none) (ht : w.phase.task? = none) :
    ({ s with
        pool := s.pool.removeWorker w.id
        ledger :=
          { s.ledger with
            started := s.ledger.started ++ []
            finished := s.ledger.finished ++ [] } } : InUse).Conserved := by
  obtain ⟨hheld, hbegun⟩ := hp.tasks_removeWorker hw ht hb
  refine h.step [] [] rfl rfl (fun u => ?_) fun u => ?_
  · show _ = (s.pool.removeWorker w.id).held.count u + s.pool.queue.items.count u + 0
    rw [hheld]
    omega
  · rw [hbegun]
    simp

/-- **A step of a worker** moves a task from the queue to the worker, or from the worker to those
that are finished, or moves none. -/
theorem InUse.Conserved.work (h : s.Conserved) (hp : s.pool.Sound) {w : Worker}
    (hw : w ∈ s.pool.workers) (hs : Stepped s.pool s.clock w (s.work w).pool) :
    (s.work w).Conserved := by
  have hq := hp.stepped hw hs
  have hended := hp.ended?_eq hw
  simp only [InUse.work] at hs hq ⊢
  generalize s.pool.step s.clock w.id = q at hs hq ⊢
  rw [hended]
  -- What the worker begins is read off its new phase.
  have hruns : ∀ phase : Phase, q.workers = (s.pool.setPhase w.id phase).workers →
      q.runs? w.id = phase.running? := fun phase => hq.runs?_setPhase hw
  cases hs with
  | begins id t =>
    rw [hruns (.running t) rfl]
    exact h.launch hp hw rfl t s.pool.queue fun u => rfl
  | arrives id =>
    rw [hruns (.seeking s.clock.wall) rfl]
    exact h.look hp hw rfl rfl (.seeking s.clock.wall) rfl rfl s.pool.queue rfl
  | reports id t =>
    rw [hruns (.seeking s.clock.wall) rfl]
    exact h.report hp hw s.clock.wall
  | fetches id since t items hi =>
    rw [hruns (.running t) rfl]
    refine h.launch hp hw rfl t { s.pool.queue with items } fun u => ?_
    rw [hi]
    simp [Phase.task?, List.count_cons]
    omega
  | leaves id since hi why =>
    have hnone : (s.pool.removeWorker id).runs? id = none := by
      rw [runs?, worker?_removeWorker]
      rfl
    rw [hnone]
    exact h.leave hp hw rfl rfl
  | looksAgain id since hi hperm =>
    rw [hruns (.seeking since) rfl]
    exact h.look hp hw rfl rfl (.seeking since) rfl rfl { s.pool.queue with permit := false } rfl
  | parks id since deadline hi hperm hr hm he =>
    rw [hruns (.parked since) rfl]
    exact h.look hp hw rfl rfl (.parked since) rfl rfl _ rfl
  | obtains id since t items hi hd =>
    rw [hruns (.running t) rfl]
    refine h.launch hp hw rfl t (s.pool.queue.resume id).2 fun u => ?_
    rw [TaskQueue.items_resume, hi]
    simp [Phase.task?, List.count_cons]
    omega
  | wakes id since hi hd =>
    rw [hruns (.seeking since) rfl]
    refine h.look hp hw rfl rfl (.seeking since) rfl rfl (s.pool.queue.resume id).2 ?_
    rw [TaskQueue.items_resume, hi]
    rfl

theorem InUse.Conserved.finish (h : s.Conserved) (hp : s.pool.Sound) (id : Nat) :
    ({ s with pool := s.pool.finish id } : InUse).Conserved := by
  rcases s.pool.finish_cases id with he | ⟨t, hw, he⟩
  · rw [he]
    exact h
  · rw [he]
    obtain ⟨hheld, hbegun⟩ := hp.tasks_setPhase hw (.finished t) rfl rfl
    exact h.retuned ⟨hheld, hbegun, rfl, rfl, rfl⟩

/-- **A shutdown** drops the queued tasks, or keeps them. -/
theorem InUse.Conserved.stop (h : s.Conserved) : s.stop.Conserved := by
  have hs : (s.pool.stop.1 = [] ∧ s.pool.stop.2.queue.items = s.pool.queue.items) ∨
      (s.pool.stop.1 = s.pool.queue.items ∧ s.pool.stop.2.queue.items = []) := by
    unfold Pool.stop
    simp only
    split_ifs
    · exact Or.inl ⟨rfl, rfl⟩
    · exact Or.inr ⟨rfl, rfl⟩
  have hsame : s.pool.stop.2.held = s.pool.held ∧ s.pool.stop.2.begun = s.pool.begun ∧
      s.pool.stop.2.completed = s.pool.completed ∧ s.pool.stop.2.rejected = s.pool.rejected := by
    unfold Pool.stop
    simp only
    split_ifs <;> exact ⟨rfl, rfl, rfl, rfl⟩
  obtain ⟨hheld, hbegun, hcompleted, hrejected⟩ := hsame
  refine ⟨fun u => ?_, fun u => ?_, hcompleted.trans h.completed_eq, hrejected.trans h.rejected_eq⟩
  · have he := h.entered u
    show s.ledger.entered.count u = s.pool.stop.2.held.count u +
      s.pool.stop.2.queue.items.count u + s.ledger.finished.count u +
      (s.ledger.answered .inline).count u + (s.ledger.answered .refused).count u +
      s.ledger.discarded.count u + (s.ledger.dropped ++ s.pool.stop.1).count u
    rw [hheld, List.count_append]
    rcases hs with ⟨h1, h2⟩ | ⟨h1, h2⟩
    · rw [h1, h2, List.count_nil]
      omega
    · rw [h1, h2, List.count_nil]
      omega
  · show s.ledger.started.count u = s.pool.stop.2.begun.count u + s.ledger.finished.count u
    rw [hbegun]
    exact h.started u

theorem Happens.conserved {t : InUse} (h : Happens s t) (hp : s.pool.Sound) (hc : s.Conserved) :
    t.Conserved := by
  cases h with
  | submit t => exact hc.submit t
  | work w hw hs => exact hc.work hp hw hs
  | finish id => exact hc.finish hp id
  | retune p hr => exact hc.retuned hr.sameTasks
  | stop hr => exact hc.stop
  | advance timer wall => exact ⟨hc.entered, hc.started, hc.completed_eq, hc.rejected_eq⟩

theorem Reach.conserved (h : Reach s) : s.Conserved := by
  induction h with
  | start clock h =>
    obtain ⟨-, -, policy, -, rfl⟩ := ofRecord_eq_ok_iff.mp h
    exact ⟨fun _ => rfl, fun _ => rfl, rfl, rfl⟩
  | next h e ok ih => exact (InUse.happens h.sound ok).conserved h.sound ih

theorem InUse.tasksAt_after {e : Event} (he : e.isTuning = true) (ok : s.Allows e) (place : Place) :
    (s.after e).tasksAt place = s.tasksAt place := by
  obtain ⟨p, hp, h⟩ := InUse.retuned_after he ok
  have hs := hp.sameTasks
  rw [h]
  cases place with
  | worker => exact hs.held
  | queue => exact hs.items
  | _ => rfl

theorem InUse.Conserved.exists_unique_place (h : s.Conserved) {t : Task}
    (ht : s.ledger.entered.count t = 1) : ∃! place, t ∈ s.tasksAt place := by
  have he := h.entered t
  rw [ht] at he
  refine existsUnique_of_exists_of_unique ?_ fun a b ha hb => ?_
  · by_contra hno
    have hzero : ∀ place, (s.tasksAt place).count t = 0 := fun place =>
      List.count_eq_zero.mpr fun hm => hno ⟨place, hm⟩
    have h1 := hzero .worker
    have h2 := hzero .queue
    have h3 := hzero .finished
    have h4 := hzero .inline
    have h5 := hzero .refused
    have h6 := hzero .discarded
    have h7 := hzero .dropped
    simp only [InUse.tasksAt] at h1 h2 h3 h4 h5 h6 h7
    omega
  · by_contra hab
    have hpa := List.count_pos_iff.mpr ha
    have hpb := List.count_pos_iff.mpr hb
    -- Two places would count the task twice.
    cases a <;> cases b <;>
      simp only [InUse.tasksAt, reduceCtorEq, not_true_eq_false, not_false_eq_true] at hpa hpb hab
    all_goals omega

/-- **No task is lost or run twice.** The tasks that entered the pool are, counted, those in the
places; one that entered once is in exactly one place. None is started, run by its submitter,
refused, discarded or dropped more than once altogether. The pool counts the finished tasks and the
saturated submissions. And tuning the pool leaves the tasks where they are, in order. -/
theorem tasks_conserved (h : Reach s) :
    s.ledger.entered.Perm (Place.all.flatMap s.tasksAt) ∧
      (∀ t, s.ledger.entered.count t = 1 → ∃! place, t ∈ s.tasksAt place) ∧
      (s.ledger.started ++ s.tasksAt .inline ++ s.tasksAt .refused ++ s.tasksAt .discarded ++
        s.tasksAt .dropped).Subperm s.ledger.entered ∧
      s.pool.completed = (s.tasksAt .finished).length ∧
      s.pool.rejected = s.ledger.saturated ∧
      ∀ e, e.isTuning = true → s.Allows e →
        (s.after e).ledger = s.ledger ∧ ∀ place, (s.after e).tasksAt place = s.tasksAt place := by
  have hc := h.conserved
  refine ⟨?_, fun t ht => hc.exists_unique_place ht, ?_, hc.completed_eq, hc.rejected_eq,
    fun e he ok => ⟨?_, InUse.tasksAt_after he ok⟩⟩
  · rw [List.perm_iff_count]
    intro t
    have he := hc.entered t
    simp only [Place.all, List.flatMap_cons, List.flatMap_nil, List.count_append, List.count_nil,
      InUse.tasksAt]
    omega
  · rw [List.subperm_ext_iff]
    intro t _
    have he := hc.entered t
    have hs := hc.started t
    have hb := s.pool.count_begun_le t
    simp only [List.count_append, InUse.tasksAt]
    omega
  · obtain ⟨p, -, h⟩ := InUse.retuned_after he ok
    rw [h]

/-- Events of a pool with one worker and room for one queued task that displaces the oldest. The
third task displaces the second, a raised maximum size lets a worker start for the fourth, and a
shutdown drops the fifth, which was queued once the third was fetched. -/
def displacing : List Event :=
  [.submit ⟨"a", .gate⟩, .submit ⟨"b", .noop⟩, .submit ⟨"c", .noop⟩, .work 0, .set (.maxSize 2),
    .submit ⟨"d", .noop⟩, .finish 0, .work 0, .work 0, .submit ⟨"e", .noop⟩, .stop]

theorem tasks_conserved_displacing :
    ∃ (p : Pool) (s : InUse),
      ofRecord
        { name := "pool", maxSize := 1, queueCapacity := 1, policyName := "DiscardOldestPolicy" } =
        .ok p ∧
      ({ pool := p } : InUse).follow? displacing = some s ∧
      s.ledger.entered.Perm (Place.all.flatMap s.tasksAt) ∧
      s.tasksAt .finished = [⟨"a", .gate⟩] ∧ s.tasksAt .discarded = [⟨"b", .noop⟩] ∧
      s.tasksAt .dropped = [⟨"e", .noop⟩] ∧ ∃! place, ⟨"c", .noop⟩ ∈ s.tasksAt place := by
  have hp : ofRecord
      { name := "pool", maxSize := 1, queueCapacity := 1, policyName := "DiscardOldestPolicy" } =
      .ok _ := rfl
  have h := tasks_conserved
    ((Reach.start {} hp).follow (rfl : InUse.follow? _ displacing = some _))
  exact ⟨_, _, hp, rfl, h.1, rfl, rfl, rfl, h.2.1 ⟨"c", .noop⟩ (by decide)⟩

end PoolControl.Pool
