import PoolControl.Proofs.Refresh.Accounting

/-! # A refresh is idempotent

A second refresh from the same record finds nothing to change: the pool stays exactly as it is, the
same tunables are refused, and no notice is posted (`Pool.refresh_idempotent`). This holds however
many tasks come and go in between, since work leaves everything alone that a refresh could set
(`Pool.setup_follow`).

It takes a throttle that the intervals of the rules fit. A rule that does not keep the interval of
the first rule of its kind has its gauge reset by the second refresh though not by the first, so the
second one may fail alone (`Pool.refresh_again_without_outcome`). -/

namespace PoolControl

open Settings (NotifyRule Platform Record)

/-! ### What work leaves alone -/

/-- All of a pool that a refresh can set. -/
structure Setup where
  snapshot : Snapshot
  waitOnShutdown : Bool
  awaitSeconds : UInt64
  rules : List NotifyRule

namespace Pool

def setup (p : Pool) : Setup :=
  { snapshot := p.snapshot
    waitOnShutdown := p.waitOnShutdown
    awaitSeconds := p.awaitSeconds
    rules := p.rules }

/-- Whether the event has to do with tasks and time only. -/
def Event.isWork : Event → Bool
  | .submit _ | .work _ | .finish _ | .advance .. => true
  | _ => false

variable {p q : Pool}

theorem setup_poll (p : Pool) : { p with queue := p.queue.poll.2 }.setup = p.setup := by
  rw [TaskQueue.poll_eq]
  rfl

theorem setup_resume (p : Pool) (id : Nat) :
    { p with queue := (p.queue.resume id).2 }.setup = p.setup := by
  rw [TaskQueue.resume_eq]
  rfl

theorem setup_offer? {queue : TaskQueue Task} {t : Task} (h : p.queue.offer? t = some queue) :
    { p with queue }.setup = p.setup := by
  obtain ⟨-, rfl⟩ := TaskQueue.offer?_eq_some_iff.mp h
  simp only [setup, snapshot, TaskQueue.kind_wakeOne, TaskQueue.capacity_wakeOne]
  rfl

theorem setup_startWorker? {limit : Nat} {phase : Phase} (h : p.startWorker? limit phase = some q) :
    q.setup = p.setup := by
  obtain ⟨-, rfl⟩ := startWorker?_eq_some_iff.mp h
  rfl

theorem setup_ensureWorker (p : Pool) : p.ensureWorker.setup = p.setup := by
  unfold ensureWorker
  split_ifs
  · cases h : p.startWorker? p.maxSize .fresh with
    | none => rfl
    | some q => exact setup_startWorker? h
  · rfl

theorem Stepped.setup_eq {clock : Clock} {w : Worker} (h : Stepped p clock w q) :
    q.setup = p.setup := by
  cases h with
  | obtains id since t items => exact p.setup_resume id
  | wakes id since => exact p.setup_resume id
  | _ => rfl

theorem Submitted.setup_eq {t : Task} {a : Admission} (h : Submitted p t a q) :
    q.setup = p.setup := by
  cases h with
  | handed limit _ _ _ h => exact setup_startWorker? h
  | queued queue _ _ h => exact (setup_ensureWorker _).trans (setup_offer? h)
  | displaced queue _ _ h =>
    exact (setup_offer? (p := { p with queue := p.queue.poll.2 }) h).trans p.setup_poll
  | dropped => exact p.setup_poll
  | _ => rfl

theorem setup_finish (p : Pool) (id : Nat) : (p.finish id).setup = p.setup := by
  rcases p.finish_cases id with h | ⟨t, -, h⟩ <;> rw [h]
  rfl

/-- **Work leaves alone what a refresh can set**, whatever a worker does or a task comes to. -/
theorem setup_after (s : InUse) {e : Event} (he : e.isWork = true) :
    (s.after e).pool.setup = s.pool.setup := by
  cases e with
  | submit t => exact (s.pool.submitted t).setup_eq
  | work id =>
    simp only [InUse.after]
    split
    · next w hw =>
      split_ifs with hc
      · rcases (InUse.work_cases hw hc).2 with h | ⟨-, h⟩
        · exact h.setup_eq
        · rw [h]
          rfl
      · rfl
    · rfl
  | finish id => exact setup_finish s.pool id
  | advance timer wall => rfl
  | _ => cases he

theorem setup_follow : ∀ {es : List Event} {s t : InUse}, (∀ e ∈ es, e.isWork = true) →
    s.follow? es = some t → t.pool.setup = s.pool.setup
  | [], s, t, _, h => by cases h; rfl
  | e :: es, s, t, he, h => by
    unfold InUse.follow? at h
    split_ifs at h
    rw [List.forall_mem_cons] at he
    exact (setup_follow he.2 h).trans (setup_after s he.1)

end Pool

/-! ### Applying a record once more -/

section Apply
variable {platforms : List Platform} {r : Record} {p q : Pool}

theorem Snapshot.diff_self (s : Snapshot) : s.diff s = [] := by
  simp [diff, Change.between]

theorem setup_applyRecord {throttle : Throttle} {now : Nat}
    (h : (applyRecord platforms throttle now r p).fault = none) :
    (applyRecord platforms throttle now r p).pool.setup =
      { snapshot := (Tuned.ofRecord r p).pool.snapshot
        waitOnShutdown := r.waitOnShutdown
        awaitSeconds := r.awaitSeconds
        rules := NotifyRule.effective platforms r.rules } := by
  have hshutdown := shutdown_applyRecord platforms throttle now r p
  simp only [Pool.setup, snapshot_applyRecord, hshutdown, rules_applyRecord platforms _ _ _ _ h]

/-- **A record that is applied once more** leaves the pool as it is, and the same is refused. -/
theorem applyRecord_again (hr : r.isCommittable = true) (hp : p.Sound) {throttle : Throttle}
    {now : Nat} (h : (applyRecord platforms throttle now r p).fault = none)
    (hq : q.setup = (applyRecord platforms throttle now r p).pool.setup) (throttle' : Throttle)
    (now' : Nat) :
    (applyRecord platforms throttle' now' r q).pool = q ∧
      (applyRecord platforms throttle' now' r q).skipped =
        (applyRecord platforms throttle now r p).skipped := by
  rw [setup_applyRecord h, Pool.setup, Setup.mk.injEq] at hq
  obtain ⟨hsnapshot, hwait, hawait, hrules⟩ := hq
  obtain ⟨hpool, hskipped⟩ := Tuned.ofRecord_again hr hp hsnapshot
  refine ⟨?_, hskipped⟩
  -- The rules are in place already, so even a fault would leave the same pool.
  rw [applyRecord_eq, hpool, ← hwait, ← hawait, ← hrules]
  simp only
  split_ifs <;> rfl

end Apply

theorem Registry.get?_update_of_get? {registry : Registry} {name : String} {p : Pool}
    (h : registry.get? name = some p) (other : String) :
    (registry.update p).get? other = registry.get? other := by
  obtain rfl := Registry.name_of_get? h
  by_cases ho : p.name = other
  · obtain rfl := ho
    rw [h]
    exact Registry.get?_update_self _ _ (by rw [Registry.contains, h]; rfl)
  · exact Registry.get?_update_of_ne _ _ ho

namespace Pool

/-- **A refresh is idempotent.** After a refresh of a pool in use, and any work in between, the
second refresh from the same record and platforms reports that nothing has changed, refuses what the
first one refused, leaves every pool as it was and posts nothing. -/
theorem refresh_idempotent {s s' : InUse} (h : Reach s) {platforms : List Platform}
    {c c' : ControlPlane} {r : Record} {o : Outcome} {q : Pool} {es : List Event}
    (hr : r.isCommittable = true) (hget : c.registry.get? r.name = some s.pool)
    (hfirst : (refreshRecord platforms c r).1 = .ok o)
    (hq : (refreshRecord platforms c r).2.registry.get? r.name = some q)
    (hes : ∀ e ∈ es, e.isWork = true)
    (hfollow : ({ s with pool := q } : InUse).follow? es = some s')
    (hget' : c'.registry.get? r.name = some s'.pool)
    (hfits : ∀ rule ∈ NotifyRule.effective platforms r.rules,
      keepsInterval (NotifyRule.effective platforms r.rules) rule = true ∨ c'.throttle.Fits rule) :
    (refreshRecord platforms c' r).1 = .ok (.unchanged o.skipped) ∧
      (∀ name, (refreshRecord platforms c' r).2.registry.get? name = c'.registry.get? name) ∧
      (refreshRecord platforms c' r).2.outbox = c'.outbox := by
  have hfault := fault_eq_none_of_outcome hr hget hfirst
  obtain ⟨o', ho', -, -, hskipped⟩ := exists_outcome hr hget rfl hfault
  obtain rfl : o = o' := Except.ok.inj (hfirst.symm.trans ho')
  obtain rfl := Option.some.inj (hq.symm.trans (get?_refreshRecord hr hget))
  obtain ⟨hpool, hskipped'⟩ := applyRecord_again hr h.sound hfault (setup_follow hes hfollow)
    c'.throttle c'.nowNanos
  have hrules : s'.pool.rules = NotifyRule.effective platforms r.rules := by
    have hsetup := (setup_follow hes hfollow).trans (setup_applyRecord hfault)
    exact congrArg Setup.rules hsetup
  have hfault' : (applyRecord platforms c'.throttle c'.nowNanos r s'.pool).fault = none := by
    rw [fault_applyRecord_eq_none_iff, hrules]
    exact hfits
  rw [refreshRecord_of_diff_eq_nil hr hget' rfl hfault' (by rw [hpool, Snapshot.diff_self]),
    hskipped', ← hskipped]
  refine ⟨rfl, fun name => ?_, rfl⟩
  simp only [ControlPlane.takeOver, ControlPlane.updatePool, hpool]
  exact Registry.get?_update_of_get? hget' name

theorem refresh_idempotent_defiant :
    ∃ (p q : Pool) (s s' : InUse) (o : Outcome),
      ofRecord { name := "pool", maxSize := 1, queueKind := .linked } = .ok p ∧
      ({ pool := p } : InUse).follow? [.set (.coreTimeout true), .submit ⟨"a", .gate⟩] = some s ∧
      (refreshRecord [] (holding s.pool) defiant).1 = .ok o ∧ o.isChanged = true ∧
      (refreshRecord [] (holding s.pool) defiant).2.registry.get? "pool" = some q ∧
      ({ s with pool := q } : InUse).follow?
        [.submit ⟨"b", .noop⟩, .work 0, .advance 5 5, .finish 0] = some s' ∧
      (refreshRecord [] (holding s'.pool) defiant).1 = .ok (.unchanged o.skipped) ∧
      (∀ name, (refreshRecord [] (holding s'.pool) defiant).2.registry.get? name =
        (holding s'.pool).registry.get? name) ∧
      (refreshRecord [] (holding s'.pool) defiant).2.outbox = (holding s'.pool).outbox := by
  obtain ⟨p, q, s, s', o, hp, hs, hname, hname', ho, hchanged, hq, hs'⟩ :
      ∃ (p q : Pool) (s s' : InUse) (o : Outcome),
        ofRecord { name := "pool", maxSize := 1, queueKind := .linked } = .ok p ∧
        ({ pool := p } : InUse).follow? [.set (.coreTimeout true), .submit ⟨"a", .gate⟩] = some s ∧
        s.pool.name = "pool" ∧ s'.pool.name = "pool" ∧
        (refreshRecord [] (holding s.pool) defiant).1 = .ok o ∧ o.isChanged = true ∧
        (refreshRecord [] (holding s.pool) defiant).2.registry.get? "pool" = some q ∧
        ({ s with pool := q } : InUse).follow?
          [.submit ⟨"b", .noop⟩, .work 0, .advance 5 5, .finish 0] = some s' :=
    ⟨_, _, _, _, _, rfl, rfl, rfl, rfl, rfl, rfl, rfl, rfl⟩
  have hget : (holding s.pool).registry.get? "pool" = some s.pool := hname ▸ get?_holding s.pool
  have hget' : (holding s'.pool).registry.get? "pool" = some s'.pool :=
    hname' ▸ get?_holding s'.pool
  have hes : ∀ e ∈ [Event.submit ⟨"b", .noop⟩, .work 0, .advance 5 5, .finish 0],
      e.isWork = true := by
    simp [Event.isWork]
  have hfits : ∀ rule ∈ NotifyRule.effective [] defiant.rules, Throttle.single.Fits rule := by
    decide
  have h := refresh_idempotent ((Reach.start {} hp).follow hs) (r := defiant) (by decide) hget ho hq
    hes hs' hget' fun rule hrule => Or.inr (hfits rule hrule)
  exact ⟨p, q, s, s', o, hp, hs, ho, hchanged, hq, hs', h⟩

/-- The pool's first rule has the long interval before the first refresh, and the short one after
it. The second refresh ends without an outcome. -/
theorem refresh_again_without_outcome :
    ∃ (p q : Pool) (r : Record),
      ofRecord
        { name := "pool", maxSize := 1
          rules := [{ kind := .change, interval := some 20000000000 }] } = .ok p ∧
      r.isCommittable = true ∧
      (refreshRecord [] (holding p) r).1 = .ok (.unchanged []) ∧
      (refreshRecord [] (holding p) r).2.registry.get? "pool" = some q ∧
      (refreshRecord [] (holding q) r).1 = .error .intervalTooLong :=
  ⟨_, _, { name := "pool", maxSize := 1
           rules := [{ kind := .change, interval := some 60 },
             { kind := .change, interval := some 20000000000 }] },
    rfl, by decide, rfl, rfl, rfl⟩

end Pool
end PoolControl
