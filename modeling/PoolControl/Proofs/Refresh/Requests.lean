import PoolControl.Proofs.Refresh.Tunables

/-! # What a record asks for

A record asks for a value of each of six tunables (`Tunable`). A pool is tuned one of them at a
time (`Tuned.step`), in an order that depends on the pool and on the record (`Tunable.order`), and
`Tuned.ofRecord` is the run of the six steps (`Tuned.ofRecord_eq_run`).

What a step does can be told from the snapshot of the pool alone (`Tuned.handles_step`): it does
nothing where the request is met, it reports the refusal where the setter refuses
(`Tunable.refusal`), and else it gives the tunable the value asked for (`Tunable.give`). -/

namespace PoolControl

open Settings (QueueKind Record)

/-- The tunables that a record asks for. -/
inductive Tunable where
  | coreSize
  | maxSize
  | queueCapacity
  | keepAlive
  | policy
  | coreTimeout
  deriving DecidableEq, Repr

namespace Tunable

/-- Every tunable, in the order of the fields of a snapshot. -/
def all : List Tunable := [coreSize, maxSize, queueCapacity, keepAlive, policy, coreTimeout]

/-- The name under which a tunable is reported. -/
def field : Tunable → String
  | coreSize => "core_size"
  | maxSize => "max_size"
  | queueCapacity => "queue_capacity"
  | keepAlive => "keep_alive"
  | policy => "reject_policy"
  | coreTimeout => "allow_core_timeout"

/-- The tunable has the value that the record asks for. Of a queue that hands off no capacity is
asked for. -/
def IsMet (r : Record) (s : Snapshot) : Tunable → Prop
  | coreSize => (s.coreSize : Int) = r.coreSize.toInt
  | maxSize => (s.maxSize : Int) = r.maxSize.toInt
  | queueCapacity => s.queueKind = .handOff ∨ s.queueCapacity = r.queueCapacity.toNat
  | keepAlive => s.keepAlive = .ofMillis r.keepAliveMillis.toNat
  | policy => Text.sameName s.policy (Text.trim r.policyName) = true
  | coreTimeout => s.coreTimeout = r.coreTimeout

instance (r : Record) (s : Snapshot) (f : Tunable) : Decidable (f.IsMet r s) := by
  cases f <;> unfold IsMet <;> infer_instance

/-- The tunable has the same value in both snapshots. -/
def Agree (s s' : Snapshot) : Tunable → Prop
  | coreSize => s'.coreSize = s.coreSize
  | maxSize => s'.maxSize = s.maxSize
  | queueCapacity => s'.queueCapacity = s.queueCapacity
  | keepAlive => s'.keepAlive = s.keepAlive
  | policy => s'.policy = s.policy
  | coreTimeout => s'.coreTimeout = s.coreTimeout

instance (s s' : Snapshot) (f : Tunable) : Decidable (f.Agree s s') := by
  cases f <;> unfold Agree <;> infer_instance

/-- Why a pool with that snapshot refuses the value that the record asks for, if it does. -/
def refusal (r : Record) (s : Snapshot) : Tunable → Option Error
  | coreSize =>
    let core := r.coreSize.toInt.toNat
    if s.maxSize < core then some (.coreAboveMax s.name core s.maxSize) else none
  | maxSize =>
    let max := r.maxSize.toInt.toNat
    if max = 0 ∨ max < s.coreSize then some (.maxTooSmall s.name max s.coreSize) else none
  | queueCapacity =>
    if s.queueKind.isResizable then none else some (.fixedCapacity s.name s.queueKind)
  | keepAlive =>
    if r.keepAliveMillis = 0 ∧ s.coreTimeout = true then some (.zeroKeepAlive s.name) else none
  | policy =>
    match SaturationPolicy.resolve r.policyName with
    | .ok _ => none
    | .error e => some e
  | coreTimeout =>
    if r.coreTimeout = true ∧ s.keepAlive.nanos = 0 then some (.zeroKeepAlive s.name) else none

/-- The snapshot with the value that the record asks for. -/
def give (r : Record) (s : Snapshot) : Tunable → Snapshot
  | coreSize => { s with coreSize := r.coreSize.toInt.toNat }
  | maxSize => { s with maxSize := r.maxSize.toInt.toNat }
  | queueCapacity => { s with queueCapacity := r.queueCapacity.toNat }
  | keepAlive => { s with keepAlive := .ofMillis r.keepAliveMillis.toNat }
  | policy =>
    match SaturationPolicy.resolve r.policyName with
    | .ok wanted => { s with policy := wanted.name }
    | .error _ => s
  | coreTimeout => { s with coreTimeout := r.coreTimeout }

/-- The tunable that decides whether another one can have its value. -/
def guard? : Tunable → Option Tunable
  | coreSize => some maxSize
  | maxSize => some coreSize
  | keepAlive => some coreTimeout
  | coreTimeout => some keepAlive
  | queueCapacity => none
  | policy => none

/-- The size that makes room for the other goes first. -/
def sizesOrder (r : Record) (s : Snapshot) : List Tunable :=
  if s.maxSize < r.coreSize.toInt.toNat then [maxSize, coreSize] else [coreSize, maxSize]

/-- A keep-alive is there before core workers time out, and taken away after they do. -/
def timingOrder (r : Record) : List Tunable :=
  if r.coreTimeout then [keepAlive, coreTimeout] else [coreTimeout, keepAlive]

/-- The order in which a pool is given the tunables of a record. -/
def order (r : Record) (s : Snapshot) : List Tunable :=
  sizesOrder r s ++ (timingOrder r ++ [policy, queueCapacity])

theorem field_injective : Function.Injective field := by
  intro f g
  cases f <;> cases g <;> simp [field]

theorem perm_order (r : Record) (s : Snapshot) : (order r s).Perm all := by
  unfold order sizesOrder timingOrder
  split_ifs <;> decide

theorem mem_order (r : Record) (s : Snapshot) (f : Tunable) : f ∈ order r s :=
  (perm_order r s).mem_iff.mpr (by cases f <;> decide)

variable {r : Record} {s s' s'' : Snapshot} {f g : Tunable}

theorem mem_sizesOrder : f ∈ sizesOrder r s ↔ f = .coreSize ∨ f = .maxSize := by
  unfold sizesOrder
  split_ifs <;> simp [or_comm]

theorem Agree.refl (s : Snapshot) (f : Tunable) : f.Agree s s := by
  cases f <;> rfl

theorem Agree.trans (h : f.Agree s s') (h' : f.Agree s' s'') : f.Agree s s'' := by
  cases f <;> exact Eq.trans h' h

theorem Agree.isMet_iff (h : f.Agree s s') (hk : s'.queueKind = s.queueKind) :
    f.IsMet r s' ↔ f.IsMet r s := by
  cases f <;> simp only [Agree] at h <;> simp only [IsMet, h, hk]

theorem refusal_congr (hn : s'.name = s.name) (hk : s'.queueKind = s.queueKind)
    (hg : ∀ g ∈ f.guard?, g.Agree s s') : f.refusal r s' = f.refusal r s := by
  cases f <;> simp [guard?, Agree] at hg <;> unfold refusal <;> simp only [hn, hk, hg]

theorem exists_give_policy (r : Record) (s : Snapshot) :
    ∃ name, policy.give r s = { s with policy := name } := by
  unfold give
  cases SaturationPolicy.resolve r.policyName with
  | ok wanted => exact ⟨wanted.name, rfl⟩
  | error e => exact ⟨s.policy, rfl⟩

theorem name_give (r : Record) (s : Snapshot) (f : Tunable) : (f.give r s).name = s.name := by
  cases f with
  | policy =>
    obtain ⟨name, hgive⟩ := exists_give_policy r s
    exact congrArg (·.name) hgive
  | _ => rfl

theorem queueKind_give (r : Record) (s : Snapshot) (f : Tunable) :
    (f.give r s).queueKind = s.queueKind := by
  cases f with
  | policy =>
    obtain ⟨name, hgive⟩ := exists_give_policy r s
    exact congrArg (·.queueKind) hgive
  | _ => rfl

theorem agree_give (r : Record) (s : Snapshot) (h : g ≠ f) : g.Agree s (f.give r s) := by
  cases f with
  | policy =>
    obtain ⟨name, hgive⟩ := exists_give_policy r s
    rw [hgive]
    cases g <;> first | rfl | exact absurd rfl h
  | _ => cases g <;> first | rfl | exact absurd rfl h

theorem isMet_give (hr : r.isCommittable = true) (hf : f.refusal r s = none) :
    f.IsMet r (f.give r s) := by
  simp only [Record.isCommittable, decide_eq_true_eq] at hr
  cases f with
  | coreSize => exact Int.toNat_of_nonneg (by omega)
  | maxSize => exact Int.toNat_of_nonneg (by omega)
  | queueCapacity => exact Or.inr rfl
  | policy =>
    unfold refusal at hf
    unfold give
    cases hp : SaturationPolicy.resolve r.policyName with
    | ok wanted => exact SaturationPolicy.resolve_eq_ok_iff.mp hp
    | error e =>
      rw [hp] at hf
      cases hf
  | _ => rfl

end Tunable

/-! ### Setters -/

namespace Pool

/-- A setter refuses for the given reason, or makes the pool one with the given snapshot. -/
def Answers (result : Except Error Pool) (refusal : Option Error) (s : Snapshot) : Prop :=
  match refusal with
  | some e => result = .error e
  | none => ∃ q, result = .ok q ∧ q.snapshot = s

variable (r : Record) (p : Pool)

theorem answers_setCoreSize : Answers (p.setCoreSize r.coreSize.toInt.toNat)
    (Tunable.coreSize.refusal r p.snapshot) (Tunable.coreSize.give r p.snapshot) := by
  unfold Tunable.refusal
  dsimp only
  split_ifs with h
  · exact if_pos h
  · exact setCoreSize_of_le (Nat.not_lt.mp h)

theorem answers_setMaxSize : Answers (p.setMaxSize r.maxSize.toInt.toNat)
    (Tunable.maxSize.refusal r p.snapshot) (Tunable.maxSize.give r p.snapshot) := by
  unfold Tunable.refusal
  dsimp only
  split_ifs with h
  · exact if_pos h
  · rw [not_or] at h
    exact setMaxSize_of_le (Nat.pos_of_ne_zero h.1) (Nat.not_lt.mp h.2)

theorem answers_setKeepAlive : Answers (p.setKeepAlive (.ofMillis r.keepAliveMillis.toNat))
    (Tunable.keepAlive.refusal r p.snapshot) (Tunable.keepAlive.give r p.snapshot) := by
  unfold Tunable.refusal
  dsimp only
  split_ifs with h
  · exact if_pos ⟨(Duration.nanos_ofMillis_eq_zero_iff _).mpr h.1, h.2⟩
  · refine setKeepAlive_of_imp fun h0 => ?_
    rw [← Bool.not_eq_true]
    exact fun ht => h ⟨h0, ht⟩

theorem answers_setCoreTimeout : Answers (p.setCoreTimeout r.coreTimeout)
    (Tunable.coreTimeout.refusal r p.snapshot) (Tunable.coreTimeout.give r p.snapshot) := by
  have hzero : p.snapshot.keepAlive.nanos = 0 ↔ p.keepAlive = 0 :=
    Duration.nanos_ofMillis_eq_zero_iff p.keepAlive
  unfold Tunable.refusal
  simp only [hzero]
  split_ifs with h
  · exact if_pos h
  · exact setCoreTimeout_of_imp fun ha hk => h ⟨ha, hk⟩

theorem answers_setQueueCapacity : Answers (p.setQueueCapacity r.queueCapacity.toNat)
    (Tunable.queueCapacity.refusal r p.snapshot) (Tunable.queueCapacity.give r p.snapshot) := by
  unfold Tunable.refusal
  dsimp only
  by_cases h : p.queue.kind.isResizable = true
  · rw [if_pos (show p.snapshot.queueKind.isResizable = true from h)]
    exact setQueueCapacity_of_isResizable h
  · rw [if_neg (show ¬ p.snapshot.queueKind.isResizable = true from h)]
    have hnone : p.queue.setCapacity? r.queueCapacity.toNat = none := if_neg h
    simp only [Answers, setQueueCapacity, hnone]
    rfl

end Pool

/-! ### Steps -/

namespace Tuned

/-- The step that gives a pool one tunable of a record. -/
def step (r : Record) (t : Tuned) : Tunable → Tuned
  | .coreSize => t.core r.coreSize.toInt.toNat
  | .maxSize => t.max r.maxSize.toInt.toNat
  | .queueCapacity => t.queueCapacity r.queueCapacity.toNat
  | .keepAlive => t.keepAlive r.keepAliveMillis
  | .policy => t.policy r.policyName
  | .coreTimeout => t.coreTimeout r.coreTimeout

/-- One step after the other. -/
def run (r : Record) (t : Tuned) (fs : List Tunable) : Tuned := fs.foldl (step r) t

theorem run_append (r : Record) (t : Tuned) (fs gs : List Tunable) :
    t.run r (fs ++ gs) = (t.run r fs).run r gs := List.foldl_append

theorem sizes_eq_run (r : Record) (t : Tuned) :
    t.sizes r.coreSize.toInt.toNat r.maxSize.toInt.toNat =
      t.run r (Tunable.sizesOrder r t.pool.snapshot) := by
  have hmax : t.pool.snapshot.maxSize = t.pool.maxSize := rfl
  unfold sizes Tunable.sizesOrder
  rw [hmax]
  split_ifs <;> rfl

theorem timing_eq_run (r : Record) (t : Tuned) : t.timing r = t.run r (Tunable.timingOrder r) := by
  unfold timing Tunable.timingOrder
  split_ifs with h
  · simp only [run, List.foldl_cons, List.foldl_nil, step, h]
  · rw [Bool.not_eq_true] at h
    simp only [run, List.foldl_cons, List.foldl_nil, step, h]

/-- **Tuning a pool by a record is a run of steps.** -/
theorem ofRecord_eq_run (r : Record) (p : Pool) :
    ofRecord r p = run r { pool := p } (Tunable.order r p.snapshot) := by
  unfold ofRecord Tunable.order
  simp only [run_append, sizes_eq_run, timing_eq_run]
  rfl

/-- What a step can do to the pool and to the list of refused tunables. -/
inductive Handles (r : Record) (f : Tunable) (t : Tuned) : Tuned → Prop
  | met (h : f.IsMet r t.pool.snapshot) : Handles r f t t
  | refused {u : Tuned} (e : Error) (h : ¬ f.IsMet r t.pool.snapshot)
    (he : f.refusal r t.pool.snapshot = some e) (hp : u.pool = t.pool)
    (hs : u.skipped = t.skipped ++ [{ field := f.field, error := e }]) : Handles r f t u
  | taken {u : Tuned} (h : ¬ f.IsMet r t.pool.snapshot) (he : f.refusal r t.pool.snapshot = none)
    (hp : u.pool.snapshot = f.give r t.pool.snapshot) (hs : u.skipped = t.skipped) :
    Handles r f t u

theorem handles_attempt {r : Record} {f : Tunable} {t : Tuned} {result : Except Error Pool}
    (tuning : Tuning) {refused : Error → TuningEvent} (h : ¬ f.IsMet r t.pool.snapshot)
    (ha : Pool.Answers result (f.refusal r t.pool.snapshot) (f.give r t.pool.snapshot))
    (hs : ∀ e, (refused e).skip? = some { field := f.field, error := e }) :
    Handles r f t (t.attempt result tuning refused) := by
  cases he : f.refusal r t.pool.snapshot with
  | some e =>
    rw [he] at ha
    obtain rfl : result = .error e := ha
    refine .refused e h he rfl ?_
    simp [attempt, skipped, hs]
  | none =>
    rw [he] at ha
    obtain ⟨q, rfl, hq⟩ := ha
    refine .taken h he hq ?_
    simp [attempt, skipped, TuningEvent.skip?]

variable {r : Record}

theorem handles_core (hr : r.isCommittable = true) (t : Tuned) :
    Handles r .coreSize t (t.core r.coreSize.toInt.toNat) := by
  simp only [Record.isCommittable, decide_eq_true_eq] at hr
  have hmet : Tunable.coreSize.IsMet r t.pool.snapshot ↔
      r.coreSize.toInt.toNat = t.pool.coreSize := by
    simp only [Tunable.IsMet, Pool.snapshot]
    omega
  unfold core
  split_ifs with h
  · exact .met (hmet.mpr h)
  · exact handles_attempt _ (hmet.not.mpr h) (Pool.answers_setCoreSize r t.pool) fun _ => rfl

theorem handles_max (hr : r.isCommittable = true) (t : Tuned) :
    Handles r .maxSize t (t.max r.maxSize.toInt.toNat) := by
  simp only [Record.isCommittable, decide_eq_true_eq] at hr
  have hmet : Tunable.maxSize.IsMet r t.pool.snapshot ↔
      r.maxSize.toInt.toNat = t.pool.maxSize := by
    simp only [Tunable.IsMet, Pool.snapshot]
    omega
  unfold max
  split_ifs with h
  · exact .met (hmet.mpr h)
  · exact handles_attempt _ (hmet.not.mpr h) (Pool.answers_setMaxSize r t.pool) fun _ => rfl

theorem handles_keepAlive (t : Tuned) : Handles r .keepAlive t (t.keepAlive r.keepAliveMillis) := by
  have hmet : Tunable.keepAlive.IsMet r t.pool.snapshot ↔ r.keepAliveMillis = t.pool.keepAlive := by
    simp only [Tunable.IsMet, Pool.snapshot, Pool.keepAliveSpan, Duration.ofMillis_injective.eq_iff,
      UInt64.toNat_inj]
    exact eq_comm
  unfold keepAlive
  simp only
  split_ifs with h
  · exact .met (hmet.mpr h)
  · exact handles_attempt _ (hmet.not.mpr h) (Pool.answers_setKeepAlive r t.pool) fun _ => rfl

theorem handles_coreTimeout (t : Tuned) :
    Handles r .coreTimeout t (t.coreTimeout r.coreTimeout) := by
  have hmet : Tunable.coreTimeout.IsMet r t.pool.snapshot ↔ r.coreTimeout = t.pool.coreTimeout :=
    eq_comm
  unfold coreTimeout
  split_ifs with h
  · exact .met (hmet.mpr h)
  · exact handles_attempt _ (hmet.not.mpr h) (Pool.answers_setCoreTimeout r t.pool) fun _ => rfl

theorem handles_policy (t : Tuned) : Handles r .policy t (t.policy r.policyName) := by
  unfold Tuned.policy
  split_ifs with h
  · exact .met h
  · cases hp : SaturationPolicy.resolve r.policyName with
    | ok policy =>
      refine .taken h ?_ ?_ ?_
      · simp only [Tunable.refusal, hp]
      · simp only [Tunable.give, hp]
        rfl
      · simp [skipped, TuningEvent.skip?]
    | error e =>
      refine .refused e h ?_ rfl ?_
      · simp only [Tunable.refusal, hp]
      · simp [skipped, TuningEvent.skip?, Tunable.field]

theorem handles_queueCapacity (t : Tuned) :
    Handles r .queueCapacity t (t.queueCapacity r.queueCapacity.toNat) := by
  have hmet : Tunable.queueCapacity.IsMet r t.pool.snapshot ↔
      t.pool.queue.kind = .handOff ∨ r.queueCapacity.toNat = t.pool.queue.capacity := by
    simp only [Tunable.IsMet, Pool.snapshot]
    exact or_congr_right eq_comm
  unfold queueCapacity
  split_ifs with h
  · exact .met (hmet.mpr h)
  · exact handles_attempt _ (hmet.not.mpr h) (Pool.answers_setQueueCapacity r t.pool) fun _ => rfl

/-- **What a step does can be told from the snapshot of the pool.** -/
theorem handles_step (hr : r.isCommittable = true) (t : Tuned) (f : Tunable) :
    Handles r f t (t.step r f) := by
  cases f with
  | coreSize => exact handles_core hr t
  | maxSize => exact handles_max hr t
  | queueCapacity => exact handles_queueCapacity t
  | keepAlive => exact handles_keepAlive t
  | policy => exact handles_policy t
  | coreTimeout => exact handles_coreTimeout t

end Tuned
end PoolControl
