import PoolControl.Proofs.Pool.Sound
import PoolControl.Refresh.Apply

/-! # Tuning a pool by a record

Each step of `Tuned.ofRecord` sets one tunable, and the pool may refuse it because of another one. A
step `Takes` if nothing is refused and the tunables are then those of a given snapshot. Here are the
conditions under which each step takes, and those under which all of them do (`takes_ofRecord`). -/

namespace PoolControl

open Settings (KeepAliveUnit QueueKind Record)

/-! ### Spans and names -/

namespace Duration

theorem ofMillis_injective : Function.Injective ofMillis := by
  intro a b h
  have hn : a * 1000000 = b * 1000000 := congrArg nanos h
  omega

theorem nanos_ofMillis_eq_zero_iff (m : UInt64) : (ofMillis m.toNat).nanos = 0 ↔ m = 0 := by
  rw [← UInt64.toNat_inj]
  simp only [ofMillis, UInt64.toNat_zero]
  omega

theorem wordMillis_ofMillis (m : UInt64) : (ofMillis m.toNat).wordMillis = m := by
  have hlt := m.toNat_lt
  rw [← UInt64.toNat_inj, toNat_wordMillis, millis_ofMillis]
  simp only [maxWord, UInt64.size]
  omega

theorem wordMillis_ne_zero {d : Duration} (h : 1000000 ≤ d.nanos) : d.wordMillis ≠ 0 := by
  intro h0
  have hn := d.toNat_wordMillis
  rw [h0] at hn
  simp only [millis, maxWord, UInt64.size, UInt64.toNat_zero] at hn
  omega

end Duration

/-- Units are whole milliseconds, so a span that is not zero is one at least. -/
theorem Settings.KeepAliveUnit.nanos_duration (u : KeepAliveUnit) (n : Nat) :
    (u.duration n).nanos = 0 ∨ 1000000 ≤ (u.duration n).nanos := by
  cases u <;> simp only [KeepAliveUnit.duration, Duration.ofMillis, Duration.ofSecs] <;> omega

theorem Settings.Record.keepAliveMillis_ne_zero {r : Record}
    (h : (r.keepAlive?.getD ⟨0⟩).nanos ≠ 0) : r.keepAliveMillis ≠ 0 := by
  refine Duration.wordMillis_ne_zero ?_
  unfold Record.keepAlive? at h ⊢
  split_ifs at h ⊢
  · exact (KeepAliveUnit.nanos_duration _ _).resolve_left h
  · exact absurd rfl h

namespace SaturationPolicy

theorem mem_all (p : SaturationPolicy) : p ∈ all := by cases p <;> decide

/-- The names of the policies differ in more than the case of their letters. -/
theorem eq_of_sameName {p q : SaturationPolicy} (h : Text.sameName p.name q.name = true) :
    p = q := by
  revert h
  cases p <;> cases q <;> decide

theorem resolve_eq_ok_iff {name : String} {p : SaturationPolicy} :
    resolve name = .ok p ↔ Text.sameName p.name (Text.trim name) = true := by
  unfold resolve
  simp only
  constructor
  · intro h
    split at h
    · next q hq =>
      have hname := List.find?_some hq
      rw [← Except.ok.inj h]
      exact hname
    · cases h
  · intro h
    have hsome : (all.find? fun q => Text.sameName q.name (Text.trim name)).isSome = true :=
      List.find?_isSome.mpr ⟨p, p.mem_all, h⟩
    obtain ⟨q, hq⟩ := Option.isSome_iff_exists.mp hsome
    have hpq : p = q := by
      refine eq_of_sameName ?_
      have hq' := List.find?_some hq
      simp only [Text.sameName, beq_iff_eq] at h hq' ⊢
      rw [h, hq']
    rw [hq, hpq]

end SaturationPolicy

/-! ### Setters -/

namespace Pool

variable {p : Pool} {n : Nat}

theorem snapshot_wakeIf (p : Pool) (condition : Bool) :
    (p.wakeIf condition).snapshot = p.snapshot := by
  unfold wakeIf
  split_ifs <;> rfl

theorem snapshot_startWorkers (limit n : Nat) (p : Pool) :
    (startWorkers limit n p).snapshot = p.snapshot := by
  obtain ⟨fresh, largest, heq, -⟩ := startWorkers_spec limit n p
  rw [heq]
  rfl

theorem setCoreSize_of_le (h : n ≤ p.maxSize) :
    ∃ q, p.setCoreSize n = .ok q ∧ q.snapshot = { p.snapshot with coreSize := n } := by
  refine ⟨_, if_neg (Nat.not_lt.mpr h), ?_⟩
  rw [snapshot_wakeIf, snapshot_startWorkers]
  rfl

theorem setMaxSize_of_le (h0 : 0 < n) (h : p.coreSize ≤ n) :
    ∃ q, p.setMaxSize n = .ok q ∧ q.snapshot = { p.snapshot with maxSize := n } :=
  ⟨_, if_neg (by omega), snapshot_wakeIf _ _⟩

theorem setKeepAlive_of_imp {millis : UInt64} (h : millis = 0 → p.coreTimeout = false) :
    ∃ q, p.setKeepAlive (.ofMillis millis.toNat) = .ok q ∧
      q.snapshot = { p.snapshot with keepAlive := .ofMillis millis.toNat } := by
  refine ⟨_, if_neg ?_, ?_⟩
  · rintro ⟨h0, ht⟩
    rw [h ((Duration.nanos_ofMillis_eq_zero_iff millis).mp h0)] at ht
    cases ht
  · rw [snapshot_wakeIf, Duration.wordMillis_ofMillis]
    rfl

theorem setCoreTimeout_of_imp {allow : Bool} (h : allow = true → p.keepAlive ≠ 0) :
    ∃ q, p.setCoreTimeout allow = .ok q ∧ q.snapshot = { p.snapshot with coreTimeout := allow } :=
  ⟨_, if_neg fun hz => h hz.1 hz.2, snapshot_wakeIf _ _⟩

theorem setQueueCapacity_of_isResizable (h : p.queue.kind.isResizable = true) :
    ∃ q, p.setQueueCapacity n = .ok q ∧ q.snapshot = { p.snapshot with queueCapacity := n } := by
  refine ⟨{ p with queue := { p.queue with capacity := n } }, ?_, rfl⟩
  rw [setQueueCapacity, TaskQueue.setCapacity?_eq_some_iff.mpr ⟨h, rfl⟩]

end Pool

/-! ### Steps -/

namespace Tuned

/-- From the one to the other nothing was refused, and the tunables are those of the snapshot. -/
structure Takes (t u : Tuned) (s : Snapshot) : Prop where
  skipped : u.skipped = t.skipped
  snapshot : u.pool.snapshot = s

theorem Takes.trans {t u v : Tuned} {s s' : Snapshot} (h : Takes t u s) (h' : Takes u v s') :
    Takes t v s' := ⟨h'.skipped.trans h.skipped, h'.snapshot⟩

theorem takes_attempt {t : Tuned} {result : Except Error Pool} {s : Snapshot} (tuning : Tuning)
    (refused : Error → TuningEvent) (h : ∃ q, result = .ok q ∧ q.snapshot = s) :
    Takes t (t.attempt result tuning refused) s := by
  obtain ⟨q, rfl, hs⟩ := h
  refine ⟨?_, hs⟩
  simp [attempt, skipped, TuningEvent.skip?]

variable (t : Tuned)

theorem takes_core (n : Nat) (h : n ≤ t.pool.maxSize) :
    Takes t (t.core n) { t.pool.snapshot with coreSize := n } := by
  unfold core
  split_ifs with heq
  · rw [heq]
    exact ⟨rfl, rfl⟩
  · exact takes_attempt _ _ (Pool.setCoreSize_of_le h)

theorem takes_max (n : Nat) (h0 : 0 < n) (h : t.pool.coreSize ≤ n) :
    Takes t (t.max n) { t.pool.snapshot with maxSize := n } := by
  unfold max
  split_ifs with heq
  · rw [heq]
    exact ⟨rfl, rfl⟩
  · exact takes_attempt _ _ (Pool.setMaxSize_of_le h0 h)

/-- **Committable sizes are never refused**: the one that makes room for the other goes first. -/
theorem takes_sizes (core max : Nat) (hp : t.pool.coreSize ≤ t.pool.maxSize) (h0 : 0 < max)
    (h : core ≤ max) :
    Takes t (t.sizes core max) { t.pool.snapshot with coreSize := core, maxSize := max } := by
  unfold sizes
  split_ifs with hlt
  · have hm := t.takes_max max h0 (by omega)
    have hmax : (t.max max).pool.maxSize = max := congrArg Snapshot.maxSize hm.snapshot
    have hc := (t.max max).takes_core core (hmax.symm ▸ h)
    rw [hm.snapshot] at hc
    exact hm.trans hc
  · have hc := t.takes_core core (Nat.not_lt.mp hlt)
    have hcore : (t.core core).pool.coreSize = core := congrArg Snapshot.coreSize hc.snapshot
    have hm := (t.core core).takes_max max h0 (hcore.symm ▸ h)
    rw [hc.snapshot] at hm
    exact hc.trans hm

theorem takes_keepAlive (millis : UInt64) (h : millis = 0 → t.pool.coreTimeout = false) :
    Takes t (t.keepAlive millis) { t.pool.snapshot with keepAlive := .ofMillis millis.toNat } := by
  unfold keepAlive
  simp only
  split_ifs with heq
  · rw [heq]
    exact ⟨rfl, rfl⟩
  · exact takes_attempt _ _ (Pool.setKeepAlive_of_imp h)

theorem takes_coreTimeout (allow : Bool) (h : allow = true → t.pool.keepAlive ≠ 0) :
    Takes t (t.coreTimeout allow) { t.pool.snapshot with coreTimeout := allow } := by
  unfold coreTimeout
  split_ifs with heq
  · rw [heq]
    exact ⟨rfl, rfl⟩
  · exact takes_attempt _ _ (Pool.setCoreTimeout_of_imp h)

/-- **Keep-alive and core timeout are not refused** if core workers that time out have a keep-alive:
it is in place before they time out, and they time out no longer before it is taken away. -/
theorem takes_timing {r : Record} (h : r.coreTimeout = true → r.keepAliveMillis ≠ 0) :
    Takes t (t.timing r)
      { t.pool.snapshot with
        keepAlive := .ofMillis r.keepAliveMillis.toNat
        coreTimeout := r.coreTimeout } := by
  unfold timing
  split_ifs with hr
  · have hk := t.takes_keepAlive r.keepAliveMillis fun h0 => absurd h0 (h hr)
    have hspan : Duration.ofMillis (t.keepAlive r.keepAliveMillis).pool.keepAlive.toNat =
        .ofMillis r.keepAliveMillis.toNat := congrArg Snapshot.keepAlive hk.snapshot
    have hword : (t.keepAlive r.keepAliveMillis).pool.keepAlive = r.keepAliveMillis :=
      UInt64.toNat_inj.mp (Duration.ofMillis_injective hspan)
    have hc := (t.keepAlive r.keepAliveMillis).takes_coreTimeout true fun _ => by
      rw [hword]
      exact h hr
    rw [hk.snapshot] at hc
    rw [hr]
    exact hk.trans hc
  · have hc := t.takes_coreTimeout false nofun
    have hoff : (t.coreTimeout false).pool.coreTimeout = false :=
      congrArg Snapshot.coreTimeout hc.snapshot
    have hk := (t.coreTimeout false).takes_keepAlive r.keepAliveMillis fun _ => hoff
    rw [hc.snapshot] at hk
    rw [Bool.not_eq_true] at hr
    rw [hr]
    exact hc.trans hk

theorem takes_policy {name : String} {policy : SaturationPolicy}
    (h : SaturationPolicy.resolve name = .ok policy) :
    Takes t (t.policy name) { t.pool.snapshot with policy := policy.name } := by
  unfold Tuned.policy
  split_ifs with hsame
  · rw [SaturationPolicy.resolve_eq_ok_iff.mpr hsame] at h
    rw [← Except.ok.inj h]
    exact ⟨rfl, rfl⟩
  · simp only [h]
    refine ⟨?_, rfl⟩
    simp [skipped, TuningEvent.skip?]

theorem takes_queueCapacity {n : Nat} (h : t.pool.queue.kind.isResizable = true ∨
    t.pool.queue.kind = .handOff ∨ n = t.pool.queue.capacity) :
    Takes t (t.queueCapacity n)
      { t.pool.snapshot with
        queueCapacity := if t.pool.queue.kind = .handOff then t.pool.queue.capacity else n } := by
  unfold queueCapacity
  by_cases hh : t.pool.queue.kind = .handOff
  · rw [if_pos (Or.inl hh), if_pos hh]
    exact ⟨rfl, rfl⟩
  · rw [if_neg hh]
    split_ifs with heq
    · rw [heq.resolve_left hh]
      exact ⟨rfl, rfl⟩
    · rw [not_or] at heq
      refine takes_attempt _ _ (Pool.setQueueCapacity_of_isResizable ?_)
      exact h.resolve_right fun h' => h'.elim hh heq.2

/-- **A sound pool takes every tunable of a record that describes a pool**, if it can take the
capacity of its queue. What it has had before does not matter. -/
theorem takes_ofRecord {r : Record} {p fresh : Pool} (hp : p.Sound)
    (hr : Pool.ofRecord r = .ok fresh)
    (hc : p.queue.kind = .resizable ∨ p.queue.kind = .handOff ∨
      r.queueCapacity.toNat = p.queue.capacity) :
    Takes { pool := p } (ofRecord r p)
      { fresh.snapshot with
        name := p.name
        queueKind := p.queue.kind
        queueCapacity := if p.queue.kind = .handOff then 0 else r.queueCapacity.toNat } := by
  obtain ⟨hcommit, htime, policy, hpolicy, rfl⟩ := Pool.ofRecord_eq_ok_iff.mp hr
  simp only [Record.isCommittable, decide_eq_true_eq] at hcommit
  have hmillis : r.coreTimeout = true → r.keepAliveMillis ≠ 0 := fun ht =>
    Record.keepAliveMillis_ne_zero fun h0 => htime ⟨ht, h0⟩
  unfold ofRecord
  simp only
  -- Each step starts from the snapshot that the one before has left.
  have h1 := takes_sizes { pool := p } r.coreSize.toInt.toNat r.maxSize.toInt.toNat hp.coreSize_le
    (by omega) (by omega)
  generalize Tuned.sizes r.coreSize.toInt.toNat r.maxSize.toInt.toNat { pool := p } = t1 at h1 ⊢
  have h2 := t1.takes_timing hmillis
  generalize t1.timing r = t2 at h2 ⊢
  have h3 := t2.takes_policy hpolicy
  generalize t2.policy r.policyName = t3 at h3 ⊢
  rw [h1.snapshot] at h2
  rw [h2.snapshot] at h3
  have hkind : t3.pool.queue.kind = p.queue.kind := congrArg Snapshot.queueKind h3.snapshot
  have hcap : t3.pool.queue.capacity = p.queue.capacity :=
    congrArg Snapshot.queueCapacity h3.snapshot
  have hfits : t3.pool.queue.kind.isResizable = true ∨ t3.pool.queue.kind = .handOff ∨
      r.queueCapacity.toNat = t3.pool.queue.capacity := by
    rw [hkind, hcap]
    refine hc.imp_left fun hk => ?_
    rw [hk]
    rfl
  have h4 := t3.takes_queueCapacity hfits
  have hzero : (if p.queue.kind = .handOff then p.queue.capacity else r.queueCapacity.toNat) =
      if p.queue.kind = .handOff then 0 else r.queueCapacity.toNat :=
    ite_congr rfl hp.handOff_capacity fun _ => rfl
  rw [h3.snapshot, hkind, hcap, hzero] at h4
  exact ((h1.trans h2).trans h3).trans h4

end Tuned
end PoolControl
