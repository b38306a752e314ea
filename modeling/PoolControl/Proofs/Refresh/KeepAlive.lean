import PoolControl.Proofs.Refresh.Repeated
import PoolControl.Proofs.Refresh.Sizes

/-! # Core workers time out after some time

A pool is timed if its keep-alive is not zero where its core workers time out (`Snapshot.IsTimed`).
The pool of a record is timed, each setter refuses what would end that, and a refresh gives the two
tunables in the order that suits the record.

There is one exception. A keep-alive is checked as a span and then kept in whole milliseconds, so
one of less than a millisecond gets past the check and is kept as zero (`Setting.IsFleeting`). All
states that a pool goes through are timed exactly if it is never given such a keep-alive while its
core workers time out (`Pool.core_timeout_timed`). -/

namespace PoolControl

open Settings (NotifyRule Platform Record)

/-- The pool has a keep-alive if its core workers time out. -/
def Snapshot.IsTimed (s : Snapshot) : Prop := s.coreTimeout = true → s.keepAlive.nanos ≠ 0

instance (s : Snapshot) : Decidable s.IsTimed := by
  unfold Snapshot.IsTimed; infer_instance

/-- The setting is a keep-alive that is not zero, but less than a millisecond. -/
def Setting.IsFleeting : Setting → Prop
  | .keepAlive span => span.nanos ≠ 0 ∧ span.millis = 0
  | _ => False

instance (setting : Setting) : Decidable setting.IsFleeting := by
  unfold Setting.IsFleeting; cases setting <;> infer_instance

theorem Snapshot.IsTimed.of_agree {s s' : Snapshot} (h : s.IsTimed)
    (hk : Tunable.keepAlive.Agree s s') (hc : Tunable.coreTimeout.Agree s s') : s'.IsTimed := by
  intro ht
  rw [show s'.keepAlive = s.keepAlive from hk]
  exact h (hc.symm.trans ht)

/-! ### Refreshing -/

theorem Tunable.isTimed_give {r : Record} {s : Snapshot} {f : Tunable} (h : s.IsTimed)
    (hf : f.refusal r s = none) : (f.give r s).IsTimed := by
  cases f with
  | keepAlive =>
    simp only [refusal, ite_eq_right_iff, reduceCtorEq, imp_false, not_and] at hf
    intro ht h0
    exact hf ((Duration.nanos_ofMillis_eq_zero_iff _).mp h0) ht
  | coreTimeout =>
    simp only [refusal, ite_eq_right_iff, reduceCtorEq, imp_false, not_and] at hf
    exact hf
  | _ => exact h.of_agree (agree_give r s (by decide)) (agree_give r s (by decide))

namespace Tuned

variable {r : Record}

theorem Handles.isTimed {f : Tunable} {t u : Tuned} (h : Handles r f t u)
    (ht : t.pool.snapshot.IsTimed) : u.pool.snapshot.IsTimed := by
  cases h with
  | met => exact ht
  | refused e _ _ hp =>
    rw [hp]
    exact ht
  | taken _ he hp =>
    rw [hp]
    exact Tunable.isTimed_give ht he

/-- **Between two setters of a record** a timed pool is timed too. -/
theorem isTimed_run (hr : r.isCommittable = true) {t : Tuned} (ht : t.pool.snapshot.IsTimed)
    (fs : List Tunable) : (t.run r fs).pool.snapshot.IsTimed := by
  induction fs generalizing t with
  | nil => exact ht
  | cons f fs ih => exact ih ((handles_step hr t f).isTimed ht)

end Tuned

namespace Pool

/-- The name stays, and a timed pool stays timed. -/
structure StaysTimed (p q : Pool) : Prop where
  name_eq : q.name = p.name
  isTimed : p.snapshot.IsTimed → q.snapshot.IsTimed

/-- **Records and rules leave timed pools timed.** -/
theorem respected_staysTimed : Respected StaysTimed where
  refl _ := ⟨rfl, id⟩
  trans _ _ _ h h' := ⟨h'.name_eq.trans h.name_eq, h'.isTimed ∘ h.isTimed⟩
  name_eq _ _ h := h.name_eq
  applyRecord platforms throttle now r p hr := by
    refine ⟨(retuned_applyRecord platforms throttle now r p).name_eq, fun hp => ?_⟩
    rw [snapshot_applyRecord, Tuned.ofRecord_eq_run]
    exact Tuned.isTimed_run hr hp _
  setRules _ _ := ⟨rfl, id⟩

/-! ### Settings -/

variable {p q : Pool}

/-- Only a zero keep-alive of core workers that time out is refused. -/
theorem exists_error_setKeepAlive_iff (p : Pool) (span : Duration) :
    (∃ e, p.setKeepAlive span = .error e) ↔ span.nanos = 0 ∧ p.coreTimeout = true := by
  unfold setKeepAlive
  split_ifs with h <;> simp [h]

/-- Core workers are refused to time out only where the keep-alive is zero. -/
theorem exists_error_setCoreTimeout_iff (p : Pool) (allow : Bool) :
    (∃ e, p.setCoreTimeout allow = .error e) ↔ allow = true ∧ p.snapshot.keepAlive.nanos = 0 := by
  have hzero : p.snapshot.keepAlive.nanos = 0 ↔ p.keepAlive = 0 :=
    Duration.nanos_ofMillis_eq_zero_iff p.keepAlive
  rw [hzero]
  unfold setCoreTimeout
  split_ifs with h <;> simp [h]

/-- **A span is kept as zero** exactly if it is less than a millisecond. -/
theorem nanos_ofMillis_wordMillis_eq_zero_iff (span : Duration) :
    (Duration.ofMillis span.wordMillis.toNat).nanos = 0 ↔ span.millis = 0 := by
  rw [Duration.nanos_ofMillis_eq_zero_iff, ← UInt64.toNat_inj, Duration.toNat_wordMillis]
  simp only [maxWord, UInt64.size, UInt64.toNat_zero]
  omega

theorem isTimed_of_sets {setting : Setting} (hk : ∀ span, setting ≠ .keepAlive span)
    (hc : ∀ allow, setting ≠ .coreTimeout allow) (hp : p.snapshot.IsTimed)
    (h : Session.applySetting p setting = .ok q) : q.snapshot.IsTimed := by
  cases setting with
  | keepAlive span => exact absurd rfl (hk span)
  | coreTimeout allow => exact absurd rfl (hc allow)
  | coreSize n =>
    simp only [Session.applySetting, setCoreSize] at h
    split_ifs at h
    rw [← Except.ok.inj h, snapshot_wakeIf, snapshot_startWorkers]
    exact hp
  | maxSize n =>
    simp only [Session.applySetting, setMaxSize] at h
    split_ifs at h
    rw [← Except.ok.inj h, snapshot_wakeIf]
    exact hp
  | queueCapacity n =>
    simp only [Session.applySetting, setQueueCapacity] at h
    split at h
    · rw [← Except.ok.inj h]
      exact hp
    · cases h
  | policy name =>
    simp only [Session.applySetting] at h
    cases hr : SaturationPolicy.resolve name with
    | error e => rw [hr] at h; cases h
    | ok policy =>
      rw [hr] at h
      rw [← Except.ok.inj h]
      exact hp
  | _ =>
    rw [← Except.ok.inj h]
    exact hp

/-- **A setting that takes effect** leaves a timed pool timed, unless it is a fleeting keep-alive
for core workers that time out. -/
theorem isTimed_applySetting {setting : Setting} (hp : p.snapshot.IsTimed)
    (h : Session.applySetting p setting = .ok q) :
    q.snapshot.IsTimed ↔ ¬ (setting.IsFleeting ∧ p.coreTimeout = true) := by
  cases setting with
  | keepAlive span =>
    have hset : ¬ ∃ e, p.setKeepAlive span = .error e := by
      rintro ⟨e, he⟩
      rw [show p.setKeepAlive span = .ok q from h] at he
      cases he
    rw [exists_error_setKeepAlive_iff] at hset
    have hq : q.snapshot = { p.snapshot with keepAlive := .ofMillis span.wordMillis.toNat } := by
      simp only [Session.applySetting, setKeepAlive] at h
      split_ifs at h
      rw [← Except.ok.inj h, snapshot_wakeIf]
      rfl
    rw [hq]
    simp only [Snapshot.IsTimed, Setting.IsFleeting, ne_eq,
      nanos_ofMillis_wordMillis_eq_zero_iff]
    have hcore : p.snapshot.coreTimeout = p.coreTimeout := rfl
    rw [hcore]
    tauto
  | coreTimeout allow =>
    have hset : ¬ ∃ e, p.setCoreTimeout allow = .error e := by
      rintro ⟨e, he⟩
      rw [show p.setCoreTimeout allow = .ok q from h] at he
      cases he
    rw [exists_error_setCoreTimeout_iff] at hset
    have hq : q.snapshot = { p.snapshot with coreTimeout := allow } := by
      simp only [Session.applySetting, setCoreTimeout] at h
      split_ifs at h
      rw [← Except.ok.inj h, snapshot_wakeIf]
      rfl
    rw [hq]
    simp only [Snapshot.IsTimed, Setting.IsFleeting, false_and, not_false_iff, iff_true]
    exact fun ha h0 => hset ⟨ha, h0⟩
  | _ =>
    simp only [Setting.IsFleeting, false_and, not_false_iff, iff_true]
    exact isTimed_of_sets (by simp) (by simp) hp h

/-! ### Runs -/

theorem snapshot_stop (p : Pool) : p.stop.2.snapshot = p.snapshot := by
  unfold stop
  simp only
  split_ifs <;> rfl

namespace InUse

variable {s t : InUse}

/-- The event gives the pool a fleeting keep-alive while its core workers time out. -/
def Slips (s : InUse) : Event → Prop
  | .set setting => setting.IsFleeting ∧ s.pool.coreTimeout = true
  | _ => False

instance (s : InUse) : (e : Event) → Decidable (s.Slips e)
  | .set setting => inferInstanceAs (Decidable (setting.IsFleeting ∧ s.pool.coreTimeout = true))
  | .submit _ | .work _ | .finish _ | .refresh .. | .refreshRecord .. | .bind .. | .stop
  | .advance .. => inferInstanceAs (Decidable False)

/-- No event of the sequence does so. -/
def Steady (s : InUse) : List Event → Prop
  | [] => True
  | e :: es => ¬ s.Slips e ∧ (s.after e).Steady es

instance decidableSteady : (s : InUse) → (es : List Event) → Decidable (s.Steady es)
  | _, [] => inferInstanceAs (Decidable True)
  | s, e :: es =>
    have := decidableSteady (s.after e) es
    inferInstanceAs (Decidable (¬ s.Slips e ∧ (s.after e).Steady es))

/-- **An event** leaves a timed pool timed, unless it slips. -/
theorem isTimed_after (hs : s.pool.snapshot.IsTimed) {e : Event} (ok : s.Allows e) :
    (s.after e).pool.snapshot.IsTimed ↔ ¬ s.Slips e := by
  have hwork : e.isWork = true → (s.after e).pool.snapshot.IsTimed := by
    intro he
    have hsetup : (s.after e).pool.snapshot = s.pool.snapshot :=
      congrArg Setup.snapshot (setup_after s he)
    rw [hsetup]
    exact hs
  cases e with
  | set setting =>
    simp only [InUse.after, Slips]
    split
    · next q hq => exact isTimed_applySetting hs hq
    · next e he =>
      refine iff_of_true hs ?_
      rintro ⟨hfleeting, hcore⟩
      -- A fleeting keep-alive is not refused.
      cases setting with
      | keepAlive span =>
        exact hfleeting.1 ((exists_error_setKeepAlive_iff s.pool span).mp ⟨e, he⟩).1
      | _ => exact hfleeting
  | refresh plane batch =>
    have h := InUse.heldBy_of_carries (respected_staysTimed.carries_refresh plane batch) ok.2
    exact iff_of_true (h.isTimed hs) id
  | refreshRecord plane platforms record =>
    have h := InUse.heldBy_of_carries
      (respected_staysTimed.carries_refreshRecord platforms plane record) ok.2
    exact iff_of_true (h.isTimed hs) id
  | bind plane batch =>
    have h := InUse.heldBy_of_carries (respected_staysTimed.carries_bind plane batch ok.1) ok.2
    exact iff_of_true (h.isTimed hs) id
  | stop =>
    refine iff_of_true ?_ id
    simp only [InUse.after]
    split_ifs
    · show s.pool.stop.2.snapshot.IsTimed
      rw [snapshot_stop]
      exact hs
    · exact hs
  | _ => exact iff_of_true (hwork rfl) id

/-- **A run** passes through timed states only, exactly if no event of it slips. -/
theorem steady_iff {es : List Event} (hs : s.pool.snapshot.IsTimed) (ht : s.follow? es = some t) :
    (∀ past, past <+: es → ∀ u, s.follow? past = some u → u.pool.snapshot.IsTimed) ↔
      s.Steady es := by
  induction es generalizing s with
  | nil =>
    refine iff_of_true ?_ trivial
    intro past hpast u hu
    rw [List.prefix_nil.mp hpast] at hu
    cases hu
    exact hs
  | cons e es ih =>
    unfold follow? at ht
    split_ifs at ht with ok
    have hstep : ∀ past, s.follow? (e :: past) = (s.after e).follow? past := fun past =>
      if_pos ok
    have hafter := isTimed_after hs ok
    constructor
    · intro h
      have hone : (s.after e).pool.snapshot.IsTimed :=
        h [e] (by simp) (s.after e) (hstep [])
      refine ⟨hafter.mp hone, (ih hone ht).mp fun past hpast u hu => ?_⟩
      exact h (e :: past) (List.cons_prefix_cons.mpr ⟨rfl, hpast⟩) u ((hstep past).trans hu)
    · rintro ⟨hslip, hsteady⟩ past hpast u hu
      have hone := hafter.mpr hslip
      cases past with
      | nil =>
        cases hu
        exact hs
      | cons e' past =>
        obtain ⟨rfl, hrest⟩ := List.cons_prefix_cons.mp hpast
        exact (ih hone ht).mpr hsteady past hrest u ((hstep past).symm.trans hu)

end InUse

theorem isTimed_ofRecord {r : Record} (h : ofRecord r = .ok p) : p.snapshot.IsTimed := by
  obtain ⟨-, htime, policy, -, rfl⟩ := ofRecord_eq_ok_iff.mp h
  intro ht h0
  have hmillis : r.keepAliveMillis = 0 := (Duration.nanos_ofMillis_eq_zero_iff _).mp h0
  refine Record.keepAliveMillis_ne_zero ?_ hmillis
  exact fun hnanos => htime ⟨ht, hnanos⟩

/-- **Core workers time out after some time.** Whatever happens to the pool of a record, its
keep-alive is not zero in any state where its core workers time out, exactly if it is never given a
keep-alive of less than a millisecond, but not of zero, while they do. From such a state this holds
between any two setters of a refresh as well, and it is lost by such a keep-alive only. A zero
keep-alive is refused exactly where core workers time out, and that they do is refused exactly where
the keep-alive is zero. What is refused changes nothing at all. -/
theorem core_timeout_timed {r : Record} (hp : ofRecord r = .ok p) (clock : Clock)
    {es : List Event} {s : InUse} (hs : ({ pool := p, clock } : InUse).follow? es = some s) :
    ((∀ past, past <+: es → ∀ t, ({ pool := p, clock } : InUse).follow? past = some t →
        t.pool.snapshot.IsTimed) ↔ ({ pool := p, clock } : InUse).Steady es) ∧
    (s.pool.snapshot.IsTimed →
      (∀ e, s.Allows e → ((s.after e).pool.snapshot.IsTimed ↔ ¬ s.Slips e)) ∧
      ∀ (r' : Record) (k : Nat), r'.isCommittable = true →
        (partway r' k s.pool).snapshot.IsTimed) ∧
    (∀ span, (∃ e, s.pool.setKeepAlive span = .error e) ↔
      span.nanos = 0 ∧ s.pool.coreTimeout = true) ∧
    (∀ allow, (∃ e, s.pool.setCoreTimeout allow = .error e) ↔
      allow = true ∧ s.pool.snapshot.keepAlive.nanos = 0) ∧
    ∀ (session : Session) (name : String) (setting : Setting) (e : Error),
      (session.begin (.set name setting)).1 = some (.error e) →
        (session.begin (.set name setting)).2 = session := by
  refine ⟨InUse.steady_iff (isTimed_ofRecord hp) hs, fun ht => ⟨?_, ?_⟩,
    exists_error_setKeepAlive_iff s.pool, exists_error_setCoreTimeout_iff s.pool, ?_⟩
  · intro e ok
    exact InUse.isTimed_after ht ok
  · intro r' k hr'
    exact Tuned.isTimed_run hr' (t := { pool := s.pool }) ht _
  · intro session name setting e he
    cases hq : session.plane.registry.get name with
    | error _ => simp only [Session.begin, Session.onPool, hq]
    | ok q =>
      simp only [Session.begin, Session.onPool, hq] at he ⊢
      cases hset : Session.applySetting q setting with
      | error _ => simp only
      | ok q' => simp [hset] at he

/-- A keep-alive of half a millisecond is kept as zero, so core workers are refused to time out
until there is one of a millisecond. -/
def shortening : List Event :=
  [.set (.keepAlive ⟨500000⟩), .set (.coreTimeout true), .submit ⟨"a", .gate⟩,
    .set (.keepAlive ⟨1500000⟩), .set (.coreTimeout true), .set (.keepAlive ⟨0⟩)]

theorem core_timeout_timed_shortening :
    ∃ (p : Pool) (s : InUse), ofRecord { name := "pool", maxSize := 1 } = .ok p ∧
      ({ pool := p } : InUse).follow? shortening = some s ∧
      s.pool.coreTimeout = true ∧ s.pool.keepAlive = 1 ∧
      (∀ past, past <+: shortening → ∀ t, ({ pool := p } : InUse).follow? past = some t →
        t.pool.snapshot.IsTimed) ∧
      (∃ e, s.pool.setKeepAlive ⟨0⟩ = .error e) ∧
      ¬ (s.after (.set (.keepAlive ⟨500000⟩))).pool.snapshot.IsTimed ∧
      (partway { maxSize := 1, coreTimeout := false, keepAliveTime := 0 } 3
        s.pool).snapshot.IsTimed := by
  have hp : ofRecord { name := "pool", maxSize := 1 } = .ok _ := rfl
  obtain ⟨hsteady, htimed, hkeepAlive, -, -⟩ :=
    core_timeout_timed hp {} (rfl : InUse.follow? _ shortening = some _)
  have hpast := hsteady.mpr (by decide)
  obtain ⟨hafter, hpartway⟩ := htimed (by decide)
  refine ⟨_, _, hp, rfl, rfl, rfl, hpast, (hkeepAlive ⟨0⟩).mpr ⟨rfl, rfl⟩, ?_,
    hpartway _ 3 (by decide)⟩
  rw [hafter (.set (.keepAlive ⟨500000⟩)) trivial]
  decide

/-- While core workers time out, half a millisecond is kept as a keep-alive of zero. -/
theorem core_timeout_not_timed :
    ∃ (p : Pool) (s : InUse),
      ofRecord { name := "pool", maxSize := 1, coreTimeout := true } = .ok p ∧
      ({ pool := p } : InUse).follow? [.set (.keepAlive ⟨500000⟩)] = some s ∧
      s.pool.coreTimeout = true ∧ s.pool.snapshot.keepAlive.nanos = 0 :=
  ⟨_, _, rfl, rfl, rfl, rfl⟩

end Pool
end PoolControl
