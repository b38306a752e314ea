import PoolControl.Proofs.Pool.Course
import PoolControl.Proofs.Refresh.Tunables

/-! # A refreshed pool is like a fresh one

A running pool that is refreshed from a record ends with the tunables of a pool that is made from
the record, whatever it went through before (`refresh_eq_fresh`). Only the kind of its queue stays,
and with it the capacity where the queue can take no other.

The refresh gives an outcome unless the interval of a rule does not fit the throttle. That ends it
when the tunables are set already. -/

namespace PoolControl

open Settings (NotifyRule Platform Record)

/-! ### Gauges -/

namespace Pacing

/-- There can be a gauge of the rule's interval. -/
def Fits (s : Pacing) (rule : NotifyRule) : Prop := s.Makes (nanosOfSecs rule.intervalSecs)

instance (s : Pacing) (rule : NotifyRule) : Decidable (s.Fits rule) := by
  unfold Fits; infer_instance

/-- The gauge that a rule is given at a moment. -/
def freshGauge (s : Pacing) (now : Nat) (rule : NotifyRule) : Gauge :=
  s.fresh (nanosOfSecs rule.intervalSecs) now

end Pacing

namespace Throttle

variable {t : Throttle} {now : Nat} {pool : String} {rule : NotifyRule} {rules : List NotifyRule}

theorem reset_of_fits (h : t.Fits rule) :
    t.reset now pool rule = .ok (t.setGauge (pool, rule.kind) (t.freshGauge now rule)) := by
  rw [reset, Pacing.build_of_makes h]
  rfl

theorem reset_of_not_fits (h : ¬ t.Fits rule) :
    t.reset now pool rule = .error .intervalTooLong := by
  rw [reset, Pacing.build_of_not_makes h]
  rfl

theorem resetAll_cons_of_fits (h : t.Fits rule) : t.resetAll now pool (rule :: rules) =
    (t.setGauge (pool, rule.kind) (t.freshGauge now rule)).resetAll now pool rules := by
  rw [resetAll, reset_of_fits h]

theorem resetAll_cons_of_not_fits (h : ¬ t.Fits rule) :
    t.resetAll now pool (rule :: rules) = (some .intervalTooLong, t) := by
  rw [resetAll, reset_of_not_fits h]

theorem resetAll_fault (now : Nat) (pool : String) (rules : List NotifyRule) (t : Throttle) :
    (t.resetAll now pool rules).1 = none ∨
      (t.resetAll now pool rules).1 = some .intervalTooLong ∧ ∃ rule ∈ rules, ¬ t.Fits rule := by
  induction rules generalizing t with
  | nil => exact Or.inl rfl
  | cons rule rules ih =>
    by_cases hfits : t.Fits rule
    · rw [resetAll_cons_of_fits hfits]
      rcases ih (t.setGauge (pool, rule.kind) (t.freshGauge now rule)) with h | ⟨h, long, hm, hl⟩
      · exact Or.inl h
      · rw [toPacing_setGauge] at hl
        exact Or.inr ⟨h, long, List.mem_cons_of_mem _ hm, hl⟩
    · rw [resetAll_cons_of_not_fits hfits]
      exact Or.inr ⟨rfl, rule, List.mem_cons_self, hfits⟩

end Throttle

/-! ### Applying a record -/

section Apply
variable (platforms : List Platform) (throttle : Throttle) (now : Nat) (r : Record) (p : Pool)

/-- How the pool shuts down, and its rules, are no tunables. -/
theorem snapshot_applyRecord : (applyRecord platforms throttle now r p).pool.snapshot =
    (Tuned.ofRecord r p).pool.snapshot := by
  unfold applyRecord
  generalize Tuned.ofRecord r p = t
  simp only
  split_ifs <;> rfl

theorem shutdown_applyRecord :
    (applyRecord platforms throttle now r p).pool.waitOnShutdown = r.waitOnShutdown ∧
      (applyRecord platforms throttle now r p).pool.awaitSeconds = r.awaitSeconds := by
  unfold applyRecord
  generalize Tuned.ofRecord r p = t
  simp only
  split_ifs <;> exact ⟨rfl, rfl⟩

theorem fault_applyRecord : (applyRecord platforms throttle now r p).fault = none ∨
    (applyRecord platforms throttle now r p).fault = some .intervalTooLong ∧
      ∃ rule ∈ NotifyRule.effective platforms r.rules, ¬ throttle.Fits rule := by
  unfold applyRecord
  generalize Tuned.ofRecord r p = t
  simp only
  refine (Throttle.resetAll_fault now _ _ throttle).imp_right fun h => ?_
  obtain ⟨h, rule, hm, hl⟩ := h
  exact ⟨h, rule, List.mem_of_mem_filter hm, hl⟩

end Apply

/-! ### Refreshing -/

/-- **The refresh of a registered pool from a committable record**: the pool is put back as the
record leaves it, and the outcome says whether that changed its tunables. -/
theorem refreshRecord_of_get? (platforms : List Platform) {c : ControlPlane} {r : Record}
    {p : Pool} {applied : Applied} (hr : r.isCommittable = true)
    (hp : c.registry.get? r.name = some p)
    (ha : applyRecord platforms c.throttle c.nowNanos r p = applied) :
    (refreshRecord platforms c r).2.registry = c.registry.update applied.pool ∧
      (∀ fault, applied.fault = some fault → (refreshRecord platforms c r).1 = .error fault) ∧
      (applied.fault = none → (refreshRecord platforms c r).1 = .ok (.unchanged applied.skipped) ∨
        ∃ diff decision,
          (refreshRecord platforms c r).1 = .ok (.changed diff decision applied.skipped)) := by
  unfold refreshRecord Pool.checkRecord
  simp only [hr, if_true, hp, ha]
  cases hf : applied.fault with
  | some fault => exact ⟨rfl, fun _ h => by rw [Option.some.inj h], nofun⟩
  | none =>
    simp only
    split
    · exact ⟨rfl, nofun, fun _ => Or.inl rfl⟩
    · exact ⟨registry_notifyChange .., nofun, fun _ => Or.inr ⟨_, _, rfl⟩⟩

namespace Pool

/-- **A refreshed pool is like a fresh one.** Let a record carry the name of a pool in use and
describe a pool, and let the queue of the pool hand off, be resizable, or have the wanted capacity.
After a refresh the pool has the tunables of a pool made from the record with that kind of queue, it
shuts down as the record says, and nothing was refused; the refresh says so, unless the interval of
a rule is too long. -/
theorem refresh_eq_fresh {s : InUse} (h : Reach s) (platforms : List Platform) {c : ControlPlane}
    {r : Record} {p : Pool} (hr : ofRecord r = .ok p)
    (hget : c.registry.get? r.name = some s.pool)
    (hc : s.pool.queue.kind = .resizable ∨ s.pool.queue.kind = .handOff ∨
      r.queueCapacity.toNat = s.pool.queue.capacity) :
    ∃ q fresh, (refreshRecord platforms c r).2.registry.get? r.name = some q ∧
      ofRecord { r with queueKind := s.pool.queue.kind } = .ok fresh ∧
      q.snapshot = fresh.snapshot ∧
      q.waitOnShutdown = r.waitOnShutdown ∧ q.awaitSeconds = r.awaitSeconds ∧
      (applyRecord platforms c.throttle c.nowNanos r s.pool).skipped = [] ∧
      ((refreshRecord platforms c r).1 = .ok (.unchanged []) ∨
        (∃ diff decision, (refreshRecord platforms c r).1 = .ok (.changed diff decision [])) ∨
        (refreshRecord platforms c r).1 = .error .intervalTooLong ∧
          ∃ rule ∈ NotifyRule.effective platforms r.rules, ¬ c.throttle.Fits rule) := by
  have htakes := Tuned.takes_ofRecord h.sound hr hc
  have hname := Registry.name_of_get? hget
  obtain ⟨hcommit, htime, policy, hpolicy, rfl⟩ := ofRecord_eq_ok_iff.mp hr
  have hskipped : (applyRecord platforms c.throttle c.nowNanos r s.pool).skipped = [] :=
    htakes.skipped
  have hshutdown := shutdown_applyRecord platforms c.throttle c.nowNanos r s.pool
  have hsnapshot := snapshot_applyRecord platforms c.throttle c.nowNanos r s.pool
  have hfault := fault_applyRecord platforms c.throttle c.nowNanos r s.pool
  have hretuned := retuned_applyRecord platforms c.throttle c.nowNanos r s.pool
  obtain ⟨hregistry, herror, hok⟩ := refreshRecord_of_get? platforms hcommit hget rfl
  refine ⟨(applyRecord platforms c.throttle c.nowNanos r s.pool).pool, _, ?_,
    ofRecord_eq_ok_iff.mpr ⟨hcommit, htime, policy, hpolicy, rfl⟩, ?_, hshutdown.1, hshutdown.2,
    hskipped, ?_⟩
  · have hq := hretuned.name_eq.trans hname
    rw [hregistry, ← hq]
    refine Registry.get?_update_self _ _ ?_
    rw [Registry.contains, hq, hget]
    rfl
  · rw [hsnapshot, htakes.snapshot, hname]
    rfl
  · rcases hfault with hf | ⟨hf, hlong⟩
    · rw [hskipped] at hok
      exact (hok hf).imp_right Or.inl
    · exact Or.inr (Or.inr ⟨herror _ hf, hlong⟩)

/-- A control plane that holds one pool. -/
def holding (p : Pool) : ControlPlane :=
  { registry := { entries := [{ serial := 0, pool := p }], next := 1 }
    outbox := { capacity := 1, managed := true, channels := [] } }

theorem get?_holding (p : Pool) : (holding p).registry.get? p.name = some p := by
  simp [holding, Registry.get?, Registry.entry?]

/-- More core workers than a pool of one has room for, and no keep-alive, although its core worker
may time out. -/
def widening : Record :=
  { name := "pool", coreSize := 4, maxSize := 8, keepAliveTime := 0
    policyName := " callerrunspolicy" }

theorem refresh_eq_fresh_widening :
    ∃ (p fresh q : Pool) (s : InUse),
      ofRecord { name := "pool", maxSize := 1, queueKind := .handOff } = .ok p ∧
      ({ pool := p } : InUse).follow? [.set (.coreTimeout true), .submit ⟨"a", .gate⟩] = some s ∧
      (refreshRecord [] (holding s.pool) widening).2.registry.get? "pool" = some q ∧
      ofRecord { widening with queueKind := .handOff } = .ok fresh ∧
      q.snapshot = fresh.snapshot ∧ q.waitOnShutdown = false ∧ q.awaitSeconds = 0 := by
  obtain ⟨p, s, hp, hs, hname, hkind⟩ : ∃ (p : Pool) (s : InUse),
      ofRecord { name := "pool", maxSize := 1, queueKind := .handOff } = .ok p ∧
      ({ pool := p } : InUse).follow? [.set (.coreTimeout true), .submit ⟨"a", .gate⟩] = some s ∧
      s.pool.name = "pool" ∧ s.pool.queue.kind = .handOff := ⟨_, _, rfl, rfl, rfl, rfl⟩
  have hget : (holding s.pool).registry.get? "pool" = some s.pool := hname ▸ get?_holding s.pool
  have hwiden : ofRecord widening = .ok _ := rfl
  obtain ⟨q, fresh, hq, hfresh, hsnapshot, hwait, hawait, -⟩ :=
    refresh_eq_fresh ((Reach.start {} hp).follow hs) [] hwiden hget (Or.inr (Or.inl hkind))
  rw [hkind] at hfresh
  exact ⟨p, fresh, q, s, hp, hs, hq, hfresh, hsnapshot, hwait, hawait⟩

end Pool
end PoolControl
