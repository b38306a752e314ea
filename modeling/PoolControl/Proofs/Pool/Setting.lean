import Mathlib.Logic.Relation
import Mathlib.Tactic.SplitIfs
import PoolControl.Proofs.Queue.Takers
import PoolControl.Session.Perform

/-! # Settings of a pool

A pool is tuned one setting at a time. `Pool.Sets` relates a pool to what a setting that takes
effect makes of it, `Pool.Adjusted` says what that can be, and `Pool.Retuned` is the effect of any
number of settings one after the other. `Pool.Tunes` and `Pool.TunesTo` are the same for settings of
tunables, which leave the notification rules alone. -/

namespace PoolControl

open Settings (NotifyRule)

/-- Whether the setting is of a tunable. -/
def Setting.isTunable : Setting → Bool
  | .await _ | .waitOnShutdown _ | .rules _ => false
  | _ => true

namespace Pool

/-- Some setting takes one pool to the other. -/
def Sets (p q : Pool) : Prop := ∃ setting, Session.applySetting p setting = .ok q

/-- A sequence of settings takes one pool to the other. -/
abbrev Retuned : Pool → Pool → Prop := Relation.ReflTransGen Sets

/-- Some setting of a tunable takes one pool to the other. -/
def Tunes (p q : Pool) : Prop :=
  ∃ setting : Setting, setting.isTunable = true ∧ Session.applySetting p setting = .ok q

/-- A sequence of settings of tunables takes one pool to the other. -/
abbrev TunesTo : Pool → Pool → Prop := Relation.ReflTransGen Tunes

theorem TunesTo.retuned {p q : Pool} (h : TunesTo p q) : Retuned p q := by
  induction h with
  | refl => exact .refl
  | tail _ hs ih =>
    obtain ⟨setting, -, hq⟩ := hs
    exact ih.tail ⟨setting, hq⟩

theorem Retuned.keeps {P : Pool → Prop} (hs : ∀ p q, Sets p q → P p → P q) {p q : Pool}
    (h : Retuned p q) (hp : P p) : P q := by
  induction h with
  | refl => exact hp
  | tail _ hq ih => exact hs _ _ hq ih

theorem sets_setAwait (p : Pool) (seconds : UInt64) : Sets p (p.setAwait seconds) := by
  refine ⟨.await (.ofSecs seconds.toNat), ?_⟩
  simp [Session.applySetting, Duration.secs_ofSecs]

theorem sets_setWaitOnShutdown (p : Pool) (wait : Bool) : Sets p (p.setWaitOnShutdown wait) :=
  ⟨.waitOnShutdown wait, rfl⟩

theorem sets_setRules (p : Pool) (rules : List NotifyRule) : Sets p (p.setRules rules) :=
  ⟨.rules rules, rfl⟩

/-! ### What a setting does -/

theorem startWorker?_eq_some_iff {p q : Pool} {limit : Nat} {phase : Phase} :
    p.startWorker? limit phase = some q ↔ p.size < limit ∧ q =
      { p with
        workers := p.workers ++ [{ id := p.nextWorker, phase }]
        nextWorker := p.nextWorker + 1
        size := p.size + 1
        largest := max p.largest (p.size + 1) } := by
  unfold startWorker? reserve?
  split_ifs with h
  · simp [h, eq_comm]
  · simp [h]

/-- **Starting workers for a backlog** adds fresh workers with new identities: as many as were asked
for, or as many as the limit leaves room for. -/
theorem startWorkers_spec (limit : Nat) : ∀ (n : Nat) (p : Pool),
    ∃ (fresh : List Worker) (largest : Nat),
      startWorkers limit n p =
        { p with
          workers := p.workers ++ fresh
          nextWorker := p.nextWorker + fresh.length
          size := p.size + fresh.length
          largest } ∧
      (∀ w ∈ fresh, w.phase = .fresh) ∧
      fresh.map (·.id) = List.range' p.nextWorker fresh.length ∧
      (fresh.length = n ∨ limit ≤ p.size + fresh.length) ∧
      (fresh = [] ∨ p.size + fresh.length ≤ limit)
  | 0, p => ⟨[], p.largest, by simp [startWorkers], by simp, rfl, Or.inl rfl, Or.inl rfl⟩
  | n + 1, p => by
    unfold startWorkers
    cases h : p.startWorker? limit .fresh with
    | none =>
      have hle := (startWorker?_eq_none_iff p limit .fresh).mp h
      exact ⟨[], p.largest, by simp, by simp, rfl, Or.inr hle, Or.inl rfl⟩
    | some q =>
      obtain ⟨hlt, rfl⟩ := startWorker?_eq_some_iff.mp h
      obtain ⟨fresh, largest, heq, hphase, hids, hcount, hlimit⟩ :=
        startWorkers_spec limit n
          { p with
            workers := p.workers ++ [{ id := p.nextWorker, phase := .fresh }]
            nextWorker := p.nextWorker + 1
            size := p.size + 1
            largest := max p.largest (p.size + 1) }
      -- The first worker is started here, the others by the recursion.
      refine ⟨{ id := p.nextWorker, phase := .fresh } :: fresh, largest, ?_, ?_, ?_, ?_, ?_⟩
      · simp only [heq, List.length_cons, List.append_assoc, List.singleton_append]
        congr 1 <;> omega
      · simpa using hphase
      · simpa [List.range'_succ] using hids
      · simp only [List.length_cons]
        simp only at hcount
        omega
      · right
        simp only [List.length_cons]
        rcases hlimit with rfl | hlimit
        · simp only [List.length_nil]
          omega
        · simp only at hlimit
          omega

/-- What a setting that takes effect makes of a pool. -/
inductive Adjusted (p : Pool) : Pool → Prop
  | coreSize (n : Nat) (h : n ≤ p.maxSize) :
    Adjusted p
      ((startWorkers n (min p.queue.size (n - p.coreSize)) { p with coreSize := n }).wakeIf
        (n < p.coreSize))
  | maxSize (n : Nat) (h0 : 0 < n) (h : p.coreSize ≤ n) :
    Adjusted p ({ p with maxSize := n }.wakeIf (n < p.maxSize))
  | keepAlive (span : Duration) (wake : Bool) (h : span.nanos = 0 → p.coreTimeout = false) :
    Adjusted p ({ p with keepAlive := span.wordMillis }.wakeIf wake)
  | coreTimeout (allow wake : Bool) (h : allow = true → p.keepAlive ≠ 0) :
    Adjusted p ({ p with coreTimeout := allow }.wakeIf wake)
  | queueCapacity (n : Nat) (h : p.queue.kind.isResizable = true) :
    Adjusted p { p with queue := { p.queue with capacity := n } }
  | policy (policy : SaturationPolicy) : Adjusted p { p with policy }
  | await (seconds : UInt64) : Adjusted p { p with awaitSeconds := seconds }
  | waitOnShutdown (wait : Bool) : Adjusted p { p with waitOnShutdown := wait }
  | rules (rules : List NotifyRule) : Adjusted p { p with rules }

/-- **Every setting that takes effect is one of these adjustments.** -/
theorem Sets.adjusted {p q : Pool} (h : Sets p q) : Adjusted p q := by
  obtain ⟨setting, h⟩ := h
  cases setting with
  | coreSize n =>
    simp only [Session.applySetting, setCoreSize] at h
    split_ifs at h with hn
    rw [← Except.ok.inj h]
    exact .coreSize n (by omega)
  | maxSize n =>
    simp only [Session.applySetting, setMaxSize] at h
    split_ifs at h with hn
    rw [← Except.ok.inj h]
    exact .maxSize n (by omega) (by omega)
  | queueCapacity n =>
    simp only [Session.applySetting, setQueueCapacity] at h
    split at h
    · next queue hq =>
      obtain ⟨hk, rfl⟩ := TaskQueue.setCapacity?_eq_some_iff.mp hq
      rw [← Except.ok.inj h]
      exact .queueCapacity n hk
    · cases h
  | keepAlive span =>
    simp only [Session.applySetting, setKeepAlive] at h
    split_ifs at h with hz
    rw [← Except.ok.inj h]
    exact .keepAlive span _ fun h0 => by simpa [h0] using hz
  | coreTimeout allow =>
    simp only [Session.applySetting, setCoreTimeout] at h
    split_ifs at h with hz
    rw [← Except.ok.inj h]
    exact .coreTimeout allow _ fun ha hk => hz ⟨ha, hk⟩
  | policy name =>
    simp only [Session.applySetting] at h
    cases hr : SaturationPolicy.resolve name with
    | error e => rw [hr] at h; cases h
    | ok policy =>
      rw [hr] at h
      rw [← Except.ok.inj h]
      exact .policy policy
  | await span => rw [← Except.ok.inj h]; exact .await _
  | waitOnShutdown wait => rw [← Except.ok.inj h]; exact .waitOnShutdown wait
  | rules rules => rw [← Except.ok.inj h]; exact .rules rules

/-- Waking the workers that wait changes the queue at most. -/
theorem wakeIf_eq (p : Pool) (condition : Bool) :
    p.wakeIf condition = { p with queue := if condition then p.queue.wakeAll else p.queue } := by
  unfold wakeIf
  split_ifs <;> rfl

theorem Adjusted.running_eq {p q : Pool} (h : Adjusted p q) : q.running = p.running := by
  cases h with
  | coreSize n =>
    obtain ⟨fresh, largest, heq, -⟩ :=
      startWorkers_spec n (min p.queue.size (n - p.coreSize)) { p with coreSize := n }
    rw [wakeIf_eq, heq]
  | maxSize n => rw [wakeIf_eq]
  | keepAlive span wake => rw [wakeIf_eq]
  | coreTimeout allow wake => rw [wakeIf_eq]
  | _ => rfl

theorem Adjusted.workers_eq {p q : Pool} (h : Adjusted p q) :
    ∃ fresh, q.workers = p.workers ++ fresh ∧ ∀ w ∈ fresh, w.phase = .fresh := by
  have hsame : q.workers = p.workers →
      ∃ fresh, q.workers = p.workers ++ fresh ∧ ∀ w ∈ fresh, w.phase = .fresh := fun hw =>
    ⟨[], by rw [hw, List.append_nil], by simp⟩
  cases h with
  | coreSize n =>
    obtain ⟨fresh, largest, heq, hphase, -⟩ :=
      startWorkers_spec n (min p.queue.size (n - p.coreSize)) { p with coreSize := n }
    rw [wakeIf_eq, heq]
    exact ⟨fresh, rfl, hphase⟩
  | maxSize n => exact hsame (by rw [wakeIf_eq])
  | keepAlive span wake => exact hsame (by rw [wakeIf_eq])
  | coreTimeout allow wake => exact hsame (by rw [wakeIf_eq])
  | _ => exact hsame rfl

theorem Retuned.running_eq {p q : Pool} (h : Retuned p q) : q.running = p.running :=
  Retuned.keeps (fun _ _ hs hq => hs.adjusted.running_eq.trans hq) h rfl

theorem Retuned.workers_eq {p q : Pool} (h : Retuned p q) :
    ∃ fresh, q.workers = p.workers ++ fresh ∧ ∀ w ∈ fresh, w.phase = .fresh := by
  induction h with
  | refl => exact ⟨[], by simp, by simp⟩
  | tail _ hs ih =>
    obtain ⟨fresh, hw, hphase⟩ := ih
    obtain ⟨fresh', hw', hphase'⟩ := hs.adjusted.workers_eq
    refine ⟨fresh ++ fresh', by rw [hw', hw, List.append_assoc], fun w hm => ?_⟩
    rcases List.mem_append.mp hm with hm | hm
    · exact hphase w hm
    · exact hphase' w hm

theorem rules_wakeIf (p : Pool) (condition : Bool) : (p.wakeIf condition).rules = p.rules := by
  rw [wakeIf_eq]

theorem rules_startWorkers (limit n : Nat) (p : Pool) :
    (startWorkers limit n p).rules = p.rules := by
  obtain ⟨fresh, largest, heq, -⟩ := startWorkers_spec limit n p
  rw [heq]

theorem Tunes.rules_eq {p q : Pool} (h : Tunes p q) : q.rules = p.rules := by
  obtain ⟨setting, ht, h⟩ := h
  cases setting with
  | coreSize n =>
    simp only [Session.applySetting, setCoreSize] at h
    split_ifs at h
    rw [← Except.ok.inj h, rules_wakeIf, rules_startWorkers]
  | maxSize n =>
    simp only [Session.applySetting, setMaxSize] at h
    split_ifs at h
    rw [← Except.ok.inj h, rules_wakeIf]
  | queueCapacity n =>
    simp only [Session.applySetting, setQueueCapacity] at h
    split at h
    · rw [← Except.ok.inj h]
    · cases h
  | keepAlive span =>
    simp only [Session.applySetting, setKeepAlive] at h
    split_ifs at h
    rw [← Except.ok.inj h, rules_wakeIf]
  | coreTimeout allow =>
    simp only [Session.applySetting, setCoreTimeout] at h
    split_ifs at h
    rw [← Except.ok.inj h, rules_wakeIf]
  | policy name =>
    simp only [Session.applySetting] at h
    cases hr : SaturationPolicy.resolve name with
    | error e => rw [hr] at h; cases h
    | ok policy =>
      rw [hr] at h
      rw [← Except.ok.inj h]
      rfl
  | await span => cases ht
  | waitOnShutdown wait => cases ht
  | rules rules => cases ht

theorem TunesTo.rules_eq {p q : Pool} (h : TunesTo p q) : q.rules = p.rules := by
  induction h with
  | refl => rfl
  | tail _ hs ih => exact hs.rules_eq.trans ih

theorem Sets.name_eq {p q : Pool} (h : Sets p q) : q.name = p.name := by
  cases h.adjusted with
  | coreSize n =>
    obtain ⟨fresh, largest, heq, -⟩ :=
      startWorkers_spec n (min p.queue.size (n - p.coreSize)) { p with coreSize := n }
    rw [wakeIf_eq, heq]
  | maxSize n => rw [wakeIf_eq]
  | keepAlive span wake => rw [wakeIf_eq]
  | coreTimeout allow wake => rw [wakeIf_eq]
  | _ => rfl

theorem Retuned.name_eq {p q : Pool} (h : Retuned p q) : q.name = p.name :=
  Retuned.keeps (fun _ _ hs hq => hs.name_eq.trans hq) h rfl

end Pool
end PoolControl
