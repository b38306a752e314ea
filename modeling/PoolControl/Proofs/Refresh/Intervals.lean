import PoolControl.Alarm
import PoolControl.Proofs.Refresh.Setups

/-! # The intervals of gauges

A gauge gets its interval when it is set, and nothing but setting it anew changes that. So the
interval of a key's gauge can be told without the alerts that it has let through
(`Throttle.interval?`): applying a record gives the gauge of a kind the interval of the last rule of
the kind whose interval is new to the pool (`interval?_applied`), and alarm rounds and notices of
changes only ask (`ControlPlane.OnlyAsks`). -/

namespace PoolControl

open Settings (NoticeKind NotifyRule Platform Record)

/-! ### Rules of a kind -/

namespace Settings.NotifyRule

/-- The last rule of a kind. -/
def last? (rules : List NotifyRule) (kind : NoticeKind) : Option NotifyRule :=
  find? rules.reverse kind

/-- If the first rule of the kind has that interval, all rules of the kind have it. -/
def EvenAt (kind : NoticeKind) (secs : Nat) (rules : List NotifyRule) : Prop :=
  ∀ first ∈ find? rules kind, first.intervalSecs = secs →
    ∀ r ∈ rules, r.kind = kind → r.intervalSecs = secs

instance (kind : NoticeKind) (secs : Nat) (rules : List NotifyRule) :
    Decidable (EvenAt kind secs rules) := by
  unfold EvenAt; infer_instance

variable {kind : NoticeKind} {secs : Nat} {rules : List NotifyRule} {rule : NotifyRule}

theorem kind_of_find? (h : find? rules kind = some rule) : rule.kind = kind := by
  simpa using List.find?_some h

theorem mem_of_find? (h : find? rules kind = some rule) : rule ∈ rules :=
  List.mem_of_find?_eq_some h

theorem last?_cons (rule : NotifyRule) (rules : List NotifyRule) (kind : NoticeKind) :
    last? (rule :: rules) kind =
      (last? rules kind).or (if rule.kind = kind then some rule else none) := by
  unfold last? find?
  rw [List.reverse_cons, List.find?_append]
  by_cases h : rule.kind = kind <;> simp [h]

theorem mem_of_last? (h : last? rules kind = some rule) : rule ∈ rules ∧ rule.kind = kind :=
  ⟨List.mem_reverse.mp (mem_of_find? h), kind_of_find? h⟩

theorem ne_of_last?_eq_none (h : last? rules kind = none) (hrule : rule ∈ rules) :
    rule.kind ≠ kind := by
  have hnone := List.find?_eq_none.mp h rule (List.mem_reverse.mpr hrule)
  simpa using hnone

@[simp] theorem intervalSecs_mergeDefault (rule : NotifyRule) :
    rule.mergeDefault.intervalSecs = rule.intervalSecs := by
  have hdefaults : ∀ d ∈ defaults, d.interval = some defaultInterval := by decide
  unfold mergeDefault
  split
  · next d hd =>
    have hd : d.interval = some defaultInterval := hdefaults d (mem_of_find? hd)
    unfold intervalSecs
    cases rule.interval <;> simp [hd]
  · rfl

theorem EvenAt.map {f : NotifyRule → NotifyRule} (h : EvenAt kind secs rules)
    (hkind : ∀ r, (f r).kind = r.kind) (hinterval : ∀ r, (f r).intervalSecs = r.intervalSecs) :
    EvenAt kind secs (rules.map f) := by
  intro first hfirst hsecs r hr hk
  rw [find?_map hkind] at hfirst
  obtain ⟨q, hq, rfl⟩ := Option.map_eq_some_iff.mp hfirst
  obtain ⟨q', hq', rfl⟩ := List.mem_map.mp hr
  rw [hkind] at hk
  rw [hinterval] at hsecs ⊢
  exact h q hq hsecs q' hq' hk

theorem EvenAt.effective (h : EvenAt kind secs rules) (platforms : List Platform) :
    EvenAt kind secs (effective platforms rules) := by
  have hcompleted : EvenAt kind secs (completed rules) := by
    unfold completed
    split_ifs
    · have hdefaults : ∀ d ∈ defaults, d.intervalSecs = defaultInterval.toNat := by decide
      intro first hfirst hsecs r hr _
      rw [hdefaults r hr, ← hdefaults first (mem_of_find? hfirst), hsecs]
    · exact h.map kind_mergeDefault intervalSecs_mergeDefault
  rw [effective_eq]
  exact hcompleted.map (kind_fill platforms) (intervalSecs_fill platforms)

end Settings.NotifyRule

/-! ### Intervals of gauges -/

theorem Gauge.interval_ask (g : Gauge) (s : Pacing) (now : Nat) :
    (g.ask s now).2.interval = g.interval := by
  unfold ask
  split_ifs <;> rfl

/-- **A gauge without an interval** never refuses. -/
theorem Gauge.ask_of_interval_eq_zero {g : Gauge} (h : g.interval = 0) (s : Pacing) (now : Nat) :
    (g.ask s now).1 = true := by
  unfold ask
  rw [if_pos h]

namespace Throttle

/-- The interval of the gauge of a key, if it has one. -/
def interval? (t : Throttle) (key : GaugeKey) : Option Nat := (t.gauge? key).map (·.interval)

variable {t : Throttle} {key other : GaugeKey}

theorem interval?_setGauge_self (t : Throttle) (key : GaugeKey) (g : Gauge) :
    (t.setGauge key g).interval? key = some g.interval := by
  rw [interval?, gauge?_setGauge_self]
  rfl

theorem interval?_setGauge_of_ne (t : Throttle) (g : Gauge) (h : key ≠ other) :
    (t.setGauge key g).interval? other = t.interval? other := by
  rw [interval?, gauge?_setGauge_of_ne t g h, interval?]

/-- Asking leaves every interval as it is, and may bring in a gauge of the default interval. -/
theorem interval?_ask (t : Throttle) (key other : GaugeKey) (now : Nat) :
    (t.ask key now).2.interval? other = t.interval? other ∨
      t.interval? other = none ∧ (t.ask key now).2.interval? other = some defaultNanos := by
  unfold ask
  simp only
  by_cases h : key = other
  · subst h
    rw [interval?_setGauge_self, Gauge.interval_ask]
    unfold interval? gaugeAt
    cases t.gauge? key with
    | none => exact Or.inr ⟨rfl, congrArg (some ·.interval) (t.spare_eq now)⟩
    | some g => exact Or.inl rfl
  · exact Or.inl (interval?_setGauge_of_ne t _ h)

/-- **Resetting the gauges of rules** gives a kind the fresh gauge of the last rule of the kind, if
there is one. -/
theorem gauge?_resetAll (now : Nat) (pool : String) (kind : NoticeKind) {t : Throttle}
    {rules : List NotifyRule} (hfits : ∀ rule ∈ rules, t.Fits rule) :
    (t.resetAll now pool rules).2.gauge? (pool, kind) =
      ((NotifyRule.last? rules kind).map (t.freshGauge now)).or (t.gauge? (pool, kind)) := by
  induction rules generalizing t with
  | nil => rfl
  | cons rule rules ih =>
    rw [List.forall_mem_cons] at hfits
    rw [resetAll_cons_of_fits hfits.1, ih (by rw [toPacing_setGauge]; exact hfits.2),
      toPacing_setGauge, NotifyRule.last?_cons]
    cases NotifyRule.last? rules kind with
    | some last => rfl
    | none =>
      by_cases hk : rule.kind = kind
      · subst hk
        rw [gauge?_setGauge_self]
        simp
      · rw [gauge?_setGauge_of_ne _ _ fun h => hk (congrArg Prod.snd h)]
        simp [hk]

/-- **Resetting the gauges of rules** gives the gauge of a kind the interval of the last rule of the
kind, if there is one. -/
theorem interval?_resetAll (now : Nat) (pool : String) (kind : NoticeKind) {t : Throttle}
    {rules : List NotifyRule} (hfits : ∀ rule ∈ rules, t.Fits rule) :
    (t.resetAll now pool rules).2.interval? (pool, kind) =
      ((NotifyRule.last? rules kind).map (nanosOfSecs ·.intervalSecs)).or
        (t.interval? (pool, kind)) := by
  unfold interval?
  rw [gauge?_resetAll now pool kind hfits]
  cases NotifyRule.last? rules kind <;> rfl

theorem AgreesOn.interval?_eq {pool : String} {u : Throttle} (h : AgreesOn pool t u)
    (kind : NoticeKind) : u.interval? (pool, kind) = t.interval? (pool, kind) :=
  congrArg (Option.map _) (h.gauge_eq kind)

end Throttle

theorem keepsInterval_iff {previous : List NotifyRule} {rule : NotifyRule} :
    keepsInterval previous rule = true ↔
      ∃ first, NotifyRule.find? previous rule.kind = some first ∧
        first.intervalSecs = rule.intervalSecs := by
  unfold keepsInterval
  cases NotifyRule.find? previous rule.kind <;> simp

/-- The interval that a refresh of the pool from the record leaves to a kind: that of the last rule
whose interval is new to the pool, or else that of the gauge that is there. -/
def ControlPlane.intervalAfter? (c : ControlPlane) (platforms : List Platform) (r : Record)
    (p : Pool) (kind : NoticeKind) : Option Nat :=
  ((NotifyRule.last? (renewed platforms r p) kind).map (nanosOfSecs ·.intervalSecs)).or
    (c.throttle.interval? (r.name, kind))

theorem interval?_applied {platforms : List Platform} {c : ControlPlane} {r : Record} {p : Pool}
    (hp : c.registry.get? r.name = some p)
    (hf : (applyRecord platforms c.throttle c.nowNanos r p).fault = none) (kind : NoticeKind) :
    (c.applied platforms r p).throttle.interval? (r.name, kind) =
      c.intervalAfter? platforms r p kind := by
  rw [applyRecord_eq] at hf
  rw [ControlPlane.intervalAfter?, ControlPlane.throttle_applied, ← Registry.name_of_get? hp]
  exact Throttle.interval?_resetAll _ _ _ ((Throttle.resetAll_fst_eq_none_iff _ _ _ _).mp hf)

/-! ### What only asks -/

/-- The registry is the same, and so are all intervals, but for gauges that were asked for before
they were set. -/
structure ControlPlane.OnlyAsks (c d : ControlPlane) : Prop where
  registry_eq : d.registry = c.registry
  interval?_cases : ∀ key, d.throttle.interval? key = c.throttle.interval? key ∨
    c.throttle.interval? key = none ∧ d.throttle.interval? key = some defaultNanos

namespace ControlPlane

variable {c d e : ControlPlane} {key : GaugeKey}

theorem OnlyAsks.of_eq (hr : d.registry = c.registry) (ht : d.throttle = c.throttle) :
    OnlyAsks c d := by
  refine ⟨hr, fun key => Or.inl ?_⟩
  rw [ht]

theorem OnlyAsks.trans (h : OnlyAsks c d) (h' : OnlyAsks d e) : OnlyAsks c e := by
  refine ⟨h'.registry_eq.trans h.registry_eq, fun key => ?_⟩
  rcases h'.interval?_cases key with hd | ⟨hd, he⟩
  · rw [hd]
    exact h.interval?_cases key
  · rcases h.interval?_cases key with hc | ⟨-, hc⟩
    · exact Or.inr ⟨hc.symm.trans hd, he⟩
    · rw [hc] at hd
      cases hd

theorem OnlyAsks.interval?_eq (h : OnlyAsks c d) {nanos : Nat}
    (hc : c.throttle.interval? key = some nanos) : d.throttle.interval? key = some nanos := by
  rcases h.interval?_cases key with hd | ⟨hnone, -⟩
  · exact hd.trans hc
  · rw [hnone] at hc
    cases hc

theorem onlyAsks_ask (c : ControlPlane) (key : GaugeKey) : OnlyAsks c (c.ask key).2 :=
  ⟨rfl, fun other => c.throttle.interval?_ask key other c.nowNanos⟩

theorem onlyAsks_post (c : ControlPlane) (n : Notice) : OnlyAsks c (c.post n).2 := .of_eq rfl rfl

theorem onlyAsks_notifyChange (c : ControlPlane) (p : Pool) (diff : Diff) (previous : Snapshot)
    (platforms : List Platform) : OnlyAsks c (notifyChange c p diff previous platforms).2 := by
  unfold notifyChange
  split
  · exact .of_eq rfl rfl
  · split_ifs
    · exact .of_eq rfl rfl
    · have hask := onlyAsks_ask c (p.name, .change)
      simp only
      split_ifs
      · exact hask.trans (onlyAsks_post _ _)
      · exact hask.trans (onlyAsks_post _ _)
      · exact hask

end ControlPlane

namespace Monitor

open ControlPlane (OnlyAsks onlyAsks_ask onlyAsks_post)

variable (m : Monitor) (p : Pool)

theorem onlyAsks_check (c : ControlPlane) (kind : NoticeKind) :
    OnlyAsks c (check c m p kind).2 := by
  unfold check
  split
  · exact .of_eq rfl rfl
  · have hask := onlyAsks_ask c (p.name, kind)
    simp only
    split_ifs
    · exact hask.trans (onlyAsks_post _ _)
    · exact hask

theorem onlyAsks_checkKinds (kinds : List NoticeKind) (c : ControlPlane) :
    OnlyAsks c (checkKinds c m p kinds).2 := by
  induction kinds generalizing c with
  | nil => exact .of_eq rfl rfl
  | cons kind kinds ih => exact (onlyAsks_check m p c kind).trans (ih _)

theorem onlyAsks_checkPools (ps : List Pool) (m : Monitor) (c : ControlPlane) :
    OnlyAsks c (checkPools c m ps).2 := by
  induction ps generalizing m c with
  | nil => exact .of_eq rfl rfl
  | cons p ps ih => exact (onlyAsks_checkKinds m p alarmKinds c).trans (ih _ _)

/-- **An alarm round** does nothing but ask. -/
theorem onlyAsks_round (c : ControlPlane) : OnlyAsks c (round c m).2 := by
  unfold round
  split_ifs
  · exact onlyAsks_checkPools _ m c
  · exact .of_eq rfl rfl

end Monitor

end PoolControl
