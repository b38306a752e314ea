import PoolControl.Proofs.Refresh.Outcomes

/-! # Gauges under refreshes

A limiter that keeps to its quota (`Limiter.Paces`) lets the first alert through and, if it is to
let through one at once, no second one before the interval has passed. So a gauge that lets an alert
through lets no second one through at the same moment (`Gauge.ask_ask`).

A refresh either leaves the gauge of a key as it is or puts a fresh one in its place, the latter
exactly if a rule of the kind has another interval than the pool's first rule of that kind had
(`changeGauge_applied`). -/

namespace PoolControl

open Settings (NoticeKind NotifyRule Platform Record)

/-! ### Limiters that keep to their quota -/

namespace Limiter

/-- The limiter keeps to its quota, as far as throttles rely on that. -/
structure Paces (l : Limiter) : Prop where
  grants_first (q : Quota) (elapsed : Nat) (hb : 0 < q.burst) :
    (l.check q (l.fresh q) elapsed).1 = true
  /-- One alert at once means none before an interval has passed. -/
  refuses_next (q : Quota) (word elapsed later : Nat) (hb : q.burst = 1)
    (hgranted : (l.check q word elapsed).1 = true) (hle : elapsed ≤ later)
    (hlt : later < elapsed + q.interval) :
    (l.check q (l.check q word elapsed).2 later).1 = false
  of_refused (q : Quota) (word elapsed : Nat) (h : (l.check q word elapsed).1 = false) :
    (l.check q word elapsed).2 = word

variable {q : Quota} {paidOff elapsed : Nat}

theorem check_cellRate_of_le (h : paidOff ≤ elapsed + q.interval * (q.burst - 1)) :
    cellRate.check q paidOff elapsed = (true, max paidOff elapsed + q.interval) := if_pos h

theorem check_cellRate_of_lt (h : elapsed + q.interval * (q.burst - 1) < paidOff) :
    cellRate.check q paidOff elapsed = (false, paidOff) := if_neg (Nat.not_le.mpr h)

theorem paces_cellRate : cellRate.Paces where
  grants_first q elapsed _ := by
    show (cellRate.check q 0 elapsed).1 = true
    rw [check_cellRate_of_le (Nat.zero_le _)]
  refuses_next q paidOff elapsed later hb hgranted hle hlt := by
    have hpaid : paidOff ≤ elapsed + q.interval * (q.burst - 1) := by
      by_contra hlate
      rw [check_cellRate_of_lt (Nat.lt_of_not_le hlate)] at hgranted
      cases hgranted
    rw [check_cellRate_of_le hpaid, check_cellRate_of_lt]
    rw [hb]
    omega
  of_refused q paidOff elapsed h := by
    rcases Nat.lt_or_ge (elapsed + q.interval * (q.burst - 1)) paidOff with hlate | hpaid
    · rw [check_cellRate_of_lt hlate]
    · rw [check_cellRate_of_le hpaid] at h
      cases h

end Limiter

/-- One alert at once is let through, by a limiter that keeps to that. -/
structure Pacing.IsSingle (s : Pacing) : Prop where
  burst_eq : s.burst = 1
  paces : s.limiter.Paces

namespace Gauge

/-- The gauge was made at that moment and has not let anything through. -/
def IsFresh (g : Gauge) (s : Pacing) (now : Nat) : Prop := g = s.fresh g.interval now

variable {g : Gauge} {s : Pacing} {now : Nat}

theorem ask_of_interval_ne_zero (h : g.interval ≠ 0) : g.ask s now =
    ((s.limiter.check (s.quota g.interval) g.word (now - g.madeAt)).1,
      { g with word := (s.limiter.check (s.quota g.interval) g.word (now - g.madeAt)).2 }) :=
  if_neg h

theorem ask_of_isFresh (hs : s.IsSingle) (h : g.IsFresh s now) : (g.ask s now).1 = true := by
  by_cases h0 : g.interval = 0
  · rw [ask, if_pos h0]
  · rw [ask_of_interval_ne_zero h0, h]
    exact hs.paces.grants_first _ _ (by simp [Pacing.quota, hs.burst_eq])

/-- **A gauge that lets an alert through** lets no second one through at the same moment. -/
theorem ask_ask (hs : s.IsSingle) (h0 : g.interval ≠ 0) (hgranted : (g.ask s now).1 = true) :
    ((g.ask s now).2.ask s now).1 = false := by
  rw [ask_of_interval_ne_zero h0] at hgranted ⊢
  rw [ask_of_interval_ne_zero (by exact h0)]
  exact hs.paces.refuses_next _ _ _ _ hs.burst_eq hgranted (Nat.le_refl _)
    (Nat.lt_add_of_pos_right (Nat.pos_of_ne_zero h0))

theorem ask_of_refused (hs : s.IsSingle) (h : (g.ask s now).1 = false) : (g.ask s now).2 = g := by
  by_cases h0 : g.interval = 0
  · rw [ask, if_pos h0]
  · rw [ask_of_interval_ne_zero h0] at h ⊢
    simp only [hs.paces.of_refused _ _ _ h]

end Gauge

namespace Throttle

theorem gaugeAt_setGauge_self (t : Throttle) (key : GaugeKey) (g : Gauge) (now : Nat) :
    (t.setGauge key g).gaugeAt key now = g := by
  rw [gaugeAt, gauge?_setGauge_self]
  rfl

theorem gaugeAt_of_eq_none {t : Throttle} {key : GaugeKey} (h : t.gauge? key = none) (now : Nat) :
    t.gaugeAt key now = t.fresh defaultNanos now := by
  rw [gaugeAt, h]
  exact t.spare_eq now

theorem gauge?_resetAll_of_ne {pool : String} {key : GaugeKey} (h : pool ≠ key.1) (now : Nat)
    (t : Throttle) (rules : List NotifyRule) :
    (t.resetAll now pool rules).2.gauge? key = t.gauge? key := by
  induction rules generalizing t with
  | nil => rfl
  | cons rule rules ih =>
    by_cases hfits : t.Fits rule
    · rw [resetAll_cons_of_fits hfits, ih]
      exact gauge?_setGauge_of_ne _ _ fun hkey => h (congrArg Prod.fst hkey)
    · rw [resetAll_cons_of_not_fits hfits]

/-- **Resetting the gauges of rules that fit** leaves the gauge of a kind as it is if there is no
rule of the kind, and makes it that of one of those rules otherwise. -/
theorem gaugeAt_resetAll (now : Nat) (pool : String) (kind : NoticeKind) (t : Throttle)
    (rules : List NotifyRule) (hfits : ∀ rule ∈ rules, t.Fits rule) :
    (∀ rule ∈ rules, rule.kind ≠ kind) ∧
        (t.resetAll now pool rules).2.gaugeAt (pool, kind) now = t.gaugeAt (pool, kind) now ∨
      ∃ rule ∈ rules, rule.kind = kind ∧
        (t.resetAll now pool rules).2.gaugeAt (pool, kind) now = t.freshGauge now rule := by
  induction rules generalizing t with
  | nil => exact Or.inl ⟨by simp, rfl⟩
  | cons rule rules ih =>
    rw [List.forall_mem_cons] at hfits
    rw [resetAll_cons_of_fits hfits.1]
    have h := ih (t.setGauge (pool, rule.kind) (t.freshGauge now rule))
    rw [toPacing_setGauge] at h
    rcases h hfits.2 with ⟨hnone, hg⟩ | ⟨r, hr, hk, hg⟩
    · rw [hg]
      by_cases hk : rule.kind = kind
      · subst hk
        exact Or.inr ⟨rule, List.mem_cons_self, rfl, gaugeAt_setGauge_self _ _ _ _⟩
      · refine Or.inl ⟨List.forall_mem_cons.mpr ⟨hk, hnone⟩, ?_⟩
        unfold gaugeAt
        rw [gauge?_setGauge_of_ne _ _ fun h => hk (congrArg Prod.snd h), toPacing_setGauge]
    · exact Or.inr ⟨r, List.mem_cons_of_mem _ hr, hk, hg⟩

end Throttle

/-! ### Rules -/

namespace Settings.NotifyRule

/-- The rules of a record with their unset fields filled in, or the default rules if it has none. -/
def completed (rules : List NotifyRule) : List NotifyRule :=
  if rules.isEmpty then defaults else mergeDefaults rules

/-- The rule with every configured platform if it names none. -/
def fill (platforms : List Platform) (rule : NotifyRule) : NotifyRule :=
  if rule.platforms.isEmpty then { rule with platforms := platforms.map (·.name) } else rule

theorem effective_eq (platforms : List Platform) (rules : List NotifyRule) :
    effective platforms rules = (completed rules).map (fill platforms) := rfl

variable (platforms : List Platform) (rule : NotifyRule)

@[simp] theorem kind_fill : (rule.fill platforms).kind = rule.kind := by
  unfold fill
  split_ifs <;> rfl

@[simp] theorem enabled_fill : (rule.fill platforms).enabled = rule.enabled := by
  unfold fill
  split_ifs <;> rfl

@[simp] theorem intervalSecs_fill : (rule.fill platforms).intervalSecs = rule.intervalSecs := by
  unfold fill
  split_ifs <;> rfl

theorem find?_map {f : NotifyRule → NotifyRule} (hkind : ∀ r, (f r).kind = r.kind)
    (rules : List NotifyRule) (kind : NoticeKind) :
    find? (rules.map f) kind = (find? rules kind).map f := by
  unfold find?
  rw [List.find?_map]
  congr 2
  funext rule
  simp [hkind]

theorem find?_effective (rules : List NotifyRule) (kind : NoticeKind) :
    find? (effective platforms rules) kind =
      (find? (completed rules) kind).map (fill platforms) := by
  rw [effective_eq, find?_map (kind_fill platforms)]

end Settings.NotifyRule

theorem keepsInterval_fill (platforms : List Platform) (previous : List NotifyRule)
    (rule : NotifyRule) :
    keepsInterval previous (rule.fill platforms) = keepsInterval previous rule := by
  simp [keepsInterval]

/-! ### The gauge of a pool's changes -/

namespace ControlPlane

/-- The control plane after the record was applied to the pool. -/
abbrev applied (c : ControlPlane) (platforms : List Platform) (r : Record) (p : Pool) :
    ControlPlane :=
  c.takeOver (applyRecord platforms c.throttle c.nowNanos r p)

theorem throttle_applied (c : ControlPlane) (platforms : List Platform) (r : Record) (p : Pool) :
    (c.applied platforms r p).throttle =
      (c.throttle.resetAll c.nowNanos p.name (renewed platforms r p)).2 := by
  unfold applied
  rw [applyRecord_eq]
  rfl

theorem pacing_applied (c : ControlPlane) (platforms : List Platform) (r : Record) (p : Pool) :
    (c.applied platforms r p).throttle.toPacing = c.throttle.toPacing := by
  rw [throttle_applied]
  exact Throttle.pacing_resetAll ..

/-- The gauge that is asked about the next change of the pool. -/
def changeGauge (c : ControlPlane) (name : String) : Gauge :=
  c.throttle.gaugeAt (name, .change) c.nowNanos

/-- **Applying a record** leaves the gauge of the pool's changes as it is if all rules for changes
keep the interval of the pool's first rule, and puts a fresh one in its place otherwise. -/
theorem changeGauge_applied (platforms : List Platform) {c : ControlPlane} {r : Record} {p : Pool}
    (hp : c.registry.get? r.name = some p)
    (hf : (applyRecord platforms c.throttle c.nowNanos r p).fault = none) :
    (∀ rule ∈ NotifyRule.completed r.rules, rule.kind = .change →
        keepsInterval p.rules rule = true) ∧
      (c.applied platforms r p).changeGauge r.name = c.changeGauge r.name ∨
    ∃ rule ∈ NotifyRule.completed r.rules, rule.kind = .change ∧
      keepsInterval p.rules rule = false ∧
      (c.applied platforms r p).changeGauge r.name = c.throttle.freshGauge c.nowNanos rule := by
  have hgauge : (c.applied platforms r p).changeGauge r.name =
      (c.throttle.resetAll c.nowNanos p.name (renewed platforms r p)).2.gaugeAt (p.name, .change)
        c.nowNanos := by
    rw [changeGauge, throttle_applied, Registry.name_of_get? hp]
    rfl
  rw [applyRecord_eq] at hf
  rw [hgauge, changeGauge, ← Registry.name_of_get? hp]
  -- The rules whose gauges are reset are those that do not keep the interval.
  rcases Throttle.gaugeAt_resetAll c.nowNanos p.name .change c.throttle (renewed platforms r p)
      ((Throttle.resetAll_fst_eq_none_iff _ _ _ _).mp hf) with ⟨hnone, hg⟩ | ⟨filled, hmem, hk, hg⟩
  · refine Or.inl ⟨fun rule hm hk => ?_, hg⟩
    by_contra hkeeps
    refine hnone (rule.fill platforms) (List.mem_filter.mpr ⟨?_, ?_⟩) (by simpa using hk)
    · exact List.mem_map_of_mem hm
    · simpa [keepsInterval_fill] using hkeeps
  · obtain ⟨hmem, hkeeps⟩ := List.mem_filter.mp hmem
    rw [NotifyRule.effective_eq] at hmem
    obtain ⟨rule, hm, rfl⟩ := List.mem_map.mp hmem
    refine Or.inr ⟨rule, hm, by simpa using hk, ?_, ?_⟩
    · simpa [keepsInterval_fill] using hkeeps
    · simpa [Pacing.freshGauge] using hg

end ControlPlane
end PoolControl
