import Mathlib.Data.List.Forall2
import PoolControl.Proofs.Refresh.Binding

/-! # After a bind every pool can raise alerts

A bind gives every registered pool rules from which alerts can be raised: those of its last valid
record, or its own if it has none, with what they leave unset filled in and a fresh gauge for each
kind (`bind_alertable`). Bound once more, nothing changes.

The gauges are what a bind can fail at. A record that is applied resets those of the rules whose
interval is new to the pool, and in the end all rules of the pool are given one. So whether a bind
ends in a fault can be told for each pool from the rules that it is given one after the other
(`Pacing.Bears`, `fault_bind_eq_none_iff`). -/

namespace PoolControl

open Settings (Batch NoticeKind NotifyRule Platform Record)

/-! ### Faults -/

namespace Pacing

/-- A pool with those rules can be given further ones, one after the other, and filled in at last: a
new interval fits, and so do all in the end. -/
def Bears (s : Pacing) (platforms : List Platform) :
    List NotifyRule → List (List NotifyRule) → Prop
  | previous, [] => ∀ rule ∈ NotifyRule.effective platforms previous, s.Fits rule
  | previous, rules :: rest =>
    (∀ rule ∈ NotifyRule.effective platforms rules,
        keepsInterval previous rule = true ∨ s.Fits rule) ∧
      Bears s platforms (NotifyRule.effective platforms rules) rest

variable {s : Pacing} {platforms : List Platform}

theorem bears_of_fits {rest : List (List NotifyRule)} (previous : List NotifyRule)
    (hprevious : rest = [] → ∀ rule ∈ NotifyRule.effective platforms previous, s.Fits rule)
    (hrest : ∀ rules ∈ rest, ∀ rule ∈ NotifyRule.effective platforms rules, s.Fits rule) :
    s.Bears platforms previous rest := by
  induction rest generalizing previous with
  | nil => exact hprevious rfl
  | cons rules rest ih =>
    rw [List.forall_mem_cons] at hrest
    refine ⟨fun rule hrule => Or.inr (hrest.1 rule hrule), ih _ (fun _ => ?_) hrest.2⟩
    rw [NotifyRule.effective_effective]
    exact hrest.1

theorem Bears.fits_last {previous : List NotifyRule} {rest : List (List NotifyRule)}
    (h : s.Bears platforms previous rest) :
    ∀ rule ∈ NotifyRule.effective platforms (rest.getLast?.getD previous), s.Fits rule := by
  induction rest generalizing previous with
  | nil => exact h
  | cons rules rest ih =>
    have hlast := ih h.2
    cases hr : rest.getLast? with
    | none =>
      rw [hr, Option.getD_none, NotifyRule.effective_effective] at hlast
      rw [List.getLast?_cons, hr]
      exact hlast
    | some last =>
      rw [hr, Option.getD_some] at hlast
      rw [List.getLast?_cons, hr]
      exact hlast

end Pacing

namespace Settings.Batch

/-- The rules of the valid records of a name, in order. -/
def rulesOf (b : Batch) (name : String) : List (List NotifyRule) :=
  (b.records.filter (·.isOf name)).map (·.rules)

/-- The rules that a pool of that name takes from the batch: those of its last valid record, or its
own if it has none. -/
def source (b : Batch) (name : String) (own : List NotifyRule) : List NotifyRule :=
  (b.rulesOf name).getLast?.getD own

end Settings.Batch

section Faults

variable {platforms : List Platform} {c : ControlPlane} {r : Record} {rs : List Record} {p : Pool}
  {name : String}

/-- A record that is applied is the first of those for its pool, and none for the other pools. -/
theorem bears_applied (hr : r.isCommittable = true) (hp : c.registry.get? r.name = some p)
    (hf : (applyRecord platforms c.throttle c.nowNanos r p).fault = none) (name : String) :
    (∀ q, (c.applied platforms r p).registry.get? name = some q →
        (c.applied platforms r p).throttle.Bears platforms q.rules
          ((rs.filter (·.isOf name)).map (·.rules))) ↔
      ∀ q, c.registry.get? name = some q →
        c.throttle.Bears platforms q.rules (((r :: rs).filter (·.isOf name)).map (·.rules)) := by
  have hpacing := c.pacing_applied platforms r p
  simp only [hpacing]
  by_cases hn : r.name = name
  · subst hn
    have hof : r.isOf r.name = true := by simp [Record.isOf, hr]
    have hget := get?_takeOver platforms c.throttle c.nowNanos hp
    have hrules := rules_applyRecord platforms c.throttle c.nowNanos r p hf
    have hfits := (fault_applyRecord_eq_none_iff ..).mp hf
    rw [List.filter_cons_of_pos hof, List.map_cons]
    refine ⟨fun h q hq => ?_, fun h q hq => ?_⟩
    · cases hp.symm.trans hq
      exact ⟨hfits, hrules ▸ h _ hget⟩
    · cases hget.symm.trans hq
      rw [hrules]
      exact (h p hp).2
  · rw [List.filter_cons_of_neg (by simp [Record.isOf, hn]),
      (ControlPlane.agreesOn_applied hn hp).pool_eq]

/-- **Records are bound and all rules filled in without a fault** exactly if the throttle bears the
rules that each pool is given. -/
theorem bindRecords_normalizeAll_eq_none_iff (hdistinct : c.registry.Distinct) :
    ((bindRecords platforms c rs).1.2 = none ∧
        (normalizeAll platforms (bindRecords platforms c rs).2
          (bindRecords platforms c rs).2.registry.pools).1 = none) ↔
      ∀ name p, c.registry.get? name = some p →
        c.throttle.Bears platforms p.rules ((rs.filter (·.isOf name)).map (·.rules)) := by
  induction rs generalizing c with
  | nil =>
    simp only [bindRecords, normalizeAll_fst_eq_none_iff, true_and]
    exact hdistinct.forall_mem_pools_iff (P := fun _ p => c.throttle.Bears platforms p.rules [])
  | cons r rs ih =>
    have hcases := binds platforms c r
    generalize heq : bindRecord platforms c r = result at hcases
    cases hcases with
    | untouched binding huntouched =>
      rw [bindRecords_cons_of_binding heq]
      refine (ih hdistinct).trans (forall_congr' fun name => forall₂_congr fun p hp => ?_)
      have hof : r.isOf name = false := by
        by_cases hn : r.name = name
        · subst hn
          simp [Record.isOf, huntouched.resolve_right (by simp [hp])]
        · simp [Record.isOf, hn]
      rw [List.filter_cons_of_neg (by simp [hof])]
    | applied binding p hr hp =>
      cases hf : (applyRecord platforms c.throttle c.nowNanos r p).fault with
      | none =>
        rw [hf] at heq
        rw [bindRecords_cons_of_binding heq]
        have hnext : (c.applied platforms r p).registry.Distinct := hdistinct.update _
        exact (ih hnext).trans (forall_congr' fun name => bears_applied hr hp hf name)
      | some fault =>
        rw [hf] at heq
        rw [bindRecords_cons_of_fault heq]
        refine ⟨fun h => absurd h.1 (by simp), fun h => ?_⟩
        have hof : r.isOf r.name = true := by simp [Record.isOf, hr]
        have hfirst := h r.name p hp
        rw [List.filter_cons_of_pos hof, List.map_cons] at hfirst
        rw [(fault_applyRecord_eq_none_iff ..).mpr hfirst.1] at hf
        cases hf

/-- **A bind returns** exactly if the throttle bears the rules that each pool is given. -/
theorem fault_bind_eq_none_iff (hdistinct : c.registry.Distinct) {b : Batch} :
    (bind c b).1.2 = none ↔ ∀ p ∈ c.registry.pools,
      c.throttle.Bears b.platforms p.rules (b.rulesOf p.name) := by
  have hpools := hdistinct.forall_mem_pools_iff
    (P := fun name p => c.throttle.Bears b.platforms p.rules (b.rulesOf name))
  refine .trans ?_ ((bindRecords_normalizeAll_eq_none_iff hdistinct).trans hpools.symm)
  cases hb : (bindRecords b.platforms c b.records).1.2 with
  | none =>
    rw [bind_of_none hb]
    simp
  | some fault =>
    rw [bind_of_fault hb, hb]
    simp

end Faults

/-! ### Rules that were filled in -/

namespace Settings.NotifyRule

/-- Alerts can be raised from the rule: it has an interval, a threshold unless it is for changes,
and a platform if there are any. -/
structure IsAlertable (platforms : List Platform) (rule : NotifyRule) : Prop where
  interval_isSome : rule.interval.isSome = true
  threshold_isSome : rule.kind ≠ .change → rule.threshold.isSome = true
  platforms_ne_nil : platforms ≠ [] → rule.platforms ≠ []

/-- The other rule is for the same kind and has all that this one sets. -/
structure IsKeptBy (rule other : NotifyRule) : Prop where
  kind_eq : other.kind = rule.kind
  enabled_eq : other.enabled = rule.enabled
  threshold_eq : rule.threshold.isSome = true → other.threshold = rule.threshold
  interval_eq : rule.interval.isSome = true → other.interval = rule.interval
  platforms_eq : rule.platforms ≠ [] → other.platforms = rule.platforms

/-- The rules, or the default ones where there are none. -/
def orDefaults (rules : List NotifyRule) : List NotifyRule :=
  if rules.isEmpty then defaults else rules

variable {platforms : List Platform} {rule : NotifyRule} {rules : List NotifyRule}

theorem exists_default (kind : NoticeKind) : ∃ d, find? defaults kind = some d ∧
    d.interval = some defaultInterval ∧ (kind ≠ .change → d.threshold.isSome = true) := by
  cases kind <;> exact ⟨_, rfl, rfl, by decide⟩

theorem isAlertable_mergeDefault (rule : NotifyRule) : rule.mergeDefault.IsAlertable [] := by
  obtain ⟨d, hd, hinterval, hthreshold⟩ := exists_default rule.kind
  unfold mergeDefault
  rw [hd]
  refine ⟨?_, fun hk => ?_, fun h => absurd rfl h⟩
  · simp [hinterval]
  · simp [hthreshold hk]

theorem isKeptBy_mergeDefault (rule : NotifyRule) : rule.IsKeptBy rule.mergeDefault := by
  obtain ⟨d, hd, -⟩ := exists_default rule.kind
  unfold mergeDefault
  rw [hd]
  refine ⟨rfl, rfl, fun h => ?_, fun h => ?_, fun _ => rfl⟩
  · obtain ⟨n, hn⟩ := Option.isSome_iff_exists.mp h
    simp [hn]
  · obtain ⟨n, hn⟩ := Option.isSome_iff_exists.mp h
    simp [hn]

theorem IsAlertable.fill (h : rule.IsAlertable []) (platforms : List Platform) :
    (rule.fill platforms).IsAlertable platforms := by
  unfold NotifyRule.fill
  split_ifs with hempty
  · exact ⟨h.interval_isSome, h.threshold_isSome, fun hne => by simpa using hne⟩
  · exact ⟨h.interval_isSome, h.threshold_isSome, fun _ => by simpa using hempty⟩

theorem IsKeptBy.fill {other : NotifyRule} (h : rule.IsKeptBy other) (platforms : List Platform) :
    rule.IsKeptBy (other.fill platforms) := by
  unfold NotifyRule.fill
  split_ifs with hempty
  · refine ⟨h.kind_eq, h.enabled_eq, h.threshold_eq, h.interval_eq, fun hne => ?_⟩
    rw [h.platforms_eq hne, List.isEmpty_iff] at hempty
    exact absurd hempty hne
  · exact h

/-- **Alerts can be raised from rules that were filled in.** -/
theorem isAlertable_of_mem_effective (h : rule ∈ effective platforms rules) :
    rule.IsAlertable platforms := by
  rw [effective_eq] at h
  obtain ⟨rule, hmem, rfl⟩ := List.mem_map.mp h
  rw [← mergeDefault_of_mem_completed hmem]
  exact rule.isAlertable_mergeDefault.fill platforms

/-- **Rules that are filled in** keep their number, their order and all that they set. -/
theorem forall₂_effective (platforms : List Platform) (rules : List NotifyRule) :
    List.Forall₂ IsKeptBy (orDefaults rules) (effective platforms rules) := by
  have hcompleted : completed rules = (orDefaults rules).map mergeDefault := by
    unfold completed orDefaults
    split_ifs
    · decide
    · rfl
  rw [effective_eq, hcompleted, List.map_map, List.forall₂_map_right_iff]
  exact List.forall₂_same.mpr fun rule _ => rule.isKeptBy_mergeDefault.fill platforms

theorem effective_ne_nil (platforms : List Platform) (rules : List NotifyRule) :
    effective platforms rules ≠ [] := by
  simpa [effective_eq] using completed_ne_nil rules

end Settings.NotifyRule

namespace Settings

variable {b : Batch} {name : String}

theorem Batch.rules_bindUp (b : Batch) (name : String) (x : Setup) :
    (b.bindUp name x).rules = NotifyRule.effective b.platforms (b.source name x.rules) := by
  unfold Batch.bindUp Batch.source Batch.rulesOf
  generalize b.records.filter (·.isOf name) = rs
  rcases List.eq_nil_or_concat rs with rfl | ⟨before, r, rfl⟩
  · rfl
  · rw [fillRules_setUpAll (by simp), List.concat_eq_append, setUpAll_append]
    simp [setUpAll, Record.setUp]

/-- **A batch that is bound once more changes nothing.** -/
theorem Batch.bindUp_bindUp (b : Batch) (name : String) (x : Setup) :
    b.bindUp name (b.bindUp name x) = b.bindUp name x := by
  unfold Batch.bindUp
  by_cases h : b.records.filter (·.isOf name) = []
  · rw [h]
    show Setup.fillRules _ (Setup.fillRules _ x) = _
    unfold Setup.fillRules
    rw [NotifyRule.effective_effective]
    rfl
  · rw [fillRules_setUpAll h, fillRules_setUpAll h, setUpAll_setUpAll]

end Settings

/-! ### What a bind leaves alone -/

/-- A bind has led to a control plane, with a fault or without one: a fault says that an interval is
too long, and the outbox, the clocks and the pacing of alerts are as they were. -/
structure ControlPlane.BindsTo (c : ControlPlane) (fault : Option Fault) (d : ControlPlane) :
    Prop where
  fault_eq : fault = none ∨ fault = some .intervalTooLong
  outbox_eq : d.outbox = c.outbox
  clock_eq : d.clock = c.clock
  pacing_eq : d.throttle.toPacing = c.throttle.toPacing

namespace ControlPlane.BindsTo

variable {platforms : List Platform} {c d e : ControlPlane} {fault fault' : Option Fault}

theorem refl (c : ControlPlane) : c.BindsTo none c := ⟨Or.inl rfl, rfl, rfl, rfl⟩

theorem trans (h : c.BindsTo fault' d) (h' : d.BindsTo fault e) : c.BindsTo fault e :=
  ⟨h'.fault_eq, h'.outbox_eq.trans h.outbox_eq, h'.clock_eq.trans h.clock_eq,
    h'.pacing_eq.trans h.pacing_eq⟩

theorem nowNanos_eq (h : c.BindsTo fault d) : d.nowNanos = c.nowNanos := by
  rw [nowNanos, nowNanos, h.clock_eq]

theorem freshGauge_eq (h : c.BindsTo fault d) :
    d.throttle.freshGauge d.nowNanos = c.throttle.freshGauge c.nowNanos := by
  rw [h.pacing_eq, h.nowNanos_eq]

theorem bindRecord (platforms : List Platform) (c : ControlPlane) (r : Record) :
    c.BindsTo (bindRecord platforms c r).1.2 (bindRecord platforms c r).2 := by
  have hcases := binds platforms c r
  generalize PoolControl.bindRecord platforms c r = result at hcases ⊢
  cases hcases with
  | untouched => exact refl c
  | applied => exact ⟨(fault_applyRecord ..).imp_right And.left, rfl, rfl, pacing_applied ..⟩

theorem bindRecords (platforms : List Platform) (c : ControlPlane) (rs : List Record) :
    c.BindsTo (bindRecords platforms c rs).1.2 (bindRecords platforms c rs).2 := by
  induction rs generalizing c with
  | nil => exact refl c
  | cons r rs ih =>
    have hr := bindRecord platforms c r
    rw [PoolControl.bindRecords]
    rcases heq : PoolControl.bindRecord platforms c r with ⟨⟨binding, fault | _⟩, d⟩
    · rw [heq] at hr
      exact hr.trans (ih d)
    · rw [heq] at hr
      exact hr

theorem normalizeRules (platforms : List Platform) (c : ControlPlane) (p : Pool) :
    c.BindsTo (normalizeRules platforms c p).1 (normalizeRules platforms c p).2 := by
  refine ⟨?_, ?_, ?_, pacing_normalizeRules platforms c p⟩ <;> rw [normalizeRules_eq]
  · exact (Throttle.resetAll_fault ..).imp_right And.left
  all_goals
    simp only
    split_ifs <;> rfl

theorem normalizeAll (platforms : List Platform) (c : ControlPlane) (ps : List Pool) :
    c.BindsTo (normalizeAll platforms c ps).1 (normalizeAll platforms c ps).2 := by
  induction ps generalizing c with
  | nil => exact refl c
  | cons p ps ih =>
    have hp := normalizeRules platforms c p
    rw [PoolControl.normalizeAll]
    rcases heq : PoolControl.normalizeRules platforms c p with ⟨fault | _, d⟩
    · rw [heq] at hp
      exact hp.trans (ih d)
    · rw [heq] at hp
      exact hp

/-- **A bind** faults at nothing but an interval, and changes no more than pools and gauges. -/
theorem bind (c : ControlPlane) (b : Batch) : c.BindsTo (bind c b).1.2 (bind c b).2 := by
  have hrecords := bindRecords b.platforms c b.records
  cases hf : (PoolControl.bindRecords b.platforms c b.records).1.2 with
  | none =>
    rw [bind_of_none hf]
    exact hrecords.trans (normalizeAll ..)
  | some fault =>
    rw [bind_of_fault hf]
    exact hrecords

end ControlPlane.BindsTo

/-! ### Gauges -/

section Gauges

variable {platforms : List Platform} {c : ControlPlane} {p : Pool} {ps : List Pool}

/-- **Filling in the rules of the pools** gives each a fresh gauge for every kind of its rules. -/
theorem gauge?_normalizeAll (hn : (ps.map (·.name)).Nodup)
    (h : (normalizeAll platforms c ps).1 = none) (hp : p ∈ ps) {kind : NoticeKind}
    {rule : NotifyRule}
    (hrule : NotifyRule.last? (NotifyRule.effective platforms p.rules) kind = some rule) :
    (normalizeAll platforms c ps).2.throttle.gauge? (p.name, kind) =
      some (c.throttle.freshGauge c.nowNanos rule) := by
  induction ps generalizing c with
  | nil => cases hp
  | cons q qs ih =>
    rw [List.map_cons, List.nodup_cons] at hn
    obtain ⟨hq, heq⟩ := normalizeAll_cons_of_none h
    rw [heq] at h ⊢
    rcases List.mem_cons.mp hp with rfl | hp
    · -- The other pools have gauges of their own.
      have hothers := (agreesOn_normalizeAll (c := (normalizeRules platforms c p).2) platforms
        hn.1).throttle.gauge_eq kind
      have hfits := (Throttle.resetAll_fst_eq_none_iff ..).mp hq
      have hself : (normalizeRules platforms c p).2.throttle = (c.throttle.resetAll c.nowNanos
          p.name (NotifyRule.effective platforms p.rules)).2 := by
        rw [normalizeRules_eq]
        simp only
        split_ifs <;> rfl
      rw [hothers, hself, Throttle.gauge?_resetAll _ _ _ hfits, hrule]
      rfl
    · rw [ih hn.2 h hp, (ControlPlane.BindsTo.normalizeRules platforms c q).freshGauge_eq]

end Gauges

/-! ### Binding once more -/

/-- A throttle that every rule fits. -/
def Throttle.tireless : Throttle := { limiter := { Limiter.cellRate with makes := fun _ => true } }

theorem Throttle.fits_tireless (rule : NotifyRule) : tireless.Fits rule := Or.inr rfl

section Again

variable {platforms : List Platform} {c : ControlPlane} {r : Record} {rs : List Record} {p : Pool}
  {b : Batch} {name : String}

theorem applyRecord_of_setUp_eq (hr : r.isCommittable = true) (hp : p.Sound)
    (h : r.setUp platforms p.setup = p.setup) (throttle : Throttle) (now : Nat) :
    (applyRecord platforms throttle now r p).pool = p := by
  -- Whether the throttle faults does not matter, so take one that every rule fits.
  have hfault : (applyRecord platforms .tireless now r p).fault = none :=
    (fault_applyRecord_eq_none_iff ..).mpr fun rule _ => Or.inr (Throttle.fits_tireless rule)
  have hsetup : p.setup = (applyRecord platforms .tireless now r p).pool.setup := by
    rw [setup_applyRecord_eq hr hp hfault, h]
  exact (applyRecord_again hr hp hfault hsetup throttle now).1

theorem get?_bindRecords_of_setUp_eq (hp : p.Sound) (hget : c.registry.get? name = some p)
    (h : ∀ r ∈ rs, r.isOf name = true → r.setUp platforms p.setup = p.setup) :
    (bindRecords platforms c rs).2.registry.get? name = some p := by
  induction rs generalizing c with
  | nil => exact hget
  | cons r rs ih =>
    rw [List.forall_mem_cons] at h
    have hstep : (bindRecord platforms c r).2.registry.get? name = some p := by
      have hcases := binds platforms c r
      generalize bindRecord platforms c r = result at hcases ⊢
      cases hcases with
      | untouched => exact hget
      | applied binding q hr hq =>
        by_cases hn : r.name = name
        · subst hn
          cases hget.symm.trans hq
          have hof : r.isOf r.name = true := by simp [Record.isOf, hr]
          rw [ControlPlane.applied, get?_takeOver platforms _ _ hget,
            applyRecord_of_setUp_eq hr hp (h.1 hof)]
        · rw [(ControlPlane.agreesOn_applied hn hq).pool_eq]
          exact hget
    rw [bindRecords]
    rcases he : bindRecord platforms c r with ⟨⟨binding, fault | _⟩, d⟩
    · rw [he] at hstep
      exact ih hstep h.2
    · rw [he] at hstep
      exact hstep

/-- **A pool that was bound**, to one valid record at most, is left altogether as it is by a further
bind to the batch. -/
theorem get?_bind_of_setup_eq (hc : c.InService) (hdistinct : c.registry.Distinct)
    (hp : c.registry.get? name = some p) {x : Setup} (hpx : p.setup = b.bindUp name x)
    (hone : (b.records.filter (·.isOf name)).length ≤ 1) :
    (bind c b).2.registry.get? name = some p := by
  have hrules : p.rules = NotifyRule.effective b.platforms (b.source name x.rules) :=
    (congrArg Setup.rules hpx).trans (b.rules_bindUp name x)
  have hfixed : ∀ r ∈ b.records, r.isOf name = true → r.setUp b.platforms p.setup = p.setup := by
    intro r hr hof
    obtain ⟨r', hr'⟩ := List.length_eq_one_iff.mp (Nat.le_antisymm hone
      (List.length_pos_of_mem (List.mem_filter.mpr ⟨hr, hof⟩)))
    have hmem : r ∈ b.records.filter (·.isOf name) := List.mem_filter.mpr ⟨hr, hof⟩
    rw [hr', List.mem_singleton] at hmem
    subst hmem
    rw [hpx, Batch.bindUp, hr', Settings.fillRules_setUpAll (by simp)]
    exact r.setUp_setUp b.platforms x
  have hbound := get?_bindRecords_of_setUp_eq (hc.sound hp) hp hfixed
  cases hf : (bindRecords b.platforms c b.records).1.2 with
  | some fault =>
    rw [bind_of_fault hf]
    exact hbound
  | none =>
    rw [bind_of_none hf]
    simp only
    have hm := (Pool.respected_retuned.carries_bindRecords b.platforms b.records c hdistinct).2
    have hfilled : (normalizeAll b.platforms _ _).2.registry.get? name = _ ∨ _ :=
      get?_normalizeAll (Registry.distinct_iff.mp hm) (fun q hq => hm.get?_of_mem hq) name
    rcases hfilled with h | h
    · rw [h, hbound]
    · rw [h, hbound, Option.map_some, fillRules_of_rules_eq hrules]

end Again

/-! ### What a bind leaves -/

section Binds

variable {c d : ControlPlane} {b : Batch} {name : String} {p : Pool}

/-- **What a bind leaves of a registered pool**: rules from which alerts can be raised, which keep
what they were made of, and a fresh gauge for each of their kinds. -/
theorem exists_alertable (hc : c.InService) (hdistinct : c.registry.Distinct)
    (h : (bind c b).1.2 = none) (hp : c.registry.get? name = some p) :
    ∃ q, (bind c b).2.registry.get? name = some q ∧ q.rules ≠ [] ∧
      (∀ rule ∈ q.rules, rule.IsAlertable b.platforms) ∧
      List.Forall₂ NotifyRule.IsKeptBy (NotifyRule.orDefaults (b.source name p.rules)) q.rules ∧
      ∀ kind rule, NotifyRule.last? q.rules kind = some rule →
        (bind c b).2.throttle.gauge? (name, kind) =
          some (c.throttle.freshGauge c.nowNanos rule) := by
  have hsetup := (setup?_bind_eq hc hdistinct h).2 name
  rw [show c.setup? name = some p.setup by rw [ControlPlane.setup?, hp]; rfl] at hsetup
  obtain ⟨q, hq, hqx⟩ := Option.map_eq_some_iff.mp hsetup
  have hrules : q.rules = NotifyRule.effective b.platforms (b.source name p.rules) :=
    (congrArg Setup.rules hqx).trans (b.rules_bindUp name p.setup)
  refine ⟨q, hq, ?_, ?_, ?_, fun kind rule hrule => ?_⟩
  · rw [hrules]
    exact NotifyRule.effective_ne_nil b.platforms _
  · rw [hrules]
    exact fun rule => NotifyRule.isAlertable_of_mem_effective
  · rw [hrules]
    exact NotifyRule.forall₂_effective ..
  · obtain ⟨m, rfl, hrecords, hnormalize, heq⟩ := exists_of_bind h
    have hm := (Pool.respected_retuned.carries_bindRecords b.platforms b.records c hdistinct).2
    have hbound := (setup?_bindRecords b.platforms b.records hc hrecords).2 name
    rw [show c.setup? name = some p.setup by rw [ControlPlane.setup?, hp]; rfl] at hbound
    obtain ⟨p', hp', hpx⟩ := Option.map_eq_some_iff.mp hbound
    -- The rules whose gauges are set are those that the pool is given.
    have hfilled : NotifyRule.effective b.platforms p'.rules = q.rules := by
      rw [show q.rules = (b.bindUp name p.setup).rules from congrArg Setup.rules hqx]
      exact congrArg (fun x : Setup => NotifyRule.effective b.platforms x.rules) hpx
    have hfresh := (ControlPlane.BindsTo.bindRecords b.platforms c b.records).freshGauge_eq
    rw [heq, ← Registry.name_of_get? hp', ← hfresh]
    exact gauge?_normalizeAll (Registry.distinct_iff.mp hm) hnormalize
      (Registry.mem_pools_of_get? hp') (hfilled ▸ hrule)

/-- **After a bind every pool can raise alerts.** A bind returns exactly if the throttle bears the
rules that each pool is given. Then every registered pool has rules, and alerts can be raised from
each of them. They keep the number, the order and all that is set of the rules that they were made
of: those of the last valid record for the pool, or its own, or the default ones where these are
empty. And each of their kinds has a fresh gauge.

Whatever has happened since that leaves the setups alone, a further bind to the batch changes no
setup, and nothing at all about a pool that has one valid record at most. It returns if all rules
of valid records fit. -/
theorem bind_alertable (c : ControlPlane) (b : Batch) (hc : c.InService)
    (hdistinct : c.registry.Distinct) :
    ((bind c b).1.2 = none ↔ ∀ p ∈ c.registry.pools,
      c.throttle.Bears b.platforms p.rules (b.rulesOf p.name)) ∧
    ((bind c b).1.2 = none → ∀ name p, c.registry.get? name = some p →
      ∃ q, (bind c b).2.registry.get? name = some q ∧ q.rules ≠ [] ∧
        (∀ rule ∈ q.rules, rule.IsAlertable b.platforms) ∧
        List.Forall₂ NotifyRule.IsKeptBy (NotifyRule.orDefaults (b.source name p.rules)) q.rules ∧
        ∀ rule ∈ q.rules, ∃ last ∈ q.rules, last.kind = rule.kind ∧
          (bind c b).2.throttle.gauge? (name, rule.kind) =
            some (c.throttle.freshGauge c.nowNanos last)) ∧
    ((bind c b).1.2 = none → ∀ d : ControlPlane, d.InService → d.registry.Distinct →
      (∀ name, d.setup? name = (bind c b).2.setup? name) →
      ((bind d b).1.2 = none → ∀ name, (bind d b).2.setup? name = d.setup? name) ∧
      (∀ name p, d.registry.get? name = some p → (b.records.filter (·.isOf name)).length ≤ 1 →
        (bind d b).2.registry.get? name = some p) ∧
      (d.throttle.toPacing = c.throttle.toPacing →
        (∀ p ∈ c.registry.pools, ∀ rules ∈ b.rulesOf p.name,
          ∀ rule ∈ NotifyRule.effective b.platforms rules, c.throttle.Fits rule) →
        (bind d b).1.2 = none)) := by
  refine ⟨fault_bind_eq_none_iff hdistinct, fun h name p hp => ?_,
    fun h d hd hdistinct' hsame => ?_⟩
  · obtain ⟨q, hq, hne, halert, hkept, hgauge⟩ := exists_alertable hc hdistinct h hp
    refine ⟨q, hq, hne, halert, hkept, fun rule hrule => ?_⟩
    cases hlast : NotifyRule.last? q.rules rule.kind with
    | none => exact absurd rfl (NotifyRule.ne_of_last?_eq_none hlast hrule)
    | some last =>
      obtain ⟨hmem, hkind⟩ := NotifyRule.mem_of_last? hlast
      exact ⟨last, hmem, hkind, hgauge _ _ hlast⟩
  · have hbound := (setup?_bind_eq hc hdistinct h).2
    -- A pool that is there now was there before, and the bind has set it up.
    have hbefore : ∀ name q, d.registry.get? name = some q →
        ∃ p, c.registry.get? name = some p ∧ q.setup = b.bindUp name p.setup := by
      intro name q hq
      have hsome : d.setup? name = some q.setup := by rw [ControlPlane.setup?, hq]; rfl
      rw [hsame, hbound, ControlPlane.setup?, Option.map_map] at hsome
      obtain ⟨p, hp, hpq⟩ := Option.map_eq_some_iff.mp hsome
      exact ⟨p, hp, hpq.symm⟩
    refine ⟨fun h' name => ?_, fun name q hq hone => ?_, fun hpacing hfits => ?_⟩
    · rw [(setup?_bind_eq hd hdistinct' h').2 name, hsame, hbound, Option.map_map]
      congr 1
      funext x
      exact b.bindUp_bindUp name x
    · obtain ⟨p, -, hqx⟩ := hbefore name q hq
      exact get?_bind_of_setup_eq hd hdistinct' hq hqx hone
    · rw [fault_bind_eq_none_iff hdistinct']
      intro q hq
      obtain ⟨p, hp, hqx⟩ := hbefore q.name q (hdistinct'.get?_of_mem hq)
      have hmem := Registry.mem_pools_of_get? hp
      have hname := Registry.name_of_get? hp
      have hrules : q.rules = NotifyRule.effective b.platforms (b.source q.name p.rules) :=
        (congrArg Setup.rules hqx).trans (b.rules_bindUp q.name p.setup)
      have hlast := ((fault_bind_eq_none_iff hdistinct).mp h p hmem).fits_last
      rw [hpacing]
      refine Pacing.bears_of_fits _ (fun _ => ?_) (hname ▸ hfits p hmem)
      rw [hrules, NotifyRule.effective_effective, Settings.Batch.source, ← hname]
      exact hlast

/-- The second pool has two rules of one kind and no record. It keeps both rules, filled in, and the
gauge is that of the later one. -/
theorem bind_alertable_mixed :
    ∃ p q q' : Pool, Pool.ofRecord { name := "first", maxSize := 1 } = .ok p ∧
      Pool.ofRecord { name := "other", maxSize := 1, rules :=
        [{ kind := .liveness, threshold := some 90 },
          { kind := .liveness, interval := some 60 }] } = .ok q ∧
      (bind (holdingBoth p q) mixed).1.2 = none ∧
      (bind (holdingBoth p q) mixed).2.registry.get? "other" = some q' ∧ q'.rules.length = 2 ∧
      (∀ rule ∈ q'.rules, rule.IsAlertable mixed.platforms) ∧
      List.Forall₂ NotifyRule.IsKeptBy q.rules q'.rules ∧
      (bind (bind (holdingBoth p q) mixed).2 mixed).1.2 = none ∧
      (bind (bind (holdingBoth p q) mixed).2 mixed).2.registry.get? "other" = some q' := by
  obtain ⟨p, q, q', hp, hq, hpname, hqname, hnone, hget, hgetOther, hsource, hpacing, hlength⟩ :
      ∃ p q q' : Pool, Pool.ofRecord { name := "first", maxSize := 1 } = .ok p ∧
        Pool.ofRecord { name := "other", maxSize := 1, rules :=
          [{ kind := .liveness, threshold := some 90 },
            { kind := .liveness, interval := some 60 }] } = .ok q ∧
        p.name = "first" ∧ q.name = "other" ∧ (bind (holdingBoth p q) mixed).1.2 = none ∧
        (bind (holdingBoth p q) mixed).2.registry.get? "other" = some q' ∧
        (holdingBoth p q).registry.get? "other" = some q ∧
        NotifyRule.orDefaults (mixed.source "other" q.rules) = q.rules ∧
        (bind (holdingBoth p q) mixed).2.throttle.toPacing = (holdingBoth p q).throttle.toPacing ∧
        q'.rules.length = 2 :=
    ⟨_, _, _, rfl, rfl, rfl, rfl, rfl, rfl, rfl, rfl, rfl, rfl⟩
  have hservice : (holdingBoth p q).InService := by
    intro name x hx
    have hmem : x ∈ [p, q] := Registry.mem_pools_of_get? hx
    rcases List.mem_pair.mp hmem with rfl | rfl
    · exact ⟨_, .start {} hp, rfl⟩
    · exact ⟨_, .start {} hq, rfl⟩
  have hdistinct : (holdingBoth p q).registry.Distinct := by
    rw [Registry.distinct_iff]
    simp [holdingBoth, Registry.pools, hpname, hqname]
  obtain ⟨-, hfirst, hagain⟩ := bind_alertable (holdingBoth p q) mixed hservice hdistinct
  obtain ⟨x, hx, -, halert, hkept, -⟩ := hfirst hnone "other" q hgetOther
  obtain rfl : x = q' := Option.some.inj (hx.symm.trans hget)
  obtain ⟨-, hsame, hreturns⟩ := hagain hnone _ (setup?_bind_eq hservice hdistinct hnone).1
    (distinct_bind hdistinct hnone) fun _ => rfl
  have hfits : ∀ rules ∈ mixed.rulesOf "first" ++ mixed.rulesOf "other",
      ∀ rule ∈ NotifyRule.effective mixed.platforms rules, Throttle.single.Fits rule := by
    decide
  refine ⟨p, q, x, hp, hq, hnone, hget, hlength, halert, hsource ▸ hkept,
    hreturns hpacing fun y hy rules hr => ?_, hsame "other" x hget (by decide)⟩
  have hmem : y ∈ [p, q] := hy
  refine hfits rules (List.mem_append.mpr ?_)
  rcases List.mem_pair.mp hmem with rfl | rfl
  · exact Or.inl (hpname ▸ hr)
  · exact Or.inr (hqname ▸ hr)

/-- Nobody has looked at the interval of the pool's own rule before it is given a gauge. The bind
ends there, and the pool is left with a rule that has no threshold and no platform. -/
theorem bind_not_alertable :
    ∃ p q : Pool,
      Pool.ofRecord
        { name := "io", maxSize := 1
          rules := [{ kind := .liveness, interval := some 20000000000 }] } = .ok p ∧
      (bind (Pool.holding p) { platforms := [{ name := "log" }] }).1.2 = some .intervalTooLong ∧
      (bind (Pool.holding p) { platforms := [{ name := "log" }] }).2.registry.get? "io" = some q ∧
      q.rules = [{ kind := .liveness, interval := some 20000000000 }] ∧
      (bind (Pool.holding p) { platforms := [{ name := "log" }] }).2.throttle.gauge?
        ("io", .liveness) = none :=
  ⟨_, _, rfl, rfl, rfl, rfl, rfl⟩

end Binds

end PoolControl
