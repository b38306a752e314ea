import PoolControl.Proofs.Refresh.InForce
import PoolControl.Proofs.Refresh.Setups

/-! # A bind agrees with a refresh

A bind and a refresh work the records of a batch off alike: whatever the gauges are, they leave the
same pools, apply as many records, and end in the same fault (`ControlPlane.SamePools.bindRecords`).
A refresh is done then. A bind fills in the rules of all pools, and that changes none to which a
record was applied (`isFilled_refreshRecords`).

So the two agree on every pool but for the rules of those that no record was applied to
(`bind_agrees`). Filling in their rules is also what can end a bind in a fault where a refresh
returns: no one has looked at the intervals of a pool that was only registered. -/

namespace PoolControl

open Settings (Batch NotifyRule Platform Record)

/-! ### Planes with the same pools -/

namespace ControlPlane

/-- The control planes hold the same pools and pace alerts alike. -/
structure SamePools (c d : ControlPlane) : Prop where
  registry_eq : d.registry = c.registry
  pacing_eq : d.throttle.toPacing = c.throttle.toPacing

/-- The tunables of the registered pool of that name, and how it shuts down. -/
def settings? (c : ControlPlane) (name : String) : Option (Snapshot × Bool × UInt64) :=
  (c.registry.get? name).map fun p => (p.snapshot, p.waitOnShutdown, p.awaitSeconds)

end ControlPlane

theorem Throttle.resetAll_fst_congr {t u : Throttle} (h : u.toPacing = t.toPacing) (now now' : Nat)
    (pool : String) (rules : List NotifyRule) :
    (u.resetAll now' pool rules).1 = (t.resetAll now pool rules).1 := by
  have hiff : (u.resetAll now' pool rules).1 = none ↔ (t.resetAll now pool rules).1 = none := by
    rw [resetAll_fst_eq_none_iff, resetAll_fst_eq_none_iff, h]
  rcases resetAll_fault now pool rules t with ht | ⟨ht, -⟩
  · rw [ht, hiff.mpr ht]
  · rcases resetAll_fault now' pool rules u with hu | ⟨hu, -⟩
    · rw [hiff.mp hu] at ht
      cases ht
    · rw [hu, ht]

section Records

open ControlPlane (SamePools)

variable {platforms : List Platform} {c d : ControlPlane} {r : Record} {rs : List Record} {p : Pool}

/-- **A record is applied alike** where alerts are paced alike. -/
theorem ControlPlane.SamePools.applied (h : c.SamePools d) (platforms : List Platform) (r : Record)
    (p : Pool) :
    (applyRecord platforms d.throttle d.nowNanos r p).fault =
        (applyRecord platforms c.throttle c.nowNanos r p).fault ∧
      (c.applied platforms r p).SamePools (d.applied platforms r p) := by
  have hfault := Throttle.resetAll_fst_congr h.pacing_eq c.nowNanos d.nowNanos p.name
    (renewed platforms r p)
  have hpool : (applyRecord platforms d.throttle d.nowNanos r p).pool =
      (applyRecord platforms c.throttle c.nowNanos r p).pool := by
    rw [applyRecord_eq, applyRecord_eq]
    simp only [hfault]
  refine ⟨?_, ?_, ?_⟩
  · rw [applyRecord_eq, applyRecord_eq]
    exact hfault
  · show d.registry.update _ = c.registry.update _
    rw [h.registry_eq, hpool]
  · rw [pacing_applied, pacing_applied]
    exact h.pacing_eq

theorem bindRecord_of_untouched (platforms : List Platform)
    (h : r.isCommittable = false ∨ c.registry.get? r.name = none) :
    ∃ binding, binding.isApplied = false ∧ bindRecord platforms c r = ((binding, none), c) := by
  unfold bindRecord Pool.checkRecord
  cases hp : c.registry.get? r.name with
  | none => exact ⟨_, rfl, rfl⟩
  | some p =>
    have hr : r.isCommittable = false := h.resolve_right (by simp [hp])
    simp only [hr]
    exact ⟨_, rfl, rfl⟩

theorem bindRecord_of_get? (platforms : List Platform) (hr : r.isCommittable = true)
    (hp : c.registry.get? r.name = some p) :
    ∃ binding, binding.isApplied = true ∧ bindRecord platforms c r =
      ((binding, (applyRecord platforms c.throttle c.nowNanos r p).fault),
        c.applied platforms r p) := by
  unfold bindRecord Pool.checkRecord
  simp only [hp, hr, if_true]
  exact ⟨_, rfl, rfl⟩

/-- How the bind of one record can end. -/
inductive Binds (platforms : List Platform) (c : ControlPlane) (r : Record) :
    (Binding × Option Fault) × ControlPlane → Prop
  | untouched (binding : Binding) (h : r.isCommittable = false ∨ c.registry.get? r.name = none) :
    Binds platforms c r ((binding, none), c)
  | applied (binding : Binding) (p : Pool) (hr : r.isCommittable = true)
      (hp : c.registry.get? r.name = some p) :
    Binds platforms c r ((binding, (applyRecord platforms c.throttle c.nowNanos r p).fault),
      c.applied platforms r p)

/-- **A bind of one record** ends in one of these ways. -/
theorem binds (platforms : List Platform) (c : ControlPlane) (r : Record) :
    Binds platforms c r (bindRecord platforms c r) := by
  by_cases huntouched : r.isCommittable = false ∨ c.registry.get? r.name = none
  · obtain ⟨binding, -, heq⟩ := bindRecord_of_untouched platforms huntouched
    rw [heq]
    exact .untouched binding huntouched
  · rw [not_or, Bool.not_eq_false] at huntouched
    obtain ⟨p, hp⟩ := Option.ne_none_iff_exists'.mp huntouched.2
    obtain ⟨binding, -, heq⟩ := bindRecord_of_get? platforms huntouched.1 hp
    rw [heq]
    exact .applied binding p huntouched.1 hp

/-- How many records a bind applied, or the fault that it ended in. -/
def boundCount : List Binding × Option Fault → Except Fault Nat
  | (bindings, none) => .ok (bindings.countP Binding.isApplied)
  | (_, some fault) => .error fault

/-- How many records of a summary were applied. -/
def Summary.applied (s : Summary) : Nat := s.countP (·.2.isApplied)

/-- **A bind to one record and a refresh from it** leave the same pools, and both apply it, both
pass it over, or both end in the same fault. -/
theorem ControlPlane.SamePools.bindRecord (h : c.SamePools d) (platforms : List Platform)
    (r : Record) :
    (PoolControl.bindRecord platforms c r).2.SamePools (refreshRecord platforms d r).2 ∧
      match (refreshRecord platforms d r).1 with
      | .ok o => ∃ binding, (PoolControl.bindRecord platforms c r).1 = (binding, none) ∧
          binding.isApplied = o.isApplied
      | .error fault => ∃ binding, (PoolControl.bindRecord platforms c r).1 =
          (binding, some fault) := by
  have hcases := refreshes platforms d r
  have hpacing := pacing_refreshRecord platforms d r
  generalize refreshRecord platforms d r = result at hcases hpacing ⊢
  cases hcases with
  | invalid e hr =>
    obtain ⟨binding, hb, heq⟩ := bindRecord_of_untouched (c := c) platforms (Or.inl hr)
    rw [heq]
    exact ⟨h, binding, rfl, hb⟩
  | notFound hr hp =>
    rw [h.registry_eq] at hp
    obtain ⟨binding, hb, heq⟩ := bindRecord_of_untouched platforms (Or.inr hp)
    rw [heq]
    exact ⟨h, binding, rfl, hb⟩
  | fault p applied fault hr hp ha hf =>
    rw [h.registry_eq] at hp
    obtain ⟨hfault, hsame⟩ := h.applied platforms r p
    obtain ⟨binding, -, heq⟩ := bindRecord_of_get? platforms hr hp
    rw [← hfault, ha, hf] at heq
    rw [heq]
    exact ⟨ha ▸ hsame, binding, rfl⟩
  | unchanged p applied hr hp ha hf hd =>
    rw [h.registry_eq] at hp
    obtain ⟨hfault, hsame⟩ := h.applied platforms r p
    obtain ⟨binding, hb, heq⟩ := bindRecord_of_get? platforms hr hp
    rw [← hfault, ha, hf] at heq
    rw [heq]
    exact ⟨ha ▸ hsame, binding, rfl, hb⟩
  | changed p applied diff hr hp ha hf hd hne =>
    rw [h.registry_eq] at hp
    obtain ⟨hfault, hsame⟩ := h.applied platforms r p
    obtain ⟨binding, hb, heq⟩ := bindRecord_of_get? platforms hr hp
    rw [← hfault, ha, hf] at heq
    rw [heq]
    -- What the refresh asks and posts leaves the registry alone.
    have hregistry := hsame.registry_eq
    rw [ControlPlane.applied, ha] at hregistry
    refine ⟨⟨?_, ?_⟩, binding, rfl, hb⟩
    · rw [registry_notifyChange]
      exact hregistry
    · rw [hpacing, h.pacing_eq, ControlPlane.pacing_applied]

theorem bindRecords_cons_of_binding {binding : Binding}
    (h : bindRecord platforms c r = ((binding, none), d)) :
    bindRecords platforms c (r :: rs) =
      ((binding :: (bindRecords platforms d rs).1.1, (bindRecords platforms d rs).1.2),
        (bindRecords platforms d rs).2) := by
  rw [bindRecords, h]

theorem bindRecords_cons_of_fault {binding : Binding} {fault : Fault}
    (h : bindRecord platforms c r = ((binding, some fault), d)) :
    bindRecords platforms c (r :: rs) = (([binding], some fault), d) := by
  rw [bindRecords, h]

theorem boundCount_cons (binding : Binding) (rest : List Binding × Option Fault) :
    boundCount (binding :: rest.1, rest.2) =
      (boundCount rest).map (· + if binding.isApplied then 1 else 0) := by
  obtain ⟨bindings, fault | _⟩ := rest
  · simp [boundCount, List.countP_cons, Except.map]
  · rfl

/-- **A bind to records and a refresh from them** leave the same pools, and apply as many of them or
end in the same fault. -/
theorem ControlPlane.SamePools.bindRecords (h : c.SamePools d)
    (hnamed : ∀ name, Text.isBlankText name = true → c.registry.get? name = none)
    (platforms : List Platform) (rs : List Record) :
    (PoolControl.bindRecords platforms c rs).2.SamePools (refreshRecords platforms d rs).2 ∧
      boundCount (PoolControl.bindRecords platforms c rs).1 =
        (refreshRecords platforms d rs).1.map Summary.applied := by
  induction rs generalizing c d with
  | nil => exact ⟨h, rfl⟩
  | cons r rs ih =>
    cases hblank : Text.isBlankText r.name with
    | true =>
      obtain ⟨binding, hb, heq⟩ :=
        bindRecord_of_untouched platforms (Or.inr (hnamed r.name hblank))
      obtain ⟨hsame, hcount⟩ := ih h hnamed
      rw [refreshRecords_cons_of_blank hblank, bindRecords_cons_of_binding heq]
      refine ⟨hsame, ?_⟩
      rw [boundCount_cons, hcount, hb]
      cases (refreshRecords platforms d rs).1 <;> rfl
    | false =>
      obtain ⟨hsame, hresult⟩ := h.bindRecord platforms r
      rcases hr : refreshRecord platforms d r with ⟨fault | o, d'⟩
      · rw [hr] at hsame hresult
        obtain ⟨binding, heq⟩ := hresult
        rw [refreshRecords_cons_of_fault hblank hr, bindRecords_cons_of_fault (Prod.ext heq rfl)]
        exact ⟨hsame, rfl⟩
      · rw [hr] at hsame hresult
        obtain ⟨binding, heq, hb⟩ := hresult
        -- No pool of a blank name has turned up.
        have hnamed' : ∀ name, Text.isBlankText name = true →
            (PoolControl.bindRecord platforms c r).2.registry.get? name = none := by
          intro name hname
          have hne : r.name ≠ name := by
            rintro rfl
            rw [hblank] at hname
            cases hname
          rw [← hsame.registry_eq, (ControlPlane.agreesOn_refreshRecord hne hr).pool_eq,
            h.registry_eq]
          exact hnamed name hname
        have hbump : (PoolControl.bindRecord platforms c r).2.SamePools
            (d'.bump (.refreshed o.label)) := ⟨hsame.registry_eq, hsame.pacing_eq⟩
        obtain ⟨hrest, hcount⟩ := ih hbump hnamed'
        rw [refreshRecords_cons_of_outcome hblank hr,
          bindRecords_cons_of_binding (Prod.ext heq rfl)]
        refine ⟨hrest, ?_⟩
        rw [boundCount_cons, hcount, hb]
        cases (refreshRecords platforms (d'.bump (.refreshed o.label)) rs).1 with
        | error fault => rfl
        | ok s => simp [Except.map, Summary.applied, List.countP_cons]

end Records

/-! ### Filling in the rules -/

/-- The pool with its rules filled in. -/
def Pool.fillRules (platforms : List Platform) (p : Pool) : Pool :=
  p.setRules (NotifyRule.effective platforms p.rules)

section Filling

open ControlPlane (agreesOn_refreshRecord)

variable {platforms : List Platform} {c d : ControlPlane} {p : Pool} {ps : List Pool}
  {name : String}

theorem normalizeRules_eq (platforms : List Platform) (c : ControlPlane) (p : Pool) :
    normalizeRules platforms c p =
      let reset := c.throttle.resetAll c.nowNanos p.name (NotifyRule.effective platforms p.rules)
      (reset.1, if reset.1.isNone then
        { c with registry := c.registry.update (p.fillRules platforms), throttle := reset.2 }
        else { c with throttle := reset.2 }) := rfl

theorem pacing_normalizeRules (platforms : List Platform) (c : ControlPlane) (p : Pool) :
    (normalizeRules platforms c p).2.throttle.toPacing = c.throttle.toPacing := by
  rw [normalizeRules_eq]
  simp only
  split_ifs <;> exact Throttle.pacing_resetAll ..

theorem normalizeAll_fst_eq_none_iff : (normalizeAll platforms c ps).1 = none ↔
    ∀ p ∈ ps, ∀ rule ∈ NotifyRule.effective platforms p.rules, c.throttle.Fits rule := by
  induction ps generalizing c with
  | nil => simp [normalizeAll]
  | cons p ps ih =>
    have hp : (normalizeRules platforms c p).1 = none ↔
        ∀ rule ∈ NotifyRule.effective platforms p.rules, c.throttle.Fits rule :=
      Throttle.resetAll_fst_eq_none_iff ..
    have hpacing := pacing_normalizeRules platforms c p
    rw [List.forall_mem_cons, ← hp, normalizeAll]
    rcases hr : normalizeRules platforms c p with ⟨fault | _, m⟩
    · rw [hr] at hpacing
      replace hpacing : m.throttle.toPacing = c.throttle.toPacing := hpacing
      simp only [ih, hpacing, true_and]
    · simp

theorem get?_normalizeRules (platforms : List Platform) (hp : c.registry.get? p.name = some p) :
    (normalizeRules platforms c p).2.registry.get? p.name = some p ∨
      (normalizeRules platforms c p).2.registry.get? p.name = some (p.fillRules platforms) := by
  rw [normalizeRules_eq]
  simp only
  split_ifs
  · exact Or.inr (Registry.get?_update_self c.registry (p.fillRules platforms)
      (Registry.contains_of_get? hp))
  · exact Or.inl hp

/-- **Filling in the rules of the pools** leaves each as it is, or has filled in its rules. A fault
may come before its turn. -/
theorem get?_normalizeAll (hn : (ps.map (·.name)).Nodup)
    (hget : ∀ p ∈ ps, c.registry.get? p.name = some p) (name : String) :
    (normalizeAll platforms c ps).2.registry.get? name = c.registry.get? name ∨
      (normalizeAll platforms c ps).2.registry.get? name =
        (c.registry.get? name).map (·.fillRules platforms) := by
  induction ps generalizing c with
  | nil => exact Or.inl rfl
  | cons p ps ih =>
    rw [List.map_cons, List.nodup_cons] at hn
    have hp := hget p List.mem_cons_self
    have hself := get?_normalizeRules platforms hp
    have hother := get?_normalizeRules_of_mem platforms hn.1 fun q hq =>
      hget q (List.mem_cons_of_mem p hq)
    rw [normalizeAll]
    by_cases hname : p.name = name
    · subst hname
      rw [hp]
      rcases hr : normalizeRules platforms c p with ⟨fault | _, m⟩
      · rw [hr] at hself
        rw [(agreesOn_normalizeAll platforms hn.1).pool_eq]
        exact hself
      · rw [hr] at hself
        exact hself
    · have hne := get?_normalizeRules_of_ne platforms c p hname
      rcases hr : normalizeRules platforms c p with ⟨fault | _, m⟩
      · rw [hr] at hne hother
        rw [← hne]
        exact ih hn.2 hother
      · rw [hr] at hne
        exact Or.inl hne

/-! ### The pools that records are for -/

/-- The rules of the registered pool of that name are filled in. -/
def ControlPlane.IsFilled (platforms : List Platform) (name : String) (c : ControlPlane) : Prop :=
  ∀ p, c.registry.get? name = some p → p.fillRules platforms = p

theorem fillRules_of_rules_eq {rules : List NotifyRule}
    (h : p.rules = NotifyRule.effective platforms rules) : p.fillRules platforms = p := by
  unfold Pool.fillRules Pool.setRules
  rw [h, NotifyRule.effective_effective, ← h]

theorem keptBy_isFilled (platforms : List Platform) (rs : List Record) (name : String) :
    KeptBy platforms rs (ControlPlane.IsFilled platforms name) where
  asks _ _ hc hasks p hp := hc p (hasks.registry_eq ▸ hp)
  applied c r p _ hp hf hc q hq := by
    by_cases hn : r.name = name
    · subst hn
      exact fillRules_of_rules_eq (ControlPlane.rules_applied hp hf hq)
    · exact hc q ((ControlPlane.agreesOn_applied hn hp).pool_eq ▸ hq)

theorem isFilled_refreshRecord {r : Record} {o : Outcome} (hr : r.isCommittable = true)
    (h : refreshRecord platforms c r = (.ok o, d)) : d.IsFilled platforms r.name := by
  intro q hq
  cases hp : c.registry.get? r.name with
  | none =>
    have hcases := refreshes platforms c r
    rw [h] at hcases
    cases hcases with
    | invalid | notFound =>
      rw [hp] at hq
      cases hq
    | unchanged p _ _ hp' | changed p _ _ _ hp' =>
      rw [hp] at hp'
      cases hp'
  | some p =>
    have hf := fault_eq_none_of_outcome hr hp (congrArg Prod.fst h)
    have hget : (refreshRecord platforms c r).2.registry.get? r.name =
        some (applyRecord platforms c.throttle c.nowNanos r p).pool := get?_refreshRecord hr hp
    rw [h, hq] at hget
    cases hget
    exact fillRules_of_rules_eq (rules_applyRecord platforms _ _ _ _ hf)

/-- **The pools that a record was applied to** have their rules filled in. -/
theorem isFilled_refreshRecords {r : Record} {rs : List Record} {s : Summary} (hr : r ∈ rs)
    (hfor : r.isFor name = true) (h : refreshRecords platforms c rs = (.ok s, d)) :
    d.IsFilled platforms name := by
  simp only [Record.isFor, Record.isOf, Bool.and_eq_true, decide_eq_true_eq,
    Bool.not_eq_true'] at hfor
  obtain ⟨⟨rfl, hcommit⟩, hblank⟩ := hfor
  induction rs generalizing c s with
  | nil => cases hr
  | cons q qs ih =>
    cases hb : Text.isBlankText q.name with
    | true =>
      rw [refreshRecords_cons_of_blank hb] at h
      refine ih ((List.mem_cons.mp hr).resolve_left ?_) h
      rintro rfl
      rw [hblank] at hb
      cases hb
    | false =>
      obtain ⟨o, m, s', hq, hrest, -⟩ := exists_of_refreshRecords_cons hb h
      rcases List.mem_cons.mp hr with rfl | hr
      · have hm : m.IsFilled platforms r.name := isFilled_refreshRecord hcommit hq
        have hbump : (m.bump (.refreshed o.label)).IsFilled platforms r.name := hm
        exact (keptBy_isFilled platforms qs r.name).refreshRecords hbump hrest
      · exact ih hr hrest

theorem Settings.Record.isFor_of_isBlankText (h : Text.isBlankText name = true) (r : Record) :
    r.isFor name = false := by
  by_cases hn : r.name = name
  · simp [isFor, hn, h]
  · simp [isFor, isOf, hn]

theorem get?_refreshRecords_of_forall {rs : List Record} (h : ∀ r ∈ rs, r.isFor name = false) :
    (refreshRecords platforms c rs).2.registry.get? name = c.registry.get? name := by
  induction rs generalizing c with
  | nil => rfl
  | cons r rs ih =>
    rw [List.forall_mem_cons] at h
    cases hb : Text.isBlankText r.name with
    | true =>
      rw [refreshRecords_cons_of_blank hb]
      exact ih h.2
    | false =>
      have hr : (refreshRecord platforms c r).2.registry.get? name = c.registry.get? name := by
        by_cases hn : r.name = name
        · subst hn
          have hinvalid : r.isCommittable = false := by
            simpa [Record.isFor, Record.isOf, hb] using h.1
          simp [refreshRecord, Pool.checkRecord, hinvalid]
        · exact (agreesOn_refreshRecord hn rfl).pool_eq
      rcases he : refreshRecord platforms c r with ⟨fault | o, m⟩
      · rw [refreshRecords_cons_of_fault hb he]
        rw [he] at hr
        exact hr
      · rw [refreshRecords_cons_of_outcome hb he]
        rw [he] at hr
        exact (ih (c := m.bump (.refreshed o.label)) h.2).trans hr

end Filling

/-! ### Binds -/

section Binds

variable {c : ControlPlane} {b : Batch}

theorem exists_samePools_refresh_eq (c : ControlPlane) (b : Batch) :
    ∃ d, c.SamePools d ∧ refresh c b = refreshRecords b.platforms d b.records := by
  unfold refresh
  cases b.records with
  | nil => exact ⟨c, ⟨rfl, rfl⟩, rfl⟩
  | cons r rs => exact ⟨{ c with outbox := c.outbox.sync b.platforms }, ⟨rfl, rfl⟩, rfl⟩

theorem bind_of_fault {fault : Fault} (h : (bindRecords b.platforms c b.records).1.2 = some fault) :
    bind c b = bindRecords b.platforms c b.records := by
  unfold bind
  rcases hb : bindRecords b.platforms c b.records with ⟨⟨bindings, fault' | _⟩, m⟩
  · rw [hb] at h
    cases h
  · rfl

theorem bind_of_none (h : (bindRecords b.platforms c b.records).1.2 = none) :
    bind c b =
      let bound := bindRecords b.platforms c b.records
      let filled := normalizeAll b.platforms bound.2 bound.2.registry.pools
      ((bound.1.1, filled.1), filled.2) := by
  unfold bind
  rcases hb : bindRecords b.platforms c b.records with ⟨⟨bindings, fault | _⟩, m⟩
  · rfl
  · rw [hb] at h
    cases h

theorem boundCount_eq_ok_iff {bound : List Binding × Option Fault} {n : Nat} :
    boundCount bound = .ok n ↔ bound.1.countP Binding.isApplied = n ∧ bound.2 = none := by
  obtain ⟨bindings, _ | fault⟩ := bound <;> simp [boundCount]

theorem boundCount_eq_error_iff {bound : List Binding × Option Fault} {fault : Fault} :
    boundCount bound = .error fault ↔ bound.2 = some fault := by
  obtain ⟨bindings, _ | fault'⟩ := bound <;> simp [boundCount]

/-- **A bind works its records off as a refresh does**, and then fills in the rules of all pools
unless the records ended it. -/
theorem bind_cases (hdistinct : c.registry.Distinct)
    (hnamed : ∀ name, Text.isBlankText name = true → c.registry.get? name = none) (b : Batch) :
    ∃ m, m.SamePools (refresh c b).2 ∧ m.registry.Distinct ∧
      ((∃ fault, (refresh c b).1 = .error fault ∧ (bind c b).1.2 = some fault ∧
          (bind c b).2 = m) ∨
        ∃ s, (refresh c b).1 = .ok s ∧ (bind c b).1.1.countP Binding.isApplied = s.applied ∧
          (bind c b).1.2 = (normalizeAll b.platforms m m.registry.pools).1 ∧
          (bind c b).2 = (normalizeAll b.platforms m m.registry.pools).2) := by
  obtain ⟨d, hd, heq⟩ := exists_samePools_refresh_eq c b
  obtain ⟨hsame, hcount⟩ := hd.bindRecords hnamed b.platforms b.records
  have hm := (Pool.respected_retuned.carries_bindRecords b.platforms b.records c hdistinct).2
  rw [heq]
  refine ⟨_, hsame, hm, ?_⟩
  cases hs : (refreshRecords b.platforms d b.records).1 with
  | error fault =>
    rw [hs] at hcount
    have hfault : (bindRecords b.platforms c b.records).1.2 = some fault :=
      boundCount_eq_error_iff.mp hcount
    rw [bind_of_fault hfault]
    exact Or.inl ⟨fault, rfl, hfault, rfl⟩
  | ok s =>
    rw [hs] at hcount
    obtain ⟨happlied, hnone⟩ := boundCount_eq_ok_iff.mp hcount
    rw [bind_of_none hnone]
    exact Or.inr ⟨s, rfl, happlied, rfl, rfl⟩

/-- A bind leaves each pool as a refresh does, or has filled in its rules as well. -/
theorem get?_bind (hdistinct : c.registry.Distinct)
    (hnamed : ∀ name, Text.isBlankText name = true → c.registry.get? name = none) (b : Batch)
    (name : String) :
    (bind c b).2.registry.get? name = (refresh c b).2.registry.get? name ∨
      (∃ s, (refresh c b).1 = .ok s) ∧ (bind c b).2.registry.get? name =
        ((refresh c b).2.registry.get? name).map (·.fillRules b.platforms) := by
  obtain ⟨m, hsame, hm, ⟨fault, -, -, heq⟩ | ⟨s, hs, -, -, heq⟩⟩ := bind_cases hdistinct hnamed b
  · rw [heq, hsame.registry_eq]
    exact Or.inl rfl
  · rw [heq, hsame.registry_eq]
    exact (get?_normalizeAll (Registry.distinct_iff.mp hm) (fun p hp => hm.get?_of_mem hp)
      name).imp_right fun h => ⟨⟨s, hs⟩, h⟩

theorem settings?_bind (hdistinct : c.registry.Distinct)
    (hnamed : ∀ name, Text.isBlankText name = true → c.registry.get? name = none) (b : Batch)
    (name : String) : (bind c b).2.settings? name = (refresh c b).2.settings? name := by
  unfold ControlPlane.settings?
  rcases get?_bind hdistinct hnamed b name with h | ⟨-, h⟩
  · rw [h]
  · rw [h, Option.map_map]
    rfl

theorem get?_refresh_of_forall {name : String} (h : ∀ r ∈ b.records, r.isFor name = false) :
    (refresh c b).2.registry.get? name = c.registry.get? name := by
  obtain ⟨d, hd, heq⟩ := exists_samePools_refresh_eq c b
  rw [heq, get?_refreshRecords_of_forall h, hd.registry_eq]

/-- The rules of a pool that has a valid record were filled in when it was applied. -/
theorem get?_bind_of_isFor (hdistinct : c.registry.Distinct)
    (hnamed : ∀ name, Text.isBlankText name = true → c.registry.get? name = none) {r : Record}
    {name : String} (hr : r ∈ b.records) (hfor : r.isFor name = true) :
    (bind c b).2.registry.get? name = (refresh c b).2.registry.get? name := by
  rcases get?_bind hdistinct hnamed b name with h | ⟨⟨s, hs⟩, h⟩
  · exact h
  · obtain ⟨d, -, heq⟩ := exists_samePools_refresh_eq c b
    rw [heq] at hs
    have hfilled : (refresh c b).2.IsFilled b.platforms name := by
      rw [heq]
      exact isFilled_refreshRecords hr hfor (Prod.ext hs rfl)
    cases hq : (refresh c b).2.registry.get? name with
    | none => rw [h, hq, Option.map_none]
    | some q => rw [h, hq, Option.map_some, hfilled q hq]

/-- **A bind applies as many records as a refresh**, or ends in a fault: where the records end a
refresh, or where a rule of a pool, filled in, does not fit the throttle. -/
theorem boundCount_bind_eq_ok_iff (hdistinct : c.registry.Distinct)
    (hnamed : ∀ name, Text.isBlankText name = true → c.registry.get? name = none) (n : Nat) :
    boundCount (bind c b).1 = .ok n ↔ ∃ s, (refresh c b).1 = .ok s ∧ s.applied = n ∧
      ∀ p ∈ (refresh c b).2.registry.pools,
        ∀ rule ∈ NotifyRule.effective b.platforms p.rules, c.throttle.Fits rule := by
  obtain ⟨m, hsame, -, ⟨fault, hs, hfault, -⟩ | ⟨s, hs, hcount, hfault, -⟩⟩ :=
    bind_cases hdistinct hnamed b
  · rw [boundCount_eq_ok_iff, hfault, hs]
    simp
  · have hpacing : m.throttle.toPacing = c.throttle.toPacing := by
      rw [← hsame.pacing_eq, pacing_refresh]
    rw [boundCount_eq_ok_iff, hcount, hfault, normalizeAll_fst_eq_none_iff, hs, hsame.registry_eq]
    simp [hpacing]

/-- **A bind agrees with a refresh.** No pool has a blank name. Then a bind leaves every pool with
the tunables and the way to shut down that a refresh leaves it with, and a pool that has a valid
record in the batch altogether like a refresh. A pool without one keeps them under both.

A bind applies as many records as a refresh, provided that the rules of all pools as the refresh
leaves them, filled in, fit the throttle. Otherwise it ends in a fault, after the records were
applied. -/
theorem bind_agrees (c : ControlPlane) (b : Batch) (hdistinct : c.registry.Distinct)
    (hnamed : ∀ name, Text.isBlankText name = true → c.registry.get? name = none) :
    (∀ name, (bind c b).2.settings? name = (refresh c b).2.settings? name) ∧
    (∀ name, (∃ r ∈ b.records, r.isOf name = true) →
      (bind c b).2.registry.get? name = (refresh c b).2.registry.get? name) ∧
    (∀ name, (∀ r ∈ b.records, r.isOf name = false) →
      (bind c b).2.settings? name = c.settings? name ∧
        (refresh c b).2.settings? name = c.settings? name) ∧
    ∀ n, boundCount (bind c b).1 = .ok n ↔ ∃ s, (refresh c b).1 = .ok s ∧ s.applied = n ∧
      ∀ p ∈ (refresh c b).2.registry.pools,
        ∀ rule ∈ NotifyRule.effective b.platforms p.rules, c.throttle.Fits rule := by
  have hsettings := settings?_bind hdistinct hnamed b
  refine ⟨hsettings, ?_, ?_, boundCount_bind_eq_ok_iff hdistinct hnamed⟩
  · rintro name ⟨r, hr, hof⟩
    cases hblank : Text.isBlankText name with
    | true =>
      have hnone : (refresh c b).2.registry.get? name = none := by
        rw [get?_refresh_of_forall fun r _ => r.isFor_of_isBlankText hblank, hnamed name hblank]
      rcases get?_bind hdistinct hnamed b name with h | ⟨-, h⟩
      · exact h
      · rw [h, hnone, Option.map_none]
    | false =>
      exact get?_bind_of_isFor hdistinct hnamed hr ((r.isFor_eq_isOf hblank).trans hof)
  · intro name h
    have hfor : ∀ r ∈ b.records, r.isFor name = false := fun r hr => by simp [Record.isFor, h r hr]
    have hrefresh : (refresh c b).2.settings? name = c.settings? name := by
      unfold ControlPlane.settings?
      rw [get?_refresh_of_forall hfor]
    exact ⟨(hsettings name).trans hrefresh, hrefresh⟩

/-- One of the pools has two records in the batch. The other one has none, and a rule of its own. -/
theorem bind_agrees_mixed :
    ∃ p q p' : Pool, Pool.ofRecord { name := "first", maxSize := 1 } = .ok p ∧
      Pool.ofRecord
        { name := "other", maxSize := 1
          rules := [{ kind := .change, interval := some 60 }] } = .ok q ∧
      (refresh (holdingBoth p q) mixed).2.registry.get? "first" = some p' ∧ p'.coreSize = 3 ∧
      (bind (holdingBoth p q) mixed).2.registry.get? "first" = some p' ∧
      (bind (holdingBoth p q) mixed).2.settings? "other" =
        (holdingBoth p q).settings? "other" ∧
      boundCount (bind (holdingBoth p q) mixed).1 = .ok 2 := by
  obtain ⟨p, q, p', s, hp, hq, hpname, hqname, hs, happlied, hpools, hfirst, hcore, hrules,
      hrules'⟩ :
      ∃ (p q p' : Pool) (s : Summary), Pool.ofRecord { name := "first", maxSize := 1 } = .ok p ∧
        Pool.ofRecord
          { name := "other", maxSize := 1
            rules := [{ kind := .change, interval := some 60 }] } = .ok q ∧
        p.name = "first" ∧ q.name = "other" ∧ (refresh (holdingBoth p q) mixed).1 = .ok s ∧
        s.applied = 2 ∧ (refresh (holdingBoth p q) mixed).2.registry.pools = [p', q] ∧
        (refresh (holdingBoth p q) mixed).2.registry.get? "first" = some p' ∧ p'.coreSize = 3 ∧
        p'.rules = NotifyRule.effective mixed.platforms [] ∧
        q.rules = [{ kind := .change, interval := some 60 }] :=
    ⟨_, _, _, _, rfl, rfl, rfl, rfl, rfl, rfl, rfl, rfl, rfl, rfl, rfl⟩
  have hdistinct : (holdingBoth p q).registry.Distinct := by
    rw [Registry.distinct_iff]
    simp [holdingBoth, Registry.pools, hpname, hqname]
  have hnamed : ∀ name, Text.isBlankText name = true →
      (holdingBoth p q).registry.get? name = none := by
    intro name hblank
    have hfirst : "first" ≠ name := by
      rintro rfl
      revert hblank
      decide
    have hother : "other" ≠ name := by
      rintro rfl
      revert hblank
      decide
    simp [holdingBoth, Registry.get?, Registry.entry?, hpname, hqname, hfirst, hother]
  obtain ⟨-, hsame, hkept, hcount⟩ := bind_agrees (holdingBoth p q) mixed hdistinct hnamed
  refine ⟨p, q, p', hp, hq, hfirst, hcore, ?_, ?_, ?_⟩
  · rw [hsame "first" (by decide)]
    exact hfirst
  · exact (hkept "other" (by decide)).1
  · refine (hcount 2).mpr ⟨s, hs, happlied, ?_⟩
    have hthrottle : (holdingBoth p q).throttle = .single := rfl
    simp only [hpools, List.forall_mem_cons, hrules, hrules', hthrottle]
    exact ⟨by decide, by decide, by simp⟩

/-- A rule of the pool is too long for the throttle. A refresh from a batch without records does not
come to it, and a bind does. -/
theorem bind_disagrees :
    ∃ (p : Pool) (s : Summary),
      Pool.ofRecord
        { name := "io", maxSize := 1
          rules := [{ kind := .change, interval := some 20000000000 }] } = .ok p ∧
      (refresh (Pool.holding p) {}).1 = .ok s ∧ s.applied = 0 ∧
      boundCount (bind (Pool.holding p) {}).1 = .error .intervalTooLong :=
  ⟨_, _, rfl, rfl, rfl, rfl⟩

end Binds
end PoolControl
