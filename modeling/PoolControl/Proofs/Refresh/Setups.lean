import PoolControl.Proofs.Refresh.Isolation
import PoolControl.Proofs.Refresh.Repeated
import PoolControl.Proofs.Refresh.Sizes

/-! # What a batch makes of a pool

A refresh from a record gives a pool a setup that can be told from the record and the setup before
(`Record.setUp`, `setup_applyRecord_eq`), and so does a refresh from a batch (`Batch.setUp`,
`setup?_refresh`) and a bind (`setup?_bind`).

Most of what a record sets does not depend on what was there before; the rest is a value that is
kept, or a keep-alive that core workers refuse to lose. So setups that one record makes equal are
made equal by it after any other record as well (`Record.setUp_congr`), and of the records of a
batch that are applied twice the first application does not matter (`Batch.setUp_setUp`). -/

namespace PoolControl

open Settings (Batch NotifyRule Platform Record)

/-! ### The tunables of a record -/

namespace Settings.Record

/-- Whether the record asks for core workers that time out, with no keep-alive. -/
def isDefiant (r : Record) : Bool := r.coreTimeout && r.keepAliveMillis == 0

theorem isDefiant_iff {r : Record} :
    r.isDefiant = true ↔ r.coreTimeout = true ∧ r.keepAliveMillis = 0 := by
  simp [isDefiant]

/-- The tunables that a pool takes from the record, given those that it had. A defiant record takes
the keep-alive from a pool whose core workers do not time out, and changes no other. -/
def tune (r : Record) (s : Snapshot) : Snapshot :=
  { s with
    coreSize := r.coreSize.toInt.toNat
    maxSize := r.maxSize.toInt.toNat
    queueCapacity := if s.queueKind.isResizable then r.queueCapacity.toNat else s.queueCapacity
    keepAlive :=
      if r.isDefiant then if s.coreTimeout then s.keepAlive else .ofMillis 0
      else .ofMillis r.keepAliveMillis.toNat
    policy :=
      match SaturationPolicy.resolve r.policyName with
      | .ok policy => policy.name
      | .error _ => s.policy
    coreTimeout := if r.isDefiant then s.coreTimeout else r.coreTimeout }

end Settings.Record

namespace Tuned

variable {r : Record} (t : Tuned)

theorem snapshot_keepAlive : (t.keepAlive r.keepAliveMillis).pool.snapshot =
    if r.keepAliveMillis = 0 ∧ t.pool.snapshot.coreTimeout = true then t.pool.snapshot
    else { t.pool.snapshot with keepAlive := .ofMillis r.keepAliveMillis.toNat } := by
  have h := handles_keepAlive (r := r) t
  generalize t.keepAlive r.keepAliveMillis = u at h ⊢
  cases h with
  | met hm =>
    have hsame : t.pool.snapshot.keepAlive = .ofMillis r.keepAliveMillis.toNat := hm
    rw [← hsame, ite_self]
  | refused e _ he hp =>
    have hrefused : r.keepAliveMillis = 0 ∧ t.pool.snapshot.coreTimeout = true := by
      by_contra hn
      simp [Tunable.refusal, hn] at he
    rw [hp, if_pos hrefused]
  | taken _ he hp =>
    have htaken : ¬ (r.keepAliveMillis = 0 ∧ t.pool.snapshot.coreTimeout = true) := by
      intro hrefused
      simp [Tunable.refusal, hrefused] at he
    rw [hp, if_neg htaken]
    rfl

theorem snapshot_coreTimeout : (t.coreTimeout r.coreTimeout).pool.snapshot =
    if r.coreTimeout = true ∧ t.pool.snapshot.keepAlive.nanos = 0 then t.pool.snapshot
    else { t.pool.snapshot with coreTimeout := r.coreTimeout } := by
  have h := handles_coreTimeout (r := r) t
  generalize t.coreTimeout r.coreTimeout = u at h ⊢
  cases h with
  | met hm =>
    have hsame : t.pool.snapshot.coreTimeout = r.coreTimeout := hm
    rw [← hsame, ite_self]
  | refused e _ he hp =>
    have hrefused : r.coreTimeout = true ∧ t.pool.snapshot.keepAlive.nanos = 0 := by
      by_contra hn
      simp [Tunable.refusal, hn] at he
    rw [hp, if_pos hrefused]
  | taken _ he hp =>
    have htaken : ¬ (r.coreTimeout = true ∧ t.pool.snapshot.keepAlive.nanos = 0) := by
      intro hrefused
      simp [Tunable.refusal, hrefused] at he
    rw [hp, if_neg htaken]
    rfl

/-- What a record makes of keep-alive and core timeout. -/
theorem snapshot_timing : (t.timing r).pool.snapshot =
    { t.pool.snapshot with
      keepAlive := (r.tune t.pool.snapshot).keepAlive
      coreTimeout := (r.tune t.pool.snapshot).coreTimeout } := by
  unfold Record.tune
  cases hdefiant : r.isDefiant with
  | false =>
    have htakes := t.takes_timing (r := r) fun hcore hmillis => by
      rw [Record.isDefiant_iff.mpr ⟨hcore, hmillis⟩] at hdefiant
      cases hdefiant
    exact htakes.snapshot
  | true =>
    obtain ⟨hcore, hmillis⟩ := Record.isDefiant_iff.mp hdefiant
    have hsecond := snapshot_coreTimeout (r := r) (t.keepAlive r.keepAliveMillis)
    rw [snapshot_keepAlive, hcore] at hsecond
    unfold timing
    simp only [if_pos hcore, if_true, hsecond]
    -- Where core workers time out the keep-alive is refused, and elsewhere the core timeout is.
    cases ht : t.pool.snapshot.coreTimeout with
    | true =>
      simp only [hmillis, and_self, if_true]
      split_ifs
      · rw [← ht]
      · rw [← ht]
    | false => simp [hmillis, Duration.ofMillis]

theorem snapshot_policy (name : String) : (t.policy name).pool.snapshot =
    { t.pool.snapshot with
      policy :=
        match SaturationPolicy.resolve name with
        | .ok policy => policy.name
        | .error _ => t.pool.snapshot.policy } := by
  cases hname : SaturationPolicy.resolve name with
  | ok policy => exact (t.takes_policy hname).snapshot
  | error e =>
    unfold Tuned.policy
    simp only [hname]
    split_ifs <;> rfl

theorem snapshot_queueCapacity (n : Nat) : (t.queueCapacity n).pool.snapshot =
    { t.pool.snapshot with
      queueCapacity :=
        if t.pool.snapshot.queueKind.isResizable then n else t.pool.snapshot.queueCapacity } := by
  by_cases hk : t.pool.queue.kind.isResizable = true
  · have hhand : t.pool.queue.kind ≠ .handOff := by
      intro h
      rw [h] at hk
      cases hk
    have h := (t.takes_queueCapacity (n := n) (Or.inl hk)).snapshot
    rw [if_neg hhand] at h
    rw [h, if_pos (show t.pool.snapshot.queueKind.isResizable = true from hk)]
  · have hnone : t.pool.queue.setCapacity? n = none := if_neg hk
    rw [if_neg (show ¬ t.pool.snapshot.queueKind.isResizable = true from hk)]
    unfold queueCapacity
    simp only [Pool.setQueueCapacity, hnone]
    split_ifs <;> rfl

/-- **A sound pool takes the tunables of a committable record.** -/
theorem snapshot_ofRecord {p : Pool} (hp : p.Sound) (hr : r.isCommittable = true) :
    (ofRecord r p).pool.snapshot = r.tune p.snapshot := by
  simp only [Record.isCommittable, decide_eq_true_eq] at hr
  have hsizes := takes_sizes { pool := p } r.coreSize.toInt.toNat r.maxSize.toInt.toNat
    hp.coreSize_le (by omega) (by omega)
  unfold ofRecord
  simp only [snapshot_queueCapacity, snapshot_policy, snapshot_timing, hsizes.snapshot]
  rfl

end Tuned
/-! ### Rules -/

namespace Settings.NotifyRule

variable (platforms : List Platform) (rule : NotifyRule)

@[simp] theorem kind_mergeDefault : rule.mergeDefault.kind = rule.kind := by
  unfold mergeDefault
  split <;> rfl

@[simp] theorem platforms_mergeDefault : rule.mergeDefault.platforms = rule.platforms := by
  unfold mergeDefault
  split <;> rfl

theorem mergeDefault_fill :
    (rule.fill platforms).mergeDefault = rule.mergeDefault.fill platforms := by
  unfold fill
  rw [platforms_mergeDefault]
  split_ifs
  · unfold mergeDefault
    cases find? defaults rule.kind <;> rfl
  · rfl

theorem mergeDefault_mergeDefault : rule.mergeDefault.mergeDefault = rule.mergeDefault := by
  rw [mergeDefault, kind_mergeDefault]
  unfold mergeDefault
  cases find? defaults rule.kind with
  | none => rfl
  | some d => cases rule.threshold <;> cases rule.interval <;> simp

theorem fill_fill : (rule.fill platforms).fill platforms = rule.fill platforms := by
  by_cases h : rule.platforms.isEmpty = true
  · simp [fill, h]
  · simp [fill, h]

/-- Completed rules have nothing unset that a default rule would set. -/
theorem mergeDefault_of_mem_completed {rules : List NotifyRule} {rule : NotifyRule}
    (h : rule ∈ completed rules) : rule.mergeDefault = rule := by
  unfold completed at h
  split_ifs at h
  · revert rule
    decide
  · obtain ⟨rule, -, rfl⟩ := List.mem_map.mp h
    exact rule.mergeDefault_mergeDefault

theorem completed_ne_nil (rules : List NotifyRule) : completed rules ≠ [] := by
  unfold completed
  split_ifs with h
  · decide
  · simpa [mergeDefaults] using h

/-- **Rules that were filled in** stay as they are when they are filled in once more. -/
theorem effective_effective (rules : List NotifyRule) :
    effective platforms (effective platforms rules) = effective platforms rules := by
  have hne : (effective platforms rules).isEmpty = false := by
    simpa [effective_eq] using completed_ne_nil rules
  have hcompleted : completed (effective platforms rules) = effective platforms rules := by
    rw [completed, hne]
    simp only [Bool.false_eq_true, if_false, mergeDefaults]
    conv_rhs => rw [← List.map_id (effective platforms rules)]
    refine List.map_congr_left fun rule hrule => ?_
    rw [effective_eq] at hrule
    obtain ⟨rule, hmem, rfl⟩ := List.mem_map.mp hrule
    rw [mergeDefault_fill, mergeDefault_of_mem_completed hmem]
    rfl
  rw [effective_eq, hcompleted, effective_eq, List.map_map]
  exact List.map_congr_left fun rule _ => fill_fill platforms rule

end Settings.NotifyRule

/-! ### The setup of a record -/

namespace Settings.Record

variable (platforms : List Platform) (r r' : Record) (x y : Setup)

/-- The setup that a pool takes from the record, given the one that it had. -/
def setUp (platforms : List Platform) (r : Record) (x : Setup) : Setup :=
  { snapshot := r.tune x.snapshot
    waitOnShutdown := r.waitOnShutdown
    awaitSeconds := r.awaitSeconds
    rules := NotifyRule.effective platforms r.rules }

theorem tune_tune (s : Snapshot) : r.tune (r.tune s) = r.tune s := by
  simp only [tune, Snapshot.mk.injEq, true_and]
  refine ⟨?_, ?_, ?_, ?_⟩
  · split_ifs <;> rfl
  · split_ifs <;> rfl
  · cases SaturationPolicy.resolve r.policyName <;> rfl
  · split_ifs <;> rfl

/-- **Tunables that a record makes equal** are made equal by it after another record as well: what
the first one leaves as it was the other one sets, or leaves as it was too. -/
theorem tune_congr {s s' : Snapshot} (h : r.tune s = r.tune s') :
    r.tune (r'.tune s) = r.tune (r'.tune s') := by
  simp only [tune, Snapshot.mk.injEq, true_and] at h ⊢
  obtain ⟨hname, hkind, hcapacity, hkeepAlive, hpolicy, hcore⟩ := h
  refine ⟨hname, hkind, ?_, ?_, ?_, ?_⟩
  · by_cases hresizable : s'.queueKind.isResizable = true
    · simp [hkind, hresizable]
    · simpa [hkind, hresizable] using hcapacity
  · by_cases hdefiant : r.isDefiant = true
    · by_cases hdefiant' : r'.isDefiant = true
      · by_cases ht : s'.coreTimeout = true
        · simp only [hdefiant, if_true, ht] at hkeepAlive hcore
          simpa [hdefiant, hdefiant', hcore, ht] using hkeepAlive
        · simp only [hdefiant, if_true] at hcore
          simp [hdefiant, hdefiant', hcore, ht]
      · simp [hdefiant, hdefiant']
    · simp [hdefiant]
  · cases hresolve : SaturationPolicy.resolve r.policyName with
    | ok policy => rfl
    | error e =>
      simp only [hresolve] at hpolicy ⊢
      rw [hpolicy]
  · by_cases hdefiant : r.isDefiant = true
    · simp only [hdefiant, if_true] at hcore ⊢
      rw [hcore]
    · simp [hdefiant]

theorem setUp_setUp : r.setUp platforms (r.setUp platforms x) = r.setUp platforms x := by
  unfold setUp
  rw [tune_tune]

/-- **Setups that a record makes equal** are made equal by it after another record as well. -/
theorem setUp_congr (h : r.setUp platforms x = r.setUp platforms y) :
    r.setUp platforms (r'.setUp platforms x) = r.setUp platforms (r'.setUp platforms y) := by
  simp only [setUp, Setup.mk.injEq, and_true] at h ⊢
  exact r.tune_congr r' h

end Settings.Record

/-- The setup with its rules filled in. -/
def Setup.fillRules (platforms : List Platform) (x : Setup) : Setup :=
  { x with rules := NotifyRule.effective platforms x.rules }

/-! ### The setup of several records -/

namespace Settings

open Record (setUp)

/-- The setup that a pool takes from the records, one after the other. -/
def setUpAll (platforms : List Platform) (rs : List Record) (x : Setup) : Setup :=
  rs.foldl (fun x r => r.setUp platforms x) x

variable {platforms : List Platform} {r : Record} {rs : List Record} {x y : Setup}

theorem setUpAll_cons :
    setUpAll platforms (r :: rs) x = setUpAll platforms rs (r.setUp platforms x) := rfl

theorem setUpAll_append (rs' : List Record) :
    setUpAll platforms (rs ++ rs') x = setUpAll platforms rs' (setUpAll platforms rs x) :=
  List.foldl_append

theorem setUp_setUpAll_congr (h : r.setUp platforms x = r.setUp platforms y) (rs : List Record) :
    r.setUp platforms (setUpAll platforms rs x) = r.setUp platforms (setUpAll platforms rs y) := by
  induction rs generalizing x y with
  | nil => exact h
  | cons r' rs ih => exact ih (r.setUp_congr platforms r' x y h)

/-- A record that comes again later does not matter the first time. -/
theorem setUpAll_setUp (h : r ∈ rs) :
    setUpAll platforms rs (r.setUp platforms x) = setUpAll platforms rs x := by
  obtain ⟨before, after, rfl⟩ := List.append_of_mem h
  simp only [setUpAll_append, setUpAll_cons]
  rw [setUp_setUpAll_congr (r.setUp_setUp platforms x) before]

/-- **Records that are all applied once more** do not matter the first time. -/
theorem setUpAll_setUpAll (platforms : List Platform) (rs : List Record) (x : Setup) :
    setUpAll platforms rs (setUpAll platforms rs x) = setUpAll platforms rs x := by
  have hsub : ∀ (past : List Record) (x : Setup), past ⊆ rs →
      setUpAll platforms rs (setUpAll platforms past x) = setUpAll platforms rs x := by
    intro past
    induction past with
    | nil => exact fun _ _ => rfl
    | cons r past ih =>
      intro x h
      rw [List.cons_subset] at h
      rw [setUpAll_cons, ih _ h.2, setUpAll_setUp h.1]
  exact hsub rs x (List.Subset.refl rs)

theorem fillRules_setUpAll (h : rs ≠ []) :
    (setUpAll platforms rs x).fillRules platforms = setUpAll platforms rs x := by
  rcases List.eq_nil_or_concat rs with rfl | ⟨before, r, rfl⟩
  · exact absurd rfl h
  · rw [List.concat_eq_append, setUpAll_append]
    generalize setUpAll platforms before x = y
    show (r.setUp platforms y).fillRules platforms = r.setUp platforms y
    unfold Setup.fillRules setUp
    rw [NotifyRule.effective_effective]

theorem setUpAll_filter_cons (test : Record → Bool) :
    setUpAll platforms ((r :: rs).filter test) x =
      setUpAll platforms (rs.filter test) (if test r then r.setUp platforms x else x) := by
  cases h : test r with
  | true => rw [List.filter_cons_of_pos h, setUpAll_cons, if_pos rfl]
  | false => rw [List.filter_cons_of_neg (by simp [h]), if_neg (by simp)]

/-- Whether the record can be applied to a pool of that name. -/
def Record.isOf (name : String) (r : Record) : Bool := decide (r.name = name) && r.isCommittable

/-- Whether a refresh applies the record to a pool of that name. -/
def Record.isFor (name : String) (r : Record) : Bool := r.isOf name && !Text.isBlankText r.name

theorem Record.isFor_eq_isOf {name : String} (hname : Text.isBlankText name = false) (r : Record) :
    r.isFor name = r.isOf name := by
  by_cases h : r.name = name
  · simp [isFor, h, hname]
  · simp [isFor, isOf, h]

/-- The setup that a pool of that name takes from the batch. -/
def Batch.setUp (b : Batch) (name : String) (x : Setup) : Setup :=
  setUpAll b.platforms (b.records.filter (·.isFor name)) x

/-- **A batch that is applied once more changes nothing.** -/
theorem Batch.setUp_setUp (b : Batch) (name : String) (x : Setup) :
    b.setUp name (b.setUp name x) = b.setUp name x := setUpAll_setUpAll ..

/-- **A batch that was bound** changes nothing when it is applied as well. -/
theorem Batch.setUp_fillRules_setUp (b : Batch) (name : String) (x : Setup) :
    b.setUp name ((b.setUp name x).fillRules b.platforms) =
      (b.setUp name x).fillRules b.platforms := by
  unfold Batch.setUp
  by_cases h : b.records.filter (·.isFor name) = []
  · rw [h]
    rfl
  · rw [fillRules_setUpAll h, setUpAll_setUpAll]

/-- The setup that a pool of that name takes from a bind to the batch, which applies records of a
blank name too. -/
def Batch.bindUp (b : Batch) (name : String) (x : Setup) : Setup :=
  (setUpAll b.platforms (b.records.filter (·.isOf name)) x).fillRules b.platforms

theorem Batch.bindUp_eq {name : String} (hname : Text.isBlankText name = false) (b : Batch)
    (x : Setup) : b.bindUp name x = (b.setUp name x).fillRules b.platforms := by
  have hfor : b.records.filter (·.isOf name) = b.records.filter (·.isFor name) :=
    List.filter_congr fun r _ => (r.isFor_eq_isOf hname).symm
  rw [bindUp, hfor]
  rfl

end Settings

/-! ### Control planes -/

namespace ControlPlane

/-- The setup of the registered pool of that name. -/
def setup? (c : ControlPlane) (name : String) : Option Setup :=
  (c.registry.get? name).map Pool.setup

/-- Every registered pool is in a state that the pool of a record can reach. -/
def InService (c : ControlPlane) : Prop :=
  ∀ name p, c.registry.get? name = some p → ∃ s : Pool.InUse, Pool.Reach s ∧ s.pool = p

variable {c d : ControlPlane} {name : String}

theorem InService.sound (h : c.InService) {p : Pool} (hp : c.registry.get? name = some p) :
    p.Sound := by
  obtain ⟨s, hs, rfl⟩ := h name p hp
  exact hs.sound

theorem setup?_eq_none_iff : c.setup? name = none ↔ c.registry.get? name = none :=
  Option.map_eq_none_iff

theorem setup?_of_agreesOn (h : c.AgreesOn name d) : d.setup? name = c.setup? name :=
  congrArg (Option.map Pool.setup) h.pool_eq

theorem InService.of_agreesOn (h : c.InService) (hd : ∀ name, c.AgreesOn name d) :
    d.InService := fun name p hp => h name p ((hd name).pool_eq ▸ hp)

theorem InService.of_retunes (h : c.InService) (hr : c.Retunes d)
    (hnone : ∀ name, c.setup? name = none → d.setup? name = none) : d.InService := by
  intro name q hq
  cases hp : c.registry.get? name with
  | none =>
    have hd := setup?_eq_none_iff.mp (hnone name (setup?_eq_none_iff.mpr hp))
    rw [hd] at hq
    cases hq
  | some p =>
    obtain ⟨s, hs, rfl⟩ := h name p hp
    obtain ⟨q', hq', hretuned⟩ := hr name s.pool hp
    cases hq.symm.trans hq'
    exact ⟨_, hs.retuned hretuned, rfl⟩

end ControlPlane

theorem Pool.inService_holding {r : Record} {p : Pool} (h : Pool.ofRecord r = .ok p) :
    (holding p).InService := by
  intro name q hq
  have hmem : q ∈ [p] := Registry.mem_pools_of_get? hq
  cases List.mem_singleton.mp hmem
  exact ⟨_, .start {} h, rfl⟩

/-- **Applying a record without a fault** gives the pool the setup of the record. -/
theorem setup_applyRecord_eq {platforms : List Platform} {throttle : Throttle} {now : Nat}
    {r : Record} {p : Pool} (hr : r.isCommittable = true) (hp : p.Sound)
    (h : (applyRecord platforms throttle now r p).fault = none) :
    (applyRecord platforms throttle now r p).pool.setup = r.setUp platforms p.setup := by
  rw [setup_applyRecord h, Tuned.snapshot_ofRecord hp hr]
  rfl

section Refreshing

open ControlPlane (setup?_of_agreesOn)
open Settings (setUpAll setUpAll_filter_cons)

variable {platforms : List Platform} {c d : ControlPlane} {r : Record} {name : String}

theorem setup?_of_notFound (hp : c.registry.get? r.name = none) (name : String) :
    c.setup? name =
      (c.setup? name).map fun x => if r.isOf name then r.setUp platforms x else x := by
  by_cases hn : r.name = name
  · subst hn
    simp [ControlPlane.setup?, hp]
  · simp [Record.isOf, hn]

theorem setup?_takeOver (hc : c.InService) {p : Pool} (hr : r.isCommittable = true)
    (hp : c.registry.get? r.name = some p)
    (hf : (applyRecord platforms c.throttle c.nowNanos r p).fault = none) (name : String) :
    (c.takeOver (applyRecord platforms c.throttle c.nowNanos r p)).setup? name =
      (c.setup? name).map fun x => if r.isOf name then r.setUp platforms x else x := by
  unfold ControlPlane.setup? Record.isOf
  by_cases hn : r.name = name
  · subst hn
    rw [get?_takeOver platforms c.throttle c.nowNanos hp, hp]
    simp [setup_applyRecord_eq hr (hc.sound hp) hf, hr]
  · have hagrees : c.AgreesOn name (c.applied platforms r p) :=
      ControlPlane.agreesOn_applied hn hp
    have hother := hagrees.pool_eq
    rw [hother]
    cases c.registry.get? name with
    | none => rfl
    | some q => simp [hn]

/-- **What a refresh from one record makes of the setups.** -/
theorem setup?_refreshRecord (hc : c.InService) {o : Outcome}
    (h : refreshRecord platforms c r = (.ok o, d)) (name : String) :
    d.setup? name = (c.setup? name).map fun x =>
      if r.isOf name then r.setUp platforms x else x := by
  have hcases := refreshes platforms c r
  rw [h] at hcases
  cases hcases with
  | invalid e hr => simp [Record.isOf, hr]
  | notFound hr hp => exact setup?_of_notFound hp name
  | unchanged p applied hr hp ha hf =>
    subst ha
    exact setup?_takeOver hc hr hp hf name
  | changed p applied diff hr hp ha hf =>
    subst ha
    have htaken := setup?_takeOver hc hr hp hf name
    unfold ControlPlane.setup? at htaken ⊢
    rw [registry_notifyChange]
    exact htaken

theorem inService_refreshRecord (hc : c.InService) {o : Outcome}
    (h : refreshRecord platforms c r = (.ok o, d)) : d.InService := by
  have hretunes := retunes_refreshRecord platforms c r
  rw [h] at hretunes
  refine hc.of_retunes hretunes fun name hnone => ?_
  rw [setup?_refreshRecord hc h, hnone]
  rfl

/-- **What a refresh from records makes of the setups.** -/
theorem setup?_refreshRecords (hc : c.InService) {rs : List Record} {s : Summary}
    (h : refreshRecords platforms c rs = (.ok s, d)) : d.InService ∧ ∀ name,
      d.setup? name = (c.setup? name).map (setUpAll platforms (rs.filter (·.isFor name))) := by
  induction rs generalizing c s with
  | nil =>
    cases h
    refine ⟨hc, fun name => ?_⟩
    cases d.setup? name <;> rfl
  | cons r rs ih =>
    cases hb : Text.isBlankText r.name with
    | true =>
      rw [refreshRecords_cons_of_blank hb] at h
      obtain ⟨hd, hsetup⟩ := ih hc h
      refine ⟨hd, fun name => ?_⟩
      rw [hsetup name, List.filter_cons_of_neg (by simp [Record.isFor, hb])]
    | false =>
      obtain ⟨o, m, s', hr, hrest, -⟩ := exists_of_refreshRecords_cons hb h
      have hm : m.InService := inService_refreshRecord hc hr
      obtain ⟨hd, hsetup⟩ := ih (c := m.bump (.refreshed o.label)) hm hrest
      refine ⟨hd, fun name => ?_⟩
      have hstep : (m.bump (.refreshed o.label)).setup? name = _ := setup?_refreshRecord hc hr name
      have hfor : r.isFor name = r.isOf name := by simp [Record.isFor, hb]
      rw [hsetup name, hstep, Option.map_map]
      congr 1
      funext x
      rw [setUpAll_filter_cons, hfor]
      rfl

/-- **What a refresh from a batch makes of the setups.** -/
theorem setup?_refresh (hc : c.InService) {b : Batch} {s : Summary}
    (h : (refresh c b).1 = .ok s) : (refresh c b).2.InService ∧ ∀ name,
      (refresh c b).2.setup? name = (c.setup? name).map (b.setUp name) := by
  obtain ⟨m, hm, -, heq⟩ := exists_refresh_eq c b
  rw [heq] at h ⊢
  obtain ⟨hd, hsetup⟩ := setup?_refreshRecords (hc.of_agreesOn hm) (Prod.ext h rfl)
  refine ⟨hd, fun name => ?_⟩
  rw [hsetup name, setup?_of_agreesOn (hm name)]
  rfl

/-! ### Faults -/

theorem exists_outcome_of_setups {c' d' : ControlPlane} {o' : Outcome}
    (hsame : ∀ name, c'.setup? name = c.setup? name)
    (hpacing : c'.throttle.toPacing = c.throttle.toPacing)
    (h : refreshRecord platforms c' r = (.ok o', d')) :
    ∃ o d, refreshRecord platforms c r = (.ok o, d) := by
  have hcases := refreshes platforms c r
  generalize refreshRecord platforms c r = result at hcases ⊢
  cases hcases with
  | fault p applied fault hr hp ha hf =>
    have hp' : c'.setup? r.name = some p.setup := by
      rw [hsame, ControlPlane.setup?, hp]
      rfl
    obtain ⟨p', hget, hsetup⟩ := Option.map_eq_some_iff.mp hp'
    have hrules : p'.rules = p.rules := congrArg Setup.rules hsetup
    have hnone := fault_eq_none_of_outcome hr hget (congrArg Prod.fst h)
    rw [fault_applyRecord_eq_none_iff, hrules] at hnone
    have hnone' : (applyRecord platforms c.throttle c.nowNanos r p).fault = none := by
      rw [fault_applyRecord_eq_none_iff]
      intro rule hrule
      rw [← hpacing]
      exact hnone rule hrule
    rw [ha, hf] at hnone'
    cases hnone'
  | _ => exact ⟨_, _, rfl⟩

theorem exists_summary_of_refreshRecords {c' d' : ControlPlane} {rs : List Record} {s' : Summary}
    (hc : c.InService) (hc' : c'.InService) (hsame : ∀ name, c'.setup? name = c.setup? name)
    (hpacing : c'.throttle.toPacing = c.throttle.toPacing)
    (h : refreshRecords platforms c' rs = (.ok s', d')) :
    ∃ s, (refreshRecords platforms c rs).1 = .ok s := by
  induction rs generalizing c c' s' with
  | nil => exact ⟨[], rfl⟩
  | cons r rs ih =>
    cases hb : Text.isBlankText r.name with
    | true =>
      rw [refreshRecords_cons_of_blank hb] at h ⊢
      exact ih hc hc' hsame hpacing h
    | false =>
      obtain ⟨o', m', rest', hr', hrest', -⟩ := exists_of_refreshRecords_cons hb h
      obtain ⟨o, m, hr⟩ := exists_outcome_of_setups hsame hpacing hr'
      have hm : m.throttle.toPacing = c.throttle.toPacing := by
        rw [← pacing_refreshRecord platforms c r, hr]
      have hm' : m'.throttle.toPacing = c'.throttle.toPacing := by
        rw [← pacing_refreshRecord platforms c' r, hr']
      have hsame' : ∀ name, m'.setup? name = m.setup? name := by
        intro name
        rw [setup?_refreshRecord hc' hr', setup?_refreshRecord hc hr, hsame]
      have hin : m.InService := inService_refreshRecord hc hr
      have hin' : m'.InService := inService_refreshRecord hc' hr'
      have hbump : (m'.bump (.refreshed o'.label)).InService := hin'
      obtain ⟨s, hs⟩ := ih (c := m.bump (.refreshed o.label)) hin hbump hsame'
        (hm'.trans (hpacing.trans hm.symm)) hrest'
      rw [refreshRecords_cons_of_outcome hb hr, hs]
      exact ⟨_, rfl⟩

/-- **With the same setups and the same pacing**, a batch ends in a fault for both or for
neither. -/
theorem exists_summary_of_setups {c' : ControlPlane} {b : Batch} {s' : Summary}
    (hc : c.InService) (hc' : c'.InService) (hsame : ∀ name, c'.setup? name = c.setup? name)
    (hpacing : c'.throttle.toPacing = c.throttle.toPacing) (h : (refresh c' b).1 = .ok s') :
    ∃ s, (refresh c b).1 = .ok s := by
  obtain ⟨m, hm, hthrottle, heq⟩ := exists_refresh_eq c b
  obtain ⟨m', hm', hthrottle', heq'⟩ := exists_refresh_eq c' b
  rw [heq'] at h
  rw [heq]
  refine exists_summary_of_refreshRecords (hc.of_agreesOn hm) (hc'.of_agreesOn hm')
    (fun name => ?_) ?_ (Prod.ext h rfl)
  · rw [setup?_of_agreesOn (hm name), setup?_of_agreesOn (hm' name)]
    exact hsame name
  · rw [hthrottle, hthrottle']
    exact hpacing

theorem pacing_refreshRecords (rs : List Record) (c : ControlPlane) :
    (refreshRecords platforms c rs).2.throttle.toPacing = c.throttle.toPacing := by
  induction rs generalizing c with
  | nil => rfl
  | cons r rs ih =>
    have hr := pacing_refreshRecord platforms c r
    unfold refreshRecords
    split_ifs
    · exact ih c
    · split
      · next fault d he =>
        rw [he] at hr
        exact hr
      · next outcome d he =>
        rw [he] at hr
        exact (ih _).trans hr

theorem pacing_refresh (c : ControlPlane) (b : Batch) :
    (refresh c b).2.throttle.toPacing = c.throttle.toPacing := by
  obtain ⟨m, -, hthrottle, heq⟩ := exists_refresh_eq c b
  rw [heq, pacing_refreshRecords, hthrottle]

/-! ### Binding -/

theorem setup?_bindRecord (platforms : List Platform) (r : Record) (hc : c.InService)
    (h : (bindRecord platforms c r).1.2 = none) (name : String) :
    (bindRecord platforms c r).2.setup? name =
      (c.setup? name).map fun x => if r.isOf name then r.setUp platforms x else x := by
  unfold bindRecord Pool.checkRecord at *
  cases hp : c.registry.get? r.name with
  | none => exact setup?_of_notFound hp name
  | some p =>
    simp only [hp] at h ⊢
    cases hr : r.isCommittable with
    | false => simp [Record.isOf, hr]
    | true =>
      simp only [hr, if_true] at h ⊢
      exact setup?_takeOver hc hr hp h name

/-- **What a bind to records makes of the setups.** -/
theorem setup?_bindRecords (platforms : List Platform) (rs : List Record) (hc : c.InService)
    (h : (bindRecords platforms c rs).1.2 = none) : (bindRecords platforms c rs).2.InService ∧
      ∀ name, (bindRecords platforms c rs).2.setup? name =
        (c.setup? name).map (setUpAll platforms (rs.filter (·.isOf name))) := by
  induction rs generalizing c with
  | nil =>
    refine ⟨hc, fun name => ?_⟩
    cases hsetup : c.setup? name <;> exact hsetup
  | cons r rs ih =>
    obtain ⟨hr, hrest, heq⟩ := bindRecords_cons_of_none h
    have hstep := setup?_bindRecord platforms r hc hr
    have hcarries := Pool.respected_retuned.carries_bindRecord platforms c r
    have hm : (bindRecord platforms c r).2.InService :=
      hc.of_retunes hcarries fun name hnone => by
        rw [hstep name, hnone]
        rfl
    obtain ⟨hd, hsetup⟩ := ih hm hrest
    rw [heq]
    refine ⟨hd, fun name => ?_⟩
    rw [hsetup name, hstep name, Option.map_map]
    congr 1
    funext x
    rw [setUpAll_filter_cons]
    rfl

/-- **What filling in the rules of one pool makes of the setups.** -/
theorem setup?_normalizeRules (platforms : List Platform) {p : Pool}
    (hp : c.registry.get? p.name = some p)
    (h : (normalizeRules platforms c p).1 = none) (name : String) :
    (normalizeRules platforms c p).2.setup? name =
      (c.setup? name).map fun x => if p.name = name then x.fillRules platforms else x := by
  unfold normalizeRules at h ⊢
  simp only at h
  simp only [h]
  by_cases hn : p.name = name
  · subst hn
    have hget : (c.registry.update (p.setRules (NotifyRule.effective platforms p.rules))).get?
        p.name = some (p.setRules (NotifyRule.effective platforms p.rules)) :=
      Registry.get?_update_self c.registry (p.setRules _) (Registry.contains_of_get? hp)
    simp only [ControlPlane.setup?, ControlPlane.updatePool, Option.isNone_none, if_true, hget, hp]
    rfl
  · have hother := Registry.get?_update_of_ne c.registry
      (p.setRules (NotifyRule.effective platforms p.rules)) hn
    simp only [ControlPlane.setup?, ControlPlane.updatePool, Option.isNone_none, if_true, hother]
    cases c.registry.get? name with
    | none => rfl
    | some q => simp [hn]

/-- **What filling in the rules of the pools makes of the setups.** -/
theorem setup?_normalizeAll {ps : List Pool} (hn : (ps.map (·.name)).Nodup)
    (hget : ∀ p ∈ ps, c.registry.get? p.name = some p)
    (h : (normalizeAll platforms c ps).1 = none) (name : String) :
    (normalizeAll platforms c ps).2.setup? name = (c.setup? name).map fun x =>
      if name ∈ ps.map (·.name) then x.fillRules platforms else x := by
  induction ps generalizing c with
  | nil => cases hsetup : c.setup? name <;> simpa [normalizeAll] using hsetup
  | cons p ps ih =>
    rw [List.map_cons, List.nodup_cons] at hn
    obtain ⟨hp, heq⟩ := normalizeAll_cons_of_none h
    have hstep := setup?_normalizeRules platforms (hget p List.mem_cons_self) hp name
    have hother := get?_normalizeRules_of_mem platforms hn.1 fun q hq =>
      hget q (List.mem_cons_of_mem p hq)
    rw [heq] at h ⊢
    rw [ih hn.2 hother h, hstep, Option.map_map]
    congr 1
    funext x
    by_cases hname : p.name = name
    · subst hname
      simp [hn.1]
    · simp [hname, Ne.symm hname]

/-- **What a bind makes of the setups.** -/
theorem setup?_bind_eq (hc : c.InService) (hdistinct : c.registry.Distinct) {b : Batch}
    (h : (bind c b).1.2 = none) : (bind c b).2.InService ∧ ∀ name,
      (bind c b).2.setup? name = (c.setup? name).map (b.bindUp name) := by
  have hretunes := retunes_bind c b hdistinct
  have hcarries := (Pool.respected_retuned.carries_bindRecords b.platforms b.records c hdistinct).2
  obtain ⟨m, hm, hrecords, hnormalize, heq⟩ := exists_of_bind h
  rw [heq] at hretunes ⊢
  rw [← hm] at hcarries
  obtain ⟨-, hsetup⟩ := setup?_bindRecords b.platforms b.records hc hrecords
  rw [← hm] at hsetup
  have hall := setup?_normalizeAll (Registry.distinct_iff.mp hcarries)
    (fun p hp => hcarries.get?_of_mem hp) hnormalize
  refine ⟨hc.of_retunes hretunes fun name hnone => ?_, fun name => ?_⟩
  · rw [hall name, hsetup name, hnone]
    rfl
  · rw [hall name, hsetup name, Option.map_map]
    cases hx : c.setup? name with
    | none => rfl
    | some x =>
      have hlisted : name ∈ m.registry.pools.map (·.name) := by
        have hsome := hsetup name
        rw [hx] at hsome
        obtain ⟨q, hq, -⟩ := Option.map_eq_some_iff.mp hsome
        exact Registry.name_of_get? hq ▸ List.mem_map_of_mem (Registry.mem_pools_of_get? hq)
      simp [hlisted, Batch.bindUp]

/-- **What a bind makes of the setups** where no pool is registered under a blank name: those of the
batch, with the rules filled in. -/
theorem setup?_bind (hc : c.InService) (hdistinct : c.registry.Distinct)
    (hnamed : ∀ name, Text.isBlankText name = true → c.setup? name = none) {b : Batch}
    (h : (bind c b).1.2 = none) : (bind c b).2.InService ∧ ∀ name, (bind c b).2.setup? name =
      (c.setup? name).map fun x => (b.setUp name x).fillRules b.platforms := by
  obtain ⟨hd, hsetup⟩ := setup?_bind_eq hc hdistinct h
  refine ⟨hd, fun name => ?_⟩
  rw [hsetup name]
  cases hblank : Text.isBlankText name with
  | true =>
    rw [hnamed name hblank]
    rfl
  | false =>
    congr 1
    funext x
    exact b.bindUp_eq hblank x

end Refreshing

end PoolControl
