import PoolControl.Proofs.Pool.Setting

/-! # Refreshes and binds are sequences of settings

What applying records and setting rules can make of a pool is all that a `refresh` or a `bind` makes
of each registered pool (`Pool.Respected.carries_refresh`, `Pool.Respected.carries_bind`).

So whatever the registry, the throttle and the batch, both leave each registered pool as some
sequence of settings leaves it (`retunes_refresh`, `retunes_bind`). A fact that every setting keeps
is kept by both, and also in every state between two settings of one refresh.

Registered names are distinct (`Registry.Distinct`). A bind relies on it: it puts pools back that it
had listed before. -/

namespace PoolControl

open Settings (Batch NotifyRule Platform Record)

/-! ### Applying a record -/

namespace Tuned

open Pool (Tunes TunesTo)

theorem tunesTo_attempt {t : Tuned} {result : Except Error Pool} (tuning : Tuning)
    (refused : Error → TuningEvent) (h : ∀ q, result = .ok q → Tunes t.pool q) :
    TunesTo t.pool (t.attempt result tuning refused).pool := by
  cases result with
  | ok q => exact .single (h q rfl)
  | error e => exact .refl

variable (t : Tuned)

theorem tunesTo_core (n : Nat) : TunesTo t.pool (t.core n).pool := by
  unfold core
  split_ifs
  · exact .refl
  · exact tunesTo_attempt _ _ fun q hq => ⟨.coreSize n, rfl, hq⟩

theorem tunesTo_max (n : Nat) : TunesTo t.pool (t.max n).pool := by
  unfold max
  split_ifs
  · exact .refl
  · exact tunesTo_attempt _ _ fun q hq => ⟨.maxSize n, rfl, hq⟩

theorem tunesTo_sizes (core max : Nat) : TunesTo t.pool (t.sizes core max).pool := by
  unfold sizes
  split_ifs
  · exact (t.tunesTo_max max).trans ((t.max max).tunesTo_core core)
  · exact (t.tunesTo_core core).trans ((t.core core).tunesTo_max max)

theorem tunesTo_keepAlive (millis : UInt64) : TunesTo t.pool (t.keepAlive millis).pool := by
  unfold keepAlive
  simp only
  split_ifs
  · exact .refl
  · exact tunesTo_attempt _ _ fun q hq => ⟨.keepAlive _, rfl, hq⟩

theorem tunesTo_coreTimeout (allow : Bool) : TunesTo t.pool (t.coreTimeout allow).pool := by
  unfold coreTimeout
  split_ifs
  · exact .refl
  · exact tunesTo_attempt _ _ fun q hq => ⟨.coreTimeout allow, rfl, hq⟩

theorem tunesTo_timing (r : Record) : TunesTo t.pool (t.timing r).pool := by
  unfold timing
  split_ifs
  · exact (t.tunesTo_keepAlive _).trans ((t.keepAlive _).tunesTo_coreTimeout true)
  · exact (t.tunesTo_coreTimeout false).trans ((t.coreTimeout false).tunesTo_keepAlive _)

theorem tunesTo_policy (name : String) : TunesTo t.pool (t.policy name).pool := by
  unfold policy
  split_ifs
  · exact .refl
  · split
    · next policy hr =>
      refine .single ⟨.policy name, rfl, ?_⟩
      simp only [Session.applySetting, hr]
      rfl
    · exact .refl

theorem tunesTo_queueCapacity (n : Nat) : TunesTo t.pool (t.queueCapacity n).pool := by
  unfold queueCapacity
  split_ifs
  · exact .refl
  · exact tunesTo_attempt _ _ fun q hq => ⟨.queueCapacity n, rfl, hq⟩

theorem tunesTo_ofRecord (r : Record) (p : Pool) : TunesTo p (ofRecord r p).pool := by
  unfold ofRecord
  exact (((tunesTo_sizes { pool := p } _ _).trans (tunesTo_timing _ r)).trans
    (tunesTo_policy _ _)).trans (tunesTo_queueCapacity _ _)

end Tuned

/-- **Applying a record is a sequence of settings**, also where a fault ends it. -/
theorem retuned_applyRecord (platforms : List Platform) (throttle : Throttle) (now : Nat)
    (r : Record) (p : Pool) : p.Retuned (applyRecord platforms throttle now r p).pool := by
  have htuned := (Tuned.tunesTo_ofRecord r p).retuned
  have h := (htuned.tail (Pool.sets_setWaitOnShutdown _ r.waitOnShutdown)).tail
    (Pool.sets_setAwait _ r.awaitSeconds)
  unfold applyRecord
  simp only
  split_ifs
  · exact h.tail (Pool.sets_setRules _ _)
  · exact h

/-! ### Registries -/

namespace Registry

variable {r : Registry} {name : String} {p : Pool}

/-- The registered names are distinct. -/
def Distinct (r : Registry) : Prop := (r.entries.map (·.pool.name)).Nodup

instance (r : Registry) : Decidable r.Distinct := by
  unfold Distinct; infer_instance

theorem name_of_get? (h : r.get? name = some p) : p.name = name := by
  obtain ⟨e, he, rfl⟩ := Option.map_eq_some_iff.mp h
  simpa using List.find?_some he

theorem contains_of_get? (h : r.get? name = some p) : r.contains name = true := by
  rw [contains, h]
  rfl

theorem mem_pools_of_get? (h : r.get? name = some p) : p ∈ r.pools := by
  obtain ⟨e, he, rfl⟩ := Option.map_eq_some_iff.mp h
  exact List.mem_map_of_mem (List.mem_of_find?_eq_some he)

theorem names_update (r : Registry) (p : Pool) :
    (r.update p).entries.map (·.pool.name) = r.entries.map (·.pool.name) := by
  simp only [update, List.map_map]
  refine List.map_congr_left fun e _ => ?_
  simp only [Function.comp]
  split_ifs with h
  · exact h.symm
  · rfl

theorem Distinct.update (h : r.Distinct) (p : Pool) : (r.update p).Distinct := by
  unfold Distinct
  rw [names_update]
  exact h

theorem Distinct.get?_of_mem (h : r.Distinct) (hp : p ∈ r.pools) : r.get? p.name = some p := by
  obtain ⟨e, he, rfl⟩ := List.mem_map.mp hp
  obtain ⟨before, after, heq⟩ := List.append_of_mem he
  have hne : ∀ x ∈ before, x.pool.name ≠ e.pool.name := by
    intro x hx hxe
    unfold Distinct at h
    rw [heq, List.map_append, List.map_cons, List.nodup_append] at h
    exact h.2.2 _ (List.mem_map_of_mem hx) _ List.mem_cons_self hxe
  have hfind : before.find? (·.pool.name == e.pool.name) = none := by
    rw [List.find?_eq_none]
    intro x hx
    simpa using hne x hx
  rw [get?, entry?, heq, List.find?_append, hfind]
  simp

theorem Distinct.forall_mem_pools_iff {P : String → Pool → Prop} (h : r.Distinct) :
    (∀ p ∈ r.pools, P p.name p) ↔ ∀ name p, r.get? name = some p → P name p := by
  refine ⟨fun hall name p hp => ?_, fun hall p hp => hall p.name p (h.get?_of_mem hp)⟩
  exact name_of_get? hp ▸ hall p (mem_pools_of_get? hp)

theorem get?_eq_find?_pools (r : Registry) (name : String) :
    r.get? name = r.pools.find? (·.name == name) := by
  rw [get?, entry?, pools, List.find?_map]
  rfl

/-- Where its name is taken, a pool is put in the place of the one that has it, and elsewhere after
all others. -/
theorem pools_register (r : Registry) (p : Pool) : (r.register p).2.pools =
    if r.contains p.name then (r.update p).pools else r.pools ++ [p] := by
  unfold register contains get?
  cases r.entry? p.name with
  | none => simp [pools]
  | some old =>
    simp only [Option.map_some, Option.isSome_some, if_true, pools, update, List.map_map]
    refine List.map_congr_left fun e _ => ?_
    simp only [Function.comp]
    split_ifs <;> rfl

/-- **A pool that was registered** is found under its name, and others are found under theirs. -/
theorem get?_register (r : Registry) (p : Pool) (name : String) :
    (r.register p).2.get? name = if p.name = name then some p else r.get? name := by
  rw [get?_eq_find?_pools, pools_register]
  by_cases hin : r.contains p.name = true
  · rw [if_pos hin, ← get?_eq_find?_pools]
    split_ifs with hn
    · exact hn ▸ get?_update_self r p hin
    · exact get?_update_of_ne r p hn
  · rw [if_neg hin, List.find?_append, ← get?_eq_find?_pools]
    split_ifs with hn
    · subst hn
      have hnone : r.get? p.name = none := by simpa [contains] using hin
      simp [hnone]
    · simp [hn]

theorem distinct_iff : r.Distinct ↔ (r.pools.map (·.name)).Nodup := by
  unfold Distinct pools
  rw [List.map_map]
  rfl

theorem Distinct.register (h : r.Distinct) (p : Pool) : (r.register p).2.Distinct := by
  rw [distinct_iff, pools_register]
  split_ifs with hin
  · exact distinct_iff.mp (h.update p)
  · rw [List.map_append, List.nodup_append]
    refine ⟨distinct_iff.mp h, by simp, ?_⟩
    intro name hname name' hname' heq
    obtain ⟨q, hq, rfl⟩ := List.mem_map.mp hname
    have hp : q.name = p.name := by simpa [heq] using hname'
    refine hin ?_
    rw [contains, ← hp, h.get?_of_mem hq]
    rfl

end Registry

/-! ### Relations between pools -/

/-- A relation between a pool and what becomes of it that allows whatever records and rules it is
given. -/
structure Pool.Respected (R : Pool → Pool → Prop) : Prop where
  refl : ∀ p, R p p
  trans : ∀ p q s, R p q → R q s → R p s
  name_eq : ∀ p q, R p q → q.name = p.name
  applyRecord : ∀ platforms throttle now r p, r.isCommittable = true →
    R p (applyRecord platforms throttle now r p).pool
  setRules : ∀ p rules, R p (p.setRules rules)

theorem Pool.respected_retuned : Respected Retuned where
  refl _ := .refl
  trans _ _ _ h h' := h.trans h'
  name_eq _ _ h := h.name_eq
  applyRecord platforms throttle now r p _ := retuned_applyRecord platforms throttle now r p
  setRules p rules := .single (p.sets_setRules rules)

namespace ControlPlane

/-- Every pool that was registered is still registered, and related to the one that it was. -/
def Carries (R : Pool → Pool → Prop) (c d : ControlPlane) : Prop :=
  ∀ name p, c.registry.get? name = some p → ∃ q, d.registry.get? name = some q ∧ R p q

/-- Every pool that was registered is still registered, retuned. -/
def Retunes (c d : ControlPlane) : Prop :=
  ∀ name p, c.registry.get? name = some p → ∃ q, d.registry.get? name = some q ∧ p.Retuned q

end ControlPlane

theorem isCommittable_of_checkRecord {r : Record} {u : Unit} (h : Pool.checkRecord r = .ok u) :
    r.isCommittable = true := by
  unfold Pool.checkRecord at h
  split_ifs at h with hr
  exact hr

theorem registry_notifyChange (c : ControlPlane) (p : Pool) (diff : Diff) (previous : Snapshot)
    (platforms : List Platform) :
    (notifyChange c p diff previous platforms).2.registry = c.registry := by
  unfold notifyChange
  split
  · rfl
  · split_ifs
    · rfl
    · simp only
      split_ifs <;> rfl

theorem distinct_bindRecord (platforms : List Platform) {c : ControlPlane} (r : Record)
    (h : c.registry.Distinct) : (bindRecord platforms c r).2.registry.Distinct := by
  unfold bindRecord
  split
  · exact h
  · split
    · exact h
    · exact h.update _

theorem get?_normalizeRules_of_ne (platforms : List Platform) (c : ControlPlane) (p : Pool)
    {name : String} (h : p.name ≠ name) :
    (normalizeRules platforms c p).2.registry.get? name = c.registry.get? name := by
  unfold normalizeRules
  simp only
  split_ifs
  · exact Registry.get?_update_of_ne _ (p.setRules _) h
  · rfl

theorem get?_normalizeRules_of_mem (platforms : List Platform) {c : ControlPlane} {p : Pool}
    {ps : List Pool} (hn : p.name ∉ ps.map (·.name))
    (hget : ∀ q ∈ ps, c.registry.get? q.name = some q) :
    ∀ q ∈ ps, (normalizeRules platforms c p).2.registry.get? q.name = some q := by
  intro q hq
  have hne : p.name ≠ q.name := fun heq => hn (heq ▸ List.mem_map_of_mem hq)
  rw [get?_normalizeRules_of_ne platforms c p hne]
  exact hget q hq

namespace Pool.Respected

open ControlPlane (Carries)

variable {R : Pool → Pool → Prop} (hR : Respected R) {c d e : ControlPlane}
include hR

theorem carries_refl (c : ControlPlane) : c.Carries R c := fun _ p hp => ⟨p, hp, hR.refl p⟩

theorem carries_of_registry_eq (h : d.registry = c.registry) : c.Carries R d :=
  fun _ p hp => ⟨p, by rw [h]; exact hp, hR.refl p⟩

theorem carries_trans (h : c.Carries R d) (h' : d.Carries R e) : c.Carries R e := by
  intro name p hp
  obtain ⟨q, hq, hpq⟩ := h name p hp
  obtain ⟨s, hs, hqs⟩ := h' name q hq
  exact ⟨s, hs, hR.trans p q s hpq hqs⟩

theorem carries_updatePool {p q : Pool} (hp : c.registry.get? p.name = some p) (hpq : R p q) :
    c.Carries R (c.updatePool q) := by
  have hname := hR.name_eq p q hpq
  intro name p' hp'
  by_cases hn : q.name = name
  · subst hn
    rw [hname, hp] at hp'
    cases hp'
    refine ⟨q, Registry.get?_update_self _ q ?_, hpq⟩
    simp [Registry.contains, hname, hp]
  · refine ⟨p', ?_, hR.refl p'⟩
    rw [← hp']
    exact Registry.get?_update_of_ne _ q hn

theorem carries_updatePool_applyRecord (platforms : List Platform) {r : Record} {p : Pool}
    (hr : r.isCommittable = true) (hp : c.registry.get? r.name = some p) :
    c.Carries R
      (c.updatePool (PoolControl.applyRecord platforms c.throttle c.nowNanos r p).pool) := by
  refine hR.carries_updatePool ?_ (hR.applyRecord platforms c.throttle c.nowNanos r p hr)
  rw [Registry.name_of_get? hp]
  exact hp

/-! ### Refreshing -/

theorem carries_refreshRecord (platforms : List Platform) (c : ControlPlane) (r : Record) :
    c.Carries R (refreshRecord platforms c r).2 := by
  unfold refreshRecord
  split
  · exact hR.carries_refl c
  · next hr =>
    split
    · exact hR.carries_refl c
    · next p hp =>
      have hup :=
        hR.carries_updatePool_applyRecord platforms (isCommittable_of_checkRecord hr) hp
      simp only
      split
      · exact hR.carries_trans hup (hR.carries_of_registry_eq rfl)
      · split
        · exact hR.carries_trans hup (hR.carries_of_registry_eq rfl)
        · exact hR.carries_trans hup (hR.carries_of_registry_eq (registry_notifyChange ..))

theorem carries_refreshRecords (platforms : List Platform) (rs : List Record) (c : ControlPlane) :
    c.Carries R (refreshRecords platforms c rs).2 := by
  induction rs generalizing c with
  | nil => exact hR.carries_refl c
  | cons r rs ih =>
    unfold refreshRecords
    split_ifs
    · exact ih c
    · have hr := hR.carries_refreshRecord platforms c r
      split
      · next fault d he => rw [he] at hr; exact hr
      · next outcome d he =>
        rw [he] at hr
        have hb : d.Carries R (d.bump (.refreshed outcome.label)) := hR.carries_of_registry_eq rfl
        exact hR.carries_trans (hR.carries_trans hr hb) (ih _)

/-- **A refresh carries every relation** that applying records respects. -/
theorem carries_refresh (c : ControlPlane) (b : Batch) : c.Carries R (refresh c b).2 := by
  unfold refresh
  split_ifs
  · exact hR.carries_refl c
  · have hs : c.Carries R { c with outbox := c.outbox.sync b.platforms } :=
      hR.carries_of_registry_eq rfl
    exact hR.carries_trans hs (hR.carries_refreshRecords b.platforms b.records _)

/-! ### Binding -/

theorem carries_bindRecord (platforms : List Platform) (c : ControlPlane) (r : Record) :
    c.Carries R (bindRecord platforms c r).2 := by
  unfold bindRecord
  split
  · exact hR.carries_refl c
  · next p hp =>
    split
    · exact hR.carries_refl c
    · next hr =>
      have hup :=
        hR.carries_updatePool_applyRecord platforms (isCommittable_of_checkRecord hr) hp
      exact hR.carries_trans hup (hR.carries_of_registry_eq rfl)

theorem carries_bindRecords (platforms : List Platform) (rs : List Record) (c : ControlPlane)
    (h : c.registry.Distinct) : c.Carries R (bindRecords platforms c rs).2 ∧
      (bindRecords platforms c rs).2.registry.Distinct := by
  induction rs generalizing c with
  | nil => exact ⟨hR.carries_refl c, h⟩
  | cons r rs ih =>
    unfold bindRecords
    have hr := hR.carries_bindRecord platforms c r
    have hd := distinct_bindRecord platforms r h
    split
    · next binding fault d he =>
      rw [he] at hr hd
      exact ⟨hr, hd⟩
    · next binding d he =>
      rw [he] at hr hd
      obtain ⟨hrs, hds⟩ := ih d hd
      exact ⟨hR.carries_trans hr hrs, hds⟩

theorem carries_normalizeRules (platforms : List Platform) {p : Pool}
    (hp : c.registry.get? p.name = some p) : c.Carries R (normalizeRules platforms c p).2 := by
  unfold normalizeRules
  simp only
  split_ifs
  · have hup : c.Carries R (c.updatePool (p.setRules (NotifyRule.effective platforms p.rules))) :=
      hR.carries_updatePool hp (hR.setRules p _)
    exact hR.carries_trans hup (hR.carries_of_registry_eq rfl)
  · exact hR.carries_of_registry_eq rfl

/-- The pools of the list are put back as they were, up to their rules, because none of them was put
back before: their names are distinct. -/
theorem carries_normalizeAll (platforms : List Platform) (ps : List Pool) (c : ControlPlane)
    (hn : (ps.map (·.name)).Nodup) (hget : ∀ p ∈ ps, c.registry.get? p.name = some p) :
    c.Carries R (normalizeAll platforms c ps).2 := by
  induction ps generalizing c with
  | nil => exact hR.carries_refl c
  | cons p ps ih =>
    unfold normalizeAll
    have hp := hR.carries_normalizeRules platforms (hget p List.mem_cons_self)
    split
    · next fault d he =>
      rw [he] at hp
      exact hp
    · next d he =>
      rw [List.map_cons, List.nodup_cons] at hn
      have hother := get?_normalizeRules_of_mem platforms hn.1 fun q hq =>
        hget q (List.mem_cons_of_mem p hq)
      rw [he] at hp hother
      exact hR.carries_trans hp (ih d hn.2 hother)

/-- **A bind carries every relation** that applying records and filling in rules respect. -/
theorem carries_bind (c : ControlPlane) (b : Batch) (h : c.registry.Distinct) :
    c.Carries R (bind c b).2 := by
  obtain ⟨hr, hd⟩ := hR.carries_bindRecords b.platforms b.records c h
  unfold bind
  split
  · next bindings fault d he =>
    rw [he] at hr
    exact hr
  · next bindings d he =>
    rw [he] at hr hd
    refine hR.carries_trans hr (hR.carries_normalizeAll b.platforms d.registry.pools d ?_
      fun p hp => hd.get?_of_mem hp)
    rw [Registry.pools, List.map_map]
    exact hd

end Pool.Respected

/-! ### Retuning -/

theorem retunes_refreshRecord (platforms : List Platform) (c : ControlPlane) (r : Record) :
    c.Retunes (refreshRecord platforms c r).2 :=
  Pool.respected_retuned.carries_refreshRecord platforms c r

/-- **A refresh retunes every registered pool**, and takes none away. -/
theorem retunes_refresh (c : ControlPlane) (b : Batch) : c.Retunes (refresh c b).2 :=
  Pool.respected_retuned.carries_refresh c b

/-- **A bind retunes every registered pool**, and takes none away. -/
theorem retunes_bind (c : ControlPlane) (b : Batch) (h : c.registry.Distinct) :
    c.Retunes (bind c b).2 :=
  Pool.respected_retuned.carries_bind c b h

end PoolControl
