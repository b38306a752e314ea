import PoolControl.Proofs.Refresh.Gauges

/-! # What a refresh depends on and what it leaves alone

Two control planes agree on a name if they hold the same pool of that name and the same gauges for
it, at the same moment. A refresh of a record of another name leaves a control plane that agrees on
the name with the one before (`ControlPlane.agreesOn_refreshRecord`), and refreshes of a record of
the name make agreeing control planes agree again and report the same, but for what the outbox has
room for (`ControlPlane.AgreesOn.refreshRecord`). -/

namespace PoolControl

open Settings (NoticeKind NotifyRule Platform Record)

/-! ### Gauges -/

namespace Throttle

/-- The throttles pace alerts alike, and have the same gauges for the pool. -/
structure AgreesOn (pool : String) (t u : Throttle) : Prop where
  pacing_eq : u.toPacing = t.toPacing
  gauge_eq : ∀ kind, u.gauge? (pool, kind) = t.gauge? (pool, kind)

variable {pool other : String} {t u v : Throttle}

theorem AgreesOn.refl (pool : String) (t : Throttle) : AgreesOn pool t t := ⟨rfl, fun _ => rfl⟩

theorem AgreesOn.symm (h : AgreesOn pool t u) : AgreesOn pool u t :=
  ⟨h.pacing_eq.symm, fun kind => (h.gauge_eq kind).symm⟩

theorem AgreesOn.trans (h : AgreesOn pool t u) (h' : AgreesOn pool u v) : AgreesOn pool t v :=
  ⟨h'.pacing_eq.trans h.pacing_eq, fun kind => (h'.gauge_eq kind).trans (h.gauge_eq kind)⟩

theorem agreesOn_setGauge (h : other ≠ pool) (t : Throttle) (kind : NoticeKind) (g : Gauge) :
    AgreesOn pool t (t.setGauge (other, kind) g) :=
  ⟨toPacing_setGauge .., fun _ => gauge?_setGauge_of_ne _ _ fun hkey => h (congrArg Prod.fst hkey)⟩

theorem AgreesOn.setGauge (h : AgreesOn pool t u) (kind : NoticeKind) (g : Gauge) :
    AgreesOn pool (t.setGauge (pool, kind) g) (u.setGauge (pool, kind) g) := by
  refine ⟨?_, fun kind' => ?_⟩
  · rw [toPacing_setGauge, toPacing_setGauge]
    exact h.pacing_eq
  · by_cases hk : kind = kind'
    · rw [← hk, gauge?_setGauge_self, gauge?_setGauge_self]
    · have hne : (pool, kind) ≠ (pool, kind') := fun hkey => hk (congrArg Prod.snd hkey)
      rw [gauge?_setGauge_of_ne _ _ hne, gauge?_setGauge_of_ne _ _ hne]
      exact h.gauge_eq kind'

theorem agreesOn_ask (h : other ≠ pool) (t : Throttle) (kind : NoticeKind) (now : Nat) :
    AgreesOn pool t (t.ask (other, kind) now).2 := agreesOn_setGauge h t kind _

theorem AgreesOn.ask (h : AgreesOn pool t u) (kind : NoticeKind) (now : Nat) :
    (u.ask (pool, kind) now).1 = (t.ask (pool, kind) now).1 ∧
      AgreesOn pool (t.ask (pool, kind) now).2 (u.ask (pool, kind) now).2 := by
  unfold Throttle.ask gaugeAt
  rw [h.gauge_eq kind, h.pacing_eq]
  exact ⟨rfl, h.setGauge kind _⟩

theorem agreesOn_resetAll (h : other ≠ pool) (now : Nat) (t : Throttle) (rules : List NotifyRule) :
    AgreesOn pool t (t.resetAll now other rules).2 :=
  ⟨pacing_resetAll .., fun _ => gauge?_resetAll_of_ne h now t rules⟩

theorem AgreesOn.resetAll (now : Nat) (rules : List NotifyRule) (h : AgreesOn pool t u) :
    (u.resetAll now pool rules).1 = (t.resetAll now pool rules).1 ∧
      AgreesOn pool (t.resetAll now pool rules).2 (u.resetAll now pool rules).2 := by
  induction rules generalizing t u with
  | nil => exact ⟨rfl, h⟩
  | cons rule rules ih =>
    by_cases hfits : t.Fits rule
    · rw [resetAll_cons_of_fits hfits, resetAll_cons_of_fits (by rwa [h.pacing_eq]), h.pacing_eq]
      exact ih (h.setGauge rule.kind _)
    · rw [resetAll_cons_of_not_fits hfits, resetAll_cons_of_not_fits (by rwa [h.pacing_eq])]
      exact ⟨rfl, h⟩

end Throttle

theorem exists_applyRecord_eq (platforms : List Platform) {t u : Throttle} (now : Nat) (r : Record)
    {p : Pool} (h : t.AgreesOn p.name u) :
    ∃ v, applyRecord platforms u now r p = { applyRecord platforms t now r p with throttle := v } ∧
      (applyRecord platforms t now r p).throttle.AgreesOn p.name v := by
  obtain ⟨hfault, hagree⟩ := h.resetAll now (renewed platforms r p)
  refine ⟨(u.resetAll now p.name (renewed platforms r p)).2, ?_, ?_⟩
  · rw [applyRecord_eq, applyRecord_eq, hfault]
  · rw [applyRecord_eq]
    exact hagree

/-! ### Outcomes -/

/-- The outcome as it is where the outbox has room for every notice. -/
def Outcome.regardless : Outcome → Outcome
  | changed diff .dropped skipped => changed diff .scheduled skipped
  | o => o

/-! ### Control planes -/

namespace ControlPlane

/-- The control planes hold the same pool of the name with the same gauges, at the same moment. -/
structure AgreesOn (name : String) (c d : ControlPlane) : Prop where
  throttle : c.throttle.AgreesOn name d.throttle
  nowNanos_eq : d.nowNanos = c.nowNanos
  pool_eq : d.registry.get? name = c.registry.get? name

variable {name : String} {c d e : ControlPlane}

theorem AgreesOn.refl (name : String) (c : ControlPlane) : AgreesOn name c c :=
  ⟨.refl _ _, rfl, rfl⟩

theorem AgreesOn.symm (h : AgreesOn name c d) : AgreesOn name d c :=
  ⟨h.throttle.symm, h.nowNanos_eq.symm, h.pool_eq.symm⟩

theorem AgreesOn.trans (h : AgreesOn name c d) (h' : AgreesOn name d e) : AgreesOn name c e :=
  ⟨h.throttle.trans h'.throttle, h'.nowNanos_eq.trans h.nowNanos_eq, h'.pool_eq.trans h.pool_eq⟩

theorem AgreesOn.of_eq (hr : d.registry = c.registry) (ht : d.throttle = c.throttle)
    (hc : d.clock = c.clock) : AgreesOn name c d := by
  refine ⟨?_, ?_, ?_⟩
  · rw [ht]
    exact .refl _ _
  · unfold nowNanos
    rw [hc]
  · rw [hr]

theorem agreesOn_post (c : ControlPlane) (n : Notice) : AgreesOn name c (c.post n).2 :=
  .of_eq rfl rfl rfl

/-! ### Records of other names -/

theorem agreesOn_applied {platforms : List Platform} {r : Record} {p : Pool} (hne : r.name ≠ name)
    (hp : c.registry.get? r.name = some p) : AgreesOn name c (c.applied platforms r p) := by
  have hpname := Registry.name_of_get? hp
  refine ⟨?_, rfl, ?_⟩
  · rw [throttle_applied]
    exact Throttle.agreesOn_resetAll (by rwa [hpname]) _ _ _
  · exact Registry.get?_update_of_ne _ _ (by rwa [name_applyRecord platforms _ _ hp])

theorem exists_notifyChange_eq (c : ControlPlane) {p : Pool} (diff : Diff) (previous : Snapshot)
    {platforms : List Platform} {rule : NotifyRule} (hp : platforms.isEmpty = false)
    (hrule : (NotifyRule.find? p.rules .change).filter (·.enabled) = some rule) :
    ∃ n, notifyChange c p diff previous platforms =
      if (c.ask (p.name, .change)).1 then
        (if ((c.ask (p.name, .change)).2.post n).1 then .scheduled else .dropped,
          ((c.ask (p.name, .change)).2.post n).2)
      else (.rateLimited, (c.ask (p.name, .change)).2) := by
  unfold notifyChange
  simp only [hrule, hp]
  exact ⟨_, rfl⟩

theorem agreesOn_notifyChange (c : ControlPlane) {p : Pool} (hne : p.name ≠ name) (diff : Diff)
    (previous : Snapshot) (platforms : List Platform) :
    AgreesOn name c (notifyChange c p diff previous platforms).2 := by
  cases hrule : (NotifyRule.find? p.rules .change).filter (·.enabled) with
  | none =>
    unfold notifyChange
    rw [hrule]
    exact .refl name c
  | some rule =>
    cases hp : platforms.isEmpty with
    | true =>
      unfold notifyChange
      simp only [hrule, hp]
      exact .refl name c
    | false =>
      obtain ⟨n, heq⟩ := exists_notifyChange_eq c diff previous hp hrule
      have hask : AgreesOn name c (c.ask (p.name, .change)).2 :=
        ⟨Throttle.agreesOn_ask hne c.throttle .change c.nowNanos, rfl, rfl⟩
      rw [heq]
      cases (c.ask (p.name, .change)).1 with
      | true => exact hask.trans (agreesOn_post _ n)
      | false => exact hask

/-- **A refresh of another pool** changes nothing about this one. -/
theorem agreesOn_refreshRecord {platforms : List Platform} {r : Record} (hne : r.name ≠ name)
    {result : Except Fault Outcome × ControlPlane} (hrec : refreshRecord platforms c r = result) :
    AgreesOn name c result.2 := by
  have h := refreshes platforms c r
  rw [hrec] at h
  cases h with
  | invalid => exact .refl name c
  | notFound => exact .refl name c
  | fault p applied fault _ hp ha => exact ha ▸ agreesOn_applied hne hp
  | unchanged p applied _ hp ha => exact ha ▸ agreesOn_applied hne hp
  | changed p applied diff _ hp ha =>
    subst ha
    refine (agreesOn_applied hne hp).trans (agreesOn_notifyChange _ ?_ _ _ _)
    rwa [name_applyRecord platforms _ _ hp]

/-! ### Records of the name -/

theorem AgreesOn.takeOver (h : AgreesOn name c d) {applied : Applied} {v : Throttle}
    (hname : applied.pool.name = name) (hc : c.registry.contains name = true)
    (hv : applied.throttle.AgreesOn name v) :
    AgreesOn name (c.takeOver applied) (d.takeOver { applied with throttle := v }) := by
  subst hname
  refine ⟨hv, h.nowNanos_eq, ?_⟩
  have hd : d.registry.contains applied.pool.name = true := by
    unfold Registry.contains
    rw [h.pool_eq]
    exact hc
  exact (Registry.get?_update_self _ _ hd).trans (Registry.get?_update_self _ _ hc).symm

theorem AgreesOn.notifyChange {p : Pool} (h : AgreesOn p.name c d) (diff : Diff)
    (previous : Snapshot) (platforms : List Platform) (skipped : List Skip) :
    (Outcome.changed diff (PoolControl.notifyChange d p diff previous platforms).1
        skipped).regardless =
      (Outcome.changed diff (PoolControl.notifyChange c p diff previous platforms).1
        skipped).regardless ∧
    AgreesOn p.name (PoolControl.notifyChange c p diff previous platforms).2
      (PoolControl.notifyChange d p diff previous platforms).2 := by
  obtain ⟨hgranted, hthrottle⟩ := h.throttle.ask .change c.nowNanos
  have hask : AgreesOn p.name (c.ask (p.name, .change)).2 (d.ask (p.name, .change)).2 := by
    refine ⟨?_, h.nowNanos_eq, h.pool_eq⟩
    show (c.throttle.ask (p.name, .change) c.nowNanos).2.AgreesOn p.name
      (d.throttle.ask (p.name, .change) d.nowNanos).2
    rw [h.nowNanos_eq]
    exact hthrottle
  have hsame : (d.ask (p.name, .change)).1 = (c.ask (p.name, .change)).1 := by
    show (d.throttle.ask (p.name, .change) d.nowNanos).1 = _
    rw [h.nowNanos_eq]
    exact hgranted
  cases hrule : (NotifyRule.find? p.rules .change).filter (·.enabled) with
  | none =>
    unfold PoolControl.notifyChange
    rw [hrule]
    exact ⟨rfl, h⟩
  | some rule =>
    cases hp : platforms.isEmpty with
    | true =>
      unfold PoolControl.notifyChange
      simp only [hrule, hp]
      exact ⟨rfl, h⟩
    | false =>
      obtain ⟨n, heq⟩ := exists_notifyChange_eq c diff previous hp hrule
      obtain ⟨n', heq'⟩ := exists_notifyChange_eq d diff previous hp hrule
      rw [heq, heq', hsame]
      cases (c.ask (p.name, .change)).1 with
      | false => exact ⟨rfl, hask⟩
      | true =>
        refine ⟨?_, (agreesOn_post _ n).symm.trans (hask.trans (agreesOn_post _ n'))⟩
        cases ((c.ask (p.name, .change)).2.post n).1 <;>
          cases ((d.ask (p.name, .change)).2.post n').1 <;> rfl

/-- **Refreshes of a record of the name** from agreeing control planes end alike. -/
theorem AgreesOn.refreshRecord (h : AgreesOn name c d) (platforms : List Platform) {r : Record}
    (hr : r.name = name) :
    (PoolControl.refreshRecord platforms d r).1.map Outcome.regardless =
        (PoolControl.refreshRecord platforms c r).1.map Outcome.regardless ∧
      AgreesOn name (PoolControl.refreshRecord platforms c r).2
        (PoolControl.refreshRecord platforms d r).2 := by
  subst hr
  unfold PoolControl.refreshRecord
  rw [h.pool_eq, h.nowNanos_eq]
  cases Pool.checkRecord r with
  | error e => exact ⟨rfl, h⟩
  | ok _ =>
    cases hp : c.registry.get? r.name with
    | none => exact ⟨rfl, h⟩
    | some p =>
      have hpname := Registry.name_of_get? hp
      have hname := name_applyRecord platforms c.throttle c.nowNanos hp
      have hin : c.registry.contains r.name = true := by
        rw [Registry.contains, hp]
        rfl
      obtain ⟨v, hv, hagree⟩ :=
        exists_applyRecord_eq platforms c.nowNanos r (hpname ▸ h.throttle)
      have htaken := h.takeOver hname hin (hpname ▸ hagree)
      simp only [hv]
      generalize applyRecord platforms c.throttle c.nowNanos r p = applied at hname htaken ⊢
      cases applied.fault with
      | some fault => exact ⟨rfl, htaken⟩
      | none =>
        simp only
        split
        · exact ⟨rfl, htaken⟩
        · rw [← hname] at htaken ⊢
          obtain ⟨ho, hagree⟩ := htaken.notifyChange (p.snapshot.diff applied.pool.snapshot)
            p.snapshot platforms applied.skipped
          exact ⟨congrArg Except.ok ho, hagree⟩

theorem AgreesOn.refreshRecord_ok (h : AgreesOn name c d) {platforms : List Platform} {r : Record}
    (hr : r.name = name) {o : Outcome}
    (hc : PoolControl.refreshRecord platforms c r = (.ok o, e)) :
    ∃ o' e', PoolControl.refreshRecord platforms d r = (.ok o', e') ∧
      o'.regardless = o.regardless ∧ AgreesOn name e e' := by
  obtain ⟨hsame, hagree⟩ := h.refreshRecord platforms hr
  rw [hc] at hsame hagree
  rcases hd : PoolControl.refreshRecord platforms d r with ⟨fault | o', e'⟩
  · rw [hd] at hsame
    cases hsame
  · rw [hd] at hsame hagree
    exact ⟨o', e', rfl, Except.ok.inj hsame, hagree⟩

theorem AgreesOn.refreshRecord_fault (h : AgreesOn name c d) {platforms : List Platform}
    {r : Record} (hr : r.name = name) {fault : Fault}
    (hc : PoolControl.refreshRecord platforms c r = (.error fault, e)) :
    ∃ e', PoolControl.refreshRecord platforms d r = (.error fault, e') := by
  obtain ⟨hsame, -⟩ := h.refreshRecord platforms hr
  rw [hc] at hsame
  rcases hd : PoolControl.refreshRecord platforms d r with ⟨fault' | o', e'⟩
  · rw [hd] at hsame
    cases hsame
    exact ⟨e', rfl⟩
  · rw [hd] at hsame
    cases hsame

theorem agreesOn_bump (name : String) (c : ControlPlane) (counter : Counter) :
    AgreesOn name c (c.bump counter) := .of_eq rfl rfl rfl

end ControlPlane
end PoolControl
