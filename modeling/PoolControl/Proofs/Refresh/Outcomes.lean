import PoolControl.Proofs.Refresh.Fresh

/-! # How a refresh ends

What applying a record makes of a pool and of the throttle, and the cases of a refresh of one record
(`Refreshes`). It ends in a fault exactly where the rules of the record call for a gauge whose
interval does not fit the throttle (`fault_applyRecord_eq_none_iff`). -/

namespace PoolControl

open Settings (Batch NotifyRule Platform Record)

/-! ### Gauges -/

namespace Throttle

theorem resetAll_fst_eq_none_iff (now : Nat) (pool : String) (t : Throttle)
    (rules : List NotifyRule) :
    (t.resetAll now pool rules).1 = none ↔ ∀ rule ∈ rules, t.Fits rule := by
  induction rules generalizing t with
  | nil => simp [resetAll]
  | cons rule rules ih =>
    by_cases h : t.Fits rule
    · rw [resetAll_cons_of_fits h, ih]
      simp [h]
    · rw [resetAll_cons_of_not_fits h]
      simp [h]

theorem pacing_resetAll (now : Nat) (pool : String) (t : Throttle) (rules : List NotifyRule) :
    (t.resetAll now pool rules).2.toPacing = t.toPacing := by
  induction rules generalizing t with
  | nil => rfl
  | cons rule rules ih =>
    by_cases h : t.Fits rule
    · rw [resetAll_cons_of_fits h, ih, toPacing_setGauge]
    · rw [resetAll_cons_of_not_fits h]

end Throttle

/-! ### Applying a record -/

section Apply
variable (platforms : List Platform) (throttle : Throttle) (now : Nat) (r : Record) (p : Pool)

/-- The rules of the record whose gauges are reset: their interval is new to the pool. -/
def renewed : List NotifyRule :=
  (NotifyRule.effective platforms r.rules).filter fun rule => !keepsInterval p.rules rule

/-- **Applying a record, spelled out.** -/
theorem applyRecord_eq : applyRecord platforms throttle now r p =
    { pool :=
        let tuned := ((Tuned.ofRecord r p).pool.setWaitOnShutdown r.waitOnShutdown).setAwait
          r.awaitSeconds
        if (throttle.resetAll now p.name (renewed platforms r p)).1.isNone then
          tuned.setRules (NotifyRule.effective platforms r.rules)
        else tuned
      throttle := (throttle.resetAll now p.name (renewed platforms r p)).2
      events := (Tuned.ofRecord r p).events
      fault := (throttle.resetAll now p.name (renewed platforms r p)).1 } := by
  have hrules := (Tuned.tunesTo_ofRecord r p).rules_eq
  have hname := (Tuned.tunesTo_ofRecord r p).retuned.name_eq
  unfold applyRecord renewed
  generalize Tuned.ofRecord r p = t at hrules hname ⊢
  simp only [Pool.setWaitOnShutdown, Pool.setAwait, hrules, hname]

theorem fault_applyRecord_eq_none_iff : (applyRecord platforms throttle now r p).fault = none ↔
    ∀ rule ∈ NotifyRule.effective platforms r.rules,
      keepsInterval p.rules rule = true ∨ throttle.Fits rule := by
  rw [applyRecord_eq]
  simp only [Throttle.resetAll_fst_eq_none_iff, renewed, List.mem_filter, Bool.not_eq_true',
    ← Bool.not_eq_true, and_imp, or_iff_not_imp_left]

theorem rules_applyRecord (h : (applyRecord platforms throttle now r p).fault = none) :
    (applyRecord platforms throttle now r p).pool.rules =
      NotifyRule.effective platforms r.rules := by
  rw [applyRecord_eq] at h ⊢
  simp only at h
  simp only [h]
  rfl

end Apply

/-! ### Refreshing -/

/-- The control plane after a record was applied. -/
def ControlPlane.takeOver (c : ControlPlane) (applied : Applied) : ControlPlane :=
  { c.updatePool applied.pool with throttle := applied.throttle }

/-- How the refresh of one record can end. -/
inductive Refreshes (platforms : List Platform) (c : ControlPlane) (r : Record) :
    Except Fault Outcome × ControlPlane → Prop
  | invalid (e : Error) (hr : r.isCommittable = false) :
    Refreshes platforms c r (.ok (.invalid e), c)
  | notFound (hr : r.isCommittable = true) (hp : c.registry.get? r.name = none) :
    Refreshes platforms c r (.ok .notFound, c)
  | fault (p : Pool) (applied : Applied) (fault : Fault) (hr : r.isCommittable = true)
    (hp : c.registry.get? r.name = some p)
    (ha : applyRecord platforms c.throttle c.nowNanos r p = applied)
    (hf : applied.fault = some fault) :
    Refreshes platforms c r (.error fault, c.takeOver applied)
  | unchanged (p : Pool) (applied : Applied) (hr : r.isCommittable = true)
    (hp : c.registry.get? r.name = some p)
    (ha : applyRecord platforms c.throttle c.nowNanos r p = applied) (hf : applied.fault = none)
    (hd : p.snapshot.diff applied.pool.snapshot = []) :
    Refreshes platforms c r (.ok (.unchanged applied.skipped), c.takeOver applied)
  | changed (p : Pool) (applied : Applied) (diff : Diff) (hr : r.isCommittable = true)
    (hp : c.registry.get? r.name = some p)
    (ha : applyRecord platforms c.throttle c.nowNanos r p = applied) (hf : applied.fault = none)
    (hd : p.snapshot.diff applied.pool.snapshot = diff) (hne : diff ≠ []) :
    Refreshes platforms c r
      (.ok (.changed diff
          (notifyChange (c.takeOver applied) applied.pool diff p.snapshot platforms).1
          applied.skipped),
        (notifyChange (c.takeOver applied) applied.pool diff p.snapshot platforms).2)

/-- **Every refresh of a record ends in one of these ways.** -/
theorem refreshes (platforms : List Platform) (c : ControlPlane) (r : Record) :
    Refreshes platforms c r (refreshRecord platforms c r) := by
  unfold refreshRecord Pool.checkRecord
  cases hr : r.isCommittable with
  | false => exact .invalid _ hr
  | true =>
    simp only [if_true]
    cases hp : c.registry.get? r.name with
    | none => exact .notFound hr hp
    | some p =>
      simp only
      cases hf : (applyRecord platforms c.throttle c.nowNanos r p).fault with
      | some fault => exact .fault p _ fault hr hp rfl hf
      | none =>
        simp only
        split
        · next hd => exact .unchanged p _ hr hp rfl hf hd
        · next hne => exact .changed p _ _ hr hp rfl hf rfl hne

/-- **The refresh of a registered pool reports an outcome** where no rule is in the way: the
difference that it has made and the tunables that were refused. -/
theorem exists_outcome {platforms : List Platform} {c : ControlPlane} {r : Record} {p : Pool}
    (hr : r.isCommittable = true) (hp : c.registry.get? r.name = some p) {applied : Applied}
    (ha : applyRecord platforms c.throttle c.nowNanos r p = applied)
    (hf : applied.fault = none) :
    ∃ o, (refreshRecord platforms c r).1 = .ok o ∧
      (o = .unchanged o.skipped ∨ o.isChanged = true) ∧
      o.diff?.getD [] = p.snapshot.diff applied.pool.snapshot ∧ o.skipped = applied.skipped := by
  have h := refreshes platforms c r
  generalize refreshRecord platforms c r = result at h ⊢
  cases h with
  | invalid _ hr' => simp [hr] at hr'
  | notFound _ hp' => simp [hp] at hp'
  | fault p' applied' fault _ hp' ha' hf' =>
    cases hp.symm.trans hp'
    cases ha.symm.trans ha'
    simp [hf] at hf'
  | unchanged p' applied' _ hp' ha' _ hd =>
    cases hp.symm.trans hp'
    cases ha.symm.trans ha'
    exact ⟨_, rfl, Or.inl rfl, hd.symm, rfl⟩
  | changed p' applied' diff _ hp' ha' _ hd =>
    cases hp.symm.trans hp'
    cases ha.symm.trans ha'
    exact ⟨_, rfl, Or.inr rfl, hd.symm, rfl⟩

theorem name_applyRecord (platforms : List Platform) (throttle : Throttle) (now : Nat)
    {c : ControlPlane} {r : Record} {p : Pool} (hp : c.registry.get? r.name = some p) :
    (applyRecord platforms throttle now r p).pool.name = r.name :=
  (retuned_applyRecord platforms throttle now r p).name_eq.trans (Registry.name_of_get? hp)

theorem get?_takeOver (platforms : List Platform) (throttle : Throttle) (now : Nat)
    {c : ControlPlane} {r : Record} {p : Pool} (hp : c.registry.get? r.name = some p) :
    (c.takeOver (applyRecord platforms throttle now r p)).registry.get? r.name =
      some (applyRecord platforms throttle now r p).pool := by
  have hname := name_applyRecord platforms throttle now hp
  rw [← hname]
  refine Registry.get?_update_self _ _ ?_
  rw [Registry.contains, hname, hp]
  rfl

theorem get?_refreshRecord {platforms : List Platform} {c : ControlPlane} {r : Record} {p : Pool}
    (hr : r.isCommittable = true) (hp : c.registry.get? r.name = some p) :
    (refreshRecord platforms c r).2.registry.get? r.name =
      some (applyRecord platforms c.throttle c.nowNanos r p).pool := by
  obtain ⟨hregistry, -⟩ := refreshRecord_of_get? platforms hr hp rfl
  rw [hregistry]
  exact get?_takeOver platforms c.throttle c.nowNanos hp

theorem fault_eq_none_of_outcome {platforms : List Platform} {c : ControlPlane} {r : Record}
    {p : Pool} {o : Outcome} (hr : r.isCommittable = true) (hp : c.registry.get? r.name = some p)
    (ho : (refreshRecord platforms c r).1 = .ok o) :
    (applyRecord platforms c.throttle c.nowNanos r p).fault = none := by
  obtain ⟨-, herror, -⟩ := refreshRecord_of_get? platforms hr hp rfl
  cases hf : (applyRecord platforms c.throttle c.nowNanos r p).fault with
  | none => rfl
  | some fault =>
    rw [herror fault hf] at ho
    cases ho

theorem refreshRecord_of_diff_eq_nil {platforms : List Platform} {c : ControlPlane} {r : Record}
    {p : Pool} {applied : Applied} (hr : r.isCommittable = true)
    (hp : c.registry.get? r.name = some p)
    (ha : applyRecord platforms c.throttle c.nowNanos r p = applied) (hf : applied.fault = none)
    (hd : p.snapshot.diff applied.pool.snapshot = []) :
    refreshRecord platforms c r = (.ok (.unchanged applied.skipped), c.takeOver applied) := by
  unfold refreshRecord Pool.checkRecord
  simp only [hr, if_true, hp, ha, hf, hd]
  rfl

/-! ### One record after the other -/

section Records
variable {platforms : List Platform} {c d : ControlPlane} {r : Record} {rs : List Record}

theorem refreshRecords_cons_of_blank (h : Text.isBlankText r.name = true) :
    refreshRecords platforms c (r :: rs) = refreshRecords platforms c rs := by
  rw [refreshRecords, if_pos h]

theorem refreshRecords_cons_of_fault {fault : Fault} (h : Text.isBlankText r.name = false)
    (hr : refreshRecord platforms c r = (.error fault, d)) :
    refreshRecords platforms c (r :: rs) = (.error fault, d) := by
  simp [refreshRecords, h, hr]

theorem refreshRecords_cons_of_outcome {o : Outcome} (h : Text.isBlankText r.name = false)
    (hr : refreshRecord platforms c r = (.ok o, d)) :
    refreshRecords platforms c (r :: rs) =
      ((refreshRecords platforms (d.bump (.refreshed o.label)) rs).1.map ((r.name, o) :: ·),
        (refreshRecords platforms (d.bump (.refreshed o.label)) rs).2) := by
  simp [refreshRecords, h, hr]

theorem exists_of_refreshRecords_cons {s : Summary} (h : Text.isBlankText r.name = false)
    (hs : refreshRecords platforms c (r :: rs) = (.ok s, d)) :
    ∃ o m s', refreshRecord platforms c r = (.ok o, m) ∧
      refreshRecords platforms (m.bump (.refreshed o.label)) rs = (.ok s', d) ∧
      s = (r.name, o) :: s' := by
  rcases hr : refreshRecord platforms c r with ⟨fault | o, m⟩
  · rw [refreshRecords_cons_of_fault h hr] at hs
    cases hs
  · rw [refreshRecords_cons_of_outcome h hr] at hs
    rcases hrest : refreshRecords platforms (m.bump (.refreshed o.label)) rs with ⟨fault | s', e⟩
    · rw [hrest] at hs
      cases hs
    · rw [hrest] at hs
      cases hs
      exact ⟨o, m, s', rfl, hrest, rfl⟩

theorem fault_of_refreshRecords_cons {fault : Fault} (h : Text.isBlankText r.name = false)
    (hs : refreshRecords platforms c (r :: rs) = (.error fault, d)) :
    refreshRecord platforms c r = (.error fault, d) ∨
      ∃ o m, refreshRecord platforms c r = (.ok o, m) ∧
        refreshRecords platforms (m.bump (.refreshed o.label)) rs = (.error fault, d) := by
  rcases hr : refreshRecord platforms c r with ⟨fault' | o, m⟩
  · rw [refreshRecords_cons_of_fault h hr] at hs
    cases hs
    exact Or.inl rfl
  · rw [refreshRecords_cons_of_outcome h hr] at hs
    rcases hrest : refreshRecords platforms (m.bump (.refreshed o.label)) rs with ⟨fault' | s', e⟩
    · rw [hrest] at hs
      cases hs
      exact Or.inr ⟨o, m, rfl, hrest⟩
    · rw [hrest] at hs
      cases hs

end Records

/-! ### Binds without a fault -/

section Binds
variable {platforms : List Platform} {c : ControlPlane} {r : Record} {rs : List Record} {p : Pool}
  {ps : List Pool} {b : Batch}

theorem bindRecords_cons_of_none (h : (bindRecords platforms c (r :: rs)).1.2 = none) :
    (bindRecord platforms c r).1.2 = none ∧
      (bindRecords platforms (bindRecord platforms c r).2 rs).1.2 = none ∧
      (bindRecords platforms c (r :: rs)).2 =
        (bindRecords platforms (bindRecord platforms c r).2 rs).2 := by
  rw [bindRecords] at h ⊢
  rcases hr : bindRecord platforms c r with ⟨⟨binding, fault | _⟩, m⟩
  · rw [hr] at h
    exact ⟨rfl, h, rfl⟩
  · rw [hr] at h
    cases h

theorem normalizeAll_cons_of_none (h : (normalizeAll platforms c (p :: ps)).1 = none) :
    (normalizeRules platforms c p).1 = none ∧
      normalizeAll platforms c (p :: ps) =
        normalizeAll platforms (normalizeRules platforms c p).2 ps := by
  rw [normalizeAll] at h ⊢
  rcases hp : normalizeRules platforms c p with ⟨fault | _, m⟩
  · exact ⟨rfl, rfl⟩
  · rw [hp] at h
    cases h

/-- **A bind without a fault** has applied the records and then filled in the rules of all pools. -/
theorem exists_of_bind (h : (bind c b).1.2 = none) :
    ∃ m, m = (bindRecords b.platforms c b.records).2 ∧
      (bindRecords b.platforms c b.records).1.2 = none ∧
      (normalizeAll b.platforms m m.registry.pools).1 = none ∧
      (bind c b).2 = (normalizeAll b.platforms m m.registry.pools).2 := by
  unfold bind at h ⊢
  rcases hb : bindRecords b.platforms c b.records with ⟨⟨bindings, fault | _⟩, m⟩
  · rw [hb] at h
    exact ⟨m, rfl, rfl, h, rfl⟩
  · rw [hb] at h
    cases h

end Binds

end PoolControl
