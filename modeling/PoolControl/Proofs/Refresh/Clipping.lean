import PoolControl.Proofs.Refresh.Differences

/-! # The keep-alive of a record is clipped once

A keep-alive time is turned into a span, where minutes and hours are counted in seconds and clipped
to a machine word, and the span into milliseconds, which are clipped again. Seconds are clipped only
where the milliseconds are clipped anyway, so that the two make one clip
(`KeepAliveUnit.min_millis_duration`). -/

namespace PoolControl

open Settings (KeepAliveUnit Platform Record)

namespace Settings

/-- **Clipping the seconds does not show** where milliseconds are clipped. -/
theorem KeepAliveUnit.min_millis_duration (u : KeepAliveUnit) (n : Nat) :
    min (u.duration n).millis maxWord = min (n * u.inMillis) maxWord := by
  cases u <;> simp only [duration, inMillis, Duration.ofMillis, Duration.ofSecs, Duration.millis,
    maxWord, UInt64.size] <;> omega

theorem KeepAliveUnit.inMillis_pos (u : KeepAliveUnit) : 0 < u.inMillis := by
  cases u <;> decide

namespace Record

theorem toNat_keepAliveMillis (r : Record) : r.keepAliveMillis.toNat =
    min (r.keepAliveTime.toInt.toNat * r.keepAliveUnit.inMillis) maxWord := by
  rw [keepAliveMillis, Duration.toNat_wordMillis]
  unfold keepAlive?
  split_ifs with h
  · exact r.keepAliveUnit.min_millis_duration r.keepAliveTime.toInt.toNat
  · have hzero : r.keepAliveTime.toInt.toNat = 0 := by omega
    rw [hzero, Nat.zero_mul]
    rfl

theorem keepAliveMillis_le {r r' : Record} (hu : r'.keepAliveUnit = r.keepAliveUnit)
    (hle : r.keepAliveTime ≤ r'.keepAliveTime) : r.keepAliveMillis ≤ r'.keepAliveMillis := by
  rw [Int64.le_iff_toInt_le] at hle
  rw [UInt64.le_iff_toNat_le, toNat_keepAliveMillis, toNat_keepAliveMillis, hu]
  have hmul := Nat.mul_le_mul_right r.keepAliveUnit.inMillis (Int.toNat_le_toNat hle)
  omega

theorem keepAliveMillis_ne_zero_of_time {r : Record} (hv : 0 ≤ r.keepAliveTime.toInt)
    (hne : r.keepAliveTime ≠ 0) : r.keepAliveMillis ≠ 0 := by
  intro h0
  have hstored := r.toNat_keepAliveMillis
  rw [h0, UInt64.toNat_zero] at hstored
  have htime : r.keepAliveTime.toInt ≠ 0 := fun h => hne (Int64.toInt_inj.mp h)
  have hpos := Nat.mul_pos (show 0 < r.keepAliveTime.toInt.toNat by omega)
    r.keepAliveUnit.inMillis_pos
  have hword : 0 < maxWord := by decide
  omega

end Record
end Settings

/-! ### Taking the keep-alive of a record -/

theorem Tunable.isMet_keepAlive_iff {r : Record} {p : Pool} :
    Tunable.keepAlive.IsMet r p.snapshot ↔ p.keepAlive = r.keepAliveMillis := by
  show Duration.ofMillis p.keepAlive.toNat = .ofMillis r.keepAliveMillis.toNat ↔ _
  rw [Duration.ofMillis_injective.eq_iff, UInt64.toNat_inj]

namespace Tuned

variable {r : Record} {p : Pool}

/-- **A keep-alive that is not refused** is stored as it was asked for. -/
theorem keepAlive_ofRecord (hr : r.isCommittable = true) (hp : p.Sound)
    (hk : "keep_alive" ∉ (ofRecord r p).skipped.map (·.field)) :
    (ofRecord r p).pool.keepAlive = r.keepAliveMillis := by
  rw [← Tunable.isMet_keepAlive_iff]
  by_contra hunmet
  rw [fields_skipped_ofRecord hr hp] at hk
  exact hk (List.mem_map.mpr ⟨.keepAlive,
    List.mem_filter.mpr ⟨Tunable.mem_order r _ _, by simpa using hunmet⟩, rfl⟩)

/-- **A keep-alive that is there already** stays, and nothing is reported about it. -/
theorem keepAlive_ofRecord_again (hr : r.isCommittable = true) (hp : p.Sound)
    (hk : p.keepAlive = r.keepAliveMillis) :
    (ofRecord r p).pool.keepAlive = r.keepAliveMillis ∧
      "keep_alive" ∉ (p.snapshot.diff (ofRecord r p).pool.snapshot).keys ∧
      "keep_alive" ∉ (ofRecord r p).skipped.map (·.field) := by
  have hmet : Tunable.keepAlive.IsMet r (ofRecord r p).pool.snapshot := by
    rw [ofRecord_eq_run]
    exact isMet_run hr (Tunable.isMet_keepAlive_iff.mpr hk) _
  have hstored := Tunable.isMet_keepAlive_iff.mp hmet
  refine ⟨hstored, fun hkey => ?_, fun hfield => ?_⟩
  · rw [Snapshot.keys_diff_eq p.isWhole_snapshot (Pool.isWhole_snapshot _)] at hkey
    obtain ⟨f, hf, hname⟩ := List.mem_map.mp hkey
    obtain rfl : f = .keepAlive := Snapshot.Field.key_injective hname
    have hdiffers : ¬ Snapshot.Field.keepAlive.Agree p.snapshot (ofRecord r p).pool.snapshot := by
      simpa using List.of_mem_filter hf
    refine hdiffers ?_
    show p.keepAliveSpan = (ofRecord r p).pool.keepAliveSpan
    rw [Pool.keepAliveSpan, Pool.keepAliveSpan, hk, hstored]
  · rw [fields_skipped_ofRecord hr hp] at hfield
    obtain ⟨f, hf, hname⟩ := List.mem_map.mp hfield
    obtain rfl : f = .keepAlive := Tunable.field_injective hname
    exact absurd hmet (by simpa using List.of_mem_filter hf)

end Tuned

namespace Pool

/-- A pool in use has just taken its keep-alive from the record: it was made from it, or refreshed
from it with an outcome that does not report the keep-alive as refused. -/
inductive TakesKeepAlive (r : Record) : InUse → Prop
  | made {p : Pool} (clock : Clock) (h : ofRecord r = .ok p) :
    TakesKeepAlive r { pool := p, clock }
  | refreshed {s : InUse} {c : ControlPlane} {platforms : List Platform} {o : Outcome}
    (hs : Reach s) (ok : s.Allows (.refreshRecord c platforms r)) (hname : r.name = s.pool.name)
    (hr : r.isCommittable = true) (ho : (refreshRecord platforms c r).1 = .ok o)
    (hk : "keep_alive" ∉ o.skipped.map (·.field)) :
    TakesKeepAlive r (s.after (.refreshRecord c platforms r))

variable {r : Record} {s t : InUse}

theorem TakesKeepAlive.isCommittable (h : TakesKeepAlive r s) : r.isCommittable = true := by
  cases h with
  | made clock h => exact (ofRecord_eq_ok_iff.mp h).1
  | refreshed _ _ _ hr => exact hr

theorem tuned_of_outcome {platforms : List Platform} {c : ControlPlane} {o : Outcome} {p : Pool}
    (hr : r.isCommittable = true) (hget : c.registry.get? r.name = some p)
    (ho : (refreshRecord platforms c r).1 = .ok o) :
    o.diff?.getD [] = p.snapshot.diff (Tuned.ofRecord r p).pool.snapshot ∧
      o.skipped = (Tuned.ofRecord r p).skipped := by
  have hfault := fault_eq_none_of_outcome hr hget ho
  obtain ⟨o', ho', -, hdiff, hskipped⟩ := exists_outcome hr hget rfl hfault
  obtain rfl : o = o' := Except.ok.inj (ho.symm.trans ho')
  rw [snapshot_applyRecord] at hdiff
  exact ⟨hdiff, hskipped⟩

theorem keepAlive_applyRecord {platforms : List Platform} {throttle : Throttle} {now : Nat}
    {p : Pool} (h : (Tuned.ofRecord r p).pool.keepAlive = r.keepAliveMillis) :
    (applyRecord platforms throttle now r p).pool.keepAlive = r.keepAliveMillis := by
  rw [← Tunable.isMet_keepAlive_iff, snapshot_applyRecord, Tunable.isMet_keepAlive_iff]
  exact h

/-- **What is taken from a record** is what it asks for. -/
theorem TakesKeepAlive.keepAlive_eq (h : TakesKeepAlive r s) :
    s.pool.keepAlive = r.keepAliveMillis := by
  cases h with
  | made clock h =>
    obtain ⟨-, -, policy, -, rfl⟩ := ofRecord_eq_ok_iff.mp h
    rfl
  | @refreshed s c platforms o hs ok hname hr ho hk =>
    have hget : c.registry.get? r.name = some s.pool := by
      rw [hname]
      exact ok.2
    rw [(tuned_of_outcome hr hget ho).2] at hk
    show (s.heldBy (refreshRecord platforms c r).2).keepAlive = r.keepAliveMillis
    rw [InUse.heldBy, ← hname, get?_refreshRecord hr hget, Option.getD_some]
    exact keepAlive_applyRecord (Tuned.keepAlive_ofRecord hr hs.sound hk)

/-- **The keep-alive of a record is clipped once.** Whoever takes it stores the asked number of
units in milliseconds, or the greatest word where that is greater. So what is stored never is less
for a longer time in the same unit, and it is zero only for zero. A refresh from the record finds it
in place, whatever happened to the pool but a new keep-alive: it stays, and no outcome reports it as
changed or refused. -/
theorem keepAlive_clipped_once (h : TakesKeepAlive r s) :
    (0 ≤ r.keepAliveTime.toInt ∧ s.pool.keepAlive.toNat =
      min (r.keepAliveTime.toInt.toNat * r.keepAliveUnit.inMillis) maxWord) ∧
    (∀ (r' : Record) (s' : InUse), TakesKeepAlive r' s' → r'.keepAliveUnit = r.keepAliveUnit →
      r.keepAliveTime ≤ r'.keepAliveTime → s.pool.keepAlive ≤ s'.pool.keepAlive) ∧
    (r.keepAliveTime ≠ 0 → s.pool.keepAlive ≠ 0) ∧
    ∀ t : InUse, Reach t → t.pool.keepAlive = s.pool.keepAlive →
      ∀ (platforms : List Platform) (c : ControlPlane), c.registry.get? r.name = some t.pool →
        (∃ q, (refreshRecord platforms c r).2.registry.get? r.name = some q ∧
          q.keepAlive = s.pool.keepAlive) ∧
        ∀ o, (refreshRecord platforms c r).1 = .ok o →
          "keep_alive" ∉ (o.diff?.getD []).keys ∧ "keep_alive" ∉ o.skipped.map (·.field) := by
  have hr := h.isCommittable
  have hv : 0 ≤ r.keepAliveTime.toInt := by
    simp only [Record.isCommittable, decide_eq_true_eq] at hr
    exact hr.2.2.2
  rw [h.keepAlive_eq]
  refine ⟨⟨hv, r.toNat_keepAliveMillis⟩, fun r' s' h' hu hle => ?_,
    Record.keepAliveMillis_ne_zero_of_time hv, fun t ht hkeep platforms c hget => ?_⟩
  · rw [h'.keepAlive_eq]
    exact Record.keepAliveMillis_le hu hle
  · obtain ⟨hstays, hdiff, hskipped⟩ := Tuned.keepAlive_ofRecord_again hr ht.sound hkeep
    refine ⟨⟨_, get?_refreshRecord hr hget, keepAlive_applyRecord hstays⟩, fun o ho => ?_⟩
    obtain ⟨hdiff', hskipped'⟩ := tuned_of_outcome hr hget ho
    rw [hdiff', hskipped']
    exact ⟨hdiff, hskipped⟩

/-- A record with a keep-alive of that many hours. -/
def lasting (hours : Int64) : Record :=
  { name := "pool", maxSize := 1, keepAliveTime := hours, keepAliveUnit := .hours }

/-- The longest keep-alive time in the longest unit. -/
theorem keepAlive_clipped_once_lasting :
    ∃ (p : Pool) (s t : InUse) (o : Outcome), ofRecord (lasting 1) = .ok p ∧ s = { pool := p } ∧
      (refreshRecord [] (holding s.pool) (lasting Int64.maxValue)).1 = .ok o ∧
      o.isChanged = true ∧
      t = s.after (.refreshRecord (holding s.pool) [] (lasting Int64.maxValue)) ∧
      s.pool.keepAlive.toNat = min (1 * 3600000) maxWord ∧
      t.pool.keepAlive.toNat = min (Int64.maxValue.toInt.toNat * 3600000) maxWord ∧
      s.pool.keepAlive ≤ t.pool.keepAlive ∧ t.pool.keepAlive ≠ 0 ∧
      ∀ o, (refreshRecord [] (holding t.pool) (lasting Int64.maxValue)).1 = .ok o →
        "keep_alive" ∉ (o.diff?.getD []).keys ∧ "keep_alive" ∉ o.skipped.map (·.field) := by
  obtain ⟨p, o, hp, ho, hchanged, hk, ok, hname, hname'⟩ : ∃ (p : Pool) (o : Outcome),
      ofRecord (lasting 1) = .ok p ∧
      (refreshRecord [] (holding p) (lasting Int64.maxValue)).1 = .ok o ∧ o.isChanged = true ∧
      "keep_alive" ∉ o.skipped.map (·.field) ∧
      ({ pool := p } : InUse).Allows (.refreshRecord (holding p) [] (lasting Int64.maxValue)) ∧
      p.name = "pool" ∧ (({ pool := p } : InUse).after
        (.refreshRecord (holding p) [] (lasting Int64.maxValue))).pool.name = "pool" :=
    ⟨_, _, rfl, rfl, rfl, by decide, by decide, rfl, rfl⟩
  have hs : TakesKeepAlive (lasting 1) { pool := p } := .made {} hp
  have hreach := Reach.start {} hp
  have ht := TakesKeepAlive.refreshed hreach ok hname.symm (by decide) ho hk
  obtain ⟨⟨-, hshort⟩, hmono, -⟩ := keepAlive_clipped_once hs
  obtain ⟨⟨-, hlong⟩, -, hpos, hagain⟩ := keepAlive_clipped_once ht
  have hget := get?_holding (({ pool := p } : InUse).after
    (.refreshRecord (holding p) [] (lasting Int64.maxValue))).pool
  rw [hname'] at hget
  exact ⟨p, _, _, o, hp, rfl, ho, hchanged, rfl, hshort, hlong, hmono _ _ ht rfl (by decide),
    hpos (by decide), (hagain _ (hreach.next _ ok) rfl [] _ hget).2⟩

end Pool
end PoolControl
