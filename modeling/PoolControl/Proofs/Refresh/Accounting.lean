import PoolControl.Proofs.Refresh.Outcomes
import PoolControl.Proofs.Refresh.Settling

/-! # A refresh accounts for what was asked

The tunables for which a record asks another value (`Tunable.requested`) are after a refresh each
either in the reported difference, with the value asked for, or among those that were refused, with
the value that they had; all others stay as they were (`Pool.refresh_accounts`). It takes an outcome
to report this: a rule whose interval does not fit the throttle ends the refresh without one
(`Pool.refresh_without_outcome`), when the tunables are set already. -/

namespace PoolControl

open Settings (NotifyRule Platform Record)

/-! ### The keys of a difference -/

namespace Snapshot

theorem keys_between {α : Type} [DecidableEq α] (field : String) (text : α → String) (a b : α) :
    (Change.between field text a b).map (·.field) = if b = a then [] else [field] := by
  unfold Change.between
  by_cases h : a = b
  · rw [if_pos h, if_pos h.symm]
    rfl
  · rw [if_neg h, if_neg (Ne.symm h)]
    rfl

theorem repr_injective : Function.Injective Nat.repr := by
  intro m n h
  rw [Nat.repr_eq_ofList_toDigits, Nat.repr_eq_ofList_toDigits, String.ofList_inj] at h
  rw [← Nat.ofDigitChars_ten_toDigits (n := m), h, Nat.ofDigitChars_ten_toDigits]

theorem keepAliveText_inj {s s' : Snapshot} {m n : Nat} (hs : s.keepAlive = .ofMillis m)
    (hs' : s'.keepAlive = .ofMillis n) :
    s'.keepAliveText = s.keepAliveText ↔ s'.keepAlive = s.keepAlive := by
  unfold keepAliveText
  rw [hs, hs', Duration.millis_ofMillis, Duration.millis_ofMillis, String.append_left_inj,
    Duration.ofMillis_injective.eq_iff]
  exact repr_injective.eq_iff

theorem map_filter_eq_flatMap {φ β : Type} (P : φ → Prop) [DecidablePred P] (g : φ → β) :
    ∀ fs : List φ, (fs.filter fun f => ¬ P f).map g = fs.flatMap fun f => if P f then [] else [g f]
  | [] => rfl
  | f :: fs => by
    rw [List.flatMap_cons, ← map_filter_eq_flatMap P g fs, List.filter_cons]
    by_cases h : P f <;> simp [h]

/-- **The keys of a difference** are the tunables that differ, in the order of the fields. -/
theorem keys_diff {s s' : Snapshot} (hn : s'.name = s.name) (hk : s'.queueKind = s.queueKind)
    (hkeep : s'.keepAliveText = s.keepAliveText ↔ s'.keepAlive = s.keepAlive) :
    (s.diff s').keys = (Tunable.all.filter fun f => ¬ f.Agree s s').map Tunable.field := by
  rw [map_filter_eq_flatMap (Tunable.Agree s s')]
  simp only [diff, Diff.keys, List.map_append, keys_between, hkeep]
  rw [if_pos hn, if_pos hk]
  simp only [Tunable.all, List.flatMap_cons, List.flatMap_nil, Tunable.Agree, Tunable.field,
    List.nil_append, List.append_nil, List.append_assoc]

end Snapshot

theorem Pool.keys_diff {p q : Pool} (hn : q.name = p.name) (hk : q.queue.kind = p.queue.kind) :
    (p.snapshot.diff q.snapshot).keys =
      (Tunable.all.filter fun f => ¬ f.Agree p.snapshot q.snapshot).map Tunable.field :=
  Snapshot.keys_diff hn hk (Snapshot.keepAliveText_inj rfl rfl)

/-! ### The account -/

namespace Tunable

/-- The tunables for which the record asks another value than the snapshot has. -/
def requested (r : Record) (s : Snapshot) : List Tunable := all.filter fun f => ¬ f.IsMet r s

theorem mem_requested {r : Record} {s : Snapshot} {f : Tunable} :
    f ∈ requested r s ↔ ¬ f.IsMet r s := by
  have hall : f ∈ all := by cases f <;> decide
  simp [requested, hall]

theorem nodup_requested (r : Record) (s : Snapshot) : ((requested r s).map field).Nodup :=
  ((show all.Nodup by decide).filter _).map field_injective

end Tunable

/-- The difference between two snapshots and a list of refused tunables account for a record. -/
structure Accounts (r : Record) (old new : Snapshot) (diff : Diff) (skipped : List Skip) :
    Prop where
  /-- Changed and refused tunables together are those that the record asks to change. -/
  split : (diff.keys ++ skipped.map (·.field)).Perm ((Tunable.requested r old).map Tunable.field)
  /-- No tunable is reported twice. -/
  nodup : (diff.keys ++ skipped.map (·.field)).Nodup
  changed : ∀ f : Tunable, f.field ∈ diff.keys → f.IsMet r new
  refused : ∀ f : Tunable, f.field ∈ skipped.map (·.field) → f.Agree old new
  untouched : ∀ f : Tunable, f ∉ Tunable.requested r old → f.Agree old new
  name_eq : new.name = old.name
  queueKind_eq : new.queueKind = old.queueKind

/-- **Tuning a sound pool by a record accounts for the record.** -/
theorem Tuned.accounts_ofRecord {r : Record} (hr : r.isCommittable = true) {p : Pool}
    (hp : p.Sound) : Accounts r p.snapshot (ofRecord r p).pool.snapshot
      (p.snapshot.diff (ofRecord r p).pool.snapshot) (ofRecord r p).skipped := by
  have hskipped := fields_skipped_ofRecord hr hp
  have hname := name_run hr { pool := p } (Tunable.order r p.snapshot)
  have hkind := queueKind_run hr { pool := p } (Tunable.order r p.snapshot)
  have hset := agree_or_isMet_run hr { pool := p } (Tunable.order r p.snapshot)
  rw [← ofRecord_eq_run] at hname hkind hset
  generalize ofRecord r p = t at hskipped hname hkind hset ⊢
  have hkeys := Pool.keys_diff hname hkind
  have hiff : ∀ f : Tunable, f.Agree p.snapshot t.pool.snapshot →
      (f.IsMet r t.pool.snapshot ↔ f.IsMet r p.snapshot) := fun f h => h.isMet_iff hkind
  -- A tunable has changed exactly if it was asked for and the request is met now.
  have hchanged : ∀ f : Tunable, ¬ f.Agree p.snapshot t.pool.snapshot ↔
      ¬ f.IsMet r p.snapshot ∧ f.IsMet r t.pool.snapshot := by
    intro f
    constructor
    · exact (hset f).resolve_left
    · rintro ⟨hn, hm⟩ h
      exact hn ((hiff f h).mp hm)
  have hunmet : ∀ f : Tunable, ¬ f.IsMet r t.pool.snapshot → f.Agree p.snapshot t.pool.snapshot :=
    fun f hn => (hset f).resolve_right fun h => hn h.2
  have hperm : ((p.snapshot.diff t.pool.snapshot).keys ++ t.skipped.map (·.field)).Perm
      ((Tunable.requested r p.snapshot).map Tunable.field) := by
    have hrefused : ((Tunable.order r p.snapshot).filter fun f => ¬ f.IsMet r t.pool.snapshot).Perm
        ((Tunable.requested r p.snapshot).filter fun f => ¬ f.IsMet r t.pool.snapshot) := by
      refine ((Tunable.perm_order r p.snapshot).filter _).trans (.of_eq ?_)
      rw [Tunable.requested, List.filter_filter]
      refine List.filter_congr fun f _ => ?_
      by_cases hm : f.IsMet r t.pool.snapshot
      · simp [hm]
      · simp [hm, (hiff f (hunmet f hm)).not.mp hm]
    have hmet : (Tunable.all.filter fun f => ¬ f.Agree p.snapshot t.pool.snapshot) =
        (Tunable.requested r p.snapshot).filter fun f => f.IsMet r t.pool.snapshot := by
      rw [Tunable.requested, List.filter_filter]
      refine List.filter_congr fun f _ => ?_
      simp only [hchanged, Bool.decide_and, Bool.and_comm]
    rw [hkeys, hskipped, hmet, ← List.map_append]
    refine List.Perm.map _ ((List.Perm.append_left _ hrefused).trans ?_)
    simpa using List.filter_append_perm (fun f : Tunable => decide (f.IsMet r t.pool.snapshot))
      (Tunable.requested r p.snapshot)
  refine ⟨hperm, hperm.nodup_iff.mpr (Tunable.nodup_requested r _), ?_, ?_, ?_, hname, hkind⟩
  · intro f hf
    rw [hkeys] at hf
    obtain ⟨g, hg, hfield⟩ := List.mem_map.mp hf
    rw [← Tunable.field_injective hfield]
    exact ((hchanged g).mp (by simpa using List.of_mem_filter hg)).2
  · intro f hf
    rw [hskipped] at hf
    obtain ⟨g, hg, hfield⟩ := List.mem_map.mp hf
    rw [← Tunable.field_injective hfield]
    exact hunmet g (by simpa using List.of_mem_filter hg)
  · intro f hf
    by_contra h
    exact hf (Tunable.mem_requested.mpr ((hchanged f).mp h).1)

namespace Pool

/-- **A refresh accounts for what was asked.** From a committable record a pool in use is refreshed
with an outcome, and what that reports as changed and as refused accounts for the record. The rules
whose interval is new to the pool have to fit the throttle. -/
theorem refresh_accounts {s : InUse} (h : Reach s) (platforms : List Platform) {c : ControlPlane}
    {r : Record} (hr : r.isCommittable = true) (hget : c.registry.get? r.name = some s.pool)
    (hfits : ∀ rule ∈ NotifyRule.effective platforms r.rules,
      keepsInterval s.pool.rules rule = true ∨ c.throttle.Fits rule) :
    ∃ (o : Outcome) (q : Pool), (refreshRecord platforms c r).1 = .ok o ∧
      (o = .unchanged o.skipped ∨ o.isChanged = true) ∧
      (refreshRecord platforms c r).2.registry.get? r.name = some q ∧
      Accounts r s.pool.snapshot q.snapshot (o.diff?.getD []) o.skipped := by
  have hfault := (fault_applyRecord_eq_none_iff platforms c.throttle c.nowNanos r s.pool).mpr hfits
  obtain ⟨o, ho, hkind, hdiff, hskipped⟩ := exists_outcome hr hget rfl hfault
  refine ⟨o, _, ho, hkind, get?_refreshRecord hr hget, ?_⟩
  rw [hdiff, hskipped, snapshot_applyRecord]
  exact Tuned.accounts_ofRecord hr h.sound

/-- A record with no keep-alive although core workers may time out, of an unknown policy, and of a
capacity that a fixed queue cannot take. -/
def defiant : Record :=
  { name := "pool", coreSize := 4, maxSize := 8, queueCapacity := 2, keepAliveTime := 0
    coreTimeout := true, policyName := "LossyPolicy" }

theorem refresh_accounts_defiant :
    ∃ (p q : Pool) (s : InUse) (o : Outcome),
      ofRecord { name := "pool", maxSize := 1, queueKind := .linked } = .ok p ∧
      ({ pool := p } : InUse).follow? [.set (.coreTimeout true), .submit ⟨"a", .gate⟩] = some s ∧
      (refreshRecord [] (holding s.pool) defiant).1 = .ok o ∧
      (refreshRecord [] (holding s.pool) defiant).2.registry.get? "pool" = some q ∧
      Accounts defiant s.pool.snapshot q.snapshot (o.diff?.getD []) o.skipped ∧
      (o.diff?.getD []).keys = ["core_size", "max_size"] ∧
      o.skipped.map (·.field) = ["keep_alive", "reject_policy", "queue_capacity"] := by
  obtain ⟨p, s, diff, skipped, hp, hs, hname, hrefresh, hkeys, hfields⟩ :
      ∃ (p : Pool) (s : InUse) (diff : Diff) (skipped : List Skip),
        ofRecord { name := "pool", maxSize := 1, queueKind := .linked } = .ok p ∧
        ({ pool := p } : InUse).follow? [.set (.coreTimeout true), .submit ⟨"a", .gate⟩] = some s ∧
        s.pool.name = "pool" ∧
        (refreshRecord [] (holding s.pool) defiant).1 = .ok (.changed diff .noPlatforms skipped) ∧
        diff.keys = ["core_size", "max_size"] ∧
        skipped.map (·.field) = ["keep_alive", "reject_policy", "queue_capacity"] :=
    ⟨_, _, _, _, rfl, rfl, rfl, rfl, rfl, rfl⟩
  have hget : (holding s.pool).registry.get? "pool" = some s.pool := hname ▸ get?_holding s.pool
  have hfits : ∀ rule ∈ NotifyRule.effective [] defiant.rules, Throttle.single.Fits rule := by
    decide
  obtain ⟨o, q, ho, -, hq, h⟩ := refresh_accounts ((Reach.start {} hp).follow hs) [] (r := defiant)
    (by decide) hget fun rule hrule => Or.inr (hfits rule hrule)
  obtain rfl : Outcome.changed diff .noPlatforms skipped = o :=
    Except.ok.inj (hrefresh.symm.trans ho)
  exact ⟨p, q, s, _, hp, hs, ho, hq, h, hkeys, hfields⟩

/-- The interval of the rule is longer than a word of nanoseconds. The refresh ends without an
outcome, and the pool has the sizes that it asks for. -/
theorem refresh_without_outcome :
    ∃ (p q : Pool) (r : Record),
      ofRecord { name := "pool", maxSize := 1 } = .ok p ∧ r.isCommittable = true ∧
      (holding p).registry.get? r.name = some p ∧
      (refreshRecord [] (holding p) r).1 = .error .intervalTooLong ∧
      (refreshRecord [] (holding p) r).2.registry.get? r.name = some q ∧
      p.coreSize = 1 ∧ q.coreSize = 0 :=
  ⟨_, _, { name := "pool", maxSize := 1, coreSize := 0
           rules := [{ kind := .change, interval := some 20000000000 }] },
    rfl, by decide, rfl, rfl, rfl, rfl, rfl⟩

end Pool
end PoolControl
