import PoolControl.Proofs.Refresh.Fresh
import PoolControl.Proofs.Refresh.Settling

/-! # Sizes stay committable

Between two setters of one refresh a pool is `Pool.partway` through the record. It can be reached in
that state too (`Pool.Reach.partway`), since each setter is a setting of its own. So its sizes are
committable there as in every other state, and it can take the sizes of any other record
(`Pool.sizes_committable`). -/

namespace PoolControl

open Settings (Platform Record)

namespace Tuned

theorem tunesTo_step (r : Record) (t : Tuned) (f : Tunable) :
    t.pool.TunesTo (t.step r f).pool := by
  cases f with
  | coreSize => exact t.tunesTo_core r.coreSize.toInt.toNat
  | maxSize => exact t.tunesTo_max r.maxSize.toInt.toNat
  | queueCapacity => exact t.tunesTo_queueCapacity r.queueCapacity.toNat
  | keepAlive => exact t.tunesTo_keepAlive r.keepAliveMillis
  | policy => exact t.tunesTo_policy r.policyName
  | coreTimeout => exact t.tunesTo_coreTimeout r.coreTimeout

theorem tunesTo_run (r : Record) (t : Tuned) (fs : List Tunable) :
    t.pool.TunesTo (t.run r fs).pool := by
  induction fs generalizing t with
  | nil => exact .refl
  | cons f fs ih => exact (tunesTo_step r t f).trans (ih (t.step r f))

end Tuned

namespace Pool

/-- The pool after the first `k` of the six setters that give it the tunables of a record. -/
def partway (r : Record) (k : Nat) (p : Pool) : Pool :=
  (Tuned.run r { pool := p } ((Tunable.order r p.snapshot).take k)).pool

theorem partway_zero (r : Record) (p : Pool) : partway r 0 p = p := rfl

theorem partway_six (r : Record) (p : Pool) : partway r 6 p = (Tuned.ofRecord r p).pool := by
  have hlen : (Tunable.order r p.snapshot).length = 6 := (Tunable.perm_order r p.snapshot).length_eq
  rw [partway, Tuned.ofRecord_eq_run, List.take_of_length_le (Nat.le_of_eq hlen)]

/-- Where a sequence of settings leads to can be reached. -/
theorem Reach.retuned {s : InUse} (h : Reach s) {q : Pool} (hq : s.pool.Retuned q) :
    Reach { s with pool := q } := by
  induction hq with
  | refl => exact h
  | tail _ hs ih =>
    obtain ⟨setting, hs⟩ := hs
    have hnext := ih.next (.set setting) trivial
    simp only [InUse.after, hs] at hnext
    exact hnext

/-- **The states between two setters of a refresh can be reached.** -/
theorem Reach.partway {s : InUse} (h : Reach s) (r : Record) (k : Nat) :
    Reach { s with pool := partway r k s.pool } :=
  h.retuned (Tuned.tunesTo_run r { pool := s.pool } _).retuned

theorem Sound.sizes_applyRecord {p : Pool} (hp : p.Sound) {r : Record}
    (hr : r.isCommittable = true) (platforms : List Platform) (throttle : Throttle) (now : Nat) :
    ((applyRecord platforms throttle now r p).pool.coreSize : Int) = r.coreSize.toInt ∧
      ((applyRecord platforms throttle now r p).pool.maxSize : Int) = r.maxSize.toInt := by
  obtain ⟨hcore, hmax⟩ := Tuned.isMet_sizes_ofRecord hr hp
  rw [← snapshot_applyRecord platforms throttle now r p] at hcore hmax
  exact ⟨hcore, hmax⟩

theorem Sound.skipped_applyRecord {p : Pool} (hp : p.Sound) {r : Record}
    (hr : r.isCommittable = true) (platforms : List Platform) (throttle : Throttle) (now : Nat)
    {k : Skip} (hk : k ∈ (applyRecord platforms throttle now r p).skipped) :
    k.field ≠ "core_size" ∧ k.field ≠ "max_size" := by
  obtain ⟨hcore, hmax⟩ := Tuned.isMet_sizes_ofRecord hr hp
  have hmem : k.field ∈ (Tuned.ofRecord r p).skipped.map (·.field) := List.mem_map_of_mem hk
  rw [Tuned.fields_skipped_ofRecord hr hp] at hmem
  obtain ⟨f, hf, hfield⟩ := List.mem_map.mp hmem
  have hunmet : ¬ f.IsMet r (Tuned.ofRecord r p).pool.snapshot := by
    simpa using List.of_mem_filter hf
  rw [← hfield]
  constructor
  · intro h
    rw [Tunable.field_injective (show f.field = Tunable.coreSize.field from h)] at hunmet
    exact hunmet hcore
  · intro h
    rw [Tunable.field_injective (show f.field = Tunable.maxSize.field from h)] at hunmet
    exact hunmet hmax

/-- **Sizes stay committable at every step.** In every state that can be reached, and between any
two setters by which a pool is then given the tunables of a record, the maximum size is positive and
the core size is at most that. From there the pool takes the sizes of every committable record, and
neither of them is reported as refused. -/
theorem sizes_committable {s : InUse} (h : Reach s) (r : Record) (k : Nat) :
    0 < (partway r k s.pool).maxSize ∧
      (partway r k s.pool).coreSize ≤ (partway r k s.pool).maxSize ∧
      ∀ (platforms : List Platform) (throttle : Throttle) (now : Nat) (r' : Record),
        r'.isCommittable = true →
          let applied := applyRecord platforms throttle now r' (partway r k s.pool)
          (applied.pool.coreSize : Int) = r'.coreSize.toInt ∧
            (applied.pool.maxSize : Int) = r'.maxSize.toInt ∧
            ∀ skip ∈ applied.skipped, skip.field ≠ "core_size" ∧ skip.field ≠ "max_size" := by
  have hsound : (partway r k s.pool).Sound := (h.partway r k).sound
  refine ⟨hsound.maxSize_pos, hsound.coreSize_le, fun platforms throttle now r' hr' => ?_⟩
  obtain ⟨hcore, hmax⟩ := hsound.sizes_applyRecord hr' platforms throttle now
  exact ⟨hcore, hmax, fun skip hskip => hsound.skipped_applyRecord hr' platforms throttle now hskip⟩

/-- The pool has been given the larger maximum size and not the larger core size yet. -/
theorem sizes_committable_halfway :
    ∃ p, ofRecord { name := "pool", coreSize := 2, maxSize := 4 } = .ok p ∧
      (partway { coreSize := 8, maxSize := 16 } 1 p).coreSize = 2 ∧
      (partway { coreSize := 8, maxSize := 16 } 1 p).maxSize = 16 ∧
      let applied := applyRecord [] {} 0 { coreSize := 1, maxSize := 1 }
        (partway { coreSize := 8, maxSize := 16 } 1 p)
      applied.pool.coreSize = 1 ∧ applied.pool.maxSize = 1 ∧
        ∀ skip ∈ applied.skipped, skip.field ≠ "core_size" ∧ skip.field ≠ "max_size" := by
  have hp : ofRecord { name := "pool", coreSize := 2, maxSize := 4 } = .ok _ := rfl
  obtain ⟨-, -, h⟩ :=
    sizes_committable (Reach.start {} hp) { coreSize := 8, maxSize := 16 } 1
  obtain ⟨hcore, hmax, hskipped⟩ := h [] {} 0 { coreSize := 1, maxSize := 1 } (by decide)
  exact ⟨_, hp, rfl, rfl, Int.ofNat_inj.mp hcore, Int.ofNat_inj.mp hmax, hskipped⟩

end Pool
end PoolControl
