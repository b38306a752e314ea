import PoolControl.Proofs.Refresh.Accounting

/-! # Differences tell snapshots apart

A difference compares the fields of two snapshots, most of them by their values and the keep-alive
by its text. The snapshots of pools have a keep-alive of whole milliseconds, and then every field is
told apart by its text. So a difference lists exactly the fields that differ (`Snapshot.diff_eq`),
and together with the old snapshot it determines the new one (`Pool.diff_exact`). -/

namespace PoolControl

namespace Settings

theorem QueueKind.name_injective : Function.Injective QueueKind.name := by
  intro k k' h
  revert h
  cases k <;> cases k' <;> decide

end Settings

/-- The change back. -/
def Change.swap (c : Change) : Change := { c with old := c.new, new := c.old }

namespace Snapshot

/-! ### Fields -/

/-- A field of a snapshot. -/
inductive Field where
  | name
  | coreSize
  | maxSize
  | queueKind
  | queueCapacity
  | keepAlive
  | policy
  | coreTimeout
  deriving DecidableEq, Repr

namespace Field

/-- Every field, in order. -/
def all : List Field :=
  [name, coreSize, maxSize, queueKind, queueCapacity, keepAlive, policy, coreTimeout]

/-- The name under which a change of the field is reported. -/
def key : Field → String
  | name => "name"
  | coreSize => "core_size"
  | maxSize => "max_size"
  | queueKind => "queue_type"
  | queueCapacity => "queue_capacity"
  | keepAlive => "keep_alive"
  | policy => "reject_policy"
  | coreTimeout => "allow_core_timeout"

/-- The value of the field as a text. -/
def text (s : Snapshot) : Field → String
  | name => s.name
  | coreSize => toString s.coreSize
  | maxSize => toString s.maxSize
  | queueKind => s.queueKind.name
  | queueCapacity => toString s.queueCapacity
  | keepAlive => s.keepAliveText
  | policy => s.policy
  | coreTimeout => boolText s.coreTimeout

/-- The field has the same value in both snapshots. -/
def Agree (s s' : Snapshot) : Field → Prop
  | name => s.name = s'.name
  | coreSize => s.coreSize = s'.coreSize
  | maxSize => s.maxSize = s'.maxSize
  | queueKind => s.queueKind = s'.queueKind
  | queueCapacity => s.queueCapacity = s'.queueCapacity
  | keepAlive => s.keepAlive = s'.keepAlive
  | policy => s.policy = s'.policy
  | coreTimeout => s.coreTimeout = s'.coreTimeout

instance (s s' : Snapshot) (f : Field) : Decidable (f.Agree s s') := by
  cases f <;> unfold Agree <;> infer_instance

/-- The change of the field from one snapshot to the other. -/
def change (s s' : Snapshot) (f : Field) : Change :=
  { field := f.key, old := f.text s, new := f.text s' }

theorem mem_all (f : Field) : f ∈ all := by cases f <;> decide

theorem key_injective : Function.Injective key := by
  intro f g h
  revert h
  cases f <;> cases g <;> decide

variable {s s' : Snapshot}

theorem Agree.symm {f : Field} (h : f.Agree s s') : f.Agree s' s := by
  cases f <;> exact Eq.symm h

theorem agree_iff_eq : (∀ f : Field, f.Agree s s') ↔ s = s' := by
  constructor
  · intro h
    obtain ⟨n, c, m, k, q, a, p, t⟩ := s
    obtain ⟨n', c', m', k', q', a', p', t'⟩ := s'
    obtain rfl : n = n' := h name
    obtain rfl : c = c' := h coreSize
    obtain rfl : m = m' := h maxSize
    obtain rfl : k = k' := h queueKind
    obtain rfl : q = q' := h queueCapacity
    obtain rfl : a = a' := h keepAlive
    obtain rfl : p = p' := h policy
    obtain rfl : t = t' := h coreTimeout
    rfl
  · rintro rfl f
    cases f <;> rfl

end Field

/-! ### What a difference lists -/

/-- The keep-alive is a number of whole milliseconds. -/
def IsWhole (s : Snapshot) : Prop := s.keepAlive = .ofMillis s.keepAlive.millis

variable {s s' s'' : Snapshot}

/-- **Fields are told apart by their texts.** -/
theorem Field.text_eq_iff (hs : s.IsWhole) (hs' : s'.IsWhole) (f : Field) :
    f.text s = f.text s' ↔ f.Agree s s' := by
  cases f with
  | name => exact Iff.rfl
  | coreSize => exact repr_injective.eq_iff
  | maxSize => exact repr_injective.eq_iff
  | queueKind => exact Settings.QueueKind.name_injective.eq_iff
  | queueCapacity => exact repr_injective.eq_iff
  | keepAlive => exact keepAliveText_inj hs' hs
  | policy => exact Iff.rfl
  | coreTimeout =>
    show boolText s.coreTimeout = boolText s'.coreTimeout ↔ s.coreTimeout = s'.coreTimeout
    cases s.coreTimeout <;> cases s'.coreTimeout <;> decide

/-- **A difference** lists the fields that differ, in order, with their old and new texts. -/
theorem diff_eq (hs : s.IsWhole) (hs' : s'.IsWhole) :
    s.diff s' = (Field.all.filter fun f => ¬ f.Agree s s').map (Field.change s s') := by
  have hkeep : s.keepAliveText = s'.keepAliveText ↔ s.keepAlive = s'.keepAlive :=
    keepAliveText_inj hs' hs
  rw [map_filter_eq_flatMap (Field.Agree s s')]
  simp only [diff, Change.between, hkeep, id]
  simp only [Field.all, List.flatMap_cons, List.flatMap_nil, Field.Agree, Field.change, Field.key,
    Field.text, List.append_nil, List.append_assoc]

theorem keys_diff_eq (hs : s.IsWhole) (hs' : s'.IsWhole) :
    (s.diff s').keys = (Field.all.filter fun f => ¬ f.Agree s s').map Field.key := by
  rw [diff_eq hs hs', Diff.keys, List.map_map]
  rfl

theorem nodup_keys_diff (hs : s.IsWhole) (hs' : s'.IsWhole) : (s.diff s').keys.Nodup := by
  rw [keys_diff_eq hs hs']
  exact ((show Field.all.Nodup by decide).filter _).map Field.key_injective

theorem diff_eq_nil_iff (hs : s.IsWhole) (hs' : s'.IsWhole) : s.diff s' = [] ↔ s = s' := by
  rw [diff_eq hs hs', List.map_eq_nil_iff, List.filter_eq_nil_iff, ← Field.agree_iff_eq]
  constructor
  · intro h f
    simpa using h f f.mem_all
  · intro h f _
    simpa using h f

theorem diff_swap (hs : s.IsWhole) (hs' : s'.IsWhole) :
    s'.diff s = (s.diff s').map Change.swap := by
  rw [diff_eq hs' hs, diff_eq hs hs', List.map_map]
  have hsame : (Field.all.filter fun f => ¬ f.Agree s' s) =
      Field.all.filter fun f => ¬ f.Agree s s' := by
    refine List.filter_congr fun f _ => ?_
    rw [decide_eq_decide, not_iff_not]
    exact ⟨Field.Agree.symm, Field.Agree.symm⟩
  rw [hsame]
  rfl

theorem mem_diff_iff (hs : s.IsWhole) (hs' : s'.IsWhole) (f : Field) (new : String) :
    (f.key, new) ∈ (s.diff s').map (fun c => (c.field, c.new)) ↔
      ¬ f.Agree s s' ∧ new = f.text s' := by
  rw [diff_eq hs hs', List.map_map, List.mem_map]
  constructor
  · rintro ⟨g, hg, heq⟩
    simp only [Function.comp, Field.change, Prod.mk.injEq] at heq
    obtain ⟨hkey, rfl⟩ := heq
    obtain rfl := Field.key_injective hkey
    exact ⟨by simpa using List.of_mem_filter hg, rfl⟩
  · rintro ⟨hdiffers, rfl⟩
    exact ⟨f, List.mem_filter.mpr ⟨f.mem_all, by simpa using hdiffers⟩, rfl⟩

/-- **What is listed determines the new snapshot**, given the old one: a listed field has the value
of its new text, and every other is as before. -/
theorem eq_of_diff_eq (hs : s.IsWhole) (hs' : s'.IsWhole) (hs'' : s''.IsWhole)
    (h : (s.diff s').map (fun c => (c.field, c.new)) =
      (s.diff s'').map (fun c => (c.field, c.new))) : s' = s'' := by
  refine Field.agree_iff_eq.mp fun f => ?_
  have hlisted := mem_diff_iff hs hs' f (f.text s')
  rw [h, mem_diff_iff hs hs''] at hlisted
  by_cases hagree : f.Agree s s'
  · have hagree' : f.Agree s s'' := by
      by_contra hdiffers
      have hlisted' := mem_diff_iff hs hs'' f (f.text s'')
      rw [← h, mem_diff_iff hs hs'] at hlisted'
      exact (hlisted'.mpr ⟨hdiffers, rfl⟩).1 hagree
    rw [← Field.text_eq_iff hs' hs'', ← (Field.text_eq_iff hs hs' f).mpr hagree]
    exact (Field.text_eq_iff hs hs'' f).mpr hagree'
  · exact (Field.text_eq_iff hs' hs'' f).mp (hlisted.mpr ⟨hagree, rfl⟩).2

end Snapshot

theorem Pool.isWhole_snapshot (p : Pool) : p.snapshot.IsWhole := by
  show p.keepAliveSpan = .ofMillis p.keepAliveSpan.millis
  rw [Pool.keepAliveSpan, Duration.millis_ofMillis]

theorem Pool.millis_mod_size (p : Pool) :
    p.snapshot.keepAlive.millis % UInt64.size = p.snapshot.keepAlive.millis := by
  show p.keepAliveSpan.millis % UInt64.size = p.keepAliveSpan.millis
  rw [Pool.keepAliveSpan, Duration.millis_ofMillis]
  exact Nat.mod_eq_of_lt p.keepAlive.toNat_lt

/-- **Differences are exact.** Between the snapshots of any two pools, nothing is listed exactly if
they are equal; one change is listed for each field that differs, in the order of the fields; and
the difference back is the same list with old and new swapped. From the old snapshot and the listed
new texts, the new snapshot is determined. Its encoding has every field, in the same order, and the
keep-alive in full. -/
theorem Pool.diff_exact (p q r : Pool) :
    (p.snapshot.diff q.snapshot = [] ↔ p.snapshot = q.snapshot) ∧
    ((p.snapshot.diff q.snapshot).keys =
        (Snapshot.Field.all.filter fun f => ¬ f.Agree p.snapshot q.snapshot).map
          Snapshot.Field.key ∧
      (p.snapshot.diff q.snapshot).keys.Nodup) ∧
    q.snapshot.diff p.snapshot = (p.snapshot.diff q.snapshot).map Change.swap ∧
    ((p.snapshot.diff q.snapshot).map (fun c => (c.field, c.new)) =
        (p.snapshot.diff r.snapshot).map (fun c => (c.field, c.new)) ↔
      q.snapshot = r.snapshot) ∧
    ∃ members, q.snapshot.toDatum = .table members ∧
      members.map (·.1) = Snapshot.Field.all.map Snapshot.Field.key ∧
      ("keep_alive", .nat q.snapshot.keepAlive.millis) ∈ members := by
  have hp := p.isWhole_snapshot
  have hq := q.isWhole_snapshot
  refine ⟨Snapshot.diff_eq_nil_iff hp hq,
    ⟨Snapshot.keys_diff_eq hp hq, Snapshot.nodup_keys_diff hp hq⟩, Snapshot.diff_swap hp hq,
    ⟨Snapshot.eq_of_diff_eq hp hq r.isWhole_snapshot, fun h => by rw [h]⟩, _, rfl, rfl, ?_⟩
  rw [q.millis_mod_size]
  simp

end PoolControl
