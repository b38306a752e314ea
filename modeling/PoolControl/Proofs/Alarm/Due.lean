import PoolControl.Alarm
import PoolControl.Proofs.Refresh.Gauges

/-! # When an alarm is due

An alarm of a kind is due for a pool if the first rule of the kind is enabled, names platforms and
has a threshold that is reached, where shares of a whole are compared without rounding
(`Monitor.IsDue`). A check compares whole percentages of a product that is clipped to a word. For
counts that are not clipped that comes to the same, so the check asks the throttle exactly if the
alarm is due (`check_of_isDue`, `check_of_not_isDue`), and hands it over if there is room. -/

namespace PoolControl

open Settings (NoticeKind NotifyRule)

/-! ### Room in the backlog -/

namespace Outbox

/-- How many more notices the outbox takes. -/
def room (o : Outbox) : Nat := if o.isOpen then o.capacity - o.backlog.length else 0

theorem post_of_room_pos {o : Outbox} (h : 0 < o.room) (n : Notice) :
    (o.post n).1 = true ∧ (o.post n).2.room = o.room - 1 := by
  unfold room at h ⊢
  by_cases hopen : o.isOpen = true
  swap
  · simp [hopen] at h
  rw [if_pos hopen] at h
  have hpost : o.post n = (true, { o with backlog := o.backlog ++ [n] }) :=
    if_pos ⟨hopen, by omega⟩
  rw [hpost]
  simp only [hopen, if_true, List.length_append, List.length_singleton, true_and]
  omega

theorem post_of_room_eq_zero {o : Outbox} (h : o.room = 0) (n : Notice) :
    o.post n = (false, o) := by
  refine if_neg fun hroom => ?_
  rw [room, if_pos hroom.1] at h
  omega

end Outbox

/-! ### Thresholds -/

namespace Monitor

variable {m : Monitor} {p : Pool} {kind : NoticeKind}

/-- The quantity that a kind of alarm watches has reached the threshold. -/
def HasReached (m : Monitor) (p : Pool) (threshold : Nat) : NoticeKind → Prop
  | .liveness => threshold * p.maxSize ≤ 100 * p.active
  | .capacity => 0 < p.queue.capacity ∧ threshold * p.queue.capacity ≤ 100 * p.queue.size
  | .reject => threshold ≤ p.rejected - m.rejectedBefore p.name
  | .change => False

instance (m : Monitor) (p : Pool) (threshold : Nat) :
    (kind : NoticeKind) → Decidable (m.HasReached p threshold kind)
  | .liveness => inferInstanceAs (Decidable (_ ≤ _))
  | .capacity => inferInstanceAs (Decidable (_ ∧ _))
  | .reject => inferInstanceAs (Decidable (_ ≤ _))
  | .change => inferInstanceAs (Decidable False)

/-- The first rule of the kind calls for an alarm of the pool. -/
def IsDue (m : Monitor) (p : Pool) (kind : NoticeKind) : Prop :=
  ∃ rule ∈ NotifyRule.find? p.rules kind, rule.enabled = true ∧ 0 < rule.thresholdValue ∧
    rule.platforms ≠ [] ∧ m.HasReached p rule.thresholdValue kind

instance (m : Monitor) (p : Pool) (kind : NoticeKind) : Decidable (m.IsDue p kind) := by
  unfold IsDue; infer_instance

/-- The counts of the pool are not clipped when percentages are taken, and it may have workers. -/
structure CanMeasure (p : Pool) : Prop where
  maxSize_pos : 0 < p.maxSize
  active_le : 100 * p.active ≤ maxWord
  queued_le : 100 * p.queue.size ≤ maxWord

/-- **A whole percentage reaches a threshold** exactly if the share does. -/
theorem le_percent?_iff {threshold part whole : Nat} (h : 100 * part ≤ maxWord) :
    (∃ value ∈ percent? part whole, threshold ≤ value) ↔
      0 < whole ∧ threshold * whole ≤ 100 * part := by
  unfold percent?
  split_ifs with hwhole
  · simp [hwhole]
  · have hpos : 0 < whole := Nat.pos_of_ne_zero hwhole
    have hmin : min (part * 100) maxWord = 100 * part := by omega
    simp [hmin, Nat.le_div_iff_mul_le hpos, hpos]

theorem le_measure?_iff (hp : CanMeasure p) {threshold : Nat} :
    (∃ value ∈ m.measure? p kind, threshold ≤ value) ↔ m.HasReached p threshold kind := by
  cases kind with
  | liveness =>
    unfold measure? HasReached
    rw [le_percent?_iff hp.active_le]
    exact and_iff_right hp.maxSize_pos
  | capacity => exact le_percent?_iff hp.queued_le
  | reject => simp [measure?, HasReached]
  | change => simp [measure?, HasReached]

theorem dueRule?_eq_some_iff {value : Nat} {rule : NotifyRule} :
    dueRule? p kind value = some rule ↔ NotifyRule.find? p.rules kind = some rule ∧
      rule.enabled = true ∧ 0 < rule.thresholdValue ∧ rule.thresholdValue ≤ value ∧
        rule.platforms ≠ [] := by
  unfold dueRule?
  rw [Option.filter_eq_some_iff]
  simp [and_assoc]

theorem called_iff (hp : CanMeasure p) :
    ((m.measure? p kind).bind fun value => (dueRule? p kind value).map (·, value)).isSome = true ↔
      m.IsDue p kind := by
  simp only [Option.isSome_iff_exists, Option.bind_eq_some_iff, Option.map_eq_some_iff]
  constructor
  · rintro ⟨-, value, hvalue, rule, hrule, -⟩
    obtain ⟨hfind, henabled, hpos, hle, hplatforms⟩ := dueRule?_eq_some_iff.mp hrule
    exact ⟨rule, hfind, henabled, hpos, hplatforms, (le_measure?_iff hp).mp ⟨value, hvalue, hle⟩⟩
  · rintro ⟨rule, hfind, henabled, hpos, hplatforms, hreached⟩
    obtain ⟨value, hvalue, hle⟩ := (le_measure?_iff hp).mpr hreached
    have hrule := dueRule?_eq_some_iff.mpr ⟨hfind, henabled, hpos, hle, hplatforms⟩
    exact ⟨_, value, hvalue, rule, hrule, rfl⟩

/-! ### One check -/

variable {c : ControlPlane}

theorem check_of_not_isDue (hp : CanMeasure p) (h : ¬ m.IsDue p kind) :
    check c m p kind = (false, c) := by
  have hnone := mt (called_iff hp).mp h
  unfold check
  split
  · rfl
  · next hsome => simp [hsome] at hnone

/-- **A check of an alarm that is due** asks the throttle and hands the alarm over if it may. -/
theorem check_of_isDue (hp : CanMeasure p) (h : m.IsDue p kind) :
    ∃ n, check c m p kind = if (c.ask (p.name, kind)).1 then (c.ask (p.name, kind)).2.post n
      else (false, (c.ask (p.name, kind)).2) := by
  have hsome := (called_iff hp).mpr h
  unfold check
  split
  · next hnone => simp [hnone] at hsome
  · exact ⟨_, rfl⟩

end Monitor
end PoolControl
