import Mathlib.Data.List.Induction
import PoolControl.Proofs.Queue.Order

/-! # How many tasks a queue holds

An event accepts a task, gives the queue another capacity, or does neither, in which case the queue
holds no more tasks than before (`InUse.Shifts`).

So a queue that does not hand off holds more tasks than its capacity only since the capacity was set
to less than it held (`InUse.Overtaken`). One that hands off holds no more tasks than takers wait,
and has woken a taker for each of them (`InUse.HandsOff`), so that nothing is left behind once no
woken taker is left (`admission_bounded`). -/

namespace PoolControl.TaskQueue

open Settings (QueueKind)

variable {α : Type} {kind : QueueKind} {capacity : Nat}

namespace InUse

variable {s t u : InUse α}

/-- The queue takes no task and holds no more of them. A queue that holds no more tasks than takers
wait still does so. -/
structure Releases (s t : InUse α) : Prop where
  kind_eq : t.queue.kind = s.queue.kind
  capacity_eq : t.queue.capacity = s.queue.capacity
  accepted_eq : t.past.accepted = s.past.accepted
  size_le : t.queue.size ≤ s.queue.size
  size_le_waiting : s.queue.size ≤ s.queue.waiting → t.queue.size ≤ t.queue.waiting

/-- What an event does to the number of tasks and its bounds. -/
inductive Shifts (s : InUse α) : Event α → InUse α → Prop
  | accept (a : α) (room : s.queue.size < s.queue.limit) : Shifts s (.offer a)
      { s with
        queue := { s.queue with items := s.queue.items ++ [a] }.wakeOne
        past := s.past.accept a }
  | resize (n : Nat) (h : s.queue.kind.isResizable = true) : Shifts s (.setCapacity n)
      { s with queue := { s.queue with capacity := n } }
  | release {e : Event α} {t : InUse α} (h : Releases s t) : Shifts s e t

theorem Releases.refl (s : InUse α) : Releases s s := ⟨rfl, rfl, rfl, Nat.le_refl _, id⟩

/-- **Every event shifts the numbers in one of these ways.** -/
theorem shifts (s : InUse α) (e : Event α) : s.Shifts e (s.after e) := by
  cases e with
  | offer a =>
    rcases s.offer_cases a with ⟨hroom, -, he⟩ | ⟨-, -, he⟩
    · rw [he]
      exact .accept a hroom
    · rw [he]
      exact .release (.refl s)
  | poll =>
    have hle : s.queue.items.tail.length ≤ s.queue.size := by simp [size]
    simp only [InUse.after, poll_eq]
    exact .release ⟨rfl, rfl, rfl, hle, Nat.le_trans hle⟩
  | drain => exact .release ⟨rfl, rfl, rfl, Nat.zero_le _, fun _ => Nat.zero_le _⟩
  | setCapacity n =>
    rcases s.setCapacity_cases n with ⟨hkind, -, he⟩ | ⟨-, he⟩
    · rw [he]
      exact .resize n hkind
    · rw [he]
      exact .release (.refl s)
  | wakeAll => exact .release ⟨rfl, rfl, rfl, Nat.le_refl _, id⟩
  | take id timeout =>
    simp only [InUse.after]
    rcases s.queue.take_cases id (timeout.map (s.now + ·)) with
      ⟨a, rest, hi, he⟩ | ⟨-, -, he⟩ | ⟨-, -, he⟩
    · have hle : rest.length ≤ s.queue.size := by simp [size, hi]
      rw [he]
      exact .release ⟨rfl, rfl, rfl, hle, Nat.le_trans hle⟩
    · rw [he]
      exact .release ⟨rfl, rfl, rfl, Nat.le_refl _, fun h => h⟩
    · rw [he]
      exact .release ⟨rfl, rfl, rfl, Nat.le_refl _, fun h => Nat.le_succ_of_le h⟩
  | resume id =>
    have hlen : s.queue.items.tail.length = s.queue.size - 1 := by simp [size]
    simp only [InUse.after, resume_eq]
    refine .release ⟨rfl, rfl, rfl, ?_, fun h => ?_⟩
    · show s.queue.items.tail.length ≤ s.queue.size
      omega
    · show s.queue.items.tail.length ≤ s.queue.waiting - 1
      omega
  | advance millis => exact .release ⟨rfl, rfl, rfl, Nat.le_refl _, id⟩

/-! ### Runs -/

theorem follow?_concat {es : List (Event α)} {e : Event α} (h : s.follow? (es ++ [e]) = some u) :
    ∃ t, s.follow? es = some t ∧ t.allows e = true ∧ t.after e = u := by
  induction es generalizing s with
  | nil =>
    simp only [List.nil_append, follow?] at h
    split_ifs at h with ok
    exact ⟨s, rfl, ok, Option.some.inj h⟩
  | cons first es ih =>
    simp only [List.cons_append, follow?] at h ⊢
    split_ifs at h with ok
    obtain ⟨t, ht, hok, hu⟩ := ih h
    exact ⟨t, by rw [if_pos ok]; exact ht, hok, hu⟩

theorem kind_after (s : InUse α) (e : Event α) : (s.after e).queue.kind = s.queue.kind := by
  have h := s.shifts e
  generalize s.after e = t at h ⊢
  cases h with
  | accept a => exact kind_wakeOne _
  | resize n => rfl
  | release h => exact h.kind_eq

/-- In the course of the events the capacity was set to less than before and less than the queue
held, and no task was accepted since. -/
def Overtaken (start : InUse α) (es : List (Event α)) (s : InUse α) : Prop :=
  ∃ before n later t, es = before ++ .setCapacity n :: later ∧ start.follow? before = some t ∧
    t.queue.kind.isResizable = true ∧ n < t.queue.capacity ∧ n < t.queue.size ∧
    s.past.accepted = t.past.accepted

theorem Overtaken.concat {start : InUse α} {es : List (Event α)} (h : Overtaken start es s)
    (e : Event α) (ht : t.past.accepted = s.past.accepted) : Overtaken start (es ++ [e]) t := by
  obtain ⟨before, n, later, u, rfl, hu, hkind, hcap, hsize, hacc⟩ := h
  exact ⟨before, n, later ++ [e], u, by simp, hu, hkind, hcap, hsize, ht.trans hacc⟩

/-- **A queue that does not hand off holds no more tasks than its capacity** unless the capacity was
set to less than it held. -/
theorem size_le_capacity_or_overtaken (hk : kind ≠ .handOff) {es : List (Event α)} {s : InUse α}
    (h : (InUse.start kind capacity : InUse α).follow? es = some s) :
    s.queue.kind = kind ∧
      (s.queue.size ≤ s.queue.capacity ∨ Overtaken (InUse.start kind capacity) es s) := by
  induction es using List.reverseRecOn generalizing s with
  | nil =>
    cases h
    exact ⟨rfl, Or.inl (Nat.zero_le _)⟩
  | append_singleton es e ih =>
    obtain ⟨t, ht, -, rfl⟩ := follow?_concat h
    obtain ⟨hkind, hbound⟩ := ih ht
    refine ⟨(t.kind_after e).trans hkind, ?_⟩
    have hshift := t.shifts e
    generalize t.after e = u at hshift ⊢
    cases hshift with
    | accept a room =>
      left
      have hlimit : t.queue.limit = t.queue.capacity := if_neg (hkind ▸ hk)
      have hsize : (t.queue.items ++ [a]).length = t.queue.size + 1 := by simp [size]
      simp only [size, items_wakeOne, capacity_wakeOne] at hsize room ⊢
      omega
    | resize n hresizable =>
      by_cases hn : t.queue.size ≤ n
      · exact Or.inl hn
      · right
        rcases hbound with hle | hover
        · exact ⟨es, n, [], t, rfl, ht, hresizable, by omega, by omega, rfl⟩
        · exact hover.concat _ rfl
    | release hr =>
      rcases hbound with hle | hover
      · left
        have hsize := hr.size_le
        have hcap := hr.capacity_eq
        omega
      · exact Or.inr (hover.concat e hr.accepted_eq)

/-! ### Handing off -/

/-- The queue holds no more tasks than takers wait. -/
structure HandsOff (s : InUse α) : Prop where
  kind_eq : s.queue.kind = .handOff
  size_le : s.queue.size ≤ s.queue.waiting

theorem HandsOff.after (h : s.HandsOff) (e : Event α) : (s.after e).HandsOff where
  kind_eq := (s.kind_after e).trans h.kind_eq
  size_le := by
    have hshift := s.shifts e
    generalize s.after e = t at hshift ⊢
    cases hshift with
    | accept a room =>
      have hlimit : s.queue.limit = s.queue.waiting := if_pos h.kind_eq
      have hsize : (s.queue.items ++ [a]).length = s.queue.size + 1 := by simp [size]
      simp only [size, items_wakeOne, waiting_wakeOne] at hsize room ⊢
      omega
    | resize n => exact h.size_le
    | release hr => exact hr.size_le_waiting h.size_le

theorem HandsOff.size_le_woken (h : s.HandsOff) (hs : s.Sound) : s.queue.size ≤ s.queue.woken := by
  have hsize := h.size_le
  have hwait := hs.waiting_eq
  have hall : s.queue.takers.length = s.queue.woken + s.queue.asleep := by
    have hsplit := List.length_eq_countP_add_countP (·.woken) (l := s.queue.takers)
    simpa [woken, asleep] using hsplit
  rcases hs.attentive with hnone | hle
  · omega
  · exact hle

end InUse

theorem Reach.handsOff {s : InUse α} (h : Reach .handOff capacity s) : s.HandsOff := by
  induction h with
  | start => exact ⟨rfl, Nat.le_refl 0⟩
  | next _ e _ ih => exact ih.after e

theorem InUse.of_reply_offer {s : InUse α} {a : α} (h : s.reply (.offer a) = .done) :
    s.queue.size < s.queue.limit ∧ (s.after (.offer a)).queue.size = s.queue.size + 1 ∧
      (s.after (.offer a)).queue.capacity = s.queue.capacity := by
  rcases s.offer_cases a with ⟨hroom, -, he⟩ | ⟨-, hback, -⟩
  · rw [he]
    exact ⟨hroom, by simp [size], by simp⟩
  · rw [hback] at h
    cases h

/-- **The bounds of a queue.** After an accepted offer a queue that does not hand off holds no more
tasks than its capacity, and it holds more only if the capacity was set to less than it held and no
offer was accepted since. One that hands off never holds more tasks than takes are unresolved, and
always has as many woken takers. It accepts a task only for a taker that waits beyond those that
have one, and once no woken taker is left every accepted task has been handed out. -/
theorem admission_bounded {es : List (Event α)} {s : InUse α}
    (h : (InUse.start kind capacity : InUse α).follow? es = some s) :
    (kind ≠ .handOff →
      (∀ a, s.reply (.offer a) = .done →
          (s.after (.offer a)).queue.size ≤ (s.after (.offer a)).queue.capacity) ∧
        (s.queue.capacity < s.queue.size →
          InUse.Overtaken (InUse.start kind capacity) es s)) ∧
    (kind = .handOff →
      s.queue.size ≤ s.past.unresolved.length ∧ s.queue.size ≤ s.queue.woken ∧
        (∀ a, s.reply (.offer a) = .done → s.queue.size < s.past.unresolved.length) ∧
        ((∀ t ∈ s.queue.takers, t.woken = false) →
          s.queue.items = [] ∧ s.past.handed = s.past.accepted)) := by
  constructor
  · intro hk
    obtain ⟨hkind, hbound⟩ := InUse.size_le_capacity_or_overtaken hk h
    refine ⟨fun a ha => ?_, fun hover => ?_⟩
    · have hlimit : s.queue.limit = s.queue.capacity := if_neg (hkind ▸ hk)
      obtain ⟨hroom, hsize, hcap⟩ := InUse.of_reply_offer ha
      omega
    · rcases hbound with hle | hbound
      · omega
      · exact hbound
  · rintro rfl
    have hreach : Reach .handOff capacity s := Reach.start.follow h
    have hoff := hreach.handsOff
    have hsound := hreach.sound
    have hwait : s.queue.waiting = s.past.unresolved.length := by
      rw [hsound.waiting_eq, ← hsound.takers_eq, List.length_map]
    have hsize := hoff.size_le
    have hwoken := hoff.size_le_woken hsound
    refine ⟨hwait ▸ hsize, hwoken, fun a ha => ?_, fun hnone => ?_⟩
    · have hlimit : s.queue.limit = s.queue.waiting := if_pos hoff.kind_eq
      obtain ⟨hroom, -, -⟩ := InUse.of_reply_offer ha
      omega
    · have hzero := s.queue.woken_eq_zero_iff.mpr hnone
      have hempty : s.queue.items = [] := List.eq_nil_of_length_eq_zero (by
        simp only [size] at hwoken
        omega)
      have horder := hreach.inOrder.accepted_eq
      rw [hempty, List.append_nil] at horder
      exact ⟨hempty, horder.symm⟩

/-- Three tasks are queued when the capacity is set to one, which refuses the fourth, and then to
two. -/
def shrinking : List (Event Nat) :=
  [.offer 1, .offer 2, .offer 3, .setCapacity 1, .offer 4, .setCapacity 2]

/-- Three takers wait. The time of the first is up when it is woken, a broadcast wakes the others,
and somebody else takes the first task away. One more task comes while only one taker is left. -/
def handing : List (Event Nat) :=
  [.take 0 (some 5), .take 1 none, .take 2 none, .offer 10, .advance 5, .wakeAll, .offer 11, .poll,
    .resume 0, .resume 1, .offer 12, .offer 13, .resume 2]

theorem admission_bounded_shrinking :
    ∃ s t : InUse Nat, (InUse.start .resizable 3).follow? shrinking = some s ∧
      s.queue.capacity = 2 ∧ s.queue.size = 3 ∧
      InUse.Overtaken (InUse.start .resizable 3) shrinking s ∧
      (InUse.start .handOff 3).follow? handing = some t ∧
      t.past.accepted = [10, 11, 12] ∧ t.queue.items = [] ∧ t.past.handed = t.past.accepted := by
  have hs : (InUse.start .resizable 3).follow? shrinking = some _ := rfl
  have ht : (InUse.start .handOff 3).follow? handing = some _ := rfl
  obtain ⟨-, hover⟩ := (admission_bounded hs).1 (by decide)
  obtain ⟨-, -, -, hsettled⟩ := (admission_bounded ht).2 rfl
  obtain ⟨hempty, hall⟩ := hsettled (by decide)
  exact ⟨_, _, hs, rfl, rfl, hover (by decide), ht, rfl, hempty, hall⟩

end PoolControl.TaskQueue
