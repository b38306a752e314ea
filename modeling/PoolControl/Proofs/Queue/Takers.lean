import Mathlib.Data.List.Nodup
import PoolControl.TaskQueue

/-! # Waiting takers

The takers of a queue are either *woken*, and will look once more when they next run, or *asleep*.
Here is what each operation of a queue does to the two numbers, `woken` and `asleep`.

A queue is `Attentive` if no taker sleeps while there are more tasks than woken takers. Every
operation keeps a queue attentive: an offer wakes a sleeping taker if there is one, and whoever
takes a task away (a woken taker, one whose deadline has passed, or someone who does not wait)
leaves enough woken takers for the tasks that remain. -/

namespace PoolControl

/-! ### Lists with distinct keys -/

/-- In a list with distinct keys, what is done at the key of an entry is done to that entry only. -/
theorem exists_split_of_key {β : Type} (key : β → Nat) {l : List β} (hn : (l.map key).Nodup)
    {x : β} (hx : x ∈ l) :
    ∃ before after, l = before ++ x :: after ∧
      l.filter (fun y => key y != key x) = before ++ after ∧
      ∀ f : β → β, l.map (fun y => if key y = key x then f y else y) = before ++ f x :: after := by
  obtain ⟨before, after, rfl⟩ := List.append_of_mem hx
  have hne : ∀ y, y ∈ before ∨ y ∈ after → key y ≠ key x := by
    intro y hy he
    rw [List.map_append, List.map_cons, List.nodup_append] at hn
    rcases hy with hy | hy
    · exact hn.2.2 _ (List.mem_map_of_mem hy) _ List.mem_cons_self he
    · exact (List.nodup_cons.mp hn.2.1).1 (he ▸ List.mem_map_of_mem hy)
  refine ⟨before, after, rfl, ?_, fun f => ?_⟩
  · rw [List.filter_append, List.filter_cons_of_neg (by simp),
      List.filter_eq_self.mpr fun y hy => by simpa using hne y (Or.inl hy),
      List.filter_eq_self.mpr fun y hy => by simpa using hne y (Or.inr hy)]
  · have hkeep : ∀ part : List β, (∀ y ∈ part, key y ≠ key x) →
        part.map (fun y => if key y = key x then f y else y) = part := by
      intro part hp
      conv_rhs => rw [← List.map_id part]
      exact List.map_congr_left fun y hy => if_neg (hp y hy)
    rw [List.map_append, List.map_cons, hkeep before fun y hy => hne y (Or.inl hy),
      hkeep after fun y hy => hne y (Or.inr hy), if_pos rfl]

namespace TaskQueue

variable {α : Type}

/-- How many takers were woken and have not looked yet. -/
def woken (q : TaskQueue α) : Nat := q.takers.countP (·.woken)

/-- How many takers were not woken. -/
def asleep (q : TaskQueue α) : Nat := q.takers.countP (!·.woken)

/-- No taker sleeps while there are more tasks than woken takers. -/
def Attentive (q : TaskQueue α) : Prop := q.asleep = 0 ∨ q.size ≤ q.woken

theorem asleep_eq_zero_iff (q : TaskQueue α) :
    q.asleep = 0 ↔ ∀ t ∈ q.takers, t.woken = true := by
  simp [asleep, List.countP_eq_zero]

theorem woken_eq_zero_iff (q : TaskQueue α) :
    q.woken = 0 ↔ ∀ t ∈ q.takers, t.woken = false := by
  simp [woken, List.countP_eq_zero]

theorem Attentive.idle {q : TaskQueue α} (h : q.Attentive) (hw : q.woken = 0) :
    q.takers = [] ∨ q.items = [] := by
  rcases h with h | h
  · left
    refine List.eq_nil_iff_forall_not_mem.mpr fun t ht => ?_
    have h1 := (q.asleep_eq_zero_iff.mp h) t ht
    have h2 := (q.woken_eq_zero_iff.mp hw) t ht
    rw [h1] at h2
    cases h2
  · right
    rw [hw] at h
    exact List.eq_nil_of_length_eq_zero (Nat.le_zero.mp h)

/-! ### Waking takers -/

theorem wakeFirst_eq_none_iff : ∀ {ts : List Taker},
    wakeFirst ts = none ↔ ∀ t ∈ ts, t.woken = true
  | [] => by simp [wakeFirst]
  | t :: ts => by
    unfold wakeFirst
    by_cases h : t.woken = true
    · rw [if_pos h, Option.map_eq_none_iff, wakeFirst_eq_none_iff]
      simp [h]
    · simp [h]

/-- **The taker that is woken is the first that sleeps**, and nothing else changes. -/
theorem wakeFirst_eq_some : ∀ {ts us : List Taker}, wakeFirst ts = some us →
    ∃ before t after, ts = before ++ t :: after ∧ (∀ b ∈ before, b.woken = true) ∧
      t.woken = false ∧ us = before ++ { t with woken := true } :: after
  | [], us, h => by simp [wakeFirst] at h
  | t :: ts, us, h => by
    unfold wakeFirst at h
    by_cases ht : t.woken = true
    · rw [if_pos ht, Option.map_eq_some_iff] at h
      obtain ⟨us', hu, rfl⟩ := h
      obtain ⟨before, t', after, rfl, hb, ht', rfl⟩ := wakeFirst_eq_some hu
      refine ⟨t :: before, t', after, rfl, fun b hm => ?_, ht', rfl⟩
      rcases List.mem_cons.mp hm with rfl | hm
      · exact ht
      · exact hb b hm
    · rw [if_neg ht] at h
      exact ⟨[], t, ts, rfl, by simp, by simpa using ht, (Option.some.inj h).symm⟩

/-- Waking one taker wakes the one that has slept longest; where none sleeps a permit is left. -/
theorem wakeOne_cases (q : TaskQueue α) :
    (q.asleep = 0 ∧ q.wakeOne = { q with permit := true }) ∨
    ∃ before t after, q.takers = before ++ t :: after ∧ (∀ b ∈ before, b.woken = true) ∧
      t.woken = false ∧
      q.wakeOne = { q with takers := before ++ { t with woken := true } :: after } := by
  unfold wakeOne
  cases h : wakeFirst q.takers with
  | none => exact Or.inl ⟨q.asleep_eq_zero_iff.mpr (wakeFirst_eq_none_iff.mp h), rfl⟩
  | some us =>
    obtain ⟨before, t, after, hq, hb, ht, rfl⟩ := wakeFirst_eq_some h
    exact Or.inr ⟨before, t, after, hq, hb, ht, rfl⟩

@[simp] theorem waiting_wakeOne (q : TaskQueue α) : q.wakeOne.waiting = q.waiting := by
  rcases q.wakeOne_cases with ⟨-, h⟩ | ⟨_, _, _, -, -, -, h⟩ <;> rw [h]

@[simp] theorem kind_wakeOne (q : TaskQueue α) : q.wakeOne.kind = q.kind := by
  rcases q.wakeOne_cases with ⟨-, h⟩ | ⟨_, _, _, -, -, -, h⟩ <;> rw [h]

@[simp] theorem capacity_wakeOne (q : TaskQueue α) : q.wakeOne.capacity = q.capacity := by
  rcases q.wakeOne_cases with ⟨-, h⟩ | ⟨_, _, _, -, -, -, h⟩ <;> rw [h]

@[simp] theorem takerIds_wakeOne (q : TaskQueue α) :
    q.wakeOne.takers.map (·.id) = q.takers.map (·.id) := by
  rcases q.wakeOne_cases with ⟨-, h⟩ | ⟨_, _, _, hq, -, -, h⟩
  · rw [h]
  · rw [h, hq]; simp

theorem woken_wakeOne (q : TaskQueue α) :
    (q.asleep = 0 ∧ q.wakeOne.woken = q.woken ∧ q.wakeOne.asleep = 0) ∨
      (q.wakeOne.woken = q.woken + 1 ∧ q.asleep = q.wakeOne.asleep + 1) := by
  rcases q.wakeOne_cases with ⟨h0, h⟩ | ⟨before, t, after, hq, -, ht, h⟩
  · left; rw [h]; exact ⟨h0, rfl, h0⟩
  · right
    simp only [woken, asleep, h, hq, List.countP_append, List.countP_cons, ht]
    simp; omega

@[simp] theorem woken_wakeAll (q : TaskQueue α) : q.wakeAll.woken = q.takers.length := by
  simp [woken, wakeAll, List.countP_eq_length.mpr]

@[simp] theorem asleep_wakeAll (q : TaskQueue α) : q.wakeAll.asleep = 0 := by
  rw [asleep_eq_zero_iff]; simp [wakeAll]

@[simp] theorem takerIds_wakeAll (q : TaskQueue α) :
    q.wakeAll.takers.map (·.id) = q.takers.map (·.id) := by
  simp [wakeAll]

/-! ### What the operations do -/

theorem poll_eq (q : TaskQueue α) :
    q.poll = (q.items.head?, { q with items := q.items.tail }) := by
  obtain ⟨kind, capacity, items, waiting, permit, takers⟩ := q
  cases items <;> rfl

theorem poll_of_items_eq_nil {q : TaskQueue α} (hi : q.items = []) : q.poll = (none, q) := by
  rw [poll, hi]

theorem resume_eq (q : TaskQueue α) (id : Nat) :
    q.resume id = (q.items.head?,
      { q with
        takers := q.takers.filter (·.id != id)
        waiting := q.waiting - 1
        items := q.items.tail }) := by
  rw [resume, poll_eq]
  rfl

theorem offer?_eq_some_iff {q r : TaskQueue α} {a : α} :
    q.offer? a = some r ↔
      q.size < q.limit ∧ r = { q with items := q.items ++ [a] }.wakeOne := by
  unfold offer?
  split_ifs with h
  · simp [h, eq_comm]
  · simp [h]

theorem setCapacity?_eq_some_iff {q r : TaskQueue α} {capacity : Nat} :
    q.setCapacity? capacity = some r ↔
      q.kind.isResizable = true ∧ r = { q with capacity } := by
  unfold setCapacity?
  split_ifs with h
  · simp [h, eq_comm]
  · simp [h]

/-- A taker that found nothing finds nothing once it has registered either. -/
theorem poll_enroll {q : TaskQueue α} (hi : q.items = []) (id : Nat) (deadline : Option Nat) :
    (q.enroll id deadline).2.poll = (none, (q.enroll id deadline).2) := by
  rw [poll_of_items_eq_nil (by rw [items_enroll, hi])]

/-- **A take ends at once or waits**, without the look that follows the registration. -/
theorem take_eq (q : TaskQueue α) (id : Nat) (deadline : Option Nat) :
    q.take id deadline =
      match q.items with
      | a :: items => (.done (some a), { q with items })
      | [] =>
        if q.permit then (.done none, { q with permit := false })
        else (.waits,
          { q with takers := q.takers ++ [{ id, deadline }], waiting := q.waiting + 1 }) := by
  unfold take
  cases hi : q.items with
  | cons a items => simp only [poll, hi]
  | nil =>
    simp only [poll_of_items_eq_nil hi, poll_enroll hi]
    cases hp : q.permit <;> simp [enroll, unenroll, hi, hp]

theorem take_cases (q : TaskQueue α) (id : Nat) (deadline : Option Nat) :
    (∃ a rest, q.items = a :: rest ∧
      q.take id deadline = (.done (some a), { q with items := rest })) ∨
    (q.items = [] ∧ q.permit = true ∧
      q.take id deadline = (.done none, { q with permit := false })) ∨
    (q.items = [] ∧ q.permit = false ∧
      q.take id deadline = (.waits,
        { q with takers := q.takers ++ [{ id, deadline }], waiting := q.waiting + 1 })) := by
  rw [take_eq]
  cases h : q.items with
  | cons a rest => exact Or.inl ⟨a, rest, rfl, rfl⟩
  | nil =>
    cases hp : q.permit with
    | true => exact Or.inr (Or.inl ⟨rfl, rfl, rfl⟩)
    | false => exact Or.inr (Or.inr ⟨rfl, rfl, rfl⟩)

section Attentive
variable {q : TaskQueue α} (hq : q.Attentive)
include hq

theorem Attentive.offer? {r : TaskQueue α} {a : α} (h : q.offer? a = some r) : r.Attentive := by
  obtain ⟨-, rfl⟩ := offer?_eq_some_iff.mp h
  have hsize : ({ q with items := q.items ++ [a] } : TaskQueue α).wakeOne.size = q.size + 1 := by
    simp [size]
  rcases woken_wakeOne { q with items := q.items ++ [a] } with ⟨-, -, h0⟩ | ⟨hw, hs⟩
  · exact Or.inl h0
  · right
    rcases hq with h0 | hle
    · have : q.asleep = _ + 1 := hs
      omega
    · have : q.woken + 1 = _ := hw.symm
      omega

theorem Attentive.of_le {items : List α} (hle : items.length ≤ q.items.length) :
    ({ q with items } : TaskQueue α).Attentive := by
  rcases hq with h0 | h
  · exact Or.inl h0
  · exact Or.inr (Nat.le_trans hle h)

theorem Attentive.poll : q.poll.2.Attentive := by
  rw [poll_eq]
  exact hq.of_le (by simp)

theorem Attentive.drain : q.drain.2.Attentive := hq.of_le (by simp)

theorem Attentive.setCapacity? {r : TaskQueue α} {capacity : Nat}
    (h : q.setCapacity? capacity = some r) : r.Attentive := by
  obtain ⟨-, rfl⟩ := setCapacity?_eq_some_iff.mp h
  exact hq

theorem Attentive.take (id : Nat) (deadline : Option Nat) : (q.take id deadline).2.Attentive := by
  rcases q.take_cases id deadline with ⟨a, rest, hi, h⟩ | ⟨-, -, h⟩ | ⟨hi, -, h⟩
  · rw [h]
    exact hq.of_le (by simp [hi])
  · rw [h]
    exact hq
  · rw [h]
    exact Or.inr (by simp [size, hi])

/-- The taker that looks once more takes a task with it if there is one, so those that stay woken
are enough for the rest. -/
theorem Attentive.resume (hn : (q.takers.map (·.id)).Nodup) {t : Taker} (ht : t ∈ q.takers) :
    (q.resume t.id).2.Attentive := by
  obtain ⟨before, after, heq, hf, -⟩ := exists_split_of_key (·.id) hn ht
  rw [resume_eq]
  simp only [Attentive, asleep, woken, size, heq, List.countP_append, List.countP_cons] at hq
  simp only [Attentive, asleep, woken, size, hf, List.countP_append, List.length_tail]
  -- If it was woken, there is one task less beside one woken taker less.
  cases hw : t.woken with
  | true =>
    simp only [hw, Bool.not_true, Bool.false_eq_true, if_true, if_false] at hq
    omega
  | false =>
    simp only [hw, Bool.not_false, Bool.false_eq_true, if_true, if_false] at hq
    omega

end Attentive

theorem attentive_empty (kind : Settings.QueueKind) (capacity : Nat) :
    (empty kind capacity : TaskQueue α).Attentive := Or.inl rfl

theorem attentive_wakeAll (q : TaskQueue α) : q.wakeAll.Attentive := Or.inl q.asleep_wakeAll

end TaskQueue
end PoolControl
