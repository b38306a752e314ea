import PoolControl.Proofs.Queue.Wakeups

/-! # First in, first out

The tasks that a queue has handed out so far, followed by those that are still queued, are the
accepted ones in the order of their offers (`History.InOrder`). Tasks come in at the end of the
queue and leave it at the front, whoever takes them away: somebody who polls or drains, a take that
begins, or a taker that looks once more. So every event keeps the order, and the order holds in
every reachable state (`first_in_first_out`). -/

namespace PoolControl.TaskQueue

open Settings (QueueKind)

variable {α : Type}

/-- What becomes of a request to a queue. -/
inductive Reply (α : Type) where
  | done
  /-- There is no room, and the offered task comes back. -/
  | back (a : α)
  /-- The kind of the queue does not allow it. -/
  | refused
  deriving DecidableEq, Repr

/-- The reply to an event. -/
def InUse.reply (s : InUse α) : Event α → Reply α
  | .offer a =>
    match s.queue.offer? a with
    | some _ => .done
    | none => .back a
  | .setCapacity capacity =>
    match s.queue.setCapacity? capacity with
    | some _ => .done
    | none => .refused
  | _ => .done

/-- An offer is accepted below the limit. Otherwise the task comes back and nothing changes. -/
theorem InUse.offer_cases (s : InUse α) (a : α) :
    (s.queue.size < s.queue.limit ∧ s.reply (.offer a) = .done ∧
      s.after (.offer a) =
        { s with
          queue := { s.queue with items := s.queue.items ++ [a] }.wakeOne
          past := s.past.accept a }) ∨
    (s.queue.limit ≤ s.queue.size ∧ s.reply (.offer a) = .back a ∧ s.after (.offer a) = s) := by
  simp only [InUse.reply, InUse.after]
  cases hq : s.queue.offer? a with
  | none => exact Or.inr ⟨(offer?_eq_none_iff s.queue a).mp hq, rfl, rfl⟩
  | some queue =>
    obtain ⟨hroom, rfl⟩ := offer?_eq_some_iff.mp hq
    exact Or.inl ⟨hroom, rfl, rfl⟩

theorem InUse.setCapacity_cases (s : InUse α) (n : Nat) :
    (s.queue.kind.isResizable = true ∧ s.reply (.setCapacity n) = .done ∧
      s.after (.setCapacity n) = { s with queue := { s.queue with capacity := n } }) ∨
    (s.reply (.setCapacity n) = .refused ∧ s.after (.setCapacity n) = s) := by
  simp only [InUse.reply, InUse.after]
  cases hq : s.queue.setCapacity? n with
  | none => exact Or.inr ⟨rfl, rfl⟩
  | some queue =>
    obtain ⟨hkind, rfl⟩ := setCapacity?_eq_some_iff.mp hq
    exact Or.inl ⟨hkind, rfl, rfl⟩

/-- The accepted tasks are those that were handed out and then the given ones, in that order. Every
take has ended once at most, and its task is among those that were handed out. -/
structure History.InOrder (h : History α) (items : List α) : Prop where
  accepted_eq : h.accepted = h.handed ++ items
  ended_nodup : (h.ended.map (·.1)).Nodup
  taken_sublist : (h.ended.filterMap (·.2)).Sublist h.handed

namespace History.InOrder

variable {h : History α} {items : List α}

theorem accept (ho : h.InOrder items) (a : α) : (h.accept a).InOrder (items ++ [a]) where
  accepted_eq := by
    show h.accepted ++ [a] = h.handed ++ (items ++ [a])
    rw [ho.accepted_eq, List.append_assoc]
  ended_nodup := ho.ended_nodup
  taken_sublist := ho.taken_sublist

theorem hand {got : List α} (ho : h.InOrder (got ++ items)) : (h.hand got).InOrder items where
  accepted_eq := by
    show h.accepted = (h.handed ++ got) ++ items
    rw [ho.accepted_eq, List.append_assoc]
  ended_nodup := ho.ended_nodup
  taken_sublist := ho.taken_sublist.trans (List.sublist_append_left h.handed got)

theorem start (ho : h.InOrder items) (id : Nat) : (h.start id).InOrder items :=
  ⟨ho.accepted_eq, ho.ended_nodup, ho.taken_sublist⟩

theorem finish {got : Option α} (ho : h.InOrder (got.toList ++ items)) {id : Nat}
    (hid : id ∉ h.ended.map (·.1)) : (h.finish id got).InOrder items where
  accepted_eq := ho.hand.accepted_eq
  ended_nodup := by
    show ((h.ended ++ [(id, got)]).map (·.1)).Nodup
    rw [List.map_append, List.map_cons, List.map_nil, ← List.concat_eq_append]
    exact ho.ended_nodup.concat hid
  taken_sublist := by
    show ((h.ended ++ [(id, got)]).filterMap (·.2)).Sublist (h.handed ++ got.toList)
    have hgot : [(id, got)].filterMap (·.2) = got.toList := by cases got <;> rfl
    rw [List.filterMap_append, hgot]
    exact ho.taken_sublist.append (List.Sublist.refl _)

end History.InOrder

/-! ### What every event keeps -/

namespace InUse

variable {s : InUse α}

theorem head?_toList_append_tail (items : List α) : items.head?.toList ++ items.tail = items := by
  cases items <;> rfl

theorem Sound.not_mem_ended_of_begun (h : s.Sound) {id : Nat} (hid : id ∉ s.past.begun) :
    id ∉ s.past.ended.map (·.1) := by
  intro hm
  obtain ⟨e, he, rfl⟩ := List.mem_map.mp hm
  exact hid (h.ended_begun e he)

theorem Sound.not_mem_ended_of_due (h : s.Sound) {id : Nat} (hid : id ∈ s.queue.due s.now) :
    id ∉ s.past.ended.map (·.1) := by
  obtain ⟨t, ht, rfl⟩ := List.mem_map.mp hid
  have hmem : t.id ∈ s.past.unresolved :=
    h.takers_eq ▸ List.mem_map_of_mem (List.mem_of_mem_filter ht)
  have hopen := List.of_mem_filter hmem
  intro hm
  rw [List.contains_iff_mem.mpr hm] at hopen
  cases hopen

/-- **Every event keeps the order.** -/
theorem Sound.inOrder_after (h : s.Sound) (ho : s.past.InOrder s.queue.items) {e : Event α}
    (ok : s.allows e = true) : (s.after e).past.InOrder (s.after e).queue.items := by
  cases e with
  | offer a =>
    rcases s.offer_cases a with ⟨-, -, he⟩ | ⟨-, -, he⟩
    · rw [he]
      show (s.past.accept a).InOrder (wakeOne _).items
      rw [items_wakeOne]
      exact ho.accept a
    · rw [he]
      exact ho
  | poll =>
    show (s.past.hand s.queue.poll.1.toList).InOrder s.queue.poll.2.items
    rw [poll_fst, items_poll]
    exact History.InOrder.hand ((head?_toList_append_tail s.queue.items).symm ▸ ho)
  | drain =>
    show (s.past.hand s.queue.items).InOrder []
    exact History.InOrder.hand ((List.append_nil s.queue.items).symm ▸ ho)
  | setCapacity capacity =>
    rcases s.setCapacity_cases capacity with ⟨-, -, he⟩ | ⟨-, he⟩
    · rw [he]
      exact ho
    · rw [he]
      exact ho
  | wakeAll => exact ho
  | take id timeout =>
    have hid : id ∉ s.past.ended.map (·.1) :=
      h.not_mem_ended_of_begun (by simpa [allows] using ok)
    simp only [InUse.after]
    rcases s.queue.take_cases id (timeout.map (s.now + ·)) with
      ⟨a, rest, hi, he⟩ | ⟨-, -, he⟩ | ⟨-, -, he⟩
    · rw [he]
      rw [hi] at ho
      have hgot : s.past.InOrder ((some a).toList ++ rest) := ho
      exact (hgot.start id).finish hid
    · rw [he]
      have hgot : s.past.InOrder ((none : Option α).toList ++ s.queue.items) := ho
      exact (hgot.start id).finish hid
    · rw [he]
      exact ho.start id
  | resume id =>
    have hid : id ∉ s.past.ended.map (·.1) := h.not_mem_ended_of_due (by simpa [allows] using ok)
    show (s.past.finish id (s.queue.resume id).1).InOrder (s.queue.resume id).2.items
    rw [resume_fst, items_resume]
    exact History.InOrder.finish ((head?_toList_append_tail s.queue.items).symm ▸ ho) hid
  | advance millis => exact ho

end InUse

theorem Reach.inOrder {kind : QueueKind} {capacity : Nat} {s : InUse α}
    (h : Reach kind capacity s) : s.past.InOrder s.queue.items := by
  induction h with
  | start => exact ⟨rfl, List.nodup_nil, .refl _⟩
  | next hs e ok ih => exact hs.sound.inOrder_after ih ok

/-- **A queue is first in, first out.** In every reachable state the tasks that were handed out so
far, in the order in which they left the queue, and then those that are queued are exactly the
accepted tasks, in the order of their offers. An offer is accepted, or its task comes back and
nothing changes; a capacity that is refused changes nothing either. Every take ends once at most,
with one task at most, and the tasks of all takes are among those that were handed out. -/
theorem first_in_first_out {kind : QueueKind} {capacity : Nat} {s : InUse α}
    (h : Reach kind capacity s) :
    s.past.handed ++ s.queue.items = s.past.accepted ∧
      (∀ a, s.reply (.offer a) = .done ∧
            (s.after (.offer a)).past = s.past.accept a ∧
            (s.after (.offer a)).queue.items = s.queue.items ++ [a] ∨
          s.reply (.offer a) = .back a ∧ s.after (.offer a) = s) ∧
      (∀ n, s.reply (.setCapacity n) = .done ∧
            (s.after (.setCapacity n)).queue = { s.queue with capacity := n } ∨
          s.reply (.setCapacity n) = .refused ∧ s.after (.setCapacity n) = s) ∧
      (s.past.ended.map (·.1)).Nodup ∧
      (s.past.ended.filterMap (·.2)).Sublist s.past.handed := by
  have ho := h.inOrder
  refine ⟨ho.accepted_eq.symm, fun a => ?_, fun n => ?_, ho.ended_nodup, ho.taken_sublist⟩
  · rcases s.offer_cases a with ⟨-, hreply, he⟩ | ⟨-, hback⟩
    · rw [he]
      exact Or.inl ⟨hreply, rfl, items_wakeOne _⟩
    · exact Or.inr hback
  · rcases s.setCapacity_cases n with ⟨-, hreply, he⟩ | hrefused
    · rw [he]
      exact Or.inl ⟨hreply, rfl⟩
    · exact Or.inr hrefused

/-- A refused offer, a stolen task, a taker whose time is up and gets the task of another one, two
other capacities and a refusal for the smaller, a take that has its task at once, and a drain. -/
def busy : List (Event Nat) :=
  [.take 0 none, .take 1 (some 5), .offer 10, .offer 11, .offer 12, .poll, .advance 5, .resume 1,
    .resume 0, .setCapacity 5, .offer 13, .offer 14, .offer 15, .setCapacity 1, .offer 16,
    .take 2 none, .drain, .offer 17]

theorem first_in_first_out_busy :
    ∃ s : InUse Nat, (InUse.start .resizable 2).follow? busy = some s ∧
      s.past.handed = [10, 11, 13, 14, 15] ∧ s.queue.items = [17] ∧
      s.past.accepted = s.past.handed ++ s.queue.items ∧
      s.past.ended = [(1, some 11), (0, none), (2, some 13)] ∧ (s.past.ended.map (·.1)).Nodup ∧
      s.reply (.offer 18) = .back 18 ∧ s.after (.offer 18) = s := by
  have hs : (InUse.start .resizable 2).follow? busy = some _ := rfl
  obtain ⟨horder, hoffer, -, hended, -⟩ := first_in_first_out (Reach.start.follow hs)
  refine ⟨_, hs, rfl, rfl, horder.symm, rfl, hended, ?_⟩
  rcases hoffer 18 with ⟨hdone, -⟩ | hback
  · exact absurd hdone (by decide)
  · exact hback

end PoolControl.TaskQueue
