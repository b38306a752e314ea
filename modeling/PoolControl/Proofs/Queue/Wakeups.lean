import PoolControl.Proofs.Queue.Takers

/-! # A queue in use loses no wake-up

`InUse` is a queue at a moment, with what happened at it so far (`History`). An `Event` is one
operation of somebody who uses the queue, a taker that goes on, or some time that passes; a state is
reachable (`Reach`) if a sequence of events leads to it from an empty queue. Events are allowed in
any order: takers that were woken and takers whose deadline has passed go on whenever they like, and
only a take that begins needs an identity of its own.

In every reachable state the takers that wait are the takes that have not ended, and the queue is
attentive (`Sound`). So once no woken taker is left, nobody waits beside a queued task
(`no_wakeup_lost`). -/

namespace PoolControl.TaskQueue

open Settings (QueueKind)

variable {α : Type}

/-- What happened at a queue since it was made. -/
structure History (α : Type) where
  /-- The accepted tasks, in order. -/
  accepted : List α := []
  /-- The tasks that were handed out, in order. -/
  handed : List α := []
  /-- The takes that were begun, in order. -/
  begun : List Nat := []
  /-- The takes that have ended, with what each of them got. -/
  ended : List (Nat × Option α) := []
  deriving DecidableEq, Repr

namespace History

/-- One more task was accepted. -/
def accept (h : History α) (a : α) : History α := { h with accepted := h.accepted ++ [a] }

/-- Tasks were handed out. -/
def hand (h : History α) (as : List α) : History α := { h with handed := h.handed ++ as }

/-- A take was begun. -/
def start (h : History α) (id : Nat) : History α := { h with begun := h.begun ++ [id] }

/-- A take has ended. -/
def finish (h : History α) (id : Nat) (got : Option α) : History α :=
  { h.hand got.toList with ended := h.ended ++ [(id, got)] }

/-- The takes that were begun and have not ended. -/
def unresolved (h : History α) : List Nat :=
  h.begun.filter fun id => !(h.ended.map (·.1)).contains id

end History

/-- What happens at a queue. -/
inductive Event (α : Type) where
  | offer (a : α)
  | poll
  | drain
  | setCapacity (capacity : Nat)
  | wakeAll
  /-- A take begins. It waits no longer than the span, if there is one. -/
  | take (id : Nat) (timeout : Option Nat)
  /-- A taker that waits goes on. -/
  | resume (id : Nat)
  | advance (millis : Nat)
  deriving DecidableEq, Repr

/-- A queue at a moment, with what happened at it so far. -/
structure InUse (α : Type) where
  queue : TaskQueue α
  now : Nat := 0
  past : History α := {}
  deriving DecidableEq, Repr

namespace InUse

/-- An empty queue that nobody has used. -/
def start (kind : QueueKind) (capacity : Nat) : InUse α := { queue := .empty kind capacity }

/-- Whether the event can happen: every take has an identity of its own, and a taker goes on when
it was woken or its deadline has passed. -/
def allows (s : InUse α) : Event α → Bool
  | .take id _ => !s.past.begun.contains id
  | .resume id => (s.queue.due s.now).contains id
  | _ => true

/-- The state after an event. -/
def after (s : InUse α) : Event α → InUse α
  | .offer a =>
    match s.queue.offer? a with
    | some queue => { s with queue, past := s.past.accept a }
    | none => s
  | .poll =>
    let (got, queue) := s.queue.poll
    { s with queue, past := s.past.hand got.toList }
  | .drain =>
    let (got, queue) := s.queue.drain
    { s with queue, past := s.past.hand got }
  | .setCapacity capacity => { s with queue := (s.queue.setCapacity? capacity).getD s.queue }
  | .wakeAll => { s with queue := s.queue.wakeAll }
  | .take id timeout =>
    match s.queue.take id (timeout.map (s.now + ·)) with
    | (.done got, queue) => { s with queue, past := (s.past.start id).finish id got }
    | (.waits, queue) => { s with queue, past := s.past.start id }
  | .resume id =>
    let (got, queue) := s.queue.resume id
    { s with queue, past := s.past.finish id got }
  | .advance millis => { s with now := s.now + millis }

/-- The state after a sequence of events, if they can happen one after the other. -/
def follow? (s : InUse α) : List (Event α) → Option (InUse α)
  | [] => some s
  | e :: es => if s.allows e then (s.after e).follow? es else none

end InUse

/-- The states that sequences of events lead to. -/
inductive Reach (kind : QueueKind) (capacity : Nat) : InUse α → Prop
  | start : Reach kind capacity (InUse.start kind capacity)
  | next {s : InUse α} (h : Reach kind capacity s) (e : Event α) (ok : s.allows e = true) :
    Reach kind capacity (s.after e)

theorem Reach.follow {kind : QueueKind} {capacity : Nat} : ∀ {es : List (Event α)} {s t : InUse α},
    Reach kind capacity s → s.follow? es = some t → Reach kind capacity t
  | [], s, t, h, he => by cases he; exact h
  | e :: es, s, t, h, he => by
    unfold InUse.follow? at he
    split_ifs at he with ok
    exact (h.next e ok).follow he

/-! ### What every event keeps -/

/-- The takers that wait are the takes that have not ended, and they are attended to. -/
structure InUse.Sound (s : InUse α) : Prop where
  begun_nodup : s.past.begun.Nodup
  ended_begun : ∀ e ∈ s.past.ended, e.1 ∈ s.past.begun
  takers_eq : s.queue.takers.map (·.id) = s.past.unresolved
  waiting_eq : s.queue.waiting = s.queue.takers.length
  attentive : s.queue.Attentive

theorem InUse.Sound.takers_nodup {s : InUse α} (h : s.Sound) :
    (s.queue.takers.map (·.id)).Nodup := by
  rw [h.takers_eq]
  exact h.begun_nodup.filter _

theorem InUse.sound_start (kind : QueueKind) (capacity : Nat) :
    (InUse.start kind capacity : InUse α).Sound where
  begun_nodup := List.nodup_nil
  ended_begun := by simp [InUse.start]
  takers_eq := rfl
  waiting_eq := rfl
  attentive := attentive_empty kind capacity

namespace History

variable (h : History α) {id : Nat} (got : Option α)

theorem unresolved_start_finish (hid : id ∉ h.begun) :
    ((h.start id).finish id got).unresolved = h.unresolved := by
  simp only [unresolved, start, finish, hand, List.filter_append, List.map_append, List.map_cons,
    List.map_nil]
  rw [List.filter_cons_of_neg (by simp), List.filter_nil, List.append_nil]
  refine List.filter_congr fun i hi => ?_
  have hne : i ≠ id := fun he => hid (he ▸ hi)
  simp [hne]

theorem unresolved_start (hid : id ∉ h.ended.map (·.1)) :
    (h.start id).unresolved = h.unresolved ++ [id] := by
  simp only [unresolved, start, List.filter_append]
  rw [List.filter_cons_of_pos (by simpa using hid), List.filter_nil]

theorem unresolved_finish : (h.finish id got).unresolved = h.unresolved.filter (· != id) := by
  simp only [unresolved, finish, hand, List.filter_filter, List.map_append]
  refine List.filter_congr fun i _ => ?_
  rw [Bool.eq_iff_iff]
  by_cases hid : i = id <;> simp [hid]

end History

namespace InUse
variable {s : InUse α}

/-- A change of the queue that leaves its takers in place, woken or not, keeps the state sound. -/
theorem Sound.of_queue (h : s.Sound) {queue : TaskQueue α} (past : History α)
    (hb : past.begun = s.past.begun) (he : past.ended = s.past.ended)
    (ht : queue.takers.map (·.id) = s.queue.takers.map (·.id))
    (hw : queue.waiting = s.queue.waiting) (ha : queue.Attentive) :
    ({ s with queue, past } : InUse α).Sound where
  begun_nodup := hb ▸ h.begun_nodup
  ended_begun := by rw [hb, he]; exact h.ended_begun
  takers_eq := by
    rw [ht, h.takers_eq]
    simp only [History.unresolved, hb, he]
  waiting_eq := by
    have hl := congrArg List.length ht
    simp only [List.length_map] at hl
    rw [hw, h.waiting_eq, hl]
  attentive := ha

theorem Sound.begun_start_nodup (h : s.Sound) {id : Nat} (hid : id ∉ s.past.begun) :
    (s.past.start id).begun.Nodup := by
  simp only [History.start, List.nodup_append]
  refine ⟨h.begun_nodup, List.nodup_singleton id, ?_⟩
  rintro a ha b hb rfl
  rw [List.mem_singleton] at hb
  exact hid (hb ▸ ha)

theorem Sound.take_done (h : s.Sound) {id : Nat} (hid : id ∉ s.past.begun) (got : Option α)
    {queue : TaskQueue α} (ht : queue.takers = s.queue.takers)
    (hw : queue.waiting = s.queue.waiting) (ha : queue.Attentive) :
    ({ s with queue, past := (s.past.start id).finish id got } : InUse α).Sound := by
  refine ⟨h.begun_start_nodup hid, ?_, ?_, ?_, ha⟩
  · simp only [History.start, History.finish, History.hand, List.mem_append, List.mem_singleton]
    rintro e (he | rfl)
    · exact Or.inl (h.ended_begun e he)
    · exact Or.inr rfl
  · rw [ht]
    exact h.takers_eq.trans (s.past.unresolved_start_finish got hid).symm
  · rw [hw, ht]
    exact h.waiting_eq

theorem Sound.take (h : s.Sound) {id : Nat} (hid : id ∉ s.past.begun) (timeout : Option Nat) :
    (s.after (.take id timeout)).Sound := by
  have hatt := h.attentive.take id (timeout.map (s.now + ·))
  simp only [InUse.after]
  rcases s.queue.take_cases id (timeout.map (s.now + ·)) with
    ⟨a, rest, -, he⟩ | ⟨-, -, he⟩ | ⟨-, -, he⟩
  · rw [he] at hatt ⊢
    exact h.take_done hid (some a) rfl rfl hatt
  · rw [he] at hatt ⊢
    exact h.take_done hid none rfl rfl hatt
  · rw [he] at hatt ⊢
    have hended : id ∉ s.past.ended.map (·.1) := by
      intro hm
      obtain ⟨e, hend, rfl⟩ := List.mem_map.mp hm
      exact hid (h.ended_begun e hend)
    refine ⟨h.begun_start_nodup hid, fun e hend => ?_, ?_, ?_, hatt⟩
    · exact List.mem_append_left _ (h.ended_begun e hend)
    · rw [s.past.unresolved_start hended, ← h.takers_eq]
      simp
    · simp [h.waiting_eq]

theorem Sound.resume (h : s.Sound) {id : Nat} (hid : id ∈ s.queue.due s.now) :
    (s.after (.resume id)).Sound := by
  obtain ⟨t, ht, rfl⟩ := List.mem_map.mp hid
  have htm : t ∈ s.queue.takers := List.mem_of_mem_filter ht
  obtain ⟨before, after, heq, hf, -⟩ := exists_split_of_key (·.id) h.takers_nodup htm
  have hatt := h.attentive.resume h.takers_nodup htm
  have hbegun : t.id ∈ s.past.begun := by
    have : t.id ∈ s.past.unresolved := h.takers_eq ▸ List.mem_map_of_mem htm
    exact List.mem_of_mem_filter this
  simp only [InUse.after]
  refine ⟨h.begun_nodup, ?_, ?_, ?_, hatt⟩
  · simp only [History.finish, History.hand, List.mem_append, List.mem_singleton]
    rintro e (he | rfl)
    · exact h.ended_begun e he
    · exact hbegun
  · rw [History.unresolved_finish, ← h.takers_eq, resume_eq, List.filter_map]
    rfl
  · rw [resume_eq]
    simp only [hf]
    rw [h.waiting_eq, heq]
    simp

/-- **Every event keeps the state sound.** -/
theorem sound_after (h : s.Sound) (e : Event α) (ok : s.allows e = true) : (s.after e).Sound := by
  cases e with
  | offer a =>
    simp only [InUse.after]
    cases hq : s.queue.offer? a with
    | none => exact h
    | some queue =>
      have hatt := h.attentive.offer? hq
      obtain ⟨-, rfl⟩ := offer?_eq_some_iff.mp hq
      exact h.of_queue _ rfl rfl (by simp) (by simp) hatt
  | poll =>
    have hatt := h.attentive.poll
    simp only [InUse.after]
    exact h.of_queue _ rfl rfl (by rw [poll_eq]) (by rw [poll_eq]) hatt
  | drain => exact h.of_queue _ rfl rfl rfl rfl h.attentive.drain
  | setCapacity capacity =>
    simp only [InUse.after]
    cases hq : s.queue.setCapacity? capacity with
    | none => exact h
    | some queue =>
      have hatt := h.attentive.setCapacity? hq
      obtain ⟨-, rfl⟩ := setCapacity?_eq_some_iff.mp hq
      exact h.of_queue _ rfl rfl rfl rfl hatt
  | wakeAll => exact h.of_queue s.past rfl rfl (by simp) rfl (attentive_wakeAll _)
  | take id timeout => exact h.take (by simpa [allows] using ok) timeout
  | resume id => exact h.resume (by simpa [allows] using ok)
  | advance millis => exact ⟨h.begun_nodup, h.ended_begun, h.takers_eq, h.waiting_eq, h.attentive⟩

end InUse

theorem Reach.sound {kind : QueueKind} {capacity : Nat} {s : InUse α}
    (h : Reach kind capacity s) : s.Sound := by
  induction h with
  | start => exact InUse.sound_start kind capacity
  | next _ e ok ih => exact InUse.sound_after ih e ok

/-- **The queue loses no wake-up**: once no woken taker is left to run, no take is unresolved or no
task is queued. And the queue counts the unresolved takes. -/
theorem no_wakeup_lost {kind : QueueKind} {capacity : Nat} {s : InUse α}
    (h : Reach kind capacity s) :
    ((∀ t ∈ s.queue.takers, t.woken = false) →
        s.past.unresolved = [] ∨ s.queue.items = []) ∧
      s.queue.waiting = s.past.unresolved.length := by
  have hs := h.sound
  refine ⟨fun hw => ?_, ?_⟩
  · rcases hs.attentive.idle (s.queue.woken_eq_zero_iff.mpr hw) with ht | hi
    · left
      rw [← hs.takers_eq, ht]
      rfl
    · exact Or.inr hi
  · rw [hs.waiting_eq, ← hs.takers_eq, List.length_map]

/-- Two takers wait and three tasks come, so that a permit is left. Somebody takes the first task
away, the takers get the others, and the permit ends the third take. The fourth waits. -/
theorem no_wakeup_lost_stolen :
    ∃ s : InUse Nat,
      (InUse.start .linked 3).follow?
        [.take 0 none, .take 1 (some 5), .offer 10, .offer 11, .offer 12, .poll, .advance 5,
          .resume 1, .resume 0, .take 2 none, .take 3 none] = some s ∧
      (∀ t ∈ s.queue.takers, t.woken = false) ∧
      (s.past.unresolved = [] ∨ s.queue.items = []) ∧
      s.queue.waiting = s.past.unresolved.length := by
  refine ⟨_, rfl, by decide, ?_⟩
  have h := no_wakeup_lost (Reach.start.follow (rfl : (InUse.start .linked 3).follow?
    [.take 0 none, .take 1 (some 5), .offer 10, .offer 11, .offer 12, .poll, .advance 5,
      .resume 1, .resume 0, .take 2 none, .take 3 none] = some _))
  exact ⟨h.1 (by decide), h.2⟩

end PoolControl.TaskQueue
