import PoolControl.Proofs.Pool.Setting
import PoolControl.Proofs.Pool.Workers

/-! # Sound pools

A pool is `Sound` if its workers have identities of their own, its counters count them, the workers
that wait are the takers of its queue, the queue is attentive, and the sizes are committable. The
pool of a record is sound, and whatever happens to a sound pool leaves it sound. -/

namespace PoolControl.Pool

open Settings (QueueKind Record)

/-- The workers, the counters, the queue and the sizes of a pool fit each other. -/
structure Sound (p : Pool) : Prop where
  ids_nodup : (p.workers.map (·.id)).Nodup
  ids_lt : ∀ w ∈ p.workers, w.id < p.nextWorker
  size_eq : p.size = p.workers.length
  active_eq : p.active = p.begun.length
  takers_perm : (p.queue.takers.map (·.id)).Perm p.parkedIds
  waiting_eq : p.queue.waiting = p.queue.takers.length
  attentive : p.queue.Attentive
  maxSize_pos : 0 < p.maxSize
  coreSize_le : p.coreSize ≤ p.maxSize
  handOff_capacity : p.queue.kind = .handOff → p.queue.capacity = 0

variable {p q : Pool}

theorem Sound.size_pos (h : p.Sound) {w : Worker} (hw : w ∈ p.workers) : 0 < p.size := by
  rw [h.size_eq]
  exact List.length_pos_of_mem hw

/-- **Every step in a sound pool is one of the cases** of a step. -/
theorem Sound.stepped_stepOf (h : p.Sound) {clock : Clock} {w : Worker} (hw : w ∈ p.workers)
    (hc : p.canStep clock w = true) : Stepped p clock w (p.stepOf clock w) :=
  Pool.stepped (h.size_pos hw) hc

/-- The pool of a record, spelled out, with the conditions under which there is one. -/
theorem ofRecord_eq_ok_iff {r : Record} : ofRecord r = .ok p ↔
    r.isCommittable = true ∧ ¬ (r.coreTimeout = true ∧ (r.keepAlive?.getD ⟨0⟩).nanos = 0) ∧
      ∃ policy, SaturationPolicy.resolve r.policyName = .ok policy ∧ p =
        { name := r.name
          coreSize := r.coreSize.toInt.toNat
          maxSize := r.maxSize.toInt.toNat
          keepAlive := r.keepAliveMillis
          coreTimeout := r.coreTimeout
          policy
          queue := .empty r.queueKind r.queueCapacity.toNat
          waitOnShutdown := r.waitOnShutdown
          awaitSeconds := r.awaitSeconds
          rules := r.rules } := by
  unfold ofRecord checkRecord
  by_cases hc : r.isCommittable = true
  · cases hp : SaturationPolicy.resolve r.policyName with
    | error e => simp [hc, Bind.bind, Except.bind]
    | ok policy =>
      by_cases hz : r.coreTimeout = true ∧ (r.keepAlive?.getD ⟨0⟩).nanos = 0
      · simp [hc, hz, Bind.bind, Except.bind, throw, throwThe, MonadExceptOf.throw]
      · simp [hc, hz, Bind.bind, Except.bind, pure, Except.pure]
        exact eq_comm
  · simp [hc, Bind.bind, Except.bind]

theorem sound_ofRecord {r : Record} (h : ofRecord r = .ok p) : p.Sound := by
  obtain ⟨hc, -, policy, -, rfl⟩ := ofRecord_eq_ok_iff.mp h
  simp only [Record.isCommittable, decide_eq_true_eq] at hc
  refine ⟨List.nodup_nil, by simp, rfl, rfl, .refl _, rfl, TaskQueue.attentive_empty _ _, ?_, ?_,
    ?_⟩
  · show 0 < r.maxSize.toInt.toNat
    omega
  · show r.coreSize.toInt.toNat ≤ r.maxSize.toInt.toNat
    omega
  · intro hk
    simp only [TaskQueue.empty] at hk ⊢
    rw [if_pos hk]

/-! ### Changes that leave the workers alone -/

/-- A change that leaves the workers and their counters alone keeps a pool sound if its sizes stay
committable and its queue keeps its takers, woken or not. -/
theorem Sound.of_workers_eq (h : p.Sound) (hw : q.workers = p.workers)
    (hn : q.nextWorker = p.nextWorker) (hs : q.size = p.size) (ha : q.active = p.active)
    (hm : 0 < q.maxSize) (hc : q.coreSize ≤ q.maxSize)
    (ht : q.queue.takers.map (·.id) = p.queue.takers.map (·.id))
    (hwait : q.queue.waiting = p.queue.waiting) (hq : q.queue.Attentive)
    (hk : q.queue.kind = .handOff → q.queue.capacity = 0) : q.Sound where
  ids_nodup := hw ▸ h.ids_nodup
  ids_lt := by rw [hw, hn]; exact h.ids_lt
  size_eq := by rw [hs, hw]; exact h.size_eq
  active_eq := by
    rw [ha, begun, hw]
    exact h.active_eq
  takers_perm := by
    rw [ht, parkedIds, hw]
    exact h.takers_perm
  waiting_eq := by
    have hl := congrArg List.length ht
    simp only [List.length_map] at hl
    rw [hwait, hl]
    exact h.waiting_eq
  attentive := hq
  maxSize_pos := hm
  coreSize_le := hc
  handOff_capacity := hk

/-- The same where only the queue changes. -/
theorem Sound.of_queue (h : p.Sound) (queue : TaskQueue Task)
    (ht : queue.takers.map (·.id) = p.queue.takers.map (·.id))
    (hwait : queue.waiting = p.queue.waiting) (hq : queue.Attentive)
    (hk : queue.kind = .handOff → queue.capacity = 0) : Sound { p with queue } :=
  h.of_workers_eq rfl rfl rfl rfl h.maxSize_pos h.coreSize_le ht hwait hq hk

theorem Sound.offer (h : p.Sound) {t : Task} {queue : TaskQueue Task}
    (ho : p.queue.offer? t = some queue) : Sound { p with queue } := by
  have hatt := h.attentive.offer? ho
  obtain ⟨-, rfl⟩ := TaskQueue.offer?_eq_some_iff.mp ho
  exact h.of_queue _ (by simp) (by simp) hatt (by simpa using h.handOff_capacity)

theorem Sound.poll (h : p.Sound) : Sound { p with queue := p.queue.poll.2 } := by
  have hatt := h.attentive.poll
  rw [TaskQueue.poll_eq] at hatt ⊢
  exact h.of_queue _ rfl rfl hatt h.handOff_capacity

theorem Sound.wakeIf (h : p.Sound) (condition : Bool) : (p.wakeIf condition).Sound := by
  unfold Pool.wakeIf
  split_ifs
  · exact h.of_queue _ (by simp) rfl (TaskQueue.attentive_wakeAll _) h.handOff_capacity
  · exact h

theorem Sound.stop (h : p.Sound) : p.stop.2.Sound := by
  unfold Pool.stop
  simp only
  split_ifs
  · exact h.of_workers_eq rfl rfl rfl rfl h.maxSize_pos h.coreSize_le (by simp) rfl
      (TaskQueue.attentive_wakeAll _) h.handOff_capacity
  · exact h.of_workers_eq rfl rfl rfl rfl h.maxSize_pos h.coreSize_le
      (TaskQueue.takerIds_wakeAll _) rfl (TaskQueue.attentive_wakeAll _) h.handOff_capacity

/-! ### Starting workers -/

theorem Sound.startWorker? (h : p.Sound) {limit : Nat} {phase : Phase}
    (hp : phase.isParked = false) (hb : phase.begun? = none)
    (hs : p.startWorker? limit phase = some q) : q.Sound := by
  obtain ⟨-, rfl⟩ := startWorker?_eq_some_iff.mp hs
  refine ⟨?_, ?_, ?_, ?_, ?_, h.waiting_eq, h.attentive, h.maxSize_pos, h.coreSize_le,
    h.handOff_capacity⟩
  · rw [List.map_append, List.nodup_append]
    refine ⟨h.ids_nodup, by simp, fun a ha b hb hab => ?_⟩
    obtain ⟨w, hw, rfl⟩ := List.mem_map.mp ha
    have hlt := h.ids_lt w hw
    simp only [List.map_cons, List.map_nil, List.mem_singleton] at hb
    omega
  · intro w hw
    simp only [List.mem_append, List.mem_singleton] at hw
    rcases hw with hw | rfl
    · exact Nat.lt_succ_of_lt (h.ids_lt w hw)
    · exact Nat.lt_succ_self _
  · simp [h.size_eq]
  · simp only [begun, List.filterMap_append, List.filterMap_cons, hb, List.filterMap_nil,
      List.append_nil]
    exact h.active_eq
  · simp only [parkedIds, List.filter_append]
    rw [List.filter_cons_of_neg (by simp [hp]), List.filter_nil, List.append_nil]
    exact h.takers_perm

theorem Sound.startWorkers (limit : Nat) : ∀ (n : Nat) {p : Pool}, p.Sound →
    (startWorkers limit n p).Sound
  | 0, _, h => h
  | n + 1, p, h => by
    unfold Pool.startWorkers
    split
    · next q hs => exact Sound.startWorkers limit n (h.startWorker? rfl rfl hs)
    · exact h

theorem Sound.ensureWorker (h : p.Sound) : p.ensureWorker.Sound := by
  unfold Pool.ensureWorker
  split_ifs
  · cases hs : p.startWorker? p.maxSize .fresh with
    | none => exact h
    | some q => exact h.startWorker? rfl rfl hs
  · exact h

/-! ### Submissions, settings -/

theorem Sound.submitted (h : p.Sound) {t : Task} {a : Admission} (hs : Submitted p t a q) :
    q.Sound := by
  have hrejected : ∀ {p : Pool}, p.Sound → ∀ n, Sound { p with rejected := n } := fun h n =>
    h.of_workers_eq rfl rfl rfl rfl h.maxSize_pos h.coreSize_le rfl rfl h.attentive
      h.handOff_capacity
  cases hs with
  | stopped => exact h
  | handed limit q hr hl hs => exact h.startWorker? rfl rfl hs
  | queued queue hr hc ho => exact (h.offer ho).ensureWorker
  | refused => exact hrejected h _
  | inline => exact hrejected h _
  | discarded => exact hrejected h _
  | displaced queue hr hm ho => exact hrejected (h.poll.offer ho) _
  | dropped => exact hrejected h.poll _

theorem Sound.adjusted (h : p.Sound) (hs : Adjusted p q) : q.Sound := by
  have hsame : ∀ {q : Pool}, q.workers = p.workers → q.nextWorker = p.nextWorker →
      q.size = p.size → q.active = p.active → q.queue = p.queue → 0 < q.maxSize →
      q.coreSize ≤ q.maxSize → q.Sound := by
    intro q hw hn hsz ha hq hm hc
    exact h.of_workers_eq hw hn hsz ha hm hc (by rw [hq]) (by rw [hq]) (hq ▸ h.attentive)
      (hq ▸ h.handOff_capacity)
  cases hs with
  | coreSize n hn =>
    have hq : Sound { p with coreSize := n } := hsame rfl rfl rfl rfl rfl h.maxSize_pos hn
    exact (hq.startWorkers n _).wakeIf _
  | maxSize n h0 hn =>
    have hq : Sound { p with maxSize := n } := hsame rfl rfl rfl rfl rfl h0 hn
    exact hq.wakeIf _
  | keepAlive span wake =>
    have hq : Sound { p with keepAlive := span.wordMillis } :=
      hsame rfl rfl rfl rfl rfl h.maxSize_pos h.coreSize_le
    exact hq.wakeIf _
  | coreTimeout allow wake =>
    have hq : Sound { p with coreTimeout := allow } :=
      hsame rfl rfl rfl rfl rfl h.maxSize_pos h.coreSize_le
    exact hq.wakeIf _
  | queueCapacity n hk =>
    refine h.of_queue _ rfl rfl h.attentive fun hh => ?_
    simp only at hh
    rw [hh] at hk
    cases hk
  | _ => exact hsame rfl rfl rfl rfl rfl h.maxSize_pos h.coreSize_le

theorem Sound.retuned (h : p.Sound) (hs : Retuned p q) : q.Sound :=
  hs.keeps (fun _ _ hs h => h.adjusted hs.adjusted) h

/-! ### Steps of workers -/

/-- A worker among the others: what a new phase and its leaving do to the list of workers. -/
theorem Sound.exists_split (h : p.Sound) {w : Worker} (hw : w ∈ p.workers) :
    ∃ before after, p.workers = before ++ w :: after ∧
      (p.removeWorker w.id).workers = before ++ after ∧
      ∀ phase, (p.setPhase w.id phase).workers = before ++ { w with phase } :: after := by
  obtain ⟨before, after, heq, hf, hm⟩ := exists_split_of_key (·.id) h.ids_nodup hw
  exact ⟨before, after, heq, hf, fun phase => hm fun w => { w with phase }⟩

theorem Sound.takers_nodup (h : p.Sound) : (p.queue.takers.map (·.id)).Nodup :=
  h.takers_perm.nodup_iff.mpr (h.ids_nodup.sublist (List.filter_sublist.map _))

/-- The identity of a worker, if it is a taker in that phase. -/
def takerId (id : Nat) (phase : Phase) : List Nat := if phase.isParked then [id] else []

/-- **A worker that goes on to another phase**, with a queue that gains or loses it as a taker. -/
theorem Sound.rephase (h : p.Sound) {w : Worker} (hw : w ∈ p.workers) (phase : Phase)
    (queue : TaskQueue Task) (active completed : Nat) (hk : queue.kind = p.queue.kind)
    (hc : queue.capacity = p.queue.capacity) (hq : queue.Attentive)
    (hwait : queue.waiting = queue.takers.length)
    (ht : (queue.takers.map (·.id) ++ takerId w.id w.phase).Perm
      (p.queue.takers.map (·.id) ++ takerId w.id phase))
    (ha : active + w.phase.begun?.toList.length = p.active + phase.begun?.toList.length) :
    Sound { { p with queue }.setPhase w.id phase with active, completed } := by
  obtain ⟨before, after, heq, -, hphase⟩ := h.exists_split hw
  have hws : ({ p with queue }.setPhase w.id phase).workers = before ++ { w with phase } :: after :=
    hphase phase
  have hids : ({ p with queue }.setPhase w.id phase).workers.map (fun v : Worker => v.id) =
      p.workers.map (·.id) := by
    rw [hws, heq]; simp
  refine ⟨?_, ?_, ?_, ?_, ?_, hwait, hq, h.maxSize_pos, h.coreSize_le, ?_⟩
  · rw [hids]
    exact h.ids_nodup
  · intro v hv
    obtain ⟨u, hu, he⟩ := List.mem_map.mp (hids ▸ List.mem_map_of_mem hv)
    exact he ▸ h.ids_lt u hu
  · have hl := congrArg List.length hids
    simp only [List.length_map] at hl
    exact h.size_eq.trans hl.symm
  · have hb := h.active_eq
    simp only [begun, heq, List.filterMap_append, List.filterMap_cons, List.length_append] at hb
    simp only [begun, hws, List.filterMap_append, List.filterMap_cons, List.length_append]
    cases hw' : w.phase.begun? <;> cases hp' : phase.begun? <;>
      simp only [hw', hp', Option.toList, List.length_cons, List.length_nil] at ha hb ⊢ <;> omega
  · show (queue.takers.map (·.id)).Perm _
    have hp := h.takers_perm
    simp only [parkedIds, heq, List.filter_append, List.filter_cons, List.map_append] at hp
    simp only [parkedIds, hws, List.filter_append, List.filter_cons, List.map_append]
    -- Both sides count one identity more or less, that of the worker; all others stay.
    simp only [List.perm_iff_count] at hp ht ⊢
    intro i
    have hpi := hp i
    have hti := ht i
    simp only [takerId] at hti
    split_ifs at hpi hti ⊢ <;>
      simp only [List.map_cons, List.count_append, List.count_cons, List.count_nil] at hpi hti ⊢ <;>
      omega
  · intro hh
    show queue.capacity = 0
    rw [hc]
    exact h.handOff_capacity (hk ▸ hh)

theorem Sound.leave (h : p.Sound) {w : Worker} (hw : w ∈ p.workers)
    (hp : w.phase.isParked = false) (hb : w.phase.begun? = none) : (p.removeWorker w.id).Sound := by
  obtain ⟨before, after, heq, hrest, -⟩ := h.exists_split hw
  have hsub : (before ++ after).Sublist p.workers := by
    rw [heq]
    exact (List.sublist_cons_self w after).append_left before
  refine ⟨?_, ?_, ?_, ?_, ?_, h.waiting_eq, h.attentive, h.maxSize_pos, h.coreSize_le,
    h.handOff_capacity⟩
  · rw [hrest]
    exact h.ids_nodup.sublist (hsub.map _)
  · rw [hrest]
    exact fun v hv => h.ids_lt v (hsub.subset hv)
  · have hl := h.size_eq
    rw [heq, List.length_append, List.length_cons] at hl
    rw [hrest, List.length_append]
    show p.size - 1 = _
    omega
  · have hl := h.active_eq
    simp only [begun, heq, List.filterMap_append, List.filterMap_cons, hb] at hl
    simp only [begun, hrest, List.filterMap_append]
    exact hl
  · have ht := h.takers_perm
    simp only [parkedIds, heq, List.filter_append, List.filter_cons, hp] at ht
    simp only [parkedIds, hrest, List.filter_append]
    exact ht

theorem Sound.resume (h : p.Sound) {clock : Clock} {id : Nat}
    (hd : id ∈ p.queue.due clock.timer) :
    (p.queue.resume id).2.Attentive ∧
      (p.queue.resume id).2.waiting = (p.queue.resume id).2.takers.length ∧
      ((p.queue.resume id).2.takers.map (·.id) ++ [id]).Perm (p.queue.takers.map (·.id)) := by
  obtain ⟨t, ht, rfl⟩ := List.mem_map.mp hd
  have htm : t ∈ p.queue.takers := List.mem_of_mem_filter ht
  obtain ⟨before, after, heq, hf, -⟩ := exists_split_of_key (·.id) h.takers_nodup htm
  refine ⟨h.attentive.resume h.takers_nodup htm, ?_, ?_⟩
  · rw [TaskQueue.resume_eq]
    simp only [hf]
    rw [h.waiting_eq, heq]
    simp
  · rw [TaskQueue.resume_eq]
    simp only [hf]
    rw [heq]
    simp only [List.map_append, List.map_cons, List.append_assoc]
    exact (List.perm_append_singleton _ _).append_left _

theorem Sound.stepped (h : p.Sound) {clock : Clock} {w : Worker} (hw : w ∈ p.workers)
    (hs : Stepped p clock w q) : q.Sound := by
  cases hs with
  | begins id t =>
    exact h.rephase hw (.running t) p.queue (p.active + 1) p.completed rfl rfl h.attentive
      h.waiting_eq (.refl _) rfl
  | arrives id =>
    exact h.rephase hw (.seeking clock.wall) p.queue p.active p.completed rfl rfl h.attentive
      h.waiting_eq (.refl _) rfl
  | reports id t =>
    have hpos : 0 < p.active := by
      rw [h.active_eq]
      exact List.length_pos_of_mem (List.mem_filterMap.mpr ⟨_, hw, rfl⟩)
    refine h.rephase hw (.seeking clock.wall) p.queue (p.active - 1) (p.completed + 1) rfl rfl
      h.attentive h.waiting_eq (.refl _) ?_
    show p.active - 1 + 1 = p.active + 0
    omega
  | fetches id since t items hi =>
    refine h.rephase hw (.running t) { p.queue with items } (p.active + 1) p.completed rfl rfl
      (h.attentive.of_le ?_) h.waiting_eq (.refl _) rfl
    simp [hi]
  | leaves id since hi why => exact h.leave hw rfl rfl
  | looksAgain id since hi hp =>
    exact h.rephase hw (.seeking since) { p.queue with permit := false } p.active p.completed rfl
      rfl h.attentive h.waiting_eq (.refl _) rfl
  | parks id since deadline hi hp hr hm he =>
    refine h.rephase hw (.parked since)
      { p.queue with
        takers := p.queue.takers ++ [({ id, deadline := some deadline } : Taker)]
        waiting := p.queue.waiting + 1 }
      p.active p.completed rfl rfl (Or.inr ?_) ?_ ?_ rfl
    · simp [TaskQueue.size, hi]
    · simp [h.waiting_eq]
    · simp [takerId, Phase.isParked]
  | obtains id since t items hi hd =>
    obtain ⟨hatt, hwait, hperm⟩ := h.resume hd
    refine h.rephase hw (.running t) _ (p.active + 1) p.completed ?_ ?_ hatt hwait ?_ rfl
    · rw [TaskQueue.resume_eq]
    · rw [TaskQueue.resume_eq]
    · simpa [takerId, Phase.isParked] using hperm
  | wakes id since hi hd =>
    obtain ⟨hatt, hwait, hperm⟩ := h.resume hd
    refine h.rephase hw (.seeking since) _ p.active p.completed ?_ ?_ hatt hwait ?_ rfl
    · rw [TaskQueue.resume_eq]
    · rw [TaskQueue.resume_eq]
    · simpa [takerId, Phase.isParked] using hperm

theorem mem_of_worker? {id : Nat} {w : Worker} (h : p.worker? id = some w) :
    w ∈ p.workers ∧ w.id = id :=
  ⟨List.mem_of_find?_eq_some h, by simpa using List.find?_some h⟩

theorem Sound.worker?_eq (h : p.Sound) {w : Worker} (hw : w ∈ p.workers) :
    p.worker? w.id = some w := by
  obtain ⟨before, after, heq⟩ := List.append_of_mem hw
  have hnone : before.find? (·.id == w.id) = none := by
    rw [List.find?_eq_none]
    intro v hv hid
    have hn := h.ids_nodup
    rw [heq, List.map_append, List.map_cons, List.nodup_append] at hn
    exact hn.2.2 _ (List.mem_map_of_mem hv) _ List.mem_cons_self (by simpa using hid)
  rw [worker?, heq, List.find?_append, hnone]
  simp

theorem worker?_removeWorker (p : Pool) (id : Nat) : (p.removeWorker id).worker? id = none := by
  rw [worker?, List.find?_eq_none]
  intro w hw
  have hne := List.of_mem_filter hw
  simpa using hne

theorem finish_cases (p : Pool) (id : Nat) : p.finish id = p ∨
    ∃ t, ⟨id, .running t⟩ ∈ p.workers ∧ p.finish id = p.setPhase id (.finished t) := by
  unfold finish
  split
  · next i t hw =>
    obtain ⟨hm, rfl⟩ := mem_of_worker? hw
    exact Or.inr ⟨t, hm, rfl⟩
  · exact Or.inl rfl

theorem Sound.finish (h : p.Sound) (id : Nat) : (p.finish id).Sound := by
  rcases p.finish_cases id with he | ⟨t, hw, he⟩
  · rw [he]
    exact h
  · rw [he]
    exact h.rephase hw (.finished t) p.queue p.active p.completed rfl rfl h.attentive h.waiting_eq
      (.refl _) rfl

end PoolControl.Pool
