import Mathlib.Algebra.GroupWithZero.Nat
import Mathlib.Logic.Function.Iterate
import PoolControl.Proofs.Pool.Staffing

/-! # Workers come to rest

While the clock stands still and nothing else happens, a worker has few steps before it. It begins
the task that it was started for, or reports one and looks for the next. A look takes a task, ends
with the worker leaving or waiting, or uses up a stored wake-up, and there is one of these at most.
A worker that starts to wait does so for some time, so that it is not due at once, whatever the
keep-alive; and nobody is woken by the steps of others. -/

namespace PoolControl

namespace Phase

/-- Whether a worker in this phase looks for a task in its next step. -/
def isSeeking : Phase → Bool
  | seeking _ => true
  | _ => false

/-- Whether a worker in this phase has something to begin or to report before it looks or runs. -/
def isPending : Phase → Bool
  | assigned _ | fresh | finished _ => true
  | _ => false

/-- How many steps a worker in this phase has before it at most, if nobody wakes it and no wake-up
is stored. -/
def ahead : Phase → Nat
  | running _ | parked _ => 0
  | assigned _ | seeking _ => 1
  | fresh | finished _ => 2

end Phase

namespace Pool

/-- How many steps the workers have before them at most while nothing else happens. One that is due
at the queue has two, and a stored wake-up gives one worker one more. -/
def ahead (p : Pool) (timer : Nat) : Nat :=
  (p.workers.map (·.phase.ahead)).sum + 2 * (p.queue.due timer).length + p.queue.permit.toNat

variable {p q : Pool} {clock : Clock} {w : Worker} {s t : InUse}

/-! ### Who is due after a step -/

theorem parkTime_pos {since : Nat} (he : p.isExpired clock since = false) :
    0 < p.parkTime clock since := by
  unfold parkTime
  split_ifs with ht
  · have hleft : clock.wall - since < p.keepAlive.toNat := by simpa [isExpired, ht] using he
    have hrecheck : 0 < idleRecheck := by decide
    omega
  · decide

theorem parkTime_le (p : Pool) (clock : Clock) (since : Nat) :
    p.parkTime clock since ≤ idleRecheck := by
  unfold parkTime
  split_ifs
  · exact Nat.min_le_right _ _
  · exact Nat.le_refl _

theorem takers_seek (hs : 0 < p.size) (clock : Clock) (id since : Nat) :
    (p.seek clock id since).queue.takers = p.queue.takers ∨
      p.isExpired clock since = false ∧ (p.seek clock id since).queue.takers =
        p.queue.takers ++ [{ id, deadline := some (clock.timer + p.parkTime clock since) }] := by
  rw [seek_eq hs, TaskQueue.poll_eq]
  cases hi : p.queue.items with
  | cons t items => exact Or.inl rfl
  | nil =>
    simp only [List.head?_nil]
    split_ifs with hr hm he
    · exact Or.inl rfl
    · exact Or.inl rfl
    · exact Or.inl rfl
    · unfold park
      rcases p.queue.take_cases id (some (clock.timer + p.parkTime clock since)) with
        ⟨t, items, -, ht⟩ | ⟨-, -, ht⟩ | ⟨-, -, ht⟩ <;> rw [ht]
      · exact Or.inl rfl
      · exact Or.inl rfl
      · exact Or.inr ⟨by simpa using he, rfl⟩

/-- A worker that waits at the queue is the taker of its identity, so one that does not is none. -/
theorem Sound.not_mem_takers (h : p.Sound) (hw : w ∈ p.workers) (hp : w.phase.isParked = false) :
    w.id ∉ p.queue.takers.map (·.id) := by
  intro hid
  obtain ⟨v, hv, hvid⟩ := List.mem_map.mp (h.takers_perm.mem_iff.mp hid)
  obtain ⟨hvw, hvp⟩ := List.mem_filter.mp hv
  have hsame := h.worker?_eq hvw
  rw [hvid, h.worker?_eq hw] at hsame
  rw [← Option.some.inj hsame, hp] at hvp
  cases hvp

/-- **After its step a worker is not due**, and the others are due as before. -/
theorem Sound.due_stepOf (h : p.Sound) (hw : w ∈ p.workers) :
    (p.stepOf clock w).queue.due clock.timer =
      (p.queue.due clock.timer).filter (fun id => id != w.id) := by
  have hsame : ∀ takers : List Taker, takers = p.queue.takers → w.phase.isParked = false →
      (takers.filter (·.isDue clock.timer)).map (·.id) =
        (p.queue.due clock.timer).filter (fun id => id != w.id) := by
    rintro _ rfl hp
    refine (List.filter_eq_self.mpr fun id hid => ?_).symm
    have hne : id ≠ w.id := by
      rintro rfl
      obtain ⟨t, ht, htid⟩ := List.mem_map.mp hid
      exact h.not_mem_takers hw hp (List.mem_map.mpr ⟨t, List.mem_of_mem_filter ht, htid⟩)
    simpa using hne
  obtain ⟨id, phase⟩ := w
  cases phase with
  | assigned t => exact hsame _ rfl rfl
  | fresh => exact hsame _ rfl rfl
  | running t => exact hsame _ rfl rfl
  | finished t => exact hsame _ rfl rfl
  | seeking since =>
    rcases takers_seek (h.size_pos hw) clock id since with ht | ⟨he, ht⟩
    · exact hsame _ ht rfl
    · have hpos := parkTime_pos he
      have hdue : ({ id, deadline := some (clock.timer + p.parkTime clock since) } :
          Taker).isDue clock.timer = false := by
        simp [Taker.isDue]
        omega
      show ((p.seek clock id since).queue.takers.filter _).map _ = _
      rw [ht, List.filter_append, List.filter_cons_of_neg (by simp [hdue]), List.filter_nil,
        List.append_nil]
      exact hsame _ rfl rfl
  | parked since =>
    have htakers : (p.stepOf clock ⟨id, .parked since⟩).queue.takers =
        p.queue.takers.filter (·.id != id) := by
      simp only [stepOf, TaskQueue.resume_eq]
      cases p.queue.items.head? <;> rfl
    rw [TaskQueue.due, htakers, TaskQueue.due, List.filter_map, List.filter_comm]
    rfl

theorem Sound.length_due_stepOf (h : p.Sound) (hw : w ∈ p.workers)
    (hc : p.canStep clock w = true) :
    ((p.stepOf clock w).queue.due clock.timer).length + w.phase.isParked.toNat ≤
      (p.queue.due clock.timer).length := by
  rw [h.due_stepOf hw]
  obtain ⟨id, phase⟩ := w
  cases phase with
  | parked since =>
    have hd : id ∈ p.queue.due clock.timer := by simpa [canStep] using hc
    exact List.length_filter_lt_length_iff_exists.mpr ⟨id, hd, by simp⟩
  | _ => exact List.length_filter_le _ _

/-! ### A step takes a worker closer to rest -/

theorem Sound.sum_setPhase (h : p.Sound) (hw : w ∈ p.workers) (phase : Phase) :
    ((p.setPhase w.id phase).workers.map (·.phase.ahead)).sum + w.phase.ahead =
      (p.workers.map (·.phase.ahead)).sum + phase.ahead := by
  obtain ⟨before, after, heq, -, hphase⟩ := h.exists_split hw
  simp only [hphase, heq, List.map_append, List.map_cons, List.sum_append, List.sum_cons]
  omega

theorem Sound.sum_removeWorker (h : p.Sound) (hw : w ∈ p.workers) :
    ((p.removeWorker w.id).workers.map (·.phase.ahead)).sum + w.phase.ahead =
      (p.workers.map (·.phase.ahead)).sum := by
  obtain ⟨before, after, heq, hrest, -⟩ := h.exists_split hw
  simp only [hrest, heq, List.map_append, List.map_cons, List.sum_append, List.sum_cons]
  omega

theorem Stepped.permit_le (h : Stepped p clock w q) :
    q.queue.permit.toNat ≤ p.queue.permit.toNat := by
  cases h with
  | looksAgain id since hi hp => exact Nat.zero_le _
  | obtains id since t items hi hd =>
    rw [TaskQueue.resume_eq]
    exact Nat.le_refl _
  | wakes id since hi hd =>
    rw [TaskQueue.resume_eq]
    exact Nat.le_refl _
  | _ => exact Nat.le_refl _

/-- **What a step takes off**: the worker goes on to a phase with fewer steps before it, counting
that it was due, and a look was its last one; or it looks once more and has used up the stored
wake-up; or it has left. -/
theorem Stepped.calms (h : Stepped p clock w q) :
    (∃ phase, q.workers = (p.setPhase w.id phase).workers ∧ phase.isPending = false ∧
      phase.ahead < w.phase.ahead + 2 * w.phase.isParked.toNat ∧
      w.phase.isSeeking.toNat + phase.isLooking.toNat ≤
        (w.phase.isLooking || w.phase.isParked).toNat) ∨
    (q.workers = (p.setPhase w.id w.phase).workers ∧ w.phase.isPending = false ∧
      p.queue.permit = true ∧ q.queue.permit = false) ∨
    q = p.removeWorker w.id ∧ ∃ since, w.phase = .seeking since := by
  cases h with
  | begins id t => exact Or.inl ⟨.running t, rfl, rfl, Nat.zero_lt_one, Nat.le_refl _⟩
  | arrives id => exact Or.inl ⟨.seeking clock.wall, rfl, rfl, Nat.one_lt_two, Nat.le_refl _⟩
  | reports id t => exact Or.inl ⟨.seeking clock.wall, rfl, rfl, Nat.one_lt_two, Nat.le_refl _⟩
  | fetches id since t items hi =>
    exact Or.inl ⟨.running t, rfl, rfl, Nat.zero_lt_one, Nat.le_refl _⟩
  | leaves id since hi why => exact Or.inr (Or.inr ⟨rfl, since, rfl⟩)
  | looksAgain id since hi hp => exact Or.inr (Or.inl ⟨rfl, rfl, hp, rfl⟩)
  | parks id since deadline hi hp hr hm he =>
    exact Or.inl ⟨.parked since, rfl, rfl, Nat.zero_lt_one, Nat.le_refl _⟩
  | obtains id since t items hi hd =>
    exact Or.inl ⟨.running t, rfl, rfl, Nat.two_pos, Nat.zero_le _⟩
  | wakes id since hi hd =>
    exact Or.inl ⟨.seeking since, rfl, rfl, Nat.one_lt_two, Nat.le_refl _⟩

/-- **Every step of a worker leaves fewer steps** before the workers. -/
theorem Sound.ahead_stepOf_lt (h : p.Sound) (hw : w ∈ p.workers) (hc : p.canStep clock w = true) :
    (p.stepOf clock w).ahead clock.timer < p.ahead clock.timer := by
  have hdue := h.length_due_stepOf hw hc
  have hpermit := (h.stepped_stepOf hw hc).permit_le
  unfold ahead
  rcases (h.stepped_stepOf hw hc).calms with ⟨phase, hworkers, -, hlt, -⟩ | ⟨hworkers, -, hp, hq⟩ |
    ⟨hleft, since, hphase⟩
  · have hsum := h.sum_setPhase hw phase
    rw [← hworkers] at hsum
    omega
  · have hsum := h.sum_setPhase hw w.phase
    rw [← hworkers] at hsum
    rw [hp, hq]
    simp only [Bool.toNat_true, Bool.toNat_false]
    omega
  · have hsum := h.sum_removeWorker hw
    have hone : w.phase.ahead = 1 := by rw [hphase]; rfl
    rw [← hleft, hone] at hsum
    omega

theorem sum_ahead_le (ws : List Worker) : (ws.map (·.phase.ahead)).sum +
    2 * ((ws.filter (·.phase.isParked)).map (·.id)).length ≤ 2 * ws.length := by
  induction ws with
  | nil => exact Nat.le_refl _
  | cons v ws ih =>
    obtain ⟨id, phase⟩ := v
    cases phase <;> simp [Phase.ahead, Phase.isParked] at ih ⊢ <;> omega

/-- The workers have no more than two steps each before them, and one for the stored wake-up. -/
theorem Sound.ahead_le (h : p.Sound) (timer : Nat) :
    p.ahead timer ≤ 2 * p.size + p.queue.permit.toNat := by
  have hdue : (p.queue.due timer).length ≤ p.parkedIds.length := by
    rw [← h.takers_perm.length_eq, TaskQueue.due, List.length_map, List.length_map]
    exact List.length_filter_le _ _
  have hworkers := sum_ahead_le p.workers
  unfold ahead
  rw [h.size_eq]
  unfold parkedIds at hdue
  omega

/-! ### Runs of steps -/

/-- A worker that can take a step takes one, and nothing else happens. -/
def InUse.Works (s t : InUse) : Prop :=
  ∃ w ∈ s.pool.workers, s.pool.canStep s.clock w = true ∧ t = s.after (.work w.id)

theorem InUse.after_work (s : InUse) (id : Nat) :
    (s.after (.work id)).clock = s.clock ∧
      (s.after (.work id)).pool = s.pool.step s.clock id := by
  simp only [InUse.after, step]
  cases hfound : s.pool.worker? id with
  | none => exact ⟨rfl, rfl⟩
  | some w =>
    obtain ⟨-, rfl⟩ := mem_of_worker? hfound
    by_cases hc : s.pool.canStep s.clock w = true
    · simp only [hc, if_true, InUse.work, step, hfound, and_self]
    · simp only [hc, Bool.false_eq_true, if_false, and_self]

theorem clock_follow_work : ∀ {ids : List Nat} {s t : InUse},
    s.follow? (ids.map .work) = some t → t.clock = s.clock
  | [], s, t, h => by cases h; rfl
  | id :: ids, s, t, h => by
    rw [List.map_cons, InUse.follow?, if_pos (show s.Allows (.work id) from trivial)] at h
    exact (clock_follow_work h).trans (s.after_work id).1

theorem Sound.step_cases (h : p.Sound) (clock : Clock) (id : Nat) :
    (∃ w ∈ p.workers, w.id = id ∧ p.canStep clock w = true ∧
      p.step clock id = p.stepOf clock w) ∨
    p.step clock id = p ∧ ∀ w ∈ p.workers, w.id = id → p.canStep clock w = false := by
  unfold Pool.step
  cases hfound : p.worker? id with
  | none =>
    refine Or.inr ⟨rfl, ?_⟩
    rintro w hw rfl
    rw [h.worker?_eq hw] at hfound
    cases hfound
  | some w =>
    obtain ⟨hw, rfl⟩ := mem_of_worker? hfound
    by_cases hc : p.canStep clock w = true
    · exact Or.inl ⟨w, hw, rfl, hc, if_pos hc⟩
    · refine Or.inr ⟨if_neg hc, fun v hv hid => ?_⟩
      have hsame := h.worker?_eq hv
      rw [hid, hfound] at hsame
      obtain rfl := Option.some.inj hsame
      simpa using hc

theorem Sound.step_eq (h : p.Sound) (hw : w ∈ p.workers) (hc : p.canStep clock w = true) :
    p.step clock w.id = p.stepOf clock w := by
  rw [step, h.worker?_eq hw]
  exact if_pos hc

theorem InUse.Works.ahead_lt (hp : s.pool.Sound) (h : s.Works t) :
    t.pool.ahead t.clock.timer < s.pool.ahead s.clock.timer := by
  obtain ⟨w, hw, hc, rfl⟩ := h
  obtain ⟨hclock, hpool⟩ := s.after_work w.id
  rw [hclock, hpool, hp.step_eq hw hc]
  exact hp.ahead_stepOf_lt hw hc

theorem Reach.works (h : Reach s) (hw : s.Works t) : Reach t := by
  obtain ⟨w, -, -, rfl⟩ := hw
  exact h.next (.work w.id) trivial

/-- **In any order of steps the workers come to rest**, after no more steps than are before them. -/
theorem Reach.settled_of_works (h : Reach s) {run : Nat → InUse} (h0 : run 0 = s)
    (hrun : ∀ n, (run n).Settled ∨ (run n).Works (run (n + 1))) :
    ∃ n ≤ s.pool.ahead s.clock.timer, (run n).Settled := by
  by_contra hnone
  have hbusy : ∀ n ≤ s.pool.ahead s.clock.timer, (run n).Works (run (n + 1)) := by
    intro n hn
    exact (hrun n).resolve_left fun hset => hnone ⟨n, hn, hset⟩
  -- After `n` steps there are at least `n` fewer before the workers.
  have hfewer : ∀ n ≤ s.pool.ahead s.clock.timer + 1, Reach (run n) ∧
      (run n).pool.ahead (run n).clock.timer + n ≤ s.pool.ahead s.clock.timer := by
    intro n
    induction n with
    | zero =>
      intro _
      rw [h0]
      exact ⟨h, Nat.le_refl _⟩
    | succ n ih =>
      intro hn
      obtain ⟨hreach, hle⟩ := ih (by omega)
      have hstep := hbusy n (by omega)
      have hlt := hstep.ahead_lt hreach.sound
      exact ⟨hreach.works hstep, by omega⟩
  have hover := (hfewer _ (Nat.le_refl _)).2
  omega

theorem Reach.exists_settled {s : InUse} (h : Reach s) : ∃ (ids : List Nat) (t : InUse),
    s.follow? (ids.map .work) = some t ∧ t.Settled := by
  by_cases hset : s.Settled
  · exact ⟨[], s, rfl, hset⟩
  · have hbusy : ∃ w ∈ s.pool.workers, s.pool.canStep s.clock w = true := by
      simpa [InUse.Settled] using hset
    obtain ⟨w, hw, hc⟩ := hbusy
    have hlt := InUse.Works.ahead_lt h.sound ⟨w, hw, hc, rfl⟩
    obtain ⟨ids, t, hfollow, ht⟩ := (h.next (.work w.id) trivial).exists_settled
    refine ⟨w.id :: ids, t, ?_, ht⟩
    rw [List.map_cons, InUse.follow?, if_pos (show s.Allows (.work w.id) from trivial)]
    exact hfollow
  termination_by s.pool.ahead s.clock.timer

/-! ### Looks -/

/-- How often the worker looks for a task while workers take steps in that order. -/
def InUse.looks (id : Nat) : List Nat → InUse → Nat
  | [], _ => 0
  | i :: ids, s =>
    (if i = id ∧ s.pool.isSeeking id then 1 else 0) + looks id ids (s.after (.work i))

/-- Whether the worker will look for a task in its next steps if nobody wakes it. -/
def willLook (p : Pool) (timer id : Nat) : Bool :=
  match p.worker? id with
  | some w => w.phase.isLooking || (p.queue.due timer).contains id
  | none => false

theorem worker?_setPhase (p : Pool) (id : Nat) (phase : Phase) (i : Nat) :
    (p.setPhase id phase).worker? i =
      (p.worker? i).map fun w => if w.id = id then { w with phase } else w := by
  simp only [worker?, setPhase, List.find?_map, Function.comp_def]
  congr 2
  funext w
  split_ifs <;> rfl

theorem worker?_removeWorker_of_ne (p : Pool) {id i : Nat} (hi : i ≠ id) :
    (p.removeWorker id).worker? i = p.worker? i := by
  simp only [worker?, removeWorker, List.find?_filter]
  congr 1
  funext w
  by_cases h : w.id = i
  · simp [h, hi]
  · simp [h]

theorem Stepped.worker?_of_ne (h : Stepped p clock w q) {i : Nat} (hi : i ≠ w.id) :
    q.worker? i = p.worker? i := by
  have hsame : ∀ phase, q.workers = (p.setPhase w.id phase).workers →
      q.worker? i = p.worker? i := by
    intro phase hworkers
    have hq : q.worker? i = (p.setPhase w.id phase).worker? i := by
      rw [worker?, worker?, hworkers]
    rw [hq, worker?_setPhase]
    cases hfound : p.worker? i with
    | none => rfl
    | some v =>
      have hv := (mem_of_worker? hfound).2
      simp [hv, hi]
  rcases h.calms with ⟨phase, hworkers, -⟩ | ⟨hworkers, -⟩ | ⟨rfl, -⟩
  · exact hsame phase hworkers
  · exact hsame w.phase hworkers
  · exact worker?_removeWorker_of_ne p hi

/-- How often the worker may still look while nothing else happens: once if it will look, and once
more if a wake-up is stored. -/
def looksAhead (p : Pool) (timer id : Nat) : Nat :=
  (p.willLook timer id).toNat + p.queue.permit.toNat

theorem mem_of_isSeeking {id : Nat} (h : p.isSeeking id = true) :
    ∃ since, ⟨id, .seeking since⟩ ∈ p.workers := by
  unfold isSeeking at h
  split at h
  · next i since hfound =>
    obtain ⟨hw, rfl⟩ := mem_of_worker? hfound
    exact ⟨since, hw⟩
  · cases h

theorem Sound.isSeeking_eq (h : p.Sound) (hw : w ∈ p.workers) :
    p.isSeeking w.id = w.phase.isSeeking := by
  rw [isSeeking, h.worker?_eq hw]
  obtain ⟨id, phase⟩ := w
  cases phase <;> rfl

theorem Sound.willLook_eq (h : p.Sound) (hw : w ∈ p.workers) (timer : Nat) :
    p.willLook timer w.id = (w.phase.isLooking || (p.queue.due timer).contains w.id) := by
  rw [willLook, h.worker?_eq hw]

theorem Sound.looksAhead_stepOf (h : p.Sound) (hw : w ∈ p.workers)
    (hc : p.canStep clock w = true) :
    (p.isSeeking w.id).toNat + (p.stepOf clock w).looksAhead clock.timer w.id ≤
      p.looksAhead clock.timer w.id := by
  have hpermit := (h.stepped_stepOf hw hc).permit_le
  have hor : ∀ a b : Bool, a.toNat ≤ (a || b).toNat := by decide
  have hlook : (w.phase.isLooking || w.phase.isParked).toNat ≤
      (w.phase.isLooking || (p.queue.due clock.timer).contains w.id).toNat := by
    obtain ⟨id, phase⟩ := w
    cases phase with
    | parked since =>
      have hd : (p.queue.due clock.timer).contains id = true := hc
      rw [hd]
      exact Nat.le_refl _
    | _ => exact hor _ _
  have hafter : ∀ phase, (p.stepOf clock w).workers = (p.setPhase w.id phase).workers →
      (p.stepOf clock w).willLook clock.timer w.id = phase.isLooking := by
    intro phase hworkers
    have hmem : ⟨w.id, phase⟩ ∈ (p.stepOf clock w).workers := by
      rw [hworkers]
      exact List.mem_map.mpr ⟨w, hw, by simp⟩
    rw [(h.stepped hw (h.stepped_stepOf hw hc)).willLook_eq hmem, h.due_stepOf hw]
    simp
  unfold looksAhead
  rw [h.isSeeking_eq hw, h.willLook_eq hw]
  rcases (h.stepped_stepOf hw hc).calms with ⟨phase, hworkers, -, -, hlooks⟩ |
    ⟨hworkers, -, hp, hq⟩ | ⟨hleft, since, hphase⟩
  · rw [hafter phase hworkers]
    omega
  · have hone : w.phase.isSeeking.toNat ≤ 1 := Bool.toNat_le _
    have hmore := hor w.phase.isLooking ((p.queue.due clock.timer).contains w.id)
    rw [hafter w.phase hworkers, hp, hq]
    simp only [Bool.toNat_true, Bool.toNat_false]
    omega
  · have hgone : (p.stepOf clock w).willLook clock.timer w.id = false := by
      rw [hleft, willLook, worker?_removeWorker]
    rw [hgone, hphase]
    simp only [Phase.isSeeking, Phase.isLooking, Bool.true_or, Bool.toNat_true, Bool.toNat_false]
    omega

theorem Sound.looksAhead_stepOf_of_ne (h : p.Sound) (hw : w ∈ p.workers)
    (hc : p.canStep clock w = true) {id : Nat} (hid : id ≠ w.id) :
    (p.stepOf clock w).looksAhead clock.timer id ≤ p.looksAhead clock.timer id := by
  have hpermit := (h.stepped_stepOf hw hc).permit_le
  have hsame : (p.stepOf clock w).willLook clock.timer id = p.willLook clock.timer id := by
    rw [willLook, willLook, (h.stepped_stepOf hw hc).worker?_of_ne hid, h.due_stepOf hw]
    cases p.worker? id with
    | none => rfl
    | some v => simp [hid]
  unfold looksAhead
  rw [hsame]
  omega

theorem Sound.step (h : p.Sound) (clock : Clock) (id : Nat) : (p.step clock id).Sound := by
  rcases h.step_cases clock id with ⟨w, hw, -, hc, hstep⟩ | ⟨hstep, -⟩ <;> rw [hstep]
  · exact h.stepped hw (h.stepped_stepOf hw hc)
  · exact h

/-- **A look takes one off the looks of the worker**, and no step adds one. -/
theorem Sound.looksAhead_step (h : p.Sound) (clock : Clock) (i id : Nat) :
    (if i = id ∧ p.isSeeking id then 1 else 0) +
      (p.step clock i).looksAhead clock.timer id ≤ p.looksAhead clock.timer id := by
  rcases h.step_cases clock i with ⟨w, hw, rfl, hc, hstep⟩ | ⟨hstep, hnone⟩ <;> rw [hstep]
  · by_cases hid : id = w.id
    · subst hid
      have hlook := h.looksAhead_stepOf hw hc
      cases hseek : p.isSeeking w.id <;> rw [hseek] at hlook <;> simpa using hlook
    · have hlook := h.looksAhead_stepOf_of_ne hw hc hid
      rw [if_neg fun hsame => hid hsame.1.symm]
      omega
  · have hidle : ¬ (i = id ∧ p.isSeeking id = true) := by
      rintro ⟨rfl, hseek⟩
      obtain ⟨since, hw⟩ := mem_of_isSeeking hseek
      cases hnone _ hw rfl
    rw [if_neg hidle]
    omega

/-- **In any order of steps a worker looks only so often**, whatever the others do. -/
theorem InUse.looks_le (id : Nat) : ∀ (ids : List Nat) {s : InUse}, s.pool.Sound →
    s.looks id ids ≤ s.pool.looksAhead s.clock.timer id
  | [], _, _ => Nat.zero_le _
  | i :: ids, s, h => by
    obtain ⟨hclock, hpool⟩ := s.after_work i
    have hrest : (s.after (.work i)).looks id ids ≤ _ :=
      InUse.looks_le id ids (hpool ▸ h.step s.clock i)
    have hstep := h.looksAhead_step s.clock i id
    rw [hclock, hpool] at hrest
    unfold InUse.looks
    omega

/-! ### Turns -/

theorem Sound.isSeeking_eq_false (h : p.Sound) {timer id : Nat} (h0 : p.looksAhead timer id = 0) :
    p.isSeeking id = false := by
  by_contra hseek
  rw [Bool.not_eq_false] at hseek
  obtain ⟨since, hw⟩ := mem_of_isSeeking hseek
  have hlook := h.willLook_eq hw timer
  simp only [Phase.isLooking, Bool.true_or] at hlook
  simp [looksAhead, hlook] at h0

/-- **A worker that has as many looks as are before it** looks no longer. -/
theorem Sound.seekOn_rests {clock : Clock} {id : Nat} : ∀ (fuel : Nat) {p : Pool}, p.Sound →
    p.looksAhead clock.timer id ≤ fuel → (seekOn clock id fuel p).isSeeking id = false
  | 0, p, h, hle => h.isSeeking_eq_false (Nat.le_zero.mp hle)
  | fuel + 1, p, h, hle => by
    unfold seekOn
    split_ifs with hseek
    · have hlook := h.looksAhead_step clock id id
      rw [if_pos ⟨rfl, hseek⟩] at hlook
      exact (h.step clock id).seekOn_rests fuel (by omega)
    · simpa using hseek

theorem exists_seekOn_eq (clock : Clock) (id : Nat) : ∀ (fuel : Nat) (p : Pool),
    ∃ n ≤ fuel, seekOn clock id fuel p = (fun p => p.step clock id)^[n] p
  | 0, p => ⟨0, Nat.le_refl _, rfl⟩
  | fuel + 1, p => by
    unfold seekOn
    split_ifs with hseek
    · obtain ⟨n, hn, heq⟩ := exists_seekOn_eq clock id fuel (p.step clock id)
      exact ⟨n + 1, Nat.succ_le_succ hn, heq⟩
    · exact ⟨0, Nat.zero_le _, rfl⟩

/-- A worker is at rest, or looks. -/
def RestsOrLooks (p : Pool) (clock : Clock) (id : Nat) : Prop :=
  ∀ w ∈ p.workers, w.id = id → p.canStep clock w = false ∨ w.phase.isSeeking = true

theorem Stepped.isPending_eq_false (h : Stepped p clock w q) {v : Worker} (hv : v ∈ q.workers)
    (hid : v.id = w.id) : v.phase.isPending = false := by
  have hnew : ∀ phase, q.workers = (p.setPhase w.id phase).workers → v.phase = phase := by
    intro phase hworkers
    rw [hworkers] at hv
    obtain ⟨u, -, rfl⟩ := List.mem_map.mp hv
    by_cases hu : u.id = w.id
    · rw [if_pos hu]
    · rw [if_neg hu] at hid
      exact absurd hid hu
  rcases h.calms with ⟨phase, hworkers, hp, -⟩ | ⟨hworkers, hp, -⟩ | ⟨rfl, -⟩
  · rw [hnew phase hworkers, hp]
  · rw [hnew w.phase hworkers, hp]
  · have hne := List.of_mem_filter hv
    simp [hid] at hne

theorem Sound.restsOrLooks_step (h : p.Sound) (clock : Clock) (id : Nat) :
    (p.step clock id).RestsOrLooks clock id := by
  rintro v hv rfl
  rcases h.step_cases clock v.id with ⟨w, hw, hid, hc, hstep⟩ | ⟨hstep, hnone⟩ <;>
    rw [hstep] at hv ⊢
  · have hp := (h.stepped_stepOf hw hc).isPending_eq_false hv hid.symm
    have hdue : v.id ∉ (p.stepOf clock w).queue.due clock.timer := by
      rw [h.due_stepOf hw, hid]
      simp
    obtain ⟨id, phase⟩ := v
    cases phase with
    | running t => exact Or.inl rfl
    | seeking since => exact Or.inr rfl
    | parked since => exact Or.inl (by simpa [canStep] using hdue)
    | _ => cases hp
  · exact Or.inl (hnone v hv rfl)

theorem Sound.looksAhead_step_le (h : p.Sound) (clock : Clock) (id : Nat) :
    (p.step clock id).looksAhead clock.timer id ≤ 1 + p.queue.permit.toNat := by
  have hlook := Bool.toNat_le ((p.step clock id).willLook clock.timer id)
  have hpermit : (p.step clock id).queue.permit.toNat ≤ p.queue.permit.toNat := by
    rcases h.step_cases clock id with ⟨w, hw, -, hc, hstep⟩ | ⟨hstep, -⟩
    · rw [hstep]
      exact (h.stepped_stepOf hw hc).permit_le
    · exact Nat.le_of_eq (congrArg (·.queue.permit.toNat) hstep)
  unfold looksAhead
  omega

/-- **A turn of a worker ends with the worker at rest**, if it has not left. -/
theorem Sound.canStep_turn (h : p.Sound) (clock : Clock) {id : Nat}
    (hw : (p.turn clock id).worker? id = some w) : (p.turn clock id).canStep clock w = false := by
  obtain ⟨n, -, heq⟩ := exists_seekOn_eq clock id (if p.queue.permit then 2 else 1)
    (p.step clock id)
  have hfuel : (p.step clock id).looksAhead clock.timer id ≤
      if p.queue.permit then 2 else 1 := by
    have hlooks := h.looksAhead_step_le clock id
    cases hp : p.queue.permit <;> simpa [hp] using hlooks
  have hquiet := (h.step clock id).seekOn_rests _ hfuel
  have hkeeps : ∀ q : Pool, q.Sound ∧ q.RestsOrLooks clock id →
      (q.step clock id).Sound ∧ (q.step clock id).RestsOrLooks clock id := fun q hq =>
    ⟨hq.1.step clock id, hq.1.restsOrLooks_step clock id⟩
  obtain ⟨hsound, hrests⟩ := Function.Iterate.rec
    (fun q : Pool => q.Sound ∧ q.RestsOrLooks clock id)
    ⟨h.step clock id, h.restsOrLooks_step clock id⟩ hkeeps n
  rw [← heq] at hsound hrests
  obtain ⟨hm, hid⟩ := mem_of_worker? hw
  refine (hrests w hm hid).resolve_right fun hlooks => ?_
  rw [← hsound.isSeeking_eq hm, hid, hquiet] at hlooks
  cases hlooks

/-- A turn is two steps at most, or three where a wake-up is stored. -/
theorem exists_turn_eq (p : Pool) (clock : Clock) (id : Nat) :
    ∃ n ≤ 2 + p.queue.permit.toNat, p.turn clock id = (fun p => p.step clock id)^[n] p := by
  obtain ⟨n, hn, heq⟩ := exists_seekOn_eq clock id (if p.queue.permit then 2 else 1)
    (p.step clock id)
  refine ⟨n + 1, ?_, heq⟩
  cases hp : p.queue.permit <;> rw [hp] at hn <;> simp at hn ⊢ <;> omega

/-! ### Rest -/

/-- **Workers come to rest**, with the clock standing still and nothing else happening. In any order
of steps a worker looks for a task once, or twice where a wake-up is stored. Its turn is two steps
or three, and then it runs a task, waits or has left. And in any order, all of the workers are at
rest after two steps each and one for the stored wake-up; there is such an order. -/
theorem comes_to_rest (h : Reach s) :
    (∀ (id : Nat) (ids : List Nat), s.looks id ids ≤ 1 + s.pool.queue.permit.toNat) ∧
    (∀ id : Nat,
      (∃ n ≤ 2 + s.pool.queue.permit.toNat,
        s.pool.turn s.clock id = (fun p => p.step s.clock id)^[n] s.pool) ∧
      ∀ w, (s.pool.turn s.clock id).worker? id = some w →
        (s.pool.turn s.clock id).canStep s.clock w = false) ∧
    (∀ run : Nat → InUse, run 0 = s →
      (∀ n, (run n).Settled ∨ (run n).Works (run (n + 1))) →
      ∃ n ≤ 2 * s.pool.size + s.pool.queue.permit.toNat, (run n).Settled) ∧
    ∃ (ids : List Nat) (t : InUse), s.follow? (ids.map .work) = some t ∧ t.Settled := by
  have hp := h.sound
  refine ⟨fun id ids => ?_, fun id => ⟨s.pool.exists_turn_eq s.clock id, fun w hw => ?_⟩,
    fun run h0 hrun => ?_, h.exists_settled⟩
  · have hlooks := InUse.looks_le id ids hp
    have hlook := Bool.toNat_le (s.pool.willLook s.clock.timer id)
    unfold looksAhead at hlooks
    omega
  · exact hp.canStep_turn s.clock hw
  · obtain ⟨n, hn, hset⟩ := h.settled_of_works h0 hrun
    exact ⟨n, Nat.le_trans hn (hp.ahead_le s.clock.timer), hset⟩

/-- Events of a pool without a keep-alive: two workers have ended their tasks, two tasks are queued,
and their offers have left a wake-up stored. -/
def hurried : List Event :=
  [.submit ⟨"a", .gate⟩, .submit ⟨"b", .gate⟩, .submit ⟨"c", .gate⟩, .submit ⟨"d", .gate⟩, .work 0,
    .work 1, .finish 0, .finish 1]

theorem comes_to_rest_hurried :
    ∃ (p : Pool) (s : InUse),
      ofRecord { name := "pool", maxSize := 2, queueCapacity := 2, keepAliveTime := 0 } = .ok p ∧
      ({ pool := p } : InUse).follow? hurried = some s ∧ s.pool.queue.permit = true ∧
      s.pool.queue.size = 2 ∧ ¬ s.Settled ∧ (∀ id ids, s.looks id ids ≤ 2) ∧
      ∀ run : Nat → InUse, run 0 = s →
        (∀ n, (run n).Settled ∨ (run n).Works (run (n + 1))) → ∃ n ≤ 5, (run n).Settled := by
  have hp : ofRecord { name := "pool", maxSize := 2, queueCapacity := 2, keepAliveTime := 0 } =
      .ok _ := rfl
  have hs := (Reach.start {} hp).follow (rfl : InUse.follow? _ hurried = some _)
  obtain ⟨hlooks, -, hruns, -⟩ := comes_to_rest hs
  exact ⟨_, _, hp, rfl, rfl, rfl, by decide, hlooks, hruns⟩

end Pool
end PoolControl
