import PoolControl.Proofs.Pool.Staffing

/-! # Workers hold the slots of a pool

A pool gives out a slot to every worker that it starts and takes the slot back when the worker
leaves. Here are the rules of that: the counters agree with the workers, no start goes beyond the
maximum size, and a worker leaves a running pool only if there are too many of them or it has been
idle for the keep-alive (`workers_accounted`).

Two of the rules look back. The highest number of slots is a maximum over all earlier states, and a
worker is idle from the moment when it had a task for the last time. So a `Run` keeps the states
that a pool in use went through. -/

namespace PoolControl

open Settings (Record)

/-- Since when a worker in this phase has been without a task. -/
def Phase.idleSince? : Phase → Option Nat
  | seeking since | parked since => some since
  | _ => none

namespace Pool

/-! ### Runs -/

/-- A run of a pool in use from the pool of a record: the states before the last one, and that. -/
inductive Run : List InUse → InUse → Prop
  | start {r : Record} {p : Pool} (clock : Clock) (h : ofRecord r = .ok p) :
    Run [] { pool := p, clock }
  | next {past : List InUse} {s : InUse} (h : Run past s) (e : Event) (ok : s.Allows e) :
    Run (past ++ [s]) (s.after e)

/-- The states before each of the events. -/
def InUse.passed (s : InUse) : List Event → List InUse
  | [] => []
  | e :: es => s :: (s.after e).passed es

variable {p q : Pool} {s t : InUse} {past : List InUse}

theorem Run.reach (h : Run past s) : Reach s := by
  induction h with
  | start clock h => exact .start clock h
  | next _ e ok ih => exact ih.next e ok

theorem Reach.exists_run (h : Reach s) : ∃ past, Run past s := by
  induction h with
  | start clock h => exact ⟨[], .start clock h⟩
  | next _ e ok ih =>
    obtain ⟨past, hrun⟩ := ih
    exact ⟨_, hrun.next e ok⟩

theorem Run.follow : ∀ {es : List Event} {past : List InUse} {s : InUse}, Run past s →
    s.follow? es = some t → Run (past ++ s.passed es) t
  | [], past, s, h, he => by
    cases he
    rw [InUse.passed, List.append_nil]
    exact h
  | e :: es, past, s, h, he => by
    unfold InUse.follow? at he
    split_ifs at he with ok
    have hrest := (h.next e ok).follow he
    rw [List.append_assoc] at hrest
    exact hrest

/-! ### The workers after a step -/

theorem ids_setPhase (p : Pool) (id : Nat) (phase : Phase) :
    (p.setPhase id phase).workers.map (·.id) = p.workers.map (·.id) := by
  simp only [setPhase, List.map_map]
  refine List.map_congr_left fun w _ => ?_
  simp only [Function.comp]
  split_ifs <;> rfl

theorem mem_setPhase {id : Nat} {phase : Phase} {v : Worker}
    (hv : v ∈ (p.setPhase id phase).workers) : v = ⟨id, phase⟩ ∨ v ∈ p.workers := by
  obtain ⟨w, hw, rfl⟩ := List.mem_map.mp hv
  by_cases h : w.id = id
  · left
    rw [if_pos h, ← h]
  · right
    rw [if_neg h]
    exact hw

/-- **After a step the worker is in another phase or has left.** An idle phase goes on, or it begins
at the moment of the step. -/
theorem Stepped.cases {clock : Clock} {w : Worker} (h : Stepped p clock w q) :
    (q.size = p.size ∧ q.largest = p.largest ∧ q.maxSize = p.maxSize ∧
      ∃ phase, q.workers = (p.setPhase w.id phase).workers ∧ ∀ since,
        phase.idleSince? = some since → w.phase.idleSince? = some since ∨ since = clock.wall) ∨
    (q = p.removeWorker w.id ∧ ∃ since, w.phase = .seeking since ∧
      (p.running = false ∨ p.maxSize < p.size ∨ p.isExpired clock since = true)) := by
  cases h with
  | begins id t => exact Or.inl ⟨rfl, rfl, rfl, .running t, rfl, nofun⟩
  | arrives id =>
    refine Or.inl ⟨rfl, rfl, rfl, .seeking clock.wall, rfl, fun since hs => Or.inr ?_⟩
    exact (Option.some.inj hs).symm
  | reports id t =>
    refine Or.inl ⟨rfl, rfl, rfl, .seeking clock.wall, rfl, fun since hs => Or.inr ?_⟩
    exact (Option.some.inj hs).symm
  | fetches id since t items hi => exact Or.inl ⟨rfl, rfl, rfl, .running t, rfl, nofun⟩
  | leaves id since hi why => exact Or.inr ⟨rfl, since, rfl, why⟩
  | looksAgain id since hi hp =>
    exact Or.inl ⟨rfl, rfl, rfl, .seeking since, rfl, fun _ hs => Or.inl hs⟩
  | parks id since deadline hi hp hr hm he =>
    exact Or.inl ⟨rfl, rfl, rfl, .parked since, rfl, fun _ hs => Or.inl hs⟩
  | obtains id since t items hi hd => exact Or.inl ⟨rfl, rfl, rfl, .running t, rfl, nofun⟩
  | wakes id since hi hd =>
    exact Or.inl ⟨rfl, rfl, rfl, .seeking since, rfl, fun _ hs => Or.inl hs⟩

/-! ### Starts -/

/-- Slots are given out only, and the highest number of slots is kept up with. -/
structure Gains (p q : Pool) : Prop where
  size_le : p.size ≤ q.size
  largest_eq : q.largest = max p.largest q.size
  workers_eq : ∃ started, q.workers = p.workers ++ started ∧
    ∀ w ∈ started, w.phase.idleSince? = none

theorem Gains.of_eq (hle : p.size ≤ p.largest) (hs : q.size = p.size) (hl : q.largest = p.largest)
    (hw : q.workers = p.workers) : Gains p q := by
  refine ⟨Nat.le_of_eq hs.symm, ?_, [], ?_, by simp⟩
  · rw [hs, hl]
    omega
  · rw [hw, List.append_nil]

theorem Gains.le_largest (h : Gains p q) : q.size ≤ q.largest := by
  rw [h.largest_eq]
  exact Nat.le_max_right _ _

theorem Gains.trans {r : Pool} (h : Gains p q) (h' : Gains q r) : Gains p r := by
  obtain ⟨started, hw, hs⟩ := h.workers_eq
  obtain ⟨started', hw', hs'⟩ := h'.workers_eq
  refine ⟨Nat.le_trans h.size_le h'.size_le, ?_, started ++ started', ?_, fun w hm => ?_⟩
  · have hsize := h'.size_le
    rw [h'.largest_eq, h.largest_eq]
    omega
  · rw [hw', hw, List.append_assoc]
  · rcases List.mem_append.mp hm with hm | hm
    · exact hs w hm
    · exact hs' w hm

theorem gains_startWorker? {limit : Nat} {phase : Phase} (hi : phase.idleSince? = none)
    (h : p.startWorker? limit phase = some q) : Gains p q := by
  obtain ⟨-, rfl⟩ := startWorker?_eq_some_iff.mp h
  exact ⟨Nat.le_succ _, rfl, _, rfl, by simpa using hi⟩

theorem gains_startWorkers (limit : Nat) : ∀ (n : Nat) {p : Pool}, p.size ≤ p.largest →
    Gains p (startWorkers limit n p)
  | 0, _, hle => .of_eq hle rfl rfl rfl
  | n + 1, p, hle => by
    unfold startWorkers
    split
    · next q hq =>
      have hg := gains_startWorker? rfl hq
      exact hg.trans (gains_startWorkers limit n hg.le_largest)
    · exact .of_eq hle rfl rfl rfl

theorem gains_ensureWorker (hle : p.size ≤ p.largest) : Gains p p.ensureWorker := by
  unfold ensureWorker
  split_ifs
  · cases h : p.startWorker? p.maxSize .fresh with
    | none => exact .of_eq hle rfl rfl rfl
    | some q => exact gains_startWorker? rfl h
  · exact .of_eq hle rfl rfl rfl

theorem Submitted.gains {t : Task} {a : Admission} (h : Submitted p t a q)
    (hle : p.size ≤ p.largest) : Gains p q := by
  cases h with
  | handed limit q hr hl hs => exact gains_startWorker? rfl hs
  | queued queue hr hc ho =>
    have hsame : Gains p { p with queue } := .of_eq hle rfl rfl rfl
    exact hsame.trans (gains_ensureWorker hsame.le_largest)
  | _ => exact .of_eq hle rfl rfl rfl

theorem Adjusted.gains (h : Adjusted p q) (hle : p.size ≤ p.largest) : Gains p q := by
  have hwake : ∀ {r : Pool} (condition : Bool), Gains p r → Gains p (r.wakeIf condition) := by
    intro r condition hr
    refine hr.trans (.of_eq hr.le_largest ?_ ?_ ?_) <;> rw [wakeIf_eq]
  cases h with
  | coreSize n hn =>
    have hsame : Gains p { p with coreSize := n } := .of_eq hle rfl rfl rfl
    exact hwake _ (hsame.trans (gains_startWorkers n _ hsame.le_largest))
  | maxSize n h0 hn => exact hwake _ (.of_eq hle rfl rfl rfl)
  | keepAlive span wake => exact hwake _ (.of_eq hle rfl rfl rfl)
  | coreTimeout allow wake => exact hwake _ (.of_eq hle rfl rfl rfl)
  | _ => exact .of_eq hle rfl rfl rfl

theorem Retuned.gains (h : Retuned p q) (hle : p.size ≤ p.largest) : Gains p q :=
  h.keeps (fun _ _ hs hg => hg.trans (hs.adjusted.gains hg.le_largest)) (.of_eq hle rfl rfl rfl)

theorem size_le_maxSize_startWorker? {limit : Nat} {phase : Phase} (hl : limit ≤ p.maxSize)
    (h : p.startWorker? limit phase = some q) : q.size ≤ q.maxSize := by
  obtain ⟨hlt, rfl⟩ := startWorker?_eq_some_iff.mp h
  show p.size + 1 ≤ p.maxSize
  omega

theorem Submitted.size_le_maxSize {t : Task} {a : Admission} (h : Submitted p t a q) (hp : p.Sound)
    (hlt : p.size < q.size) : q.size ≤ q.maxSize := by
  cases h with
  | handed limit q hr hl hs =>
    refine size_le_maxSize_startWorker? ?_ hs
    rcases hl with rfl | rfl
    · exact hp.coreSize_le
    · exact Nat.le_refl _
  | queued queue hr hc ho =>
    unfold ensureWorker at hlt ⊢
    split_ifs at hlt ⊢
    · cases hs : ({ p with queue } : Pool).startWorker? p.maxSize .fresh with
      | none =>
        rw [hs] at hlt
        exact absurd hlt (Nat.lt_irrefl _)
      | some q => exact size_le_maxSize_startWorker? (Nat.le_refl _) hs
    · exact absurd hlt (Nat.lt_irrefl _)
  | _ => exact absurd hlt (Nat.lt_irrefl _)

/-- One setting takes effect, and if it starts workers, then within the maximum size. -/
def SetsWithin (p q : Pool) : Prop := Sets p q ∧ (p.size < q.size → q.size ≤ q.maxSize)

theorem Adjusted.size_le_maxSize (h : Adjusted p q) (hlt : p.size < q.size) :
    q.size ≤ q.maxSize := by
  cases h with
  | coreSize n hn =>
    obtain ⟨fresh, largest, heq, -, -, -, hlimit⟩ :=
      startWorkers_spec n (min p.queue.size (n - p.coreSize)) { p with coreSize := n }
    rw [wakeIf_eq, heq] at hlt ⊢
    simp only at hlt hlimit ⊢
    rcases hlimit with rfl | hlimit
    · simp at hlt
    · omega
  | maxSize n h0 hn =>
    rw [wakeIf_eq] at hlt
    exact absurd hlt (Nat.lt_irrefl _)
  | keepAlive span wake =>
    rw [wakeIf_eq] at hlt
    exact absurd hlt (Nat.lt_irrefl _)
  | coreTimeout allow wake =>
    rw [wakeIf_eq] at hlt
    exact absurd hlt (Nat.lt_irrefl _)
  | _ => exact absurd hlt (Nat.lt_irrefl _)

theorem Retuned.setsWithin (h : Retuned p q) : Relation.ReflTransGen SetsWithin p q := by
  induction h with
  | refl => exact .refl
  | tail _ hs ih => exact ih.tail ⟨hs, hs.adjusted.size_le_maxSize⟩

/-! ### Events -/

theorem ids_finish (p : Pool) (id : Nat) :
    (p.finish id).workers.map (·.id) = p.workers.map (·.id) := by
  rcases p.finish_cases id with h | ⟨t, -, h⟩
  · rw [h]
  · rw [h, ids_setPhase]

theorem Happens.wall_le (h : Happens s t) : s.clock.wall ≤ t.clock.wall := by
  cases h with
  | advance timer wall => exact Nat.le_add_right _ _
  | _ => exact Nat.le_refl _

theorem stop_slots (p : Pool) :
    p.stop.2.size = p.size ∧ p.stop.2.largest = p.largest ∧ p.stop.2.workers = p.workers := by
  unfold stop
  simp only
  split_ifs <;> exact ⟨rfl, rfl, rfl⟩

theorem finish_slots (p : Pool) (id : Nat) :
    (p.finish id).size = p.size ∧ (p.finish id).largest = p.largest := by
  rcases p.finish_cases id with h | ⟨t, -, h⟩ <;> rw [h]
  · exact ⟨rfl, rfl⟩
  · exact ⟨rfl, rfl⟩

theorem Happens.largest_eq (h : Happens s t) (hle : s.pool.size ≤ s.pool.largest) :
    t.pool.largest = max s.pool.largest t.pool.size := by
  cases h with
  | submit t => exact ((s.pool.submitted t).gains hle).largest_eq
  | work w hw hs =>
    rcases hs.cases with ⟨hsize, hlargest, -⟩ | ⟨hq, -⟩
    · rw [hsize, hlargest]
      omega
    · rw [hq]
      show s.pool.largest = max s.pool.largest (s.pool.size - 1)
      omega
  | finish id =>
    obtain ⟨hsize, hlargest⟩ := s.pool.finish_slots id
    simp only [hsize, hlargest]
    omega
  | retune p hp => exact (hp.gains hle).largest_eq
  | stop hr =>
    obtain ⟨hsize, hlargest, -⟩ := s.pool.stop_slots
    simp only [InUse.stop, hsize, hlargest]
    omega
  | advance timer wall =>
    simp only
    omega

theorem Happens.leaves (h : Happens s t) (hp : s.pool.Sound)
    (hle : s.pool.size ≤ s.pool.largest) {w : Worker} (hw : w ∈ s.pool.workers)
    (hleft : w.id ∉ t.pool.workers.map (·.id)) :
    ∃ since, w.phase = .seeking since ∧ (s.pool.running = false ∨
      s.pool.maxSize < s.pool.size ∨ s.pool.isExpired s.clock since = true) := by
  have hin : w.id ∈ s.pool.workers.map (·.id) := List.mem_map_of_mem hw
  have hgains : ∀ {q : Pool}, Gains s.pool q → w.id ∈ q.workers.map (·.id) := by
    intro q hq
    obtain ⟨started, hworkers, -⟩ := hq.workers_eq
    rw [hworkers, List.map_append]
    exact List.mem_append_left _ hin
  cases h with
  | submit t => exact absurd (hgains ((s.pool.submitted t).gains hle)) hleft
  | work v hv hs =>
    rcases hs.cases with ⟨-, -, -, phase, hworkers, -⟩ | ⟨hq, since, hphase, why⟩
    · rw [hworkers, ids_setPhase] at hleft
      exact absurd hin hleft
    · rw [hq] at hleft
      have hid : w.id = v.id := by
        by_contra hne
        refine hleft (List.mem_map_of_mem (List.mem_filter.mpr ⟨hw, ?_⟩))
        simpa using hne
      have hsame := hp.worker?_eq hw
      rw [hid, hp.worker?_eq hv] at hsame
      rw [← Option.some.inj hsame]
      exact ⟨since, hphase, why⟩
  | finish id =>
    rw [ids_finish] at hleft
    exact absurd hin hleft
  | retune p hp => exact absurd (hgains (hp.gains hle)) hleft
  | stop hr =>
    rw [InUse.stop, s.pool.stop_slots.2.2] at hleft
    exact absurd hin hleft
  | advance timer wall => exact absurd hin hleft

/-- A worker that is idle after an event was so before, since the same moment, or is so from now. -/
theorem Happens.idle (h : Happens s t) (hle : s.pool.size ≤ s.pool.largest) {w : Worker}
    {since : Nat} (hw : w ∈ t.pool.workers) (hi : w.phase.idleSince? = some since) :
    (∃ v ∈ s.pool.workers, v.id = w.id ∧ v.phase.idleSince? = some since) ∨
      since = t.clock.wall := by
  have hbefore : w ∈ s.pool.workers → ∃ v ∈ s.pool.workers, v.id = w.id ∧
      v.phase.idleSince? = some since := fun hm => ⟨w, hm, rfl, hi⟩
  have hgains : ∀ {q : Pool}, Gains s.pool q → w ∈ q.workers → w ∈ s.pool.workers := by
    intro q hq hm
    obtain ⟨started, hworkers, hstarted⟩ := hq.workers_eq
    rw [hworkers] at hm
    rcases List.mem_append.mp hm with hm | hm
    · exact hm
    · rw [hstarted w hm] at hi
      cases hi
  cases h with
  | submit t => exact Or.inl (hbefore (hgains ((s.pool.submitted t).gains hle) hw))
  | work v hv hs =>
    rcases hs.cases with ⟨-, -, -, phase, hworkers, hphase⟩ | ⟨hq, -⟩
    · rw [hworkers] at hw
      rcases mem_setPhase hw with rfl | hm
      · exact (hphase since hi).imp_left fun hs => ⟨v, hv, rfl, hs⟩
      · exact Or.inl (hbefore hm)
    · rw [hq] at hw
      exact Or.inl (hbefore (List.mem_of_mem_filter hw))
  | finish id =>
    rcases s.pool.finish_cases id with hq | ⟨t, -, hq⟩
    · simp only [hq] at hw
      exact Or.inl (hbefore hw)
    · simp only [hq] at hw
      rcases mem_setPhase hw with rfl | hm
      · cases hi
      · exact Or.inl (hbefore hm)
  | retune p hp => exact Or.inl (hbefore (hgains (hp.gains hle) hw))
  | stop hr =>
    rw [InUse.stop, s.pool.stop_slots.2.2] at hw
    exact Or.inl (hbefore hw)
  | advance timer wall => exact Or.inl (hbefore hw)

/-! ### What a run remembers -/

theorem Run.largest_eq (h : Run past s) :
    ((past ++ [s]).map (·.pool.size)).max? = some s.pool.largest := by
  induction h with
  | start clock h =>
    obtain ⟨-, -, policy, -, rfl⟩ := ofRecord_eq_ok_iff.mp h
    rfl
  | @next past s h e ok ih =>
    rw [List.max?_eq_some_iff] at ih ⊢
    obtain ⟨hmem, hle⟩ := ih
    have hsize : s.pool.size ≤ s.pool.largest := hle _ (by simp)
    have hmax := (InUse.happens h.reach.sound ok).largest_eq hsize
    rw [List.map_append, List.map_singleton]
    refine ⟨?_, fun n hn => ?_⟩
    · rw [hmax]
      rcases Nat.le_total (s.after e).pool.size s.pool.largest with hm | hm
      · rw [Nat.max_eq_left hm]
        exact List.mem_append_left _ hmem
      · rw [Nat.max_eq_right hm]
        exact List.mem_append_right _ (List.mem_singleton.mpr rfl)
    · rw [hmax]
      rcases List.mem_append.mp hn with hn | hn
      · exact Nat.le_trans (hle n hn) (Nat.le_max_left _ _)
      · rw [List.mem_singleton.mp hn]
        exact Nat.le_max_right _ _

theorem Run.size_le_largest (h : Run past s) : s.pool.size ≤ s.pool.largest :=
  (List.max?_eq_some_iff.mp h.largest_eq).2 _ (by simp)

theorem Run.wall_le (h : Run past s) : ∀ u ∈ past ++ [s], u.clock.wall ≤ s.clock.wall := by
  induction h with
  | start clock h => simp
  | next h e ok ih =>
    intro u hu
    rcases List.mem_append.mp hu with hu | hu
    · exact Nat.le_trans (ih u hu) (InUse.happens h.reach.sound ok).wall_le
    · obtain rfl := List.mem_singleton.mp hu
      exact Nat.le_refl _

/-- The worker has been without a task through all the last states of a run, the first of them at
that moment of the wall clock. -/
def IdleSince (states : List InUse) (id since : Nat) : Prop :=
  ∃ before first rest, states = before ++ first :: rest ∧ first.clock.wall = since ∧
    ∀ u ∈ first :: rest, ∃ w ∈ u.pool.workers, w.id = id ∧ w.phase.idleSince? = some since

/-- **The moment that an idle worker goes by** is the one since when it has been idle. -/
theorem Run.idleSince (h : Run past s) {w : Worker} {since : Nat} (hw : w ∈ s.pool.workers)
    (hi : w.phase.idleSince? = some since) : IdleSince (past ++ [s]) w.id since := by
  induction h generalizing w with
  | start clock h =>
    obtain ⟨-, -, policy, -, rfl⟩ := ofRecord_eq_ok_iff.mp h
    cases hw
  | @next past s h e ok ih =>
    have hevent := InUse.happens h.reach.sound ok
    rcases hevent.idle h.size_le_largest hw hi with ⟨v, hv, hid, hvi⟩ | hnow
    · obtain ⟨before, first, rest, hsplit, hfirst, hidle⟩ := ih hv hvi
      refine ⟨before, first, rest ++ [s.after e], ?_, hfirst, fun u hu => ?_⟩
      · rw [hsplit, List.append_assoc, List.cons_append]
      · rw [← List.cons_append] at hu
        rcases List.mem_append.mp hu with hu | hu
        · rw [← hid]
          exact hidle u hu
        · rw [List.mem_singleton.mp hu]
          exact ⟨w, hw, rfl, hi⟩
    · refine ⟨past ++ [s], s.after e, [], rfl, hnow.symm, fun u hu => ?_⟩
      rw [List.mem_singleton.mp hu]
      exact ⟨w, hw, rfl, hi⟩

theorem IdleSince.le_wall {id since : Nat} (h : Run past s)
    (hi : IdleSince (past ++ [s]) id since) : since ≤ s.clock.wall := by
  obtain ⟨before, first, rest, hsplit, rfl, -⟩ := hi
  refine h.wall_le first ?_
  rw [hsplit]
  exact List.mem_append_right _ List.mem_cons_self

/-! ### The account -/

/-- How many workers are running a task at this moment. -/
def runningCount (p : Pool) : Nat := p.workers.countP (·.phase.running?.isSome)

theorem Sound.active_pos (h : p.Sound) {w : Worker} (hw : w ∈ p.workers)
    (hb : w.phase.begun?.isSome = true) : 0 < p.active := by
  obtain ⟨t, ht⟩ := Option.isSome_iff_exists.mp hb
  rw [h.active_eq]
  exact List.length_pos_of_mem (List.mem_filterMap.mpr ⟨w, hw, ht⟩)

theorem Sound.active_le_size (h : p.Sound) : p.active ≤ p.size := by
  rw [h.active_eq, h.size_eq]
  exact List.length_filterMap_le _ _

theorem InUse.Settled.active_eq (h : s.Settled) (hp : s.pool.Sound) :
    s.pool.active = s.pool.runningCount := by
  rw [hp.active_eq, runningCount, begun, List.length_filterMap_eq_countP]
  refine List.countP_congr fun w hw => ?_
  have hstep := h w hw
  obtain ⟨id, phase⟩ := w
  cases phase with
  | finished t => cases hstep
  | _ => rfl

theorem Happens.size_cases (h : Happens s t) (hle : s.pool.size ≤ s.pool.largest) :
    s.pool.size ≤ t.pool.size ∨ t.pool.size = s.pool.size - 1 ∧ ∃ w ∈ s.pool.workers,
      w.id ∉ t.pool.workers.map (·.id) := by
  cases h with
  | submit t => exact Or.inl ((s.pool.submitted t).gains hle).size_le
  | work w hw hs =>
    rcases hs.cases with ⟨hsize, -⟩ | ⟨hq, -⟩
    · exact Or.inl (Nat.le_of_eq hsize.symm)
    · right
      rw [hq]
      refine ⟨rfl, w, hw, fun hm => ?_⟩
      obtain ⟨v, hv, hid⟩ := List.mem_map.mp hm
      have hne := List.of_mem_filter hv
      simp [hid] at hne
  | finish id => exact Or.inl (Nat.le_of_eq (s.pool.finish_slots id).1.symm)
  | retune p hp => exact Or.inl (hp.gains hle).size_le
  | stop hr => exact Or.inl (Nat.le_of_eq s.pool.stop_slots.1.symm)
  | advance timer wall => exact Or.inl (Nat.le_refl _)

theorem InUse.size_le_maxSize_set (s : InUse) (setting : Setting)
    (hlt : s.pool.size < (s.after (.set setting)).pool.size) :
    (s.after (.set setting)).pool.size ≤ (s.after (.set setting)).pool.maxSize := by
  cases hq : Session.applySetting s.pool setting with
  | error _ =>
    simp only [InUse.after, hq] at hlt
    exact absurd hlt (Nat.lt_irrefl _)
  | ok q =>
    simp only [InUse.after, hq] at hlt ⊢
    exact Sets.adjusted ⟨setting, hq⟩ |>.size_le_maxSize hlt

theorem InUse.size_le_maxSize {e : Event} (hp : s.pool.Sound) (he : e.isTuning = false)
    (hlt : s.pool.size < (s.after e).pool.size) :
    (s.after e).pool.size ≤ (s.after e).pool.maxSize := by
  cases e with
  | submit t => exact (s.pool.submitted t).size_le_maxSize hp hlt
  | work id =>
    have hle : (s.after (.work id)).pool.size ≤ s.pool.size := by
      simp only [InUse.after]
      split
      · next w hw =>
        split_ifs with hc
        · rcases (InUse.stepped_work hp hw hc).2.cases with ⟨hsize, -⟩ | ⟨hq, -⟩
          · exact Nat.le_of_eq hsize
          · rw [hq]
            exact Nat.sub_le _ _
        · exact Nat.le_refl _
      · exact Nat.le_refl _
    omega
  | finish id =>
    have hsize := (s.pool.finish_slots id).1
    simp only [InUse.after] at hlt
    omega
  | stop =>
    have hsize := s.pool.stop_slots.1
    simp only [InUse.after] at hlt
    split_ifs at hlt
    · simp only [InUse.stop] at hlt
      omega
    · omega
  | advance timer wall => exact absurd hlt (Nat.lt_irrefl _)
  | _ => cases he

/-- Why a worker may leave a pool that runs: there are too many workers, or it has been idle for the
keep-alive and may time out. -/
def MayLeave (states : List InUse) (s : InUse) (id : Nat) : Prop :=
  s.pool.maxSize < s.pool.size ∨
    (s.pool.coreTimeout = true ∨ s.pool.coreSize < s.pool.size) ∧
      ∃ since, IdleSince states id since ∧ since + s.pool.keepAlive.toNat ≤ s.clock.wall

theorem Run.mayLeave (h : Run past s) (hr : s.pool.running = true) {e : Event} (ok : s.Allows e)
    {w : Worker} (hw : w ∈ s.pool.workers) (hleft : w.id ∉ (s.after e).pool.workers.map (·.id)) :
    MayLeave (past ++ [s]) s w.id := by
  obtain ⟨since, hphase, why⟩ :=
    (InUse.happens h.reach.sound ok).leaves h.reach.sound h.size_le_largest hw hleft
  rcases why with hstopped | hmany | hexpired
  · rw [hr] at hstopped
    cases hstopped
  · exact Or.inl hmany
  · have hidle : IdleSince (past ++ [s]) w.id since := h.idleSince hw (by rw [hphase]; rfl)
    have hle := hidle.le_wall h
    simp only [isExpired, isTimed, Bool.and_eq_true, Bool.or_eq_true, decide_eq_true_eq]
      at hexpired
    exact Or.inr ⟨hexpired.1, since, hidle, by omega⟩

/-- **Workers and slots.** In every state of every run, the size is the number of workers and the
active count is the number of those that have begun a task and not reported its end, which in a
settled state are those that are running one. The highest number of slots is the maximum of the
sizes so far. No counter is taken below zero: there is a slot for every worker that could leave, and
a task is counted for every worker that could report one. A step or a setting that starts workers
stays within the maximum size, and so does each single setting of a refresh or a bind. And a worker
leaves a running pool only if it may, so that without core timeout no core worker does. -/
theorem workers_accounted (h : Run past s) :
    (s.pool.size = s.pool.workers.length ∧ s.pool.active = s.pool.begun.length ∧
      (s.Settled → s.pool.active = s.pool.runningCount)) ∧
    (s.pool.active ≤ s.pool.size ∧ s.pool.size ≤ s.pool.largest ∧
      ((past ++ [s]).map (·.pool.size)).max? = some s.pool.largest) ∧
    (∀ w ∈ s.pool.workers, 0 < s.pool.size ∧
      (w.phase.begun?.isSome = true → 0 < s.pool.active)) ∧
    ∀ e, s.Allows e →
      ((e.isTuning = false ∨ ∃ setting, e = .set setting) →
        s.pool.size < (s.after e).pool.size →
        (s.after e).pool.size ≤ (s.after e).pool.maxSize) ∧
      (e.isTuning = true → Relation.ReflTransGen SetsWithin s.pool (s.after e).pool) ∧
      (s.pool.running = true →
        (∀ w ∈ s.pool.workers, w.id ∉ (s.after e).pool.workers.map (·.id) →
          MayLeave (past ++ [s]) s w.id) ∧
        (s.pool.coreTimeout = false → (s.after e).pool.size < s.pool.size →
          s.pool.coreSize ≤ (s.after e).pool.size)) := by
  have hp := h.reach.sound
  refine ⟨⟨hp.size_eq, hp.active_eq, fun hset => hset.active_eq hp⟩,
    ⟨hp.active_le_size, h.size_le_largest, h.largest_eq⟩,
    fun w hw => ⟨hp.size_pos hw, hp.active_pos hw⟩, fun e ok => ⟨?_, ?_, fun hr => ⟨?_, ?_⟩⟩⟩
  · rintro (he | ⟨setting, rfl⟩) hlt
    · exact InUse.size_le_maxSize hp he hlt
    · exact s.size_le_maxSize_set setting hlt
  · intro he
    obtain ⟨q, hq, hafter⟩ := InUse.retuned_after he ok
    rw [hafter]
    exact hq.setsWithin
  · exact fun w hw hleft => h.mayLeave hr ok hw hleft
  · intro hcore hlt
    rcases (InUse.happens hp ok).size_cases h.size_le_largest with hge | ⟨hsize, w, hw, hleft⟩
    · omega
    · rw [hsize]
      rcases h.mayLeave hr ok hw hleft with hmany | ⟨htimed, -⟩
      · have hcommittable := hp.coreSize_le
        omega
      · rw [hcore] at htimed
        rcases htimed with htimed | htimed
        · cases htimed
        · omega

/-- Events of a pool with one core worker and room for one queued task. The third task finds a
second worker started for it, which then runs the queued one and waits for the keep-alive. -/
def retiring : List Event :=
  [.submit ⟨"a", .gate⟩, .submit ⟨"b", .noop⟩, .submit ⟨"c", .noop⟩, .work 0, .work 1, .finish 1,
    .work 1, .work 1, .finish 1, .work 1, .work 1, .work 1, .advance 0 30000, .advance 1000 0,
    .work 1]

theorem workers_accounted_retiring :
    ∃ (p : Pool) (s : InUse) (past : List InUse) (w : Worker),
      ofRecord { name := "pool", maxSize := 2, queueCapacity := 1 } = .ok p ∧
      ({ pool := p } : InUse).follow? retiring = some s ∧
      past = ({ pool := p } : InUse).passed retiring ∧
      s.pool.size = 2 ∧ s.pool.largest = 2 ∧ s.pool.active = 1 ∧ w ∈ s.pool.workers ∧
      s.pool.size = s.pool.workers.length ∧ s.pool.active = s.pool.begun.length ∧
      ((past ++ [s]).map (·.pool.size)).max? = some s.pool.largest ∧
      (s.after (.work w.id)).pool.size = 1 ∧ s.pool.coreSize ≤ (s.after (.work w.id)).pool.size ∧
      MayLeave (past ++ [s]) s w.id := by
  have hp : ofRecord { name := "pool", maxSize := 2, queueCapacity := 1 } = .ok _ := rfl
  have hrun := (Run.start {} hp).follow (rfl : InUse.follow? _ retiring = some _)
  obtain ⟨⟨hsize, hactive, -⟩, ⟨-, -, hlargest⟩, -, hevents⟩ := workers_accounted hrun
  obtain ⟨-, -, hleave⟩ := hevents (.work 1) trivial
  obtain ⟨hwhy, hcore⟩ := hleave rfl
  exact ⟨_, _, _, ⟨1, .seeking 0⟩, hp, rfl, rfl, rfl, rfl, rfl, by decide, hsize, hactive,
    hlargest, rfl, hcore rfl (by decide), hwhy ⟨1, .seeking 0⟩ (by decide) (by decide)⟩

end Pool
end PoolControl
