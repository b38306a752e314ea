import PoolControl.Proofs.Pool.Conservation
import PoolControl.Proofs.Refresh.Intervals

/-! # Rejections are counted once

A monitor remembers how many rejections the pool of a name had at the last round, and the next round
compares the rejections since with the threshold. What happens to a name in the course of a run is
kept in a log (`Surveyed`), which comes to an `Account` of the rejections of its pool. The monitor
remembers what the account says that it has seen (`Surveyed.tracked`).

So a pool that was checked before is measured by its rejections since then
(`rejections_counted_once`). The memory goes by names, though, and outlives a pool. One that has
taken the place of a pool with rejections is measured, the first time, by how many more it has
(`rejections_hidden`). -/

namespace PoolControl

open Settings (NoticeKind)

/-! ### What an event counts -/

namespace Pool

variable {p q : Pool} {s : InUse} {e : Event}

/-- Whether the event is a submission that the saturation policy decides. -/
def Event.isRejection (s : InUse) : Event → Bool
  | .submit t => (s.pool.submit t).1.isSaturated
  | _ => false

theorem Submitted.rejected_eq {t : Task} {a : Admission} (h : Submitted p t a q) :
    q.rejected = p.rejected + if a.isSaturated then 1 else 0 := by
  cases h with
  | handed limit _ _ _ h =>
    obtain ⟨-, rfl⟩ := startWorker?_eq_some_iff.mp h
    rfl
  | queued queue => exact (sameTasks_ensureWorker _).rejected
  | _ => rfl

theorem Stepped.rejected_eq {clock : Clock} {w : Worker} (h : Stepped p clock w q) :
    q.name = p.name ∧ q.rejected = p.rejected := by
  cases h <;> exact ⟨rfl, rfl⟩

theorem rejected_after_of_ne_submit (ok : s.Allows e) (he : ∀ t, e ≠ .submit t) :
    (s.after e).pool.name = s.pool.name ∧ (s.after e).pool.rejected = s.pool.rejected := by
  by_cases htuning : e.isTuning = true
  · obtain ⟨q, hq, h⟩ := InUse.retuned_after htuning ok
    rw [h]
    exact ⟨hq.name_eq, hq.sameTasks.rejected⟩
  · cases e with
    | submit t => exact absurd rfl (he t)
    | work id =>
      simp only [InUse.after]
      split
      · next w hw =>
        split_ifs with hc
        · rcases (InUse.work_cases hw hc).2 with h | ⟨-, h⟩
          · exact h.rejected_eq
          · rw [h]
            exact ⟨rfl, rfl⟩
        · exact ⟨rfl, rfl⟩
      · exact ⟨rfl, rfl⟩
    | finish id =>
      show (s.pool.finish id).name = _ ∧ (s.pool.finish id).rejected = _
      rcases s.pool.finish_cases id with h | ⟨t, -, h⟩
      · rw [h]
        exact ⟨rfl, rfl⟩
      · rw [h]
        exact ⟨rfl, rfl⟩
    | stop =>
      simp only [InUse.after, InUse.stop, stop]
      split_ifs <;> exact ⟨rfl, rfl⟩
    | advance timer wall => exact ⟨rfl, rfl⟩
    | _ => exact absurd rfl htuning

/-- **An event counts a rejection** exactly if it is one. -/
theorem rejected_after (ok : s.Allows e) : (s.after e).pool.name = s.pool.name ∧
    (s.after e).pool.rejected = s.pool.rejected + if e.isRejection s then 1 else 0 := by
  by_cases he : ∃ t, e = .submit t
  · obtain ⟨t, rfl⟩ := he
    have h := s.pool.submitted t
    exact ⟨congrArg (·.snapshot.name) h.setup_eq, h.rejected_eq⟩
  · have hother : ∀ t, e ≠ .submit t := fun t h => he ⟨t, h⟩
    have hno : e.isRejection s = false := by
      cases e with
      | submit t => exact absurd rfl (hother t)
      | _ => rfl
    rw [hno]
    exact rejected_after_of_ne_submit ok hother

end Pool

/-! ### The log of a run -/

/-- What matters to the rejections in the course of a run. -/
inductive Account.Entry where
  /-- A new pool was registered under the name. It had that many rejections. -/
  | registered (name : String) (rejected : Nat)
  /-- The registered pool of that name had one more rejection. -/
  | rejected (name : String)
  /-- A round checked the pool of that name. -/
  | checked (name : String)
  deriving DecidableEq, Repr

/-- The name that an entry is about. -/
def Account.Entry.name : Account.Entry → String
  | registered name _ | rejected name | checked name => name

/-- The rejections of the pool that has a name. -/
structure Account where
  /-- All rejections of the pool. -/
  all : Nat := 0
  /-- Those since the last round that checked the pool, or all if none has. -/
  fresh : Nat := 0
  /-- Whether a round has checked the pool. -/
  isChecked : Bool := false
  /-- What the last round that checked a pool of the name has seen: all rejections of that pool. -/
  seen : Nat := 0
  deriving DecidableEq, Repr

namespace Account

/-- The account after a round. -/
def check (a : Account) : Account := { a with fresh := 0, isChecked := true, seen := a.all }

/-- The account after an entry about its name. -/
def enter (a : Account) : Entry → Account
  | .registered _ rejected => { a with all := rejected, fresh := rejected, isChecked := false }
  | .rejected _ => { a with all := a.all + 1, fresh := a.fresh + 1 }
  | .checked _ => a.check

/-- The account of a name after an entry. -/
def note (name : String) (a : Account) (e : Entry) : Account :=
  if e.name = name then a.enter e else a

/-- The account of a name that a log comes to. -/
def ofLog (name : String) (log : List Entry) : Account := log.foldl (note name) {}

/-- What was seen of a pool and what is fresh are all of its rejections. -/
structure Balanced (a : Account) : Prop where
  checked : a.isChecked = true → a.all = a.seen + a.fresh
  unchecked : a.isChecked = false → a.all = a.fresh

variable {name : String} {a : Account} {log : List Entry}

theorem ofLog_concat (name : String) (log : List Entry) (e : Entry) :
    ofLog name (log ++ [e]) = (ofLog name log).note name e := List.foldl_concat ..

theorem Balanced.enter (h : a.Balanced) (e : Entry) : (a.enter e).Balanced := by
  cases e with
  | registered other rejected => exact ⟨nofun, fun _ => rfl⟩
  | rejected other =>
    exact ⟨fun hc => congrArg (· + 1) (h.checked hc), fun hc => congrArg (· + 1) (h.unchecked hc)⟩
  | checked other => exact ⟨fun _ => rfl, nofun⟩

/-- **Every account is balanced.** -/
theorem balanced_ofLog (name : String) (log : List Entry) : (ofLog name log).Balanced := by
  have hfold : ∀ a : Account, a.Balanced → (log.foldl (note name) a).Balanced := by
    induction log with
    | nil => exact fun a h => h
    | cons e log ih =>
      refine fun a h => ih _ ?_
      unfold note
      split_ifs
      · exact h.enter e
      · exact h
  exact hfold {} ⟨nofun, fun _ => rfl⟩

theorem ofLog_append_checked (name : String) (log : List Entry) (names : List String) :
    ofLog name (log ++ names.map .checked) =
      if name ∈ names then (ofLog name log).check else ofLog name log := by
  induction names generalizing log with
  | nil => simp
  | cons other names ih =>
    rw [List.map_cons, List.append_cons, ih, ofLog_concat]
    by_cases hn : other = name
    · subst hn
      simp only [note, Entry.name, enter, if_true, List.mem_cons_self]
      split_ifs <;> rfl
    · simp [note, Entry.name, hn, Ne.symm hn]

end Account

/-- The runs of a monitor, with their logs. Pools are registered, and replaced by new ones. The
registered pools go their course, in which they are submitted tasks and are refreshed or bound, and
rounds come in between. -/
inductive Surveyed : ControlPlane → Monitor → List Account.Entry → Prop
  | start {c : ControlPlane} (h : c.registry.pools = []) : Surveyed c {} []
  | register {c : ControlPlane} {m : Monitor} {log : List Account.Entry} (h : Surveyed c m log)
    (p : Pool) : Surveyed { c with registry := (c.registry.register p).2 } m
      (log ++ [.registered p.name p.rejected])
  | event {c : ControlPlane} {m : Monitor} {log : List Account.Entry} (h : Surveyed c m log)
    {s : Pool.InUse} (hp : c.registry.get? s.pool.name = some s.pool) (e : Pool.Event)
    (ok : s.Allows e) :
    Surveyed (c.updatePool (s.after e).pool) m
      (if e.isRejection s then log ++ [.rejected s.pool.name] else log)
  | round {c : ControlPlane} {m : Monitor} {log : List Account.Entry} (h : Surveyed c m log) :
    Surveyed (m.round c).2 (m.round c).1.2
      (log ++ (c.registry.pools.map (·.name)).map .checked)
  /-- Something else happens, which does not touch the pools. -/
  | idle {c d : ControlPlane} {m : Monitor} {log : List Account.Entry} (h : Surveyed c m log)
    (hd : d.registry = c.registry) : Surveyed d m log

/-! ### The memory of a monitor -/

namespace Monitor

variable {m : Monitor} {c : ControlPlane} {ps : List Pool} {p : Pool} {name : String}

/-- The memory after a look at the pools, one after the other. -/
def rememberAll (m : Monitor) (ps : List Pool) : Monitor :=
  ps.foldl (fun m p => m.remember p.name p.rejected) m

theorem checkPools_memory (c : ControlPlane) (m : Monitor) (ps : List Pool) :
    (checkPools c m ps).1.2 = m.rememberAll ps := by
  induction ps generalizing c m with
  | nil => rfl
  | cons p ps ih => exact ih _ _

/-- **A round remembers** the rejections of every registered pool. -/
theorem memory_round (hm : m.enabled = true) :
    (m.round c).1.2 = m.rememberAll c.registry.pools := by
  rw [round, if_pos hm, checkPools_memory]

theorem checkPools_append (c : ControlPlane) (m : Monitor) (ps qs : List Pool) :
    (checkPools c m (ps ++ qs)).1.1 = (checkPools c m ps).1.1 ++
      (checkPools (checkPools c m ps).2 (m.rememberAll ps) qs).1.1 := by
  induction ps generalizing c m with
  | nil => rfl
  | cons p ps ih =>
    show _ ++ _ = (_ ++ _) ++ _
    rw [List.append_assoc]
    exact congrArg _ (ih _ _)

theorem enabled_rememberAll (m : Monitor) (ps : List Pool) :
    (m.rememberAll ps).enabled = m.enabled := by
  induction ps generalizing m with
  | nil => rfl
  | cons p ps ih => exact ih _

theorem rejectedBefore_remember (m : Monitor) (name other : String) (rejected : Nat) :
    (m.remember name rejected).rejectedBefore other =
      if name = other then rejected else m.rejectedBefore other := by
  unfold remember rejectedBefore
  split_ifs with hn
  · simp [hn]
  · rw [List.find?_cons_of_neg (by simpa using hn), List.find?_filter]
    congr 3
    funext e
    by_cases he : e.1 = other
    · simp [he, Ne.symm hn]
    · simp [he]

theorem rejectedBefore_rememberAll_of_not_mem (h : name ∉ ps.map (·.name)) :
    (m.rememberAll ps).rejectedBefore name = m.rejectedBefore name := by
  induction ps generalizing m with
  | nil => rfl
  | cons p ps ih =>
    rw [List.map_cons, List.mem_cons, not_or] at h
    show ((m.remember p.name p.rejected).rememberAll ps).rejectedBefore name = _
    rw [ih h.2, rejectedBefore_remember, if_neg (Ne.symm h.1)]

/-- **A look at pools of different names** remembers the rejections of each. -/
theorem rejectedBefore_rememberAll_of_mem (hn : (ps.map (·.name)).Nodup) (hp : p ∈ ps) :
    (m.rememberAll ps).rejectedBefore p.name = p.rejected := by
  induction ps generalizing m with
  | nil => cases hp
  | cons q ps ih =>
    rw [List.map_cons, List.nodup_cons] at hn
    rcases List.mem_cons.mp hp with rfl | hp
    · show ((m.remember p.name p.rejected).rememberAll ps).rejectedBefore p.name = _
      rw [rejectedBefore_rememberAll_of_not_mem hn.1, rejectedBefore_remember, if_pos rfl]
    · exact ih hn.2 hp

/-- The memory with which a round comes to the pool of that name. -/
def memoryAt (m : Monitor) (c : ControlPlane) (name : String) : Monitor :=
  m.rememberAll (c.registry.pools.takeWhile (·.name ≠ name))

theorem rejectedBefore_memoryAt (m : Monitor) (c : ControlPlane) (name : String) :
    (m.memoryAt c name).rejectedBefore name = m.rejectedBefore name := by
  refine rejectedBefore_rememberAll_of_not_mem fun hmem => ?_
  obtain ⟨p, hp, hname⟩ := List.mem_map.mp hmem
  have hne := List.all_eq_true.mp List.all_takeWhile p hp
  simp [hname] at hne

/-- **A round comes to every registered pool**, and checks its kinds with the memory that it has
then. -/
theorem exists_round_eq (hm : m.enabled = true) (hp : c.registry.get? name = some p) :
    ∃ d raised rest, (m.round c).1.1 =
      raised ++ (checkKinds d (m.memoryAt c name) p alarmKinds).1 ++ rest := by
  rw [Registry.get?_eq_find?_pools, List.find?_eq_some_iff_append] at hp
  obtain ⟨hname, before, after, hpools, hbefore⟩ := hp
  have htake : c.registry.pools.takeWhile (·.name ≠ name) = before := by
    rw [hpools, List.takeWhile_append_of_pos (by simpa using hbefore),
      List.takeWhile_cons_of_neg (by simpa using hname), List.append_nil]
  unfold round memoryAt
  rw [if_pos hm, htake, hpools, checkPools_append]
  refine ⟨(checkPools c m before).2, (checkPools c m before).1.1,
    (checkPools (checkKinds (checkPools c m before).2 (m.rememberAll before) p alarmKinds).2
      ((m.rememberAll before).remember p.name p.rejected) after).1.1, ?_⟩
  rw [List.append_assoc]
  rfl

end Monitor

/-! ### What a run keeps -/

/-- The registered pools have the rejections of their accounts, and the monitor remembers what it
has seen of them. -/
structure Tracked (c : ControlPlane) (m : Monitor) (log : List Account.Entry) : Prop where
  distinct : c.registry.Distinct
  isEnabled : m.enabled = true
  rejected_eq : ∀ name p, c.registry.get? name = some p →
    p.rejected = (Account.ofLog name log).all
  seen_eq : ∀ name, m.rejectedBefore name = (Account.ofLog name log).seen

section Runs

open Account (ofLog ofLog_concat ofLog_append_checked)
open Monitor (memoryAt)

variable {c d : ControlPlane} {m : Monitor} {log : List Account.Entry} {name : String} {p : Pool}

/-- A new pool is not known to the monitor, even if its name is. -/
theorem Tracked.register (h : Tracked c m log) (p : Pool) :
    Tracked { c with registry := (c.registry.register p).2 } m
      (log ++ [.registered p.name p.rejected]) where
  distinct := h.distinct.register p
  isEnabled := h.isEnabled
  rejected_eq name q hq := by
    rw [Registry.get?_register] at hq
    rw [ofLog_concat, Account.note, Account.Entry.name]
    by_cases hn : p.name = name
    · rw [if_pos hn] at hq ⊢
      cases hq
      rfl
    · rw [if_neg hn] at hq ⊢
      exact h.rejected_eq name q hq
  seen_eq name := by
    rw [h.seen_eq, ofLog_concat, Account.note]
    split_ifs <;> rfl

theorem Tracked.event (h : Tracked c m log) {s : Pool.InUse}
    (hp : c.registry.get? s.pool.name = some s.pool) {e : Pool.Event} (ok : s.Allows e) :
    Tracked (c.updatePool (s.after e).pool) m
      (if e.isRejection s then log ++ [.rejected s.pool.name] else log) := by
  obtain ⟨hname, hrejected⟩ := Pool.rejected_after ok
  refine ⟨h.distinct.update _, h.isEnabled, fun name q hq => ?_, fun name => ?_⟩
  · by_cases hn : s.pool.name = name
    · subst hn
      have hself := Registry.get?_update_self c.registry (s.after e).pool
        (hname ▸ Registry.contains_of_get? hp)
      rw [hname] at hself
      cases hself.symm.trans hq
      rw [hrejected, h.rejected_eq _ _ hp]
      split_ifs
      · rw [ofLog_concat, Account.note, if_pos (by rfl)]
        rfl
      · rfl
    · have hother : (c.registry.update (s.after e).pool).get? name = c.registry.get? name :=
        Registry.get?_update_of_ne c.registry (s.after e).pool (hname ▸ hn)
      rw [h.rejected_eq name q (hother ▸ hq)]
      split_ifs
      · rw [ofLog_concat, Account.note, if_neg (by exact hn)]
      · rfl
  · rw [h.seen_eq]
    split_ifs
    · rw [ofLog_concat, Account.note]
      split_ifs <;> rfl
    · rfl

theorem Tracked.round (h : Tracked c m log) : Tracked (m.round c).2 (m.round c).1.2
    (log ++ (c.registry.pools.map (·.name)).map .checked) := by
  have hregistry := (m.onlyAsks_round c).registry_eq
  have hmemory := Monitor.memory_round (c := c) h.isEnabled
  refine ⟨hregistry ▸ h.distinct, ?_, fun name p hp => ?_, fun name => ?_⟩
  · rw [hmemory, Monitor.enabled_rememberAll, h.isEnabled]
  · rw [hregistry] at hp
    rw [h.rejected_eq name p hp, ofLog_append_checked]
    split_ifs <;> rfl
  · rw [hmemory, ofLog_append_checked]
    split_ifs with hin
    · obtain ⟨p, hp, rfl⟩ := List.mem_map.mp hin
      rw [Monitor.rejectedBefore_rememberAll_of_mem (Registry.distinct_iff.mp h.distinct) hp,
        h.rejected_eq p.name p (h.distinct.get?_of_mem hp)]
      rfl
    · rw [Monitor.rejectedBefore_rememberAll_of_not_mem hin, h.seen_eq]

/-- **A run keeps the monitor and the accounts together.** -/
theorem Surveyed.tracked (h : Surveyed c m log) : Tracked c m log := by
  induction h with
  | start h =>
    refine ⟨?_, rfl, fun name p hp => ?_, fun name => rfl⟩
    · rw [Registry.distinct_iff, h]
      exact List.nodup_nil
    · rw [Registry.get?_eq_find?_pools, h] at hp
      cases hp
  | register _ p ih => exact ih.register p
  | event _ hp e ok ih => exact ih.event hp ok
  | round _ ih => exact ih.round
  | idle _ hd ih =>
    refine ⟨hd ▸ ih.distinct, ih.isEnabled, fun name p hp => ?_, ih.seen_eq⟩
    exact ih.rejected_eq name p (hd ▸ hp)

/-- **Rejections are counted once.** In every run, a round comes to each registered pool and checks
its kinds with the memory that it has then. The value that it compares with the threshold for
rejections is the number of those since the last round that checked the pool, if there was one.
For a pool that is checked for the first time it is the number of rejections that it has more than
were seen of the pool of its name that was checked last.

So the value is exactly what the account has for fresh if the pool was checked before, if no
rejections were seen of the name, or if there are none now. Otherwise it is too small. -/
theorem rejections_counted_once (h : Surveyed c m log) (hp : c.registry.get? name = some p) :
    (∃ d raised rest, (m.round c).1.1 =
      raised ++ (Monitor.checkKinds d (memoryAt m c name) p Monitor.alarmKinds).1 ++ rest) ∧
    ∃ value, (memoryAt m c name).measure? p .reject = some value ∧
      ((ofLog name log).isChecked = true → value = (ofLog name log).fresh) ∧
      ((ofLog name log).isChecked = false →
        value = (ofLog name log).fresh - (ofLog name log).seen) ∧
      (value = (ofLog name log).fresh ↔ (ofLog name log).isChecked = true ∨
        (ofLog name log).seen = 0 ∨ (ofLog name log).fresh = 0) ∧
      value ≤ (ofLog name log).fresh := by
  have htracked := h.tracked
  have hbalanced := Account.balanced_ofLog name log
  have hvalue : (memoryAt m c name).measure? p .reject =
      some ((ofLog name log).all - (ofLog name log).seen) := by
    rw [Monitor.measure?, Registry.name_of_get? hp, Monitor.rejectedBefore_memoryAt,
      htracked.seen_eq, htracked.rejected_eq name p hp]
  refine ⟨Monitor.exists_round_eq htracked.isEnabled hp, _, hvalue, ?_⟩
  generalize ofLog name log = a at hbalanced ⊢
  cases hchecked : a.isChecked with
  | true =>
    have hall := hbalanced.checked hchecked
    refine ⟨fun _ => by omega, nofun, ⟨fun _ => Or.inl rfl, fun _ => by omega⟩, by omega⟩
  | false =>
    have hall := hbalanced.unchecked hchecked
    refine ⟨nofun, fun _ => by omega, ?_, by omega⟩
    simp only [Bool.false_eq_true, false_or]
    omega

theorem Surveyed.submit (h : Surveyed c m log) (name : String)
    (hp : c.registry.get? name = some p) (t : Task) :
    Surveyed (c.updatePool (p.submit t).2) m
      (if (p.submit t).1.isSaturated then log ++ [.rejected name] else log) := by
  obtain rfl := Registry.name_of_get? hp
  exact h.event (s := { pool := p }) hp (.submit t) trivial

/-- A pool with one worker and no room for tasks that wait. -/
def narrow : Pool :=
  { name := "io"
    coreSize := 1
    maxSize := 1
    keepAlive := 30000
    coreTimeout := false
    policy := .abort
    queue := .empty .handOff 0
    waitOnShutdown := false
    awaitSeconds := 0
    rules := [] }

/-- The pool rejects a task before a round and two after it, and the next round compares two. -/
theorem rejections_counted_once_again :
    ∃ (c : ControlPlane) (m : Monitor) (log : List Account.Entry) (p : Pool), Surveyed c m log ∧
      log = [.registered "io" 0, .rejected "io", .checked "io", .rejected "io", .rejected "io"] ∧
      c.registry.get? "io" = some p ∧ p.rejected = 3 ∧
      (memoryAt m c "io").measure? p .reject = some 2 := by
  have hstart : Surveyed { outbox := { capacity := 1, managed := true, channels := [] } } {} [] :=
    .start rfl
  have hround := (((hstart.register narrow).submit "io" rfl ⟨"a", .gate⟩).submit "io" rfl
    ⟨"b", .noop⟩).round
  obtain ⟨c, m, p, h, hp, hrejected⟩ : ∃ (c : ControlPlane) (m : Monitor) (p : Pool),
      Surveyed c m [.registered "io" 0, .rejected "io", .checked "io", .rejected "io",
        .rejected "io"] ∧
      c.registry.get? "io" = some p ∧ p.rejected = 3 :=
    ⟨_, _, _, (hround.submit "io" rfl ⟨"c", .noop⟩).submit "io" rfl ⟨"d", .noop⟩, rfl, rfl⟩
  obtain ⟨-, value, hvalue, hchecked, -⟩ := rejections_counted_once h hp
  refine ⟨c, m, _, p, h, rfl, hp, hrejected, ?_⟩
  rw [hvalue, hchecked rfl]
  rfl

/-- The pool rejects a task before a round and is replaced by a new one, which rejects a task too.
The next round compares none. -/
theorem rejections_hidden :
    ∃ (c : ControlPlane) (m : Monitor) (log : List Account.Entry) (p : Pool), Surveyed c m log ∧
      log = [.registered "io" 0, .rejected "io", .checked "io", .registered "io" 0,
        .rejected "io"] ∧
      c.registry.get? "io" = some p ∧ p.rejected = 1 ∧
      (memoryAt m c "io").measure? p .reject = some 0 := by
  have hstart : Surveyed { outbox := { capacity := 1, managed := true, channels := [] } } {} [] :=
    .start rfl
  have hround := (((hstart.register narrow).submit "io" rfl ⟨"a", .gate⟩).submit "io" rfl
    ⟨"b", .noop⟩).round
  have h := ((hround.register narrow).submit "io" rfl ⟨"a", .gate⟩).submit "io" rfl ⟨"b", .noop⟩
  exact ⟨_, _, _, _, h, rfl, rfl, rfl, rfl⟩

end Runs

end PoolControl
