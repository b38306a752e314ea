import Mathlib.Data.List.Nodup
import PoolControl.Proofs.Alarm.Due
import PoolControl.Proofs.Alarm.Rejections

/-! # What an alarm round raises

An alarm round looks at the registered pools one after the other. It asks the throttle for the
alarms that are due (`Monitor.due`) and hands over those that are let through, as long as there is
room (`Sweeps`). Different keys do not disturb each other (`Throttle.grants_eq_filter`), so the
round raises the due alarms that the throttle lets through, in order, up to the room that there is,
it touches the gauges of the due alarms only, and a round right after it raises none of them again
(`alarms_raised_when_due`).

One thing stands against what one would expect of it. The rejections of a new pool are not all
measured if some were seen of its name before (`alarms_hidden`). -/

namespace PoolControl

open Settings (NoticeKind NotifyRule)

/-! ### Asking for several keys -/

namespace Throttle

variable {t : Throttle} {now : Nat} {key other : GaugeKey} {keys : List GaugeKey}

/-- The throttle after it was asked for the keys, one after the other. -/
def askAll (t : Throttle) (now : Nat) (keys : List GaugeKey) : Throttle :=
  keys.foldl (fun t key => (t.ask key now).2) t

/-- The keys that are let through when they are asked for one after the other. -/
def grants (t : Throttle) (now : Nat) : List GaugeKey → List GaugeKey
  | [] => []
  | key :: keys =>
    (if (t.ask key now).1 then [key] else []) ++ (t.ask key now).2.grants now keys

theorem askAll_append (t : Throttle) (now : Nat) (keys keys' : List GaugeKey) :
    t.askAll now (keys ++ keys') = (t.askAll now keys).askAll now keys' := List.foldl_append

theorem grants_append (t : Throttle) (now : Nat) (keys keys' : List GaugeKey) :
    t.grants now (keys ++ keys') = t.grants now keys ++ (t.askAll now keys).grants now keys' := by
  induction keys generalizing t with
  | nil => rfl
  | cons key keys ih =>
    rw [List.cons_append, grants, ih, grants, List.append_assoc]
    rfl

theorem pacing_ask (t : Throttle) (key : GaugeKey) (now : Nat) :
    (t.ask key now).2.toPacing = t.toPacing := toPacing_setGauge ..

theorem pacing_askAll (t : Throttle) (now : Nat) (keys : List GaugeKey) :
    (t.askAll now keys).toPacing = t.toPacing := by
  induction keys generalizing t with
  | nil => rfl
  | cons key keys ih => exact (ih _).trans (t.pacing_ask key now)

theorem gauge?_ask_of_ne (h : key ≠ other) : (t.ask key now).2.gauge? other = t.gauge? other :=
  gauge?_setGauge_of_ne _ _ h

theorem gaugeAt_ask_of_ne (h : key ≠ other) :
    (t.ask key now).2.gaugeAt other now = t.gaugeAt other now := by
  unfold gaugeAt
  rw [gauge?_ask_of_ne h, pacing_ask]

theorem ask_ask_of_ne (h : key ≠ other) :
    ((t.ask key now).2.ask other now).1 = (t.ask other now).1 := by
  show (((t.ask key now).2.gaugeAt other now).ask (t.ask key now).2.toPacing now).1 = _
  rw [gaugeAt_ask_of_ne h, pacing_ask]
  rfl

/-- **Different keys** are let through as if each were the only one. -/
theorem grants_eq_filter (hkeys : keys.Nodup) :
    t.grants now keys = keys.filter fun key => (t.ask key now).1 := by
  induction keys generalizing t with
  | nil => rfl
  | cons key keys ih =>
    obtain ⟨hnot, hkeys⟩ := List.nodup_cons.mp hkeys
    have hsame : (keys.filter fun other => ((t.ask key now).2.ask other now).1) =
        keys.filter fun other => (t.ask other now).1 := by
      refine List.filter_congr fun other hother => ?_
      exact ask_ask_of_ne fun h => hnot (h ▸ hother)
    rw [grants, ih hkeys, hsame, List.filter_cons]
    split_ifs <;> rfl

/-- **Each of different keys is asked for once**, and no other key. -/
theorem gauge?_askAll (hkeys : keys.Nodup) : (t.askAll now keys).gauge? other =
    if other ∈ keys then some ((t.gaugeAt other now).ask t.toPacing now).2 else t.gauge? other := by
  induction keys generalizing t with
  | nil => rfl
  | cons key keys ih =>
    obtain ⟨hnot, hkeys⟩ := List.nodup_cons.mp hkeys
    show ((t.ask key now).2.askAll now keys).gauge? other = _
    rw [ih hkeys]
    by_cases hkey : key = other
    · subst hkey
      rw [if_neg hnot, if_pos List.mem_cons_self]
      exact gauge?_setGauge_self _ _ _
    · rw [gaugeAt_ask_of_ne hkey, gauge?_ask_of_ne hkey, pacing_ask]
      simp [Ne.symm hkey]

end Throttle

/-! ### Raising alarms -/

/-- The throttle was asked for these keys in order, and as many of those that it let through were
raised as there was room for. -/
structure Sweeps (c : ControlPlane) (keys raised : List GaugeKey) (d : ControlPlane) : Prop where
  raised_eq : raised = (c.throttle.grants c.nowNanos keys).take c.outbox.room
  room_eq : d.outbox.room = c.outbox.room - (c.throttle.grants c.nowNanos keys).length
  throttle_eq : d.throttle = c.throttle.askAll c.nowNanos keys
  clock_eq : d.clock = c.clock

variable {c d e : ControlPlane} {m : Monitor} {p : Pool} {ps : List Pool} {kind : NoticeKind}

theorem Sweeps.refl (c : ControlPlane) : Sweeps c [] [] c :=
  ⟨by simp [Throttle.grants], rfl, rfl, rfl⟩

theorem Sweeps.append {keys raised keys' raised' : List GaugeKey} (h : Sweeps c keys raised d)
    (h' : Sweeps d keys' raised' e) : Sweeps c (keys ++ keys') (raised ++ raised') e := by
  have hnow : d.nowNanos = c.nowNanos := by
    unfold ControlPlane.nowNanos
    rw [h.clock_eq]
  have hgrants : c.throttle.grants c.nowNanos (keys ++ keys') =
      c.throttle.grants c.nowNanos keys ++ d.throttle.grants d.nowNanos keys' := by
    rw [Throttle.grants_append, h.throttle_eq, hnow]
  refine ⟨?_, ?_, ?_, h'.clock_eq.trans h.clock_eq⟩
  · rw [hgrants, List.take_append, h.raised_eq, h'.raised_eq, h.room_eq]
  · rw [h'.room_eq, h.room_eq, hgrants, List.length_append]
    omega
  · rw [h'.throttle_eq, h.throttle_eq, hnow, Throttle.askAll_append]

theorem sweeps_ask {key : GaugeKey} (h : (c.ask key).1 = false) :
    Sweeps c [key] [] (c.ask key).2 := by
  have hnone : c.throttle.grants c.nowNanos [key] = [] := by
    rw [Throttle.grants, Throttle.grants, if_neg (by exact Bool.eq_false_iff.mp h)]
    rfl
  refine ⟨?_, ?_, rfl, rfl⟩
  · rw [hnone, List.take_nil]
  · rw [hnone]
    rfl

theorem sweeps_post {key : GaugeKey} (h : (c.ask key).1 = true) (n : Notice) :
    Sweeps c [key] (if ((c.ask key).2.post n).1 then [key] else []) ((c.ask key).2.post n).2 := by
  have hone : c.throttle.grants c.nowNanos [key] = [key] := by
    rw [Throttle.grants, Throttle.grants, if_pos (by exact h)]
    rfl
  have hpost : ((c.ask key).2.post n).1 = (c.outbox.post n).1 ∧
      ((c.ask key).2.post n).2.outbox = (c.outbox.post n).2 := ⟨rfl, rfl⟩
  refine ⟨?_, ?_, rfl, rfl⟩
  · rw [hone, hpost.1]
    rcases Nat.eq_zero_or_pos c.outbox.room with hroom | hroom
    · rw [Outbox.post_of_room_eq_zero hroom, hroom]
      rfl
    · rw [(Outbox.post_of_room_pos hroom n).1, List.take_of_length_le (by exact hroom)]
      rfl
  · rw [hone, hpost.2]
    rcases Nat.eq_zero_or_pos c.outbox.room with hroom | hroom
    · rw [Outbox.post_of_room_eq_zero hroom, hroom, Nat.zero_sub]
    · exact (Outbox.post_of_room_pos hroom n).2

namespace Monitor

/-- The alarms of these kinds that are due for the pool. -/
def dueOf (m : Monitor) (p : Pool) (kinds : List NoticeKind) : List GaugeKey :=
  (kinds.filter fun kind => m.IsDue p kind).map fun kind => (p.name, kind)

/-- The alarms that are due, in the order of the checks. -/
def due (m : Monitor) (ps : List Pool) : List GaugeKey := ps.flatMap fun p => m.dueOf p alarmKinds

theorem sweeps_check (hp : CanMeasure p) (c : ControlPlane) (m : Monitor) (kind : NoticeKind) :
    Sweeps c (if m.IsDue p kind then [(p.name, kind)] else [])
      (if (check c m p kind).1 then [(p.name, kind)] else []) (check c m p kind).2 := by
  by_cases hdue : m.IsDue p kind
  · obtain ⟨n, hcheck⟩ := check_of_isDue (c := c) hp hdue
    rw [hcheck, if_pos hdue]
    cases hgranted : (c.ask (p.name, kind)).1 with
    | true => exact sweeps_post hgranted n
    | false => exact sweeps_ask hgranted
  · rw [check_of_not_isDue hp hdue, if_neg hdue]
    exact .refl c

theorem sweeps_checkKinds (hp : CanMeasure p) (m : Monitor) (kinds : List NoticeKind)
    (c : ControlPlane) :
    Sweeps c (m.dueOf p kinds) (checkKinds c m p kinds).1 (checkKinds c m p kinds).2 := by
  induction kinds generalizing c with
  | nil => exact .refl c
  | cons kind kinds ih =>
    have h := (sweeps_check hp c m kind).append (ih (check c m p kind).2)
    have hdue : m.dueOf p (kind :: kinds) =
        (if m.IsDue p kind then [(p.name, kind)] else []) ++ m.dueOf p kinds := by
      unfold dueOf
      by_cases hk : m.IsDue p kind <;> simp [hk]
    have hraised : (checkKinds c m p (kind :: kinds)).1 =
        (if (check c m p kind).1 then [(p.name, kind)] else []) ++
          (checkKinds (check c m p kind).2 m p kinds).1 := by
      show (if (check c m p kind).1 then (p.name, kind) :: _ else _) = _
      split_ifs <;> rfl
    rw [hdue, hraised]
    exact h

theorem isDue_congr {m m' : Monitor} (h : m'.rejectedBefore p.name = m.rejectedBefore p.name) :
    m'.IsDue p kind ↔ m.IsDue p kind := by
  unfold IsDue
  cases kind <;> simp only [HasReached, h]

theorem due_congr {m m' : Monitor}
    (h : ∀ p ∈ ps, m'.rejectedBefore p.name = m.rejectedBefore p.name) : m'.due ps = m.due ps := by
  unfold due
  refine List.flatMap_congr fun p hp => ?_
  unfold dueOf
  congr 2
  funext kind
  exact decide_eq_decide.mpr (isDue_congr (h p hp))

/-- **A look at pools of different names** raises what is due of them. -/
theorem sweeps_checkPools (hp : ∀ p ∈ ps, CanMeasure p) (hn : (ps.map (·.name)).Nodup)
    (m : Monitor) (c : ControlPlane) :
    Sweeps c (m.due ps) (checkPools c m ps).1.1 (checkPools c m ps).2 := by
  induction ps generalizing c m with
  | nil => exact .refl c
  | cons p ps ih =>
    rw [List.map_cons, List.nodup_cons] at hn
    rw [List.forall_mem_cons] at hp
    have hsame : (m.remember p.name p.rejected).due ps = m.due ps := by
      refine due_congr fun q hq => ?_
      rw [rejectedBefore_remember, if_neg]
      exact fun h => hn.1 (h ▸ List.mem_map_of_mem hq)
    have h := (sweeps_checkKinds hp.1 m alarmKinds c).append
      (ih hp.2 hn.2 (m.remember p.name p.rejected) (checkKinds c m p alarmKinds).2)
    rw [hsame] at h
    exact h

theorem mem_due {key : GaugeKey} : key ∈ m.due ps ↔ ∃ p ∈ ps, p.name = key.1 ∧ m.IsDue p key.2 := by
  have hkinds (p : Pool) (kind : NoticeKind) (h : m.IsDue p kind) : kind ∈ alarmKinds := by
    obtain ⟨rule, -, -, -, -, hreached⟩ := h
    cases kind with
    | change => exact hreached.elim
    | _ => decide
  simp only [due, dueOf, List.mem_flatMap, List.mem_map, List.mem_filter, decide_eq_true_eq]
  constructor
  · rintro ⟨p, hp, kind, ⟨-, hdue⟩, rfl⟩
    exact ⟨p, hp, rfl, hdue⟩
  · rintro ⟨p, hp, hname, hdue⟩
    exact ⟨p, hp, key.2, ⟨hkinds p _ hdue, hdue⟩, by rw [hname]⟩

theorem nodup_due (hn : (ps.map (·.name)).Nodup) : (m.due ps).Nodup := by
  unfold due
  refine List.nodup_flatMap.mpr ⟨fun p _ => ?_, ?_⟩
  · refine List.Nodup.map (fun _ _ h => congrArg Prod.snd h) (List.Nodup.filter _ ?_)
    decide
  · refine (List.pairwise_map.mp hn).imp fun hne key hkey hkey' => ?_
    simp only [dueOf, List.mem_map] at hkey hkey'
    obtain ⟨_, -, rfl⟩ := hkey
    obtain ⟨_, -, heq⟩ := hkey'
    exact hne (congrArg Prod.fst heq).symm

/-! ### One round -/

theorem mem_due_of_get? (hd : c.registry.Distinct) {name : String}
    (hget : c.registry.get? name = some p) :
    (name, kind) ∈ m.due c.registry.pools ↔ m.IsDue p kind := by
  rw [mem_due]
  constructor
  · rintro ⟨q, hmem, rfl, hdue⟩
    cases (hd.get?_of_mem hmem).symm.trans hget
    exact hdue
  · intro hdue
    exact ⟨p, Registry.mem_pools_of_get? hget, Registry.name_of_get? hget, hdue⟩

theorem not_mem_due_of_get? (hd : c.registry.Distinct) {key : GaugeKey}
    (hget : c.registry.get? key.1 = none) : key ∉ m.due c.registry.pools := by
  rw [mem_due]
  rintro ⟨q, hmem, hname, -⟩
  rw [← hname, hd.get?_of_mem hmem] at hget
  cases hget

/-- The due alarms that the throttle lets through. -/
def granted (m : Monitor) (c : ControlPlane) : List GaugeKey :=
  (m.due c.registry.pools).filter fun key => (c.ask key).1

theorem mem_granted {key : GaugeKey} :
    key ∈ m.granted c ↔ key ∈ m.due c.registry.pools ∧ (c.ask key).1 = true := List.mem_filter

section Round
variable (hm : m.enabled = true) (hd : c.registry.Distinct)
  (hp : ∀ p ∈ c.registry.pools, CanMeasure p)
include hm hd hp

theorem sweeps_round : Sweeps c (m.due c.registry.pools) (m.round c).1.1 (m.round c).2 := by
  unfold round
  rw [if_pos hm]
  exact sweeps_checkPools hp (Registry.distinct_iff.mp hd) m c

theorem raised_round : (m.round c).1.1 = (m.granted c).take c.outbox.room := by
  rw [(sweeps_round hm hd hp).raised_eq,
    Throttle.grants_eq_filter (nodup_due (Registry.distinct_iff.mp hd))]
  rfl

theorem gauge?_round (key : GaugeKey) : (m.round c).2.throttle.gauge? key =
    if key ∈ m.due c.registry.pools then
      some ((c.throttle.gaugeAt key c.nowNanos).ask c.throttle.toPacing c.nowNanos).2
    else c.throttle.gauge? key := by
  rw [(sweeps_round hm hd hp).throttle_eq,
    Throttle.gauge?_askAll (nodup_due (Registry.distinct_iff.mp hd))]

/-- **A round right after another** raises no alarm for rejections that the other raised, and others
only if their gauges let two alerts through at once. -/
theorem raised_again (hregistry : d.registry = c.registry)
    (hthrottle : d.throttle = (m.round c).2.throttle) (hclock : d.clock = c.clock) {key : GaugeKey}
    (hfirst : key ∈ (m.round c).1.1) (hsecond : key ∈ ((m.round c).1.2.round d).1.1) :
    key.2 ≠ .reject ∧ (c.ask key).1 = true ∧
      (((c.throttle.gaugeAt key c.nowNanos).ask c.throttle.toPacing c.nowNanos).2.ask
        c.throttle.toPacing c.nowNanos).1 = true := by
  have hmemory := memory_round (c := c) hm
  have hnow : d.nowNanos = c.nowNanos := by
    unfold ControlPlane.nowNanos
    rw [hclock]
  rw [raised_round hm hd hp] at hfirst
  rw [raised_round (by rw [hmemory, enabled_rememberAll, hm]) (hregistry ▸ hd) (hregistry ▸ hp),
    hmemory] at hsecond
  obtain ⟨hdue, hasked⟩ := mem_granted.mp (List.mem_of_mem_take hfirst)
  obtain ⟨hdue', hasked'⟩ := mem_granted.mp (List.mem_of_mem_take hsecond)
  refine ⟨fun hreject => ?_, hasked, ?_⟩
  · rw [hregistry] at hdue'
    obtain ⟨p, hmem, -, rule, -, -, hpos, -, hreached⟩ := mem_due.mp hdue'
    have hseen : (m.rememberAll c.registry.pools).rejectedBefore p.name = p.rejected :=
      rejectedBefore_rememberAll_of_mem (Registry.distinct_iff.mp hd) hmem
    rw [hreject, HasReached, hseen, Nat.sub_self] at hreached
    omega
  · have hgauge : d.throttle.gaugeAt key d.nowNanos =
        ((c.throttle.gaugeAt key c.nowNanos).ask c.throttle.toPacing c.nowNanos).2 := by
      rw [Throttle.gaugeAt, hthrottle, gauge?_round hm hd hp, if_pos hdue]
      rfl
    have hpacing : d.throttle.toPacing = c.throttle.toPacing := by
      rw [hthrottle, (sweeps_round hm hd hp).throttle_eq, Throttle.pacing_askAll]
    rw [← hgauge, ← hpacing, ← hnow]
    exact hasked'

end Round

end Monitor

open Account (ofLog)

/-- What a monitor measures of the rejections of a registered pool are those that no round has
counted exactly if the pool was checked before, nothing was seen of its name, or there are none. -/
theorem Surveyed.fresh_iff {log : List Account.Entry} (h : Surveyed c m log) {name : String}
    (hp : c.registry.get? name = some p) :
    p.rejected - m.rejectedBefore p.name = (ofLog name log).fresh ↔
      (ofLog name log).isChecked = true ∨ (ofLog name log).seen = 0 ∨
        (ofLog name log).fresh = 0 := by
  have htracked := h.tracked
  have hbalanced := Account.balanced_ofLog name log
  rw [htracked.rejected_eq name p hp, Registry.name_of_get? hp, htracked.seen_eq]
  generalize ofLog name log = a at hbalanced ⊢
  cases hchecked : a.isChecked with
  | true =>
    have hall := hbalanced.checked hchecked
    simp only [true_or, iff_true]
    omega
  | false =>
    have hall := hbalanced.unchecked hchecked
    simp only [Bool.false_eq_true, false_or]
    omega

/-- **An alarm round raises exactly what is due** and let through by the throttle, in the order of
the checks, as long as there is room. It asks the throttle once for each alarm that is due and for
no other. Rejections are measured since the last round, unless the pool was never checked and others
were seen of its name. A round right after it raises none of its alarms again, where a limiter that
keeps to its quota lets through one alert an interval: those for rejections are not due, and the
others are held back unless their gauge has no interval. -/
theorem alarms_raised_when_due (hm : m.enabled = true) (hd : c.registry.Distinct)
    (hp : ∀ p ∈ c.registry.pools, (∃ s, Pool.Reach s ∧ s.pool = p) ∧
      100 * p.active ≤ maxWord ∧ 100 * p.queue.size ≤ maxWord) :
    (m.round c).1.1 = (m.granted c).take c.outbox.room ∧ (m.round c).1.1.Nodup ∧
    (∀ name p kind, c.registry.get? name = some p →
      ((name, kind) ∈ (m.round c).1.1 ↔ m.IsDue p kind ∧ (c.ask (name, kind)).1 = true ∧
        (m.granted c).idxOf (name, kind) < c.outbox.room) ∧
      (m.round c).2.throttle.gauge? (name, kind) =
        if m.IsDue p kind then
          some ((c.throttle.gaugeAt (name, kind) c.nowNanos).ask c.throttle.toPacing c.nowNanos).2
        else c.throttle.gauge? (name, kind)) ∧
    (∀ key, c.registry.get? key.1 = none → key ∉ (m.round c).1.1 ∧
      (m.round c).2.throttle.gauge? key = c.throttle.gauge? key) ∧
    (∀ log, Surveyed c m log → ∀ name p, c.registry.get? name = some p →
      (p.rejected - m.rejectedBefore p.name = (ofLog name log).fresh ↔
        (ofLog name log).isChecked = true ∨ (ofLog name log).seen = 0 ∨
          (ofLog name log).fresh = 0)) ∧
    ∀ d : ControlPlane, d.registry = c.registry → d.throttle = (m.round c).2.throttle →
      d.clock = c.clock → ∀ key ∈ (m.round c).1.1,
        key.2 = .reject ∨ c.throttle.limiter.Paces ∧ c.throttle.burst = 1 ∧
          (c.throttle.gaugeAt key c.nowNanos).interval ≠ 0 →
        key ∉ ((m.round c).1.2.round d).1.1 := by
  have hmeasure : ∀ p ∈ c.registry.pools, Monitor.CanMeasure p := by
    intro p hmem
    obtain ⟨⟨s, hs, rfl⟩, hactive, hqueued⟩ := hp p hmem
    exact ⟨hs.sound.maxSize_pos, hactive, hqueued⟩
  have hraised := Monitor.raised_round hm hd hmeasure
  have hgauge := Monitor.gauge?_round hm hd hmeasure
  have hnodup := Monitor.nodup_due (m := m) (Registry.distinct_iff.mp hd)
  refine ⟨hraised, ?_, fun name p kind hget => ⟨?_, ?_⟩, fun key hnone => ⟨?_, ?_⟩,
    fun log hlog name p hget => hlog.fresh_iff hget, ?_⟩
  · rw [hraised]
    exact (hnodup.filter _).sublist (List.take_sublist _ _)
  · rw [hraised, ← Monitor.mem_due_of_get? hd hget, ← and_assoc,
      ← Monitor.mem_granted]
    constructor
    · intro h
      have hgranted := List.mem_of_mem_take h
      exact ⟨hgranted, (List.mem_take_iff_idxOf_lt hgranted).mp h⟩
    · rintro ⟨hgranted, hroom⟩
      exact (List.mem_take_iff_idxOf_lt hgranted).mpr hroom
  · rw [hgauge]
    simp only [Monitor.mem_due_of_get? hd hget]
  · rw [hraised]
    intro h
    exact Monitor.not_mem_due_of_get? hd hnone (Monitor.mem_granted.mp (List.mem_of_mem_take h)).1
  · rw [hgauge, if_neg (Monitor.not_mem_due_of_get? hd hnone)]
  · intro d hregistry hthrottle hclock key hfirst hheld hsecond
    obtain ⟨hkind, hasked, hagain⟩ :=
      Monitor.raised_again hm hd hmeasure hregistry hthrottle hclock hfirst hsecond
    rcases hheld with hreject | ⟨hpaces, hburst, h0⟩
    · exact hkind hreject
    · rw [Gauge.ask_ask ⟨hburst, hpaces⟩ h0 hasked] at hagain
      cases hagain

/-- Alarms to the log when every worker is busy, at most one a second, and when a task is
rejected. -/
def watchful : List NotifyRule :=
  [{ kind := .liveness, threshold := some 100, interval := some 1, platforms := ["log"] },
    { kind := .reject, threshold := some 1, platforms := ["log"] }]

/-- A task that keeps a worker busy and, once it runs, another one. -/
def crowding : List Pool.Event := [.submit ⟨"a", .gate⟩, .work 0, .submit ⟨"b", .noop⟩]

/-- The pool is busy and has rejected a task, and there is room for one alarm. When there is room
again, it is not raised a second time. -/
theorem alarms_raised_when_due_crowded :
    ∃ (p : Pool) (s : Pool.InUse) (c : ControlPlane) (m : Monitor) (t : Throttle),
      Pool.ofRecord { name := "io", maxSize := 1, queueKind := .handOff, rules := watchful } =
        .ok p ∧
      ({ pool := p } : Pool.InUse).follow? crowding = some s ∧ c = Pool.holding s.pool ∧
      (Monitor.round c {}).1 = ([("io", .liveness)], m) ∧ Monitor.IsDue {} s.pool .reject ∧
      (Monitor.round c {}).2.throttle = t ∧ (t.gauge? ("io", .reject)).isSome = true ∧
      ("io", .liveness) ∉ (m.round { c with throttle := t }).1.1 := by
  obtain ⟨p, s, c, hp, hs, hc, hpools, hget, hcounts, hdue, hgranted, hlimiter, hburst, h0⟩ :
      ∃ (p : Pool) (s : Pool.InUse) (c : ControlPlane),
        Pool.ofRecord { name := "io", maxSize := 1, queueKind := .handOff, rules := watchful } =
          .ok p ∧
        ({ pool := p } : Pool.InUse).follow? crowding = some s ∧ c = Pool.holding s.pool ∧
        c.registry.pools = [s.pool] ∧ c.registry.get? "io" = some s.pool ∧
        (100 * s.pool.active ≤ maxWord ∧ 100 * s.pool.queue.size ≤ maxWord) ∧
        Monitor.IsDue {} s.pool .reject ∧
        (Monitor.granted {} c).take c.outbox.room = [("io", .liveness)] ∧
        c.throttle.limiter = .cellRate ∧ c.throttle.burst = 1 ∧
        (c.throttle.gaugeAt ("io", .liveness) c.nowNanos).interval = 120000000000 :=
    ⟨_, _, _, rfl, rfl, rfl, rfl, rfl, by decide, by decide, rfl, rfl, rfl, rfl⟩
  have hreach := (Pool.Reach.start {} hp).follow hs
  have hdistinct : c.registry.Distinct := by
    rw [Registry.distinct_iff, hpools]
    exact List.nodup_singleton _
  obtain ⟨hraised, -, hkeys, -, -, hagain⟩ := alarms_raised_when_due (m := {}) rfl hdistinct (by
    rw [hpools]
    exact List.forall_mem_singleton.mpr ⟨⟨s, hreach, rfl⟩, hcounts⟩)
  rw [hgranted] at hraised
  refine ⟨p, s, c, _, _, hp, hs, hc, Prod.ext hraised rfl, hdue, rfl, ?_, ?_⟩
  · rw [(hkeys "io" s.pool .reject hget).2, if_pos hdue]
    rfl
  · have hliveness : ("io", NoticeKind.liveness) ∈ (Monitor.round c {}).1.1 := by
      rw [hraised]
      exact List.mem_singleton_self _
    refine hagain { c with throttle := (Monitor.round c {}).2.throttle } rfl rfl rfl _ hliveness
      (Or.inr ⟨hlimiter ▸ Limiter.paces_cellRate, hburst, ?_⟩)
    rw [h0]
    decide

/-- A pool that took the place of another rejects a task, and no alarm is raised, as many were seen
of the other. -/
theorem alarms_hidden :
    ∃ (c : ControlPlane) (m : Monitor) (log : List Account.Entry) (p : Pool), Surveyed c m log ∧
      c.registry.get? "io" = some p ∧ p.rules = watchful.tail ∧
      (ofLog "io" log).fresh = 1 ∧ (c.ask ("io", .reject)).1 = true ∧ 0 < c.outbox.room ∧
      (m.round c).1.1 = [] := by
  have hstart : Surveyed { outbox := { capacity := 1, managed := true, channels := [] } } {} [] :=
    .start rfl
  have hround := (((hstart.register narrow).submit "io" rfl ⟨"a", .gate⟩).submit "io" rfl
    ⟨"b", .noop⟩).round
  have h := ((hround.register { narrow with rules := watchful.tail }).submit "io" rfl
    ⟨"a", .gate⟩).submit "io" rfl ⟨"b", .noop⟩
  exact ⟨_, _, _, _, h, rfl, rfl, rfl, rfl, by decide, rfl⟩

end PoolControl
