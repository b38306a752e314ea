import PoolControl.Proofs.Refresh.Agreement

/-! # Changes are told once per interval

While no time passes, batches that carry the same rules for a pool tell the platforms of its first
change only, provided that its rules for changes have one interval (`Pool.changes_throttled`).

If one of them has another interval than the first, every refresh compares it with the first one,
takes it for new and puts a fresh gauge in place of the one that was asked, so that no change is
ever held back. -/

namespace PoolControl

open Settings (Batch NotifyRule Platform Record)

/-! ### Decisions -/

/-- Whether the notice was handed to the outbox, with or without room for it. -/
def Decision.isHandedOver : Decision → Bool
  | scheduled | dropped => true
  | _ => false

/-- What became of the notification, if something was changed. -/
def Outcome.decision? : Outcome → Option Decision
  | changed _ decision _ => some decision
  | _ => none

/-- What became of the notifications about one pool, in order. -/
def Summary.decisions (s : Summary) (name : String) : List Decision :=
  s.filterMap fun (n, o) => if n = name then o.decision? else none

namespace Summary

variable {name other : String} (o : Outcome) (s : Summary)

theorem decisions_cons_self :
    Summary.decisions ((name, o) :: s) name = o.decision?.toList ++ s.decisions name := by
  cases h : o.decision? <;> simp [decisions, h]

theorem decisions_cons_of_ne (h : other ≠ name) :
    Summary.decisions ((other, o) :: s) name = s.decisions name := by
  simp [decisions, h]

end Summary

namespace ControlPlane

/-- The control plane `d` differs from `c` in nothing that matters for the notification of changes
of the pool. -/
structure SameFor (name : String) (c d : ControlPlane) : Prop where
  pacing_eq : d.throttle.toPacing = c.throttle.toPacing
  gauge_eq : d.throttle.gauge? (name, .change) = c.throttle.gauge? (name, .change)
  nowNanos_eq : d.nowNanos = c.nowNanos
  rules : ∀ q, d.registry.get? name = some q →
    ∃ p, c.registry.get? name = some p ∧ q.rules = p.rules

variable {name : String} {c d e : ControlPlane}

theorem AgreesOn.sameFor (h : AgreesOn name c d) : SameFor name c d :=
  ⟨h.throttle.pacing_eq, h.throttle.gauge_eq .change, h.nowNanos_eq,
    fun q hq => ⟨q, by rwa [← h.pool_eq], rfl⟩⟩

theorem SameFor.changeGauge_eq (h : SameFor name c d) :
    d.changeGauge name = c.changeGauge name := by
  unfold changeGauge Throttle.gaugeAt
  rw [h.gauge_eq, h.nowNanos_eq, h.pacing_eq]

/-- The gauge of the pool's changes was asked, and the answer made the decision. -/
structure Asks (name : String) (c : ControlPlane) (decision : Decision) (d : ControlPlane) :
    Prop where
  registry_eq : d.registry = c.registry
  clock_eq : d.clock = c.clock
  throttle_eq : d.throttle = c.throttle.setGauge (name, .change)
    ((c.changeGauge name).ask c.throttle.toPacing c.nowNanos).2
  handedOver : ((c.changeGauge name).ask c.throttle.toPacing c.nowNanos).1 = true →
    decision.isHandedOver = true
  rateLimited : ((c.changeGauge name).ask c.throttle.toPacing c.nowNanos).1 = false →
    decision = .rateLimited

theorem Asks.changeGauge_eq {decision : Decision} (h : Asks name c decision d) :
    d.changeGauge name = ((c.changeGauge name).ask c.throttle.toPacing c.nowNanos).2 := by
  unfold changeGauge
  rw [h.throttle_eq, Throttle.gaugeAt_setGauge_self]
  rfl

theorem Asks.nowNanos_eq {decision : Decision} (h : Asks name c decision d) :
    d.nowNanos = c.nowNanos := by
  unfold nowNanos
  rw [h.clock_eq]

theorem Asks.pacing_eq {decision : Decision} (h : Asks name c decision d) :
    d.throttle.toPacing = c.throttle.toPacing := by
  rw [h.throttle_eq, Throttle.toPacing_setGauge]

end ControlPlane

/-- How a change of a pool can be told. -/
inductive Notifies (c : ControlPlane) (p : Pool) (platforms : List Platform) :
    Decision × ControlPlane → Prop
  | disabled (h : ∀ rule, NotifyRule.find? p.rules .change = some rule → rule.enabled = false) :
    Notifies c p platforms (.disabled, c)
  | noPlatforms (h : platforms = []) : Notifies c p platforms (.noPlatforms, c)
  | asked (decision : Decision) (d : ControlPlane) (h : c.Asks p.name decision d) :
    Notifies c p platforms (decision, d)

theorem notifies (c : ControlPlane) (p : Pool) (diff : Diff) (previous : Snapshot)
    (platforms : List Platform) :
    Notifies c p platforms (notifyChange c p diff previous platforms) := by
  unfold notifyChange
  split
  · next hnone =>
    refine .disabled fun rule hrule => ?_
    simpa [hrule] using hnone
  · split_ifs with hp
    · exact .noPlatforms (by simpa using hp)
    · have hask : (c.ask (p.name, .change)).1 =
          ((c.changeGauge p.name).ask c.throttle.toPacing c.nowNanos).1 := rfl
      simp only [hask]
      cases hg : ((c.changeGauge p.name).ask c.throttle.toPacing c.nowNanos).1 with
      | true =>
        refine .asked _ _ ⟨rfl, rfl, rfl, fun _ => ?_, fun hn => ?_⟩
        · split_ifs <;> rfl
        · rw [hg] at hn
          cases hn
      | false =>
        refine .asked _ _ ⟨rfl, rfl, rfl, fun hy => ?_, fun _ => rfl⟩
        rw [hg] at hy
        cases hy

namespace ControlPlane

variable {name : String} {c d : ControlPlane}

/-- **The refresh of a pool whose rule for changes is enabled**, with platforms: nothing was
touched, or the record was applied and a change of the tunables was put to the gauge. -/
theorem refreshRecord_cases {platforms : List Platform} {r : Record} {o : Outcome}
    (h : refreshRecord platforms c r = (.ok o, d)) {rule : NotifyRule} (hps : platforms ≠ [])
    (hrule : NotifyRule.find? (NotifyRule.completed r.rules) .change = some rule)
    (he : rule.enabled = true) :
    o.decision? = none ∧ d = c ∨
      ∃ p, c.registry.get? r.name = some p ∧
        (applyRecord platforms c.throttle c.nowNanos r p).fault = none ∧
        (o.decision? = none ∧ d = c.applied platforms r p ∨
          ∃ decision, o.decision? = some decision ∧
            (c.applied platforms r p).Asks r.name decision d) := by
  have hcases := refreshes platforms c r
  rw [h] at hcases
  cases hcases with
  | invalid => exact Or.inl ⟨rfl, rfl⟩
  | notFound => exact Or.inl ⟨rfl, rfl⟩
  | unchanged p applied _ hp ha hf =>
    subst ha
    exact Or.inr ⟨p, hp, hf, Or.inl ⟨rfl, rfl⟩⟩
  | changed p applied diff _ hp ha hf =>
    subst ha
    have hname := name_applyRecord platforms c.throttle c.nowNanos hp
    have hrules := rules_applyRecord platforms c.throttle c.nowNanos r p hf
    refine Or.inr ⟨p, hp, hf, Or.inr ⟨_, rfl, ?_⟩⟩
    unfold applied
    generalize applyRecord platforms c.throttle c.nowNanos r p = applied at hname hrules ⊢
    have hn := notifies (c.takeOver applied) applied.pool diff p.snapshot platforms
    generalize notifyChange (c.takeOver applied) applied.pool diff p.snapshot platforms = result
      at hn ⊢
    cases hn with
    | disabled hoff =>
      rw [hrules, NotifyRule.find?_effective, hrule] at hoff
      have := hoff _ rfl
      simp [he] at this
    | noPlatforms h => exact absurd h hps
    | asked decision d h => rwa [hname] at h

end ControlPlane

/-! ### Runs -/

/-- Refreshes of single records one after the other, with the outcomes by name. In between happens
whatever changes nothing for the notification of changes of the pool, whose own records come with
platforms and have the given rules. -/
inductive Records (name : String) (rules : List NotifyRule) :
    ControlPlane → Summary → ControlPlane → Prop
  | nil (c : ControlPlane) : Records name rules c [] c
  | between {c d e : ControlPlane} {s : Summary} (h : c.SameFor name d)
    (hs : Records name rules d s e) : Records name rules c s e
  | record {c d e : ControlPlane} {s : Summary} (platforms : List Platform) (r : Record)
    (o : Outcome) (hr : r.name = name → platforms ≠ [] ∧ r.rules = rules)
    (h : refreshRecord platforms c r = (.ok o, d)) (hs : Records name rules d s e) :
    Records name rules c ((r.name, o) :: s) e

/-- Refreshes from batches one after the other, with the outcomes of all; one that ends without
outcomes ends the run. In between happens whatever changes nothing for the notification of changes
of the pool, whose own records come with platforms and have the given rules. -/
inductive Batches (name : String) (rules : List NotifyRule) :
    ControlPlane → Summary → ControlPlane → Prop
  | nil (c : ControlPlane) : Batches name rules c [] c
  | between {c d e : ControlPlane} {s : Summary} (h : c.SameFor name d)
    (hs : Batches name rules d s e) : Batches name rules c s e
  | batch {c d e : ControlPlane} {s s' : Summary} (b : Batch)
    (hb : ∀ r ∈ b.records, r.name = name → b.platforms ≠ [] ∧ r.rules = rules)
    (h : refresh c b = (.ok s, d)) (hs : Batches name rules d s' e) :
    Batches name rules c (s ++ s') e

variable {name : String} {rules : List NotifyRule} {c d e : ControlPlane} {s s' : Summary}

theorem Records.append (h : Records name rules c s d) (h' : Records name rules d s' e) :
    Records name rules c (s ++ s') e := by
  induction h with
  | nil c => exact h'
  | between hsame _ ih => exact .between hsame (ih h')
  | record platforms r o hr hrec _ ih => exact .record platforms r o hr hrec (ih h')

theorem records_refreshRecords (platforms : List Platform) {rs : List Record}
    (hrs : ∀ r ∈ rs, r.name = name → platforms ≠ [] ∧ r.rules = rules)
    (h : refreshRecords platforms c rs = (.ok s, d)) : Records name rules c s d := by
  induction rs generalizing c s with
  | nil =>
    cases h
    exact .nil _
  | cons r rs ih =>
    rw [List.forall_mem_cons] at hrs
    cases hb : Text.isBlankText r.name with
    | true =>
      rw [refreshRecords_cons_of_blank hb] at h
      exact ih hrs.2 h
    | false =>
      obtain ⟨o, m, rest, hrec, hrest, rfl⟩ := exists_of_refreshRecords_cons hb h
      have hsame : m.AgreesOn name (m.bump (.refreshed o.label)) := .of_eq rfl rfl rfl
      exact .record platforms r o hrs.1 hrec (.between hsame.sameFor (ih hrs.2 hrest))

theorem records_refresh {b : Batch}
    (hb : ∀ r ∈ b.records, r.name = name → b.platforms ≠ [] ∧ r.rules = rules)
    (h : refresh c b = (.ok s, d)) : Records name rules c s d := by
  unfold refresh at h
  split_ifs at h
  · cases h
    exact .nil _
  · have hsame : c.AgreesOn name { c with outbox := c.outbox.sync b.platforms } :=
      .of_eq rfl rfl rfl
    exact .between hsame.sameFor (records_refreshRecords _ hb h)

theorem Batches.records (h : Batches name rules c s d) : Records name rules c s d := by
  induction h with
  | nil c => exact .nil c
  | between hsame _ ih => exact .between hsame ih
  | batch b hb h _ ih => exact (records_refresh hb h).append ih

/-! ### Rules with one interval -/

namespace ControlPlane

/-- No change of the pool was told yet, and the gauge has room for one and not for two. -/
structure Ready (name : String) (c : ControlPlane) : Prop where
  isSingle : c.throttle.IsSingle
  isFresh : (c.changeGauge name).IsFresh c.throttle.toPacing c.nowNanos
  interval_ne_zero : (c.changeGauge name).interval ≠ 0

/-- The next change of the pool is held back, and the interval of its rule is known. -/
structure Spent (name : String) (secs : Nat) (c : ControlPlane) : Prop where
  isSingle : c.throttle.IsSingle
  refuses : ((c.changeGauge name).ask c.throttle.toPacing c.nowNanos).1 = false
  keeps : ∀ p, c.registry.get? name = some p →
    ∃ rule, NotifyRule.find? p.rules .change = some rule ∧ rule.intervalSecs = secs

variable {secs : Nat}

theorem Ready.of_sameFor (h : c.Ready name) (hd : c.SameFor name d) : d.Ready name := by
  refine ⟨?_, ?_, ?_⟩
  · rw [hd.pacing_eq]
    exact h.isSingle
  · rw [hd.changeGauge_eq, hd.pacing_eq, hd.nowNanos_eq]
    exact h.isFresh
  · rw [hd.changeGauge_eq]
    exact h.interval_ne_zero

theorem Spent.of_sameFor (h : c.Spent name secs) (hd : c.SameFor name d) : d.Spent name secs := by
  refine ⟨?_, ?_, fun q hq => ?_⟩
  · rw [hd.pacing_eq]
    exact h.isSingle
  · rw [hd.changeGauge_eq, hd.pacing_eq, hd.nowNanos_eq]
    exact h.refuses
  · obtain ⟨p, hp, hrules⟩ := hd.rules q hq
    rw [hrules]
    exact h.keeps p hp

variable {platforms : List Platform} {r : Record} {p : Pool} {o : Outcome} {rule : NotifyRule}

theorem exists_rule_applied (hp : c.registry.get? r.name = some p)
    (hf : (applyRecord platforms c.throttle c.nowNanos r p).fault = none)
    (hrule : NotifyRule.find? (NotifyRule.completed r.rules) .change = some rule) {q : Pool}
    (hq : (c.applied platforms r p).registry.get? r.name = some q) :
    ∃ first, NotifyRule.find? q.rules .change = some first ∧
      first.intervalSecs = rule.intervalSecs := by
  obtain rfl := Option.some.inj (hq.symm.trans (get?_takeOver platforms c.throttle c.nowNanos hp))
  rw [rules_applyRecord _ _ _ _ _ hf, NotifyRule.find?_effective, hrule]
  exact ⟨_, rfl, by simp⟩

section Same
variable (hrule : NotifyRule.find? (NotifyRule.completed r.rules) .change = some rule)
  (he : rule.enabled = true) (h0 : rule.intervalSecs ≠ 0)
  (hsame : ∀ other ∈ NotifyRule.completed r.rules, other.kind = .change →
    other.intervalSecs = rule.intervalSecs)
include hrule he hsame

theorem Spent.next (h : c.Spent r.name rule.intervalSecs) (hps : platforms ≠ [])
    (hrec : refreshRecord platforms c r = (.ok o, d)) :
    (∀ decision, o.decision? = some decision → decision = .rateLimited) ∧
      d.Spent r.name rule.intervalSecs := by
  rcases refreshRecord_cases hrec hps hrule he with ⟨ho, rfl⟩ | ⟨p, hp, hf, hcases⟩
  · exact ⟨by simp [ho], h⟩
  · have hm : (c.applied platforms r p).Spent r.name rule.intervalSecs := by
      have hpacing := pacing_applied c platforms r p
      refine ⟨hpacing ▸ h.isSingle, ?_, fun q hq => exists_rule_applied hp hf hrule hq⟩
      rw [hpacing]
      -- All rules for changes keep the interval, so no gauge is reset.
      rcases changeGauge_applied platforms hp hf with ⟨-, hg⟩ | ⟨other, hm, hk, hkeeps, -⟩
      · rw [hg]
        exact h.refuses
      · obtain ⟨first, hfirst, hsecs⟩ := h.keeps p hp
        simp [keepsInterval, hk, hfirst, hsecs, hsame other hm hk] at hkeeps
    generalize c.applied platforms r p = m at hcases hm
    rcases hcases with ⟨ho, rfl⟩ | ⟨decision, ho, hasks⟩
    · exact ⟨by simp [ho], hm⟩
    · have hrefused := hm.refuses
      have hgauge := hasks.changeGauge_eq
      rw [Gauge.ask_of_refused hm.isSingle hrefused] at hgauge
      refine ⟨by simp [ho, hasks.rateLimited hrefused], hasks.pacing_eq ▸ hm.isSingle, ?_,
        fun q hq => ?_⟩
      · rw [hgauge, hasks.pacing_eq, hasks.nowNanos_eq]
        exact hrefused
      · exact hm.keeps q (by rwa [← hasks.registry_eq])

include h0 in
theorem Ready.next (h : c.Ready r.name) (hps : platforms ≠ [])
    (hrec : refreshRecord platforms c r = (.ok o, d)) :
    o.decision? = none ∧ d.Ready r.name ∨
      ∃ decision, o.decision? = some decision ∧ decision.isHandedOver = true ∧
        d.Spent r.name rule.intervalSecs := by
  rcases refreshRecord_cases hrec hps hrule he with ⟨ho, rfl⟩ | ⟨p, hp, hf, hcases⟩
  · exact Or.inl ⟨ho, h⟩
  · have hm : (c.applied platforms r p).Ready r.name := by
      have hpacing := pacing_applied c platforms r p
      -- A gauge that is reset by now is as fresh, and has the interval of the rules.
      rcases changeGauge_applied platforms hp hf with ⟨-, hg⟩ | ⟨other, hm, hk, -, hg⟩
      · refine ⟨hpacing ▸ h.isSingle, ?_, ?_⟩ <;> rw [hg]
        · rw [hpacing]
          exact h.isFresh
        · exact h.interval_ne_zero
      · refine ⟨hpacing ▸ h.isSingle, ?_, ?_⟩ <;> rw [hg]
        · rw [hpacing]
          rfl
        · have := hsame other hm hk
          simp only [Pacing.freshGauge, Pacing.fresh, nanosOfSecs]
          omega
    have hkeeps := fun q => exists_rule_applied (q := q) hp hf hrule
    generalize c.applied platforms r p = m at hcases hm hkeeps
    rcases hcases with ⟨ho, rfl⟩ | ⟨decision, ho, hasks⟩
    · exact Or.inl ⟨ho, hm⟩
    · have hgranted := Gauge.ask_of_isFresh hm.isSingle hm.isFresh
      refine Or.inr ⟨decision, ho, hasks.handedOver hgranted, hasks.pacing_eq ▸ hm.isSingle, ?_,
        fun q hq => hkeeps q (by rwa [← hasks.registry_eq])⟩
      rw [hasks.changeGauge_eq, hasks.pacing_eq, hasks.nowNanos_eq]
      exact Gauge.ask_ask hm.isSingle hm.interval_ne_zero hgranted

end Same

/-! ### Rules with different intervals -/

/-- The next change of the pool is told: its gauge is fresh, or will be put back by the next record
with these rules. -/
structure Eager (name : String) (rules : List NotifyRule) (c : ControlPlane) : Prop where
  isSingle : c.throttle.IsSingle
  renews : (c.changeGauge name).IsFresh c.throttle.toPacing c.nowNanos ∨
    ∀ p, c.registry.get? name = some p →
      ∃ rule ∈ NotifyRule.completed rules, rule.kind = .change ∧ keepsInterval p.rules rule = false

theorem Eager.of_sameFor {rules : List NotifyRule} (h : c.Eager name rules)
    (hd : c.SameFor name d) : d.Eager name rules := by
  refine ⟨hd.pacing_eq ▸ h.isSingle, ?_⟩
  rw [hd.changeGauge_eq, hd.pacing_eq, hd.nowNanos_eq]
  refine h.renews.imp_right fun hodd q hq => ?_
  obtain ⟨p, hp, hrules⟩ := hd.rules q hq
  rw [hrules]
  exact hodd p hp

theorem Eager.next (hrule : NotifyRule.find? (NotifyRule.completed r.rules) .change = some rule)
    (he : rule.enabled = true) {other : NotifyRule} (hother : other ∈ NotifyRule.completed r.rules)
    (hk : other.kind = .change) (hne : other.intervalSecs ≠ rule.intervalSecs)
    (h : c.Eager r.name r.rules) (hps : platforms ≠ [])
    (hrec : refreshRecord platforms c r = (.ok o, d)) :
    (∀ decision, o.decision? = some decision → decision.isHandedOver = true) ∧
      d.Eager r.name r.rules := by
  rcases refreshRecord_cases hrec hps hrule he with ⟨ho, rfl⟩ | ⟨p, hp, hf, hcases⟩
  · exact ⟨by simp [ho], h⟩
  · have hpacing := pacing_applied c platforms r p
    have hsingle : (c.applied platforms r p).throttle.IsSingle := hpacing ▸ h.isSingle
    have hfresh : ((c.applied platforms r p).changeGauge r.name).IsFresh
        (c.applied platforms r p).throttle.toPacing (c.applied platforms r p).nowNanos := by
      rw [hpacing]
      rcases changeGauge_applied platforms hp hf with ⟨hkeeps, hg⟩ | ⟨_, _, _, _, hg⟩ <;> rw [hg]
      · refine h.renews.resolve_right fun hodd => ?_
        obtain ⟨odd, hm, hk, hn⟩ := hodd p hp
        simp [hkeeps odd hm hk] at hn
      · rfl
    have hodd : ∀ q, (c.applied platforms r p).registry.get? r.name = some q →
        keepsInterval q.rules other = false := by
      intro q hq
      obtain ⟨first, hfirst, hsecs⟩ := exists_rule_applied hp hf hrule hq
      simpa [keepsInterval, hk, hfirst, hsecs] using Ne.symm hne
    clear hpacing
    generalize c.applied platforms r p = m at hcases hsingle hfresh hodd
    rcases hcases with ⟨ho, rfl⟩ | ⟨decision, ho, hasks⟩
    · exact ⟨by simp [ho], hsingle, Or.inl hfresh⟩
    · refine ⟨by simp [ho, hasks.handedOver (Gauge.ask_of_isFresh hsingle hfresh)],
        hasks.pacing_eq ▸ hsingle, Or.inr fun q hq => ⟨other, hother, hk, ?_⟩⟩
      exact hodd q (by rwa [← hasks.registry_eq])

end ControlPlane

/-! ### Runs of refreshes -/

/-- What every refresh of the pool keeps holds throughout a run, and for every decision what it then
entails. -/
theorem Records.forall_decisions {Inv : ControlPlane → Prop} {P : Decision → Prop}
    (h : Records name rules c s e) (hsame : ∀ c d, Inv c → c.SameFor name d → Inv d)
    (hnext : ∀ (c d : ControlPlane) (platforms : List Platform) (r : Record) (o : Outcome),
      r.name = name → r.rules = rules → platforms ≠ [] →
      refreshRecord platforms c r = (.ok o, d) → Inv c →
      (∀ decision, o.decision? = some decision → P decision) ∧ Inv d)
    (hc : Inv c) : ∀ decision ∈ s.decisions name, P decision := by
  induction h with
  | nil c => simp [Summary.decisions]
  | between hd _ ih => exact ih (hsame _ _ hc hd)
  | record platforms r o hr hrec _ ih =>
    by_cases hn : r.name = name
    · subst hn
      obtain ⟨hps, hrules⟩ := hr rfl
      obtain ⟨ho, hd⟩ := hnext _ _ platforms r o rfl hrules hps hrec hc
      rw [Summary.decisions_cons_self]
      intro decision hm
      rcases List.mem_append.mp hm with hm | hm
      · exact ho decision (by simpa using hm)
      · exact ih hd decision hm
    · rw [Summary.decisions_cons_of_ne _ _ hn]
      exact ih (hsame _ _ hc (ControlPlane.agreesOn_refreshRecord hn hrec).sameFor)

section Runs
variable {rule : NotifyRule}
  (hrule : NotifyRule.find? (NotifyRule.completed rules) .change = some rule)
  (he : rule.enabled = true)
include hrule he

theorem Records.decisions_of_spent
    (hsame : ∀ other ∈ NotifyRule.completed rules, other.kind = .change →
      other.intervalSecs = rule.intervalSecs)
    (h : Records name rules c s e) (hc : c.Spent name rule.intervalSecs) :
    ∀ decision ∈ s.decisions name, decision = .rateLimited := by
  refine h.forall_decisions (fun _ _ => .of_sameFor) ?_ hc
  rintro c d platforms r o rfl rfl hps hrec hc
  exact hc.next hrule he hsame hps hrec

theorem Records.decisions_of_ready (h0 : rule.intervalSecs ≠ 0)
    (hsame : ∀ other ∈ NotifyRule.completed rules, other.kind = .change →
      other.intervalSecs = rule.intervalSecs)
    (h : Records name rules c s e) (hc : c.Ready name) :
    s.decisions name = [] ∨ ∃ first rest, s.decisions name = first :: rest ∧
      first.isHandedOver = true ∧ ∀ decision ∈ rest, decision = .rateLimited := by
  induction h with
  | nil c => exact Or.inl rfl
  | between hd _ ih => exact ih (hc.of_sameFor hd)
  | record platforms r o hr hrec hs ih =>
    by_cases hn : r.name = name
    · subst hn
      obtain ⟨hps, rfl⟩ := hr rfl
      rw [Summary.decisions_cons_self]
      rcases hc.next hrule he h0 hsame hps hrec with ⟨ho, hd⟩ | ⟨first, ho, hfirst, hd⟩
      · rw [ho]
        exact ih hd
      · rw [ho]
        exact Or.inr ⟨first, _, rfl, hfirst, hs.decisions_of_spent hrule he hsame hd⟩
    · rw [Summary.decisions_cons_of_ne _ _ hn]
      exact ih (hc.of_sameFor (ControlPlane.agreesOn_refreshRecord hn hrec).sameFor)

theorem Records.decisions_of_eager {other : NotifyRule}
    (hother : other ∈ NotifyRule.completed rules) (hk : other.kind = .change)
    (hne : other.intervalSecs ≠ rule.intervalSecs) (h : Records name rules c s e)
    (hc : c.Eager name rules) : ∀ decision ∈ s.decisions name, decision.isHandedOver = true := by
  refine h.forall_decisions (fun _ _ => .of_sameFor) ?_ hc
  rintro c d platforms r o rfl rfl hps hrec hc
  exact hc.next hrule he hother hk hne hps hrec

end Runs

namespace Pool

/-- **Changes are told once per interval, or every time.** Take a throttle whose limiter keeps to
its quota, which lets through one alert at once and has no gauge for the changes of a pool, and
batches with platforms that carry the same rules for the pool, while no time passes. Let the first
of the rules for changes be enabled, with an interval. If all of them have this interval, then the
first change of the pool is handed to the outbox and all others are held back. If they have
different intervals, then every change is handed over. -/
theorem changes_throttled {name : String} {rules : List NotifyRule} {rule : NotifyRule}
    {c d : ControlPlane} {s : Summary} (hpaces : c.throttle.limiter.Paces)
    (hburst : c.throttle.burst = 1) (hgauge : c.throttle.gauge? (name, .change) = none)
    (h : Batches name rules c s d)
    (hrule : NotifyRule.find? (NotifyRule.completed rules) .change = some rule)
    (he : rule.enabled = true) (h0 : rule.intervalSecs ≠ 0) :
    ((∀ other ∈ NotifyRule.completed rules, other.kind = .change →
          other.intervalSecs = rule.intervalSecs) →
        s.decisions name = [] ∨ ∃ first rest, s.decisions name = first :: rest ∧
          first.isHandedOver = true ∧ ∀ decision ∈ rest, decision = .rateLimited) ∧
      ((∃ other ∈ NotifyRule.completed rules, other.kind = .change ∧
          other.intervalSecs ≠ rule.intervalSecs) →
        ∀ decision ∈ s.decisions name, decision.isHandedOver = true) := by
  have hsingle : c.throttle.IsSingle := ⟨hburst, hpaces⟩
  have hasked : c.changeGauge name = c.throttle.fresh defaultNanos c.nowNanos :=
    Throttle.gaugeAt_of_eq_none hgauge c.nowNanos
  have hfresh : (c.changeGauge name).IsFresh c.throttle.toPacing c.nowNanos := by
    rw [hasked]
    rfl
  constructor
  · intro hsame
    refine h.records.decisions_of_ready hrule he h0 hsame ⟨hsingle, hfresh, ?_⟩
    rw [hasked]
    show defaultNanos ≠ 0
    decide
  · rintro ⟨other, hother, hk, hne⟩
    exact h.records.decisions_of_eager hrule he hother hk hne ⟨hsingle, Or.inl hfresh⟩

/-- A batch that gives the pool a core size and rules for changes with these intervals. -/
def changing (coreSize : Int64) (intervals : List UInt64) : Batch :=
  { platforms := [{ name := "log" }]
    records := [{ name := "pool", coreSize, maxSize := 4
                  rules := intervals.map fun i => { kind := .change, interval := some i } }] }

theorem changes_throttled_twice :
    ∃ (p : Pool) (s : Summary) (d : ControlPlane),
      ofRecord { name := "pool", maxSize := 1 } = .ok p ∧
      Batches "pool" [{ kind := .change, interval := some 60 }] (holding p) s d ∧
      s.decisions "pool" = [.scheduled, .rateLimited] ∧
      ∃ first rest, s.decisions "pool" = first :: rest ∧ first.isHandedOver = true ∧
        ∀ decision ∈ rest, decision = .rateLimited := by
  obtain ⟨p, c, d, s, s', hp, hc, hd, hs, hburst, hgauge⟩ :
      ∃ (p : Pool) (c d : ControlPlane) (s s' : Summary),
        ofRecord { name := "pool", maxSize := 1 } = .ok p ∧
        refresh (holding p) (changing 2 [60]) = (.ok s, c) ∧
        refresh c (changing 3 [60]) = (.ok s', d) ∧
        (s ++ (s' ++ [])).decisions "pool" = [.scheduled, .rateLimited] ∧
        (holding p).throttle.burst = 1 ∧
        (holding p).throttle.gauge? ("pool", .change) = none :=
    ⟨_, _, _, _, _, rfl, rfl, rfl, rfl, rfl, rfl⟩
  have hwanted : ∀ n, ∀ r ∈ (changing n [60]).records, r.name = "pool" →
      (changing n [60]).platforms ≠ [] ∧ r.rules = [{ kind := .change, interval := some 60 }] := by
    simp [changing]
  have hruns : Batches "pool" [{ kind := .change, interval := some 60 }] (holding p)
      (s ++ (s' ++ [])) d :=
    .batch _ (hwanted 2) hc (.batch _ (hwanted 3) hd (.nil d))
  have hcases := (changes_throttled Limiter.paces_cellRate hburst hgauge hruns rfl rfl
    (by decide)).1 (by decide)
  refine ⟨p, _, d, hp, hruns, hs, hcases.resolve_left fun h => ?_⟩
  rw [hs] at h
  cases h

/-- The second rule for changes has another interval than the first. No gauge is there before the
two refreshes, and both changes are handed over. -/
theorem changes_not_throttled :
    ∃ (p : Pool) (c d : ControlPlane) (s s' : Summary) (rule : NotifyRule),
      ofRecord { name := "pool", maxSize := 1 } = .ok p ∧
      (holding p).throttle.burst = 1 ∧ (holding p).throttle.gauge? ("pool", .change) = none ∧
      (∀ r ∈ (changing 2 [60, 120]).records ++ (changing 3 [60, 120]).records,
        NotifyRule.find? (NotifyRule.completed r.rules) .change = some rule) ∧
      rule.enabled = true ∧ rule.intervalSecs = 60 ∧
      refresh (holding p) (changing 2 [60, 120]) = (.ok s, c) ∧
      refresh c (changing 3 [60, 120]) = (.ok s', d) ∧
      s.decisions "pool" = [.scheduled] ∧ s'.decisions "pool" = [.dropped] :=
  ⟨_, _, _, _, _, { kind := .change, interval := some 60 }, rfl, rfl, rfl, by decide, rfl, rfl, rfl,
    rfl, rfl, rfl⟩

end Pool
end PoolControl
