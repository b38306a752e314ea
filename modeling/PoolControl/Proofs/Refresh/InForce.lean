import PoolControl.Proofs.Refresh.Intervals

/-! # The intervals that are in force

A refresh compares the new rules with those of the pool and resets the gauges of the ones whose
interval is new. So it takes for granted that the gauge of a kind has the interval of the pool's
first rule of the kind. That is followed for one interval at a time (`ControlPlane.InForce`).

A bind brings it about (`inForce_bind`), and all that can happen to a control plane keeps it
(`ControlPlane.Moves.inForce`), but for a registration with a rule of that interval, which is not
given a gauge and may find none, and for rules of one kind of which the first has that interval and
others do not. Where neither happens, a refresh leaves the gauge of each kind with the interval of
the first rule (`ControlPlane.interval_in_force`). -/

namespace PoolControl

open Settings (Batch NoticeKind NotifyRule Platform Record)

/-! ### Intervals in force -/

namespace ControlPlane

/-- If the first rule of the kind in the pool of the name has that interval, so have all. -/
def IsEven (name : String) (kind : NoticeKind) (secs : Nat) (c : ControlPlane) : Prop :=
  ∀ p, c.registry.get? name = some p → NotifyRule.EvenAt kind secs p.rules

/-- If the first rule of the kind in the pool of the name has that interval, so have all, and the
gauge too. -/
structure InForce (name : String) (kind : NoticeKind) (secs : Nat) (c : ControlPlane) : Prop where
  isEven : c.IsEven name kind secs
  interval?_eq : ∀ p rule, c.registry.get? name = some p →
    NotifyRule.find? p.rules kind = some rule → rule.intervalSecs = secs →
    c.throttle.interval? (name, kind) = some (nanosOfSecs secs)

variable {name : String} {kind : NoticeKind} {secs : Nat} {platforms : List Platform}
  {c d : ControlPlane} {r : Record} {p : Pool}

theorem IsEven.of_registry_eq (h : c.IsEven name kind secs) (hd : d.registry = c.registry) :
    d.IsEven name kind secs := fun p hp => h p (hd ▸ hp)

theorem InForce.of_none (h : c.registry.get? name = none) : c.InForce name kind secs := by
  refine ⟨fun p hp => ?_, fun p rule hp => ?_⟩
  · rw [h] at hp
    cases hp
  · rw [h] at hp
    cases hp

theorem IsEven.of_agreesOn (h : c.IsEven name kind secs) (hd : c.AgreesOn name d) :
    d.IsEven name kind secs := fun p hp => h p (hd.pool_eq ▸ hp)

theorem InForce.of_agreesOn (h : c.InForce name kind secs) (hd : c.AgreesOn name d) :
    d.InForce name kind secs := by
  refine ⟨h.isEven.of_agreesOn hd, fun p rule hp hrule hsecs => ?_⟩
  rw [hd.throttle.interval?_eq]
  exact h.interval?_eq p rule (hd.pool_eq ▸ hp) hrule hsecs

theorem InForce.of_onlyAsks (h : c.InForce name kind secs) (hd : c.OnlyAsks d) :
    d.InForce name kind secs := by
  refine ⟨h.isEven.of_registry_eq hd.registry_eq, fun p rule hp hrule hsecs => ?_⟩
  exact hd.interval?_eq (h.interval?_eq p rule (hd.registry_eq ▸ hp) hrule hsecs)

/-! ### Refreshing -/

theorem rules_applied (hp : c.registry.get? r.name = some p)
    (hf : (applyRecord platforms c.throttle c.nowNanos r p).fault = none) {q : Pool}
    (hq : (c.applied platforms r p).registry.get? r.name = some q) :
    q.rules = NotifyRule.effective platforms r.rules := by
  rw [applied, get?_takeOver platforms c.throttle c.nowNanos hp] at hq
  cases hq
  exact rules_applyRecord platforms _ _ _ _ hf

theorem IsEven.applied (h : c.IsEven name kind secs) (hp : c.registry.get? r.name = some p)
    (hf : (applyRecord platforms c.throttle c.nowNanos r p).fault = none)
    (hone : r.name = name → NotifyRule.EvenAt kind secs r.rules) :
    (c.applied platforms r p).IsEven name kind secs := by
  by_cases hn : r.name = name
  · subst hn
    intro q hq
    rw [rules_applied hp hf hq]
    exact (hone rfl).effective platforms
  · exact h.of_agreesOn (agreesOn_applied hn hp)

/-- **Applying a record** of such rules keeps the interval in force: a rule that has its gauge reset
gives it its own interval, and one that has not found the gauge with it. -/
theorem InForce.applied (h : c.InForce name kind secs) (hp : c.registry.get? r.name = some p)
    (hf : (applyRecord platforms c.throttle c.nowNanos r p).fault = none)
    (hone : r.name = name → NotifyRule.EvenAt kind secs r.rules) :
    (c.applied platforms r p).InForce name kind secs := by
  refine ⟨h.isEven.applied hp hf hone, ?_⟩
  by_cases hn : r.name = name
  · subst hn
    intro q rule hq hrule hsecs
    rw [rules_applied hp hf hq] at hrule
    rw [interval?_applied hp hf, intervalAfter?]
    have hmem := NotifyRule.mem_of_find? hrule
    have hkind := NotifyRule.kind_of_find? hrule
    cases hlast : NotifyRule.last? (renewed platforms r p) kind with
    | some last =>
      obtain ⟨hrenewed, hk⟩ := NotifyRule.mem_of_last? hlast
      have heven := (hone rfl).effective platforms rule hrule hsecs
      rw [← heven last (List.mem_filter.mp hrenewed).1 hk]
      rfl
    | none =>
      -- The rule is not among those whose gauges are reset.
      have hkeeps : keepsInterval p.rules rule = true := by
        by_contra hnew
        refine NotifyRule.ne_of_last?_eq_none hlast (List.mem_filter.mpr ⟨hmem, ?_⟩) hkind
        simpa using hnew
      obtain ⟨first, hfirst, hsame⟩ := keepsInterval_iff.mp hkeeps
      rw [h.interval?_eq p first hp (hkind ▸ hfirst) (hsame.trans hsecs)]
      rfl
  · exact (h.of_agreesOn (agreesOn_applied hn hp)).interval?_eq

end ControlPlane

/-- Whether the record was applied. -/
def Outcome.isApplied : Outcome → Bool
  | .unchanged _ | .changed .. => true
  | _ => false

section Refreshing

open ControlPlane (InForce IsEven OnlyAsks onlyAsks_notifyChange)

variable {P : ControlPlane → Prop} {name : String} {kind : NoticeKind} {secs : Nat}
  {platforms : List Platform} {c d : ControlPlane} {r : Record} {rs : List Record} {b : Batch}

theorem refreshRecord_cases {o : Outcome} (h : refreshRecord platforms c r = (.ok o, d)) :
    o.isApplied = false ∧ d = c ∨
      ∃ p, o.isApplied = true ∧ c.registry.get? r.name = some p ∧
        (applyRecord platforms c.throttle c.nowNanos r p).fault = none ∧
        (c.applied platforms r p).OnlyAsks d := by
  have hcases := refreshes platforms c r
  rw [h] at hcases
  cases hcases with
  | invalid => exact Or.inl ⟨rfl, rfl⟩
  | notFound => exact Or.inl ⟨rfl, rfl⟩
  | unchanged p applied hr hp ha hf =>
    subst ha
    exact Or.inr ⟨p, rfl, hp, hf, .of_eq rfl rfl⟩
  | changed p applied diff hr hp ha hf =>
    subst ha
    exact Or.inr ⟨p, rfl, hp, hf, onlyAsks_notifyChange ..⟩

/-- **What decides about the interval** after a refresh. A gauge that is asked for without being
there gets the default interval. -/
theorem interval?_refreshRecord {o : Outcome} (h : refreshRecord platforms c r = (.ok o, d))
    (happlied : o.isApplied = true) : ∃ p, c.registry.get? r.name = some p ∧ ∀ kind,
      d.throttle.interval? (r.name, kind) = c.intervalAfter? platforms r p kind ∨
        c.intervalAfter? platforms r p kind = none ∧
          d.throttle.interval? (r.name, kind) = some defaultNanos := by
  rcases refreshRecord_cases h with ⟨hnot, -⟩ | ⟨p, -, hp, hf, hasks⟩
  · rw [happlied] at hnot
    cases hnot
  · refine ⟨p, hp, fun kind => ?_⟩
    rw [← interval?_applied hp hf]
    exact hasks.interval?_cases (r.name, kind)

/-- A fact about planes that applying the records keeps, and asking too. -/
structure KeptBy (platforms : List Platform) (rs : List Record) (P : ControlPlane → Prop) :
    Prop where
  asks : ∀ c d, P c → c.OnlyAsks d → P d
  applied : ∀ c r p, r ∈ rs → c.registry.get? r.name = some p →
    (applyRecord platforms c.throttle c.nowNanos r p).fault = none →
    P c → P (c.applied platforms r p)

theorem KeptBy.refreshRecord (hP : KeptBy platforms rs P) (hr : r ∈ rs) (hc : P c) {o : Outcome}
    (h : refreshRecord platforms c r = (.ok o, d)) : P d := by
  rcases refreshRecord_cases h with ⟨-, rfl⟩ | ⟨p, -, hp, hf, hasks⟩
  · exact hc
  · exact hP.asks _ _ (hP.applied c r p hr hp hf hc) hasks

theorem KeptBy.refreshRecords (hP : KeptBy platforms rs P) (hc : P c) {s : Summary}
    (h : refreshRecords platforms c rs = (.ok s, d)) : P d := by
  have hsub : ∀ (rest : List Record) (c : ControlPlane) (s : Summary), rest ⊆ rs → P c →
      PoolControl.refreshRecords platforms c rest = (.ok s, d) → P d := by
    intro rest
    induction rest with
    | nil =>
      intro c s _ hc h
      cases h
      exact hc
    | cons r rest ih =>
      intro c s hsub hc h
      rw [List.cons_subset] at hsub
      cases hb : Text.isBlankText r.name with
      | true =>
        rw [refreshRecords_cons_of_blank hb] at h
        exact ih c s hsub.2 hc h
      | false =>
        obtain ⟨o, m, s', hr, hrest, -⟩ := exists_of_refreshRecords_cons hb h
        have hm : P (m.bump (.refreshed o.label)) :=
          hP.asks m _ (hP.refreshRecord hsub.1 hc hr) (.of_eq rfl rfl)
        exact ih _ s' hsub.2 hm hrest
  exact hsub rs c s (List.Subset.refl rs) hc h

/-- **What applying the records of a batch keeps**, a refresh from the batch keeps. -/
theorem KeptBy.refresh (hP : KeptBy b.platforms b.records P) (hc : P c) {s : Summary}
    (h : (refresh c b).1 = .ok s) : P (refresh c b).2 := by
  unfold PoolControl.refresh at h ⊢
  split_ifs at h ⊢
  · exact hc
  · have hsynced : P { c with outbox := c.outbox.sync b.platforms } :=
      hP.asks c _ hc (.of_eq rfl rfl)
    exact hP.refreshRecords hsynced (Prod.ext h rfl)

theorem KeptBy.bindRecords (hP : KeptBy platforms rs P) (hc : P c)
    (h : (bindRecords platforms c rs).1.2 = none) : P (bindRecords platforms c rs).2 := by
  induction rs generalizing c with
  | nil => exact hc
  | cons r rs ih =>
    have hrest : KeptBy platforms rs P :=
      ⟨hP.asks, fun c r p hr => hP.applied c r p (List.mem_cons_of_mem _ hr)⟩
    have hstep : (bindRecord platforms c r).1.2 = none → P (bindRecord platforms c r).2 := by
      unfold bindRecord
      split
      · exact fun _ => hc
      · next p hp =>
        split
        · exact fun _ => hc
        · exact fun hf => hP.applied c r p List.mem_cons_self hp hf hc
    obtain ⟨hr, hnext, heq⟩ := bindRecords_cons_of_none h
    rw [heq]
    exact ih hrest (hstep hr) hnext

theorem keptBy_isEven (platforms : List Platform)
    (hone : ∀ r ∈ rs, r.name = name → NotifyRule.EvenAt kind secs r.rules) :
    KeptBy platforms rs (ControlPlane.IsEven name kind secs) where
  asks _ _ hc hasks := hc.of_registry_eq hasks.registry_eq
  applied _ r _ hr hp hf hc := hc.applied hp hf (hone r hr)

theorem keptBy_inForce (platforms : List Platform)
    (hone : ∀ r ∈ rs, r.name = name → NotifyRule.EvenAt kind secs r.rules) :
    KeptBy platforms rs (ControlPlane.InForce name kind secs) where
  asks _ _ hc hasks := hc.of_onlyAsks hasks
  applied _ r _ hr hp hf hc := hc.applied hp hf (hone r hr)

theorem keptBy_distinct (platforms : List Platform) (rs : List Record) :
    KeptBy platforms rs fun c => c.registry.Distinct where
  asks _ _ hc hasks := by
    rw [hasks.registry_eq]
    exact hc
  applied _ _ _ _ _ _ hc := hc.update _

end Refreshing

/-! ### Binding -/

section Binding

variable {name : String} {kind : NoticeKind} {secs : Nat} {platforms : List Platform}
  {c : ControlPlane} {p : Pool} {ps : List Pool} {b : Batch}

theorem agreesOn_normalizeRules (platforms : List Platform) (c : ControlPlane)
    (hne : p.name ≠ name) : c.AgreesOn name (normalizeRules platforms c p).2 := by
  have hpool := get?_normalizeRules_of_ne platforms c p hne
  have hthrottle := Throttle.agreesOn_resetAll hne c.nowNanos c.throttle
    (NotifyRule.effective platforms p.rules)
  unfold normalizeRules at hpool ⊢
  simp only at hpool ⊢
  split_ifs at hpool ⊢ with hf
  · exact ⟨hthrottle, rfl, hpool⟩
  · exact ⟨hthrottle, rfl, hpool⟩

theorem agreesOn_normalizeAll (platforms : List Platform) (hname : name ∉ ps.map (·.name)) :
    c.AgreesOn name (normalizeAll platforms c ps).2 := by
  induction ps generalizing c with
  | nil => exact .refl name c
  | cons p ps ih =>
    rw [List.map_cons, List.mem_cons, not_or] at hname
    have hp := agreesOn_normalizeRules platforms c (Ne.symm hname.1)
    unfold normalizeAll
    rcases hr : normalizeRules platforms c p with ⟨fault | _, m⟩
    · rw [hr] at hp
      exact hp.trans (ih hname.2)
    · rw [hr] at hp
      exact hp

theorem distinct_normalizeAll (platforms : List Platform) (ps : List Pool)
    (hc : c.registry.Distinct) : (normalizeAll platforms c ps).2.registry.Distinct := by
  induction ps generalizing c with
  | nil => exact hc
  | cons p ps ih =>
    have hp : (normalizeRules platforms c p).2.registry.Distinct := by
      unfold normalizeRules
      simp only
      split_ifs
      · exact hc.update _
      · exact hc
    unfold normalizeAll
    rcases hr : normalizeRules platforms c p with ⟨fault | _, m⟩
    · rw [hr] at hp
      exact ih hp
    · rw [hr] at hp
      exact hp

theorem inForce_normalizeRules (platforms : List Platform)
    (hp : c.registry.get? p.name = some p)
    (hone : NotifyRule.EvenAt kind secs p.rules) (h : (normalizeRules platforms c p).1 = none) :
    (normalizeRules platforms c p).2.InForce p.name kind secs := by
  have heven := hone.effective platforms
  unfold normalizeRules at h ⊢
  simp only at h ⊢
  have hfits := (Throttle.resetAll_fst_eq_none_iff _ _ _ _).mp h
  have hget : (c.registry.update (p.setRules (NotifyRule.effective platforms p.rules))).get?
      p.name = some (p.setRules (NotifyRule.effective platforms p.rules)) :=
    Registry.get?_update_self c.registry (p.setRules _) (Registry.contains_of_get? hp)
  rw [h]
  refine ⟨fun q hq => ?_, fun q rule hq hrule hsecs => ?_⟩
  · cases hget.symm.trans hq
    exact heven
  · cases hget.symm.trans hq
    have hmem := NotifyRule.mem_of_find? hrule
    have hkind := NotifyRule.kind_of_find? hrule
    have hinterval := Throttle.interval?_resetAll c.nowNanos p.name kind hfits
    cases hlast : NotifyRule.last? (NotifyRule.effective platforms p.rules) kind with
    | none => exact absurd hkind (NotifyRule.ne_of_last?_eq_none hlast hmem)
    | some last =>
      obtain ⟨hlastMem, hk⟩ := NotifyRule.mem_of_last? hlast
      rw [hlast] at hinterval
      rw [← heven rule hrule hsecs last hlastMem hk]
      exact hinterval

theorem inForce_normalizeAll (hn : (ps.map (·.name)).Nodup)
    (hget : ∀ p ∈ ps, c.registry.get? p.name = some p)
    (hlisted : ∀ p, c.registry.get? name = some p → name ∈ ps.map (·.name))
    (heven : c.IsEven name kind secs) (h : (normalizeAll platforms c ps).1 = none) :
    (normalizeAll platforms c ps).2.InForce name kind secs := by
  induction ps generalizing c with
  | nil =>
    refine .of_none (Option.eq_none_iff_forall_ne_some.mpr fun p hp => ?_)
    exact absurd (hlisted p hp) (List.not_mem_nil)
  | cons p ps ih =>
    rw [List.map_cons, List.nodup_cons] at hn
    have hp := hget p List.mem_cons_self
    obtain ⟨hnormalize, heq⟩ := normalizeAll_cons_of_none h
    rw [heq] at h ⊢
    by_cases hname : p.name = name
    · subst hname
      have hforce := inForce_normalizeRules platforms hp (heven p hp) hnormalize
      exact hforce.of_agreesOn (agreesOn_normalizeAll platforms hn.1)
    · have hagrees := agreesOn_normalizeRules platforms c hname
      have hother := get?_normalizeRules_of_mem platforms hn.1 fun q hq =>
        hget q (List.mem_cons_of_mem p hq)
      refine ih hn.2 hother (fun q hq => ?_) (heven.of_agreesOn hagrees) h
      have hmem := hlisted q (hagrees.pool_eq ▸ hq)
      exact (List.mem_cons.mp hmem).resolve_left (Ne.symm hname)

theorem distinct_bind (hc : c.registry.Distinct) (h : (bind c b).1.2 = none) :
    (bind c b).2.registry.Distinct := by
  obtain ⟨m, rfl, hrecords, -, heq⟩ := exists_of_bind h
  rw [heq]
  exact distinct_normalizeAll b.platforms _
    ((keptBy_distinct b.platforms b.records).bindRecords hc hrecords)

/-- **A bind puts the intervals in force**, whatever the gauges were before. -/
theorem inForce_bind (hc : c.registry.Distinct) (heven : c.IsEven name kind secs)
    (hone : ∀ r ∈ b.records, r.name = name → NotifyRule.EvenAt kind secs r.rules)
    (h : (bind c b).1.2 = none) : (bind c b).2.InForce name kind secs := by
  obtain ⟨m, rfl, hrecords, hnormalize, heq⟩ := exists_of_bind h
  have hdistinct := (keptBy_distinct b.platforms b.records).bindRecords hc hrecords
  have hbound := (keptBy_isEven b.platforms hone).bindRecords heven hrecords
  rw [heq]
  refine inForce_normalizeAll (Registry.distinct_iff.mp hdistinct)
    (fun p hp => hdistinct.get?_of_mem hp) (fun p hp => ?_) hbound hnormalize
  exact Registry.name_of_get? hp ▸ List.mem_map_of_mem (Registry.mem_pools_of_get? hp)

end Binding

/-! ### What happens to a control plane -/

namespace Registry

/-- The rules of the registered pools, with the names. -/
def rules (r : Registry) : List (String × List NotifyRule) := r.pools.map fun p => (p.name, p.rules)

theorem map_fst_rules (r : Registry) : r.rules.map (·.1) = r.pools.map (·.name) := by
  rw [rules, List.map_map]
  rfl

theorem map_rules_get? (r : Registry) (name : String) :
    (r.get? name).map (·.rules) = (r.rules.find? (·.1 == name)).map (·.2) := by
  rw [get?_eq_find?_pools, rules, List.find?_map, Option.map_map]
  rfl

theorem exists_get?_of_rules_eq {r s : Registry} (h : s.rules = r.rules) {name : String} {q : Pool}
    (hq : s.get? name = some q) : ∃ p, r.get? name = some p ∧ p.rules = q.rules := by
  have hsame := r.map_rules_get? name
  rw [← h, ← map_rules_get?, hq] at hsame
  exact Option.map_eq_some_iff.mp hsame

end Registry

namespace ControlPlane

/-- What happens to a control plane. -/
inductive Move where
  | register (record : Record)
  | bind (batch : Batch)
  | refresh (batch : Batch)
  | refreshRecord (record : Record)
  /-- An alarm round. -/
  | round
  | ask
  /-- The pools work and time passes. No pool is given other rules. -/
  | work

/-- The records whose rules a pool can be given. -/
def Move.records : Move → List Record
  | register r | refreshRecord r => [r]
  | bind b | refresh b => b.records
  | round | ask | work => []

/-- Whether the move registers a pool of that name. -/
def Move.registers (name : String) : Move → Bool
  | register r => r.name == name
  | _ => false

/-- In each record for the pool, if the first rule of the kind has that interval, so have all. -/
def Move.IsEven (name : String) (kind : NoticeKind) (secs : Nat) (move : Move) : Prop :=
  ∀ r ∈ move.records, r.name = name → NotifyRule.EvenAt kind secs r.rules

/-- How a move that does not end in a fault changes a control plane. -/
inductive Moves (c : ControlPlane) : Move → ControlPlane → Prop
  | register {r : Record} {p : Pool} (h : Pool.ofRecord r = .ok p) :
    Moves c (.register r) { c with registry := (c.registry.register p).2 }
  | bind {b : Batch} (h : (bind c b).1.2 = none) : Moves c (.bind b) (PoolControl.bind c b).2
  | refresh {b : Batch} {s : Summary} (h : (refresh c b).1 = .ok s) :
    Moves c (.refresh b) (PoolControl.refresh c b).2
  | refreshRecord {platforms : List Platform} {r : Record} {o : Outcome} {d : ControlPlane}
    (h : refreshRecord platforms c r = (.ok o, d)) : Moves c (.refreshRecord r) d
  | round (m : Monitor) : Moves c .round (m.round c).2
  | ask (key : GaugeKey) : Moves c .ask (c.ask key).2
  | work {d : ControlPlane} (hrules : d.registry.rules = c.registry.rules)
    (ht : d.throttle = c.throttle) : Moves c .work d

/-- One move after the other. -/
inductive Takes : ControlPlane → List Move → ControlPlane → Prop
  | nil (c : ControlPlane) : Takes c [] c
  | cons {c d e : ControlPlane} {move : Move} {moves : List Move} (h : Moves c move d)
    (hrest : Takes d moves e) : Takes c (move :: moves) e

variable {name : String} {kind : NoticeKind} {secs : Nat} {c d : ControlPlane} {move : Move}
  {moves : List Move}

theorem Moves.distinct (h : Moves c move d) (hc : c.registry.Distinct) : d.registry.Distinct := by
  cases h with
  | register => exact hc.register _
  | bind h => exact distinct_bind hc h
  | refresh h => exact (keptBy_distinct _ _).refresh hc h
  | refreshRecord h => exact (keptBy_distinct _ _).refreshRecord (List.mem_singleton_self _) hc h
  | round m =>
    rw [(m.onlyAsks_round c).registry_eq]
    exact hc
  | ask => exact hc
  | work hrules =>
    rw [Registry.distinct_iff, ← Registry.map_fst_rules] at hc ⊢
    rw [hrules]
    exact hc

theorem Moves.isEven (h : Moves c move d) (hdistinct : c.registry.Distinct)
    (hc : c.IsEven name kind secs) (hmove : move.IsEven name kind secs) :
    d.IsEven name kind secs := by
  cases h with
  | @register r p h =>
    obtain ⟨-, -, policy, -, rfl⟩ := Pool.ofRecord_eq_ok_iff.mp h
    intro q hq
    rw [Registry.get?_register] at hq
    split_ifs at hq with hn
    · cases hq
      exact hmove r List.mem_cons_self hn
    · exact hc q hq
  | bind h => exact (inForce_bind hdistinct hc hmove h).isEven
  | refresh h => exact (keptBy_isEven _ hmove).refresh hc h
  | refreshRecord h => exact (keptBy_isEven _ hmove).refreshRecord (List.mem_singleton_self _) hc h
  | round m => exact hc.of_registry_eq (m.onlyAsks_round c).registry_eq
  | ask => exact hc
  | work hrules =>
    intro q hq
    obtain ⟨p, hp, hpq⟩ := Registry.exists_get?_of_rules_eq hrules hq
    rw [← hpq]
    exact hc p hp

/-- The move registers no pool of the name whose first rule of the kind has that interval, but where
the gauge has it. -/
def Move.FindsInForce (name : String) (kind : NoticeKind) (secs : Nat) (c : ControlPlane)
    (move : Move) : Prop :=
  ∀ own, move = .register own → own.name = name →
    ∀ first ∈ NotifyRule.find? own.rules kind, first.intervalSecs = secs →
      c.throttle.interval? (name, kind) = some (nanosOfSecs secs)

/-- **A move keeps the interval in force**, if a registration finds it there. A registration of the
name needs nothing more. -/
theorem Moves.inForce (h : Moves c move d) (hdistinct : c.registry.Distinct)
    (hc : c.IsEven name kind secs) (hmove : move.IsEven name kind secs)
    (hforce : move.registers name = false → c.InForce name kind secs)
    (hfinds : move.FindsInForce name kind secs c) : d.InForce name kind secs := by
  refine ⟨h.isEven hdistinct hc hmove, ?_⟩
  cases h with
  | @register r p h =>
    obtain ⟨-, -, policy, -, rfl⟩ := Pool.ofRecord_eq_ok_iff.mp h
    intro q rule hq hrule hsecs
    rw [Registry.get?_register] at hq
    split_ifs at hq with hn
    · cases hq
      exact hfinds r rfl hn rule hrule hsecs
    · exact (hforce (beq_false_of_ne hn)).interval?_eq q rule hq hrule hsecs
  | bind h => exact (inForce_bind hdistinct hc hmove h).interval?_eq
  | refresh h => exact ((keptBy_inForce _ hmove).refresh (hforce rfl) h).interval?_eq
  | refreshRecord h =>
    exact ((keptBy_inForce _ hmove).refreshRecord (List.mem_singleton_self _) (hforce rfl)
      h).interval?_eq
  | round m => exact ((hforce rfl).of_onlyAsks (m.onlyAsks_round c)).interval?_eq
  | ask key => exact ((hforce rfl).of_onlyAsks (onlyAsks_ask c key)).interval?_eq
  | work hrules ht =>
    intro q rule hq hrule hsecs
    obtain ⟨p, hp, hpq⟩ := Registry.exists_get?_of_rules_eq hrules hq
    rw [← hpq] at hrule
    rw [ht]
    exact (hforce rfl).interval?_eq p rule hp hrule hsecs

theorem Takes.isEven (h : Takes c moves d) (hdistinct : c.registry.Distinct)
    (hc : c.IsEven name kind secs) (hmoves : ∀ move ∈ moves, move.IsEven name kind secs) :
    d.registry.Distinct ∧ d.IsEven name kind secs := by
  induction h with
  | nil => exact ⟨hdistinct, hc⟩
  | cons h _ ih =>
    rw [List.forall_mem_cons] at hmoves
    exact ih (h.distinct hdistinct) (h.isEven hdistinct hc hmoves.1) hmoves.2

/-- If the last registration of the name among the moves is of a pool whose first rule of the kind
has that interval, then it finds the gauge with it. -/
def RegistersInForce (name : String) (kind : NoticeKind) (secs : Nat) (c : ControlPlane)
    (moves : List Move) (d : ControlPlane) : Prop :=
  ∀ before move after b, moves = before ++ move :: after →
    (∀ later ∈ after, later.registers name = false) →
    Takes c before b → Takes b (move :: after) d → move.FindsInForce name kind secs b

theorem RegistersInForce.tail {e : ControlPlane}
    (hlast : RegistersInForce name kind secs c (move :: moves) e) (h : Moves c move d) :
    RegistersInForce name kind secs d moves e := fun before m after b hmoves hafter hb hrest =>
  hlast (move :: before) m after b (by rw [hmoves, List.cons_append]) hafter (.cons h hb) hrest

/-- The last registration of the name is the last move. -/
theorem registersInForce_concat {own : Record} (hn : own.name = name)
    (h : ∀ b, Takes c moves b → (Move.register own).FindsInForce name kind secs b) :
    RegistersInForce name kind secs c (moves ++ [.register own]) d := by
  intro before move after b hsplit hafter hb _
  rcases List.eq_nil_or_concat after with rfl | ⟨init, last, rfl⟩
  · obtain ⟨rfl, hmove⟩ := List.append_inj' hsplit rfl
    rw [← (List.cons.inj hmove).1]
    exact h b hb
  · rw [List.concat_eq_append, ← List.cons_append, ← List.append_assoc] at hsplit
    obtain rfl : last = .register own :=
      (List.cons.inj (List.append_inj' hsplit rfl).2).1.symm
    have hnone := hafter (.register own) (by simp)
    simp [Move.registers, hn] at hnone

/-- **All moves keep the interval in force**, if the last registration of the name finds it there.
What came before that registration does not matter. -/
theorem Takes.inForce (h : Takes c moves d) (hdistinct : c.registry.Distinct)
    (hc : c.IsEven name kind secs) (hmoves : ∀ move ∈ moves, move.IsEven name kind secs)
    (hforce : (∀ move ∈ moves, move.registers name = false) → c.InForce name kind secs)
    (hlast : RegistersInForce name kind secs c moves d) : d.InForce name kind secs := by
  induction h with
  | nil => exact hforce fun _ hm => absurd hm List.not_mem_nil
  | @cons c d e move moves h hrest ih =>
    rw [List.forall_mem_cons] at hmoves
    refine ih (h.distinct hdistinct) (h.isEven hdistinct hc hmoves.1) hmoves.2 (fun hnone => ?_)
      (hlast.tail h)
    refine h.inForce hdistinct hc hmoves.1 (fun hmove => hforce ?_) ?_
    · exact List.forall_mem_cons.mpr ⟨hmove, hnone⟩
    · exact hlast [] move moves c rfl hnone (.nil c) (.cons h hrest)

/-- The plane holds no pools yet, or was bound after some moves from there. -/
inductive Seeded (name : String) (kind : NoticeKind) (secs : Nat) : ControlPlane → Prop
  | empty {c : ControlPlane} (h : c.registry.pools = []) : Seeded name kind secs c
  | bound {c d : ControlPlane} {moves : List Move} {b : Batch} (h : c.registry.pools = [])
    (hmoves : Takes c moves d) (heven : ∀ move ∈ moves, move.IsEven name kind secs)
    (hb : (Move.bind b).IsEven name kind secs) (hfault : (bind d b).1.2 = none) :
    Seeded name kind secs (bind d b).2

theorem get?_of_pools_eq_nil (h : c.registry.pools = []) (name : String) :
    c.registry.get? name = none := by
  rw [Registry.get?_eq_find?_pools, h]
  rfl

theorem Seeded.inForce (h : Seeded name kind secs c) :
    c.registry.Distinct ∧ c.InForce name kind secs := by
  cases h with
  | empty h =>
    refine ⟨?_, .of_none (get?_of_pools_eq_nil h name)⟩
    rw [Registry.distinct_iff, h]
    exact List.nodup_nil
  | @bound c d moves b h hmoves heven hb hfault =>
    have hdistinct : c.registry.Distinct := by
      rw [Registry.distinct_iff, h]
      exact List.nodup_nil
    have hc : c.InForce name kind secs := .of_none (get?_of_pools_eq_nil h name)
    obtain ⟨hd, hevenD⟩ := hmoves.isEven hdistinct hc.isEven heven
    exact ⟨distinct_bind hd hfault, inForce_bind hd hevenD hb hfault⟩

/-- **The interval in force is the one that was configured.** A refresh that applies a record leaves
to each kind the interval of the last rule that is new to the pool, or else that of the gauge that
is there. Now take a control plane that held no pools, or was bound, and whatever moves after that,
without a fault. Then there is a gauge of each kind in the rules, with the interval of the first
rule of the kind. One without an interval never refuses.

Two things are left out. The last of the moves that registers a pool of the name, if the first rule
of the kind has that interval, finds the gauge with it; and no record for the pool in which the
first rule of the kind has it has other rules of the kind that do not. -/
theorem interval_in_force {c d : ControlPlane} {platforms : List Platform} {r : Record}
    {o : Outcome} (h : refreshRecord platforms c r = (.ok o, d)) (happlied : o.isApplied = true) :
    (∃ p, c.registry.get? r.name = some p ∧ ∀ kind,
      d.throttle.interval? (r.name, kind) = c.intervalAfter? platforms r p kind ∨
        c.intervalAfter? platforms r p kind = none ∧
          d.throttle.interval? (r.name, kind) = some defaultNanos) ∧
    (∃ p, d.registry.get? r.name = some p ∧ p.rules = NotifyRule.effective platforms r.rules) ∧
    ∀ kind rule c₀ moves,
      NotifyRule.find? (NotifyRule.effective platforms r.rules) kind = some rule →
      Seeded r.name kind rule.intervalSecs c₀ → Takes c₀ moves c →
      (∀ move ∈ moves, move.IsEven r.name kind rule.intervalSecs) →
      RegistersInForce r.name kind rule.intervalSecs c₀ moves c →
      NotifyRule.EvenAt kind rule.intervalSecs r.rules →
      ∃ g, d.throttle.gauge? (r.name, kind) = some g ∧
        g.interval = nanosOfSecs rule.intervalSecs ∧
        (rule.intervalSecs = 0 → ∀ pacing now, (g.ask pacing now).1 = true) := by
  refine ⟨interval?_refreshRecord h happlied, ?_⟩
  obtain ⟨p, hget, hrules⟩ : ∃ p, d.registry.get? r.name = some p ∧
      p.rules = NotifyRule.effective platforms r.rules := by
    rcases refreshRecord_cases h with ⟨hnot, -⟩ | ⟨p, -, hp, hf, hasks⟩
    · rw [happlied] at hnot
      cases hnot
    · have hget := get?_takeOver platforms c.throttle c.nowNanos hp
      rw [← hasks.registry_eq] at hget
      exact ⟨_, hget, rules_applyRecord platforms c.throttle c.nowNanos r p hf⟩
  refine ⟨⟨p, hget, hrules⟩, fun kind rule c₀ moves hrule hseeded hmoves heven hlast hone => ?_⟩
  obtain ⟨hdistinct, hc₀⟩ := hseeded.inForce
  have hc := hmoves.inForce hdistinct hc₀.isEven heven (fun _ => hc₀) hlast
  have hd : d.InForce r.name kind rule.intervalSecs :=
    (keptBy_inForce platforms fun q hq _ => List.mem_singleton.mp hq ▸ hone).refreshRecord
      (List.mem_singleton_self r) hc h
  obtain ⟨g, hg, hinterval⟩ :=
    Option.map_eq_some_iff.mp (hd.interval?_eq p rule hget (hrules.symm ▸ hrule) rfl)
  refine ⟨g, hg, hinterval, fun h0 pacing now => Gauge.ask_of_interval_eq_zero ?_ pacing now⟩
  rw [hinterval, h0]
  rfl

/-- A control plane without pools. -/
def vacant : ControlPlane := { outbox := { capacity := 1, managed := true, channels := [] } }

/-- A record whose rule for changes has that interval. -/
def every (secs : UInt64) : Record :=
  { name := "io", maxSize := 1, rules := [{ kind := .change, interval := some secs }] }

theorem evenAt_every (kind : NoticeKind) (n : Nat) (secs : UInt64) :
    NotifyRule.EvenAt kind n (every secs).rules := by
  intro first hfirst hn rule hrule _
  obtain rfl := List.mem_singleton.mp hrule
  obtain rfl := List.mem_singleton.mp (NotifyRule.mem_of_find? hfirst)
  exact hn

/-- The pool is registered and bound, asked about, and replaced by another one that has the same
rule itself and finds its interval in force. So it is after a refresh from that rule, and from one
without an interval. -/
theorem interval_in_force_replaced :
    ∃ (c₀ c d free : ControlPlane) (o o' : Outcome),
      Seeded "io" .change 60 c₀ ∧ Seeded "io" .change 0 c₀ ∧
      Takes c₀ [.ask, .register (every 60)] c ∧
      refreshRecord [] c (every 60) = (.ok o, d) ∧ o.isApplied = true ∧
      refreshRecord [] c (every 0) = (.ok o', free) ∧ o'.isApplied = true ∧
      (∃ g, d.throttle.gauge? ("io", .change) = some g ∧ g.interval = 60000000000) ∧
      ∃ g, free.throttle.gauge? ("io", .change) = some g ∧ g.interval = 0 ∧
        ∀ pacing now, (g.ask pacing now).1 = true := by
  obtain ⟨p, m, c₀, c, d, free, o, o', hp, hm, hc₀, hfault, hc, hinterval, hd, happlied, hfree,
      happlied'⟩ :
      ∃ (p : Pool) (m c₀ c d free : ControlPlane) (o o' : Outcome),
        Pool.ofRecord (every 60) = .ok p ∧
        m = { vacant with registry := (vacant.registry.register p).2 } ∧
        c₀ = (bind m { records := [every 60] }).2 ∧ (bind m { records := [every 60] }).1.2 = none ∧
        c = { (c₀.ask ("io", .change)).2 with
          registry := ((c₀.ask ("io", .change)).2.registry.register p).2 } ∧
        c₀.throttle.interval? ("io", .change) = some 60000000000 ∧
        refreshRecord [] c (every 60) = (.ok o, d) ∧ o.isApplied = true ∧
        refreshRecord [] c (every 0) = (.ok o', free) ∧ o'.isApplied = true :=
    ⟨_, _, _, _, _, _, _, _, rfl, rfl, rfl, rfl, rfl, rfl, rfl, rfl, rfl, rfl⟩
  have hown : ∀ secs, (Move.register (every 60)).IsEven "io" .change secs := fun secs r hr _ =>
    List.mem_singleton.mp hr ▸ evenAt_every _ secs 60
  have hseeded : ∀ secs, Seeded "io" .change secs c₀ := fun secs => by
    have hregister : Moves vacant (.register (every 60)) m := hm ▸ .register hp
    rw [hc₀]
    exact .bound (c := vacant) rfl (.cons hregister (.nil m)) (by simpa using hown secs)
      (hown secs) hfault
  have hmoves : Takes c₀ [.ask, .register (every 60)] c := by
    rw [hc]
    exact .cons (.ask ("io", .change)) (.cons (.register hp) (.nil _))
  have heven : ∀ secs, ∀ move ∈ [Move.ask, .register (every 60)],
      move.IsEven "io" .change secs := by
    intro secs
    rw [List.forall_mem_cons]
    exact ⟨by simp [Move.IsEven, Move.records], by simpa using hown secs⟩
  have hlast : ∀ secs,
      RegistersInForce "io" .change secs c₀ ([.ask] ++ [.register (every 60)]) c := by
    refine fun secs => registersInForce_concat rfl fun b hb => ?_
    rintro own hown - first hfirst rfl
    cases hown
    obtain rfl := List.mem_singleton.mp (NotifyRule.mem_of_find? hfirst)
    -- All that was done to the gauge before the registration is that it was asked.
    cases hb with
    | cons hask hnil =>
      cases hnil
      cases hask with
      | ask key => exact (onlyAsks_ask c₀ key).interval?_eq hinterval
  obtain ⟨-, -, hsame⟩ := interval_in_force hd happlied
  obtain ⟨-, -, hnone⟩ := interval_in_force hfree happlied'
  obtain ⟨g, hg, hsixty, -⟩ := hsame .change { kind := .change, interval := some 60 } c₀ _
    (by decide) (hseeded 60) hmoves (heven 60) (hlast 60) (evenAt_every _ _ _)
  obtain ⟨g', hg', hzero, hasks⟩ := hnone .change { kind := .change, interval := some 0 } c₀ _
    (by decide) (hseeded 0) hmoves (heven 0) (hlast 0) (evenAt_every _ _ _)
  exact ⟨c₀, c, d, free, o, o', hseeded 60, hseeded 0, hmoves, hd, happlied, hfree, happlied',
    ⟨g, hg, hsixty⟩, g', hg', hzero, hasks rfl⟩

/-- The pool is registered with a rule for changes, and refreshed from the same record. There is no
gauge that has the interval, so that the next change is held to the default one. -/
theorem interval_not_in_force :
    ∃ (c d : ControlPlane) (o : Outcome), Takes vacant [.register (every 60)] c ∧
      refreshRecord [] c (every 60) = (.ok o, d) ∧ o.isApplied = true ∧
      NotifyRule.find? (NotifyRule.effective [] (every 60).rules) .change =
        some { kind := .change, interval := some 60 } ∧
      d.throttle.gauge? ("io", .change) = none := by
  obtain ⟨p, d, o, hp, hd, happlied, hgauge⟩ : ∃ (p : Pool) (d : ControlPlane) (o : Outcome),
      Pool.ofRecord (every 60) = .ok p ∧
      refreshRecord [] { vacant with registry := (vacant.registry.register p).2 } (every 60) =
        (.ok o, d) ∧ o.isApplied = true ∧ d.throttle.gauge? ("io", .change) = none :=
    ⟨_, _, _, rfl, rfl, rfl, rfl⟩
  exact ⟨_, d, o, .cons (.register hp) (.nil _), hd, happlied, by decide, hgauge⟩

end ControlPlane

end PoolControl
