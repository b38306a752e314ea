import PoolControl.Proofs.Refresh.Agreement

/-! # Batches are isolated by name

What a batch does to a pool and to its gauges is what the records of its name do by themselves
(`batch_isolated`). The proof runs the batch beside those records: a record of another name keeps
the two control planes in agreement on the name, and a record of the name makes them agree again.

There is one exception, a fault, since it ends the whole batch (`batch_not_isolated`). A batch ends
in a fault exactly if the records of some name do so by themselves. -/

namespace PoolControl

open Settings (Batch NotifyRule Platform Record)

/-- The batch with the records of that name only. -/
def Settings.Batch.only (b : Batch) (name : String) : Batch :=
  { b with records := b.records.filter (·.name = name) }

namespace Summary

/-- The outcomes of that name. -/
def of (s : Summary) (name : String) : Summary := s.filter (·.1 = name)

/-- The outcomes as they are where the outbox has room for every notice. -/
def regardless (s : Summary) : Summary := s.map fun (name, o) => (name, o.regardless)

end Summary

variable {platforms : List Platform} {c d : ControlPlane} {rs : List Record}

theorem names_refreshRecords {s : Summary} (h : refreshRecords platforms c rs = (.ok s, d)) :
    s.map (·.1) = (rs.map (·.name)).filter (!Text.isBlankText ·) := by
  induction rs generalizing c s with
  | nil =>
    cases h
    rfl
  | cons r rs ih =>
    cases hb : Text.isBlankText r.name with
    | true =>
      rw [refreshRecords_cons_of_blank hb] at h
      simp [ih h, hb]
    | false =>
      obtain ⟨o, m, s', -, hs', rfl⟩ := exists_of_refreshRecords_cons hb h
      simp [ih hs', hb]

/-! ### The records of a name beside the others -/

/-- **Beside a batch, the records of a name** by themselves make agreeing control planes agree in
the end, with the same outcomes. -/
theorem exists_refreshRecords_filter {name : String} {s : Summary} {c' : ControlPlane}
    (hagree : c.AgreesOn name d) (h : refreshRecords platforms c rs = (.ok s, c')) :
    ∃ s' d', refreshRecords platforms d (rs.filter (·.name = name)) = (.ok s', d') ∧
      c'.AgreesOn name d' ∧ s'.regardless = (s.of name).regardless := by
  induction rs generalizing c d s with
  | nil =>
    cases h
    exact ⟨[], d, rfl, hagree, rfl⟩
  | cons r rs ih =>
    cases hb : Text.isBlankText r.name with
    | true =>
      rw [refreshRecords_cons_of_blank hb] at h
      obtain ⟨s', d', hs', hd', ho⟩ := ih hagree h
      refine ⟨s', d', ?_, hd', ho⟩
      by_cases hn : r.name = name
      · rw [List.filter_cons_of_pos (by simpa using hn), refreshRecords_cons_of_blank hb, hs']
      · rw [List.filter_cons_of_neg (by simpa using hn), hs']
    | false =>
      obtain ⟨o, m, rest, hr, hrest, rfl⟩ := exists_of_refreshRecords_cons hb h
      have hm := ControlPlane.agreesOn_bump name m (.refreshed o.label)
      by_cases hn : r.name = name
      · obtain ⟨o', m', hr', hoo, hmm⟩ := hagree.refreshRecord_ok hn hr
        have hm' := ControlPlane.agreesOn_bump name m' (.refreshed o'.label)
        obtain ⟨s', d', hs', hd', ho⟩ := ih (hm.symm.trans (hmm.trans hm')) hrest
        refine ⟨(r.name, o') :: s', d', ?_, hd', ?_⟩
        · rw [List.filter_cons_of_pos (by simpa using hn), refreshRecords_cons_of_outcome hb hr',
            hs']
          rfl
        · unfold Summary.of
          rw [List.filter_cons_of_pos (by simpa using hn)]
          simp only [Summary.regardless, List.map_cons, hoo, List.cons.injEq, true_and]
          exact ho
      · have hframe := (ControlPlane.agreesOn_refreshRecord hn hr).trans hm
        obtain ⟨s', d', hs', hd', ho⟩ := ih (hframe.symm.trans hagree) hrest
        refine ⟨s', d', ?_, hd', ?_⟩
        · rw [List.filter_cons_of_neg (by simpa using hn), hs']
        · rw [ho, Summary.of, Summary.of, List.filter_cons_of_neg (by simpa using hn)]

/-- **A fault is one of the records of some name**, which end in it by themselves too. -/
theorem exists_fault_refreshRecords_filter {fault : Fault} {c' : ControlPlane}
    (h : refreshRecords platforms c rs = (.error fault, c')) :
    ∃ name, ∀ d, c.AgreesOn name d →
      (refreshRecords platforms d (rs.filter (·.name = name))).1 = .error fault := by
  induction rs generalizing c with
  | nil => cases h
  | cons r rs ih =>
    cases hb : Text.isBlankText r.name with
    | true =>
      rw [refreshRecords_cons_of_blank hb] at h
      obtain ⟨name, hname⟩ := ih h
      refine ⟨name, fun d hd => ?_⟩
      by_cases hn : r.name = name
      · rw [List.filter_cons_of_pos (by simpa using hn), refreshRecords_cons_of_blank hb]
        exact hname d hd
      · rw [List.filter_cons_of_neg (by simpa using hn)]
        exact hname d hd
    | false =>
      rcases fault_of_refreshRecords_cons hb h with hr | ⟨o, m, hr, hrest⟩
      · refine ⟨r.name, fun d hd => ?_⟩
        obtain ⟨d', hr'⟩ := hd.refreshRecord_fault rfl hr
        rw [List.filter_cons_of_pos (by simp), refreshRecords_cons_of_fault hb hr']
      · obtain ⟨name, hname⟩ := ih hrest
        have hm := ControlPlane.agreesOn_bump name m (.refreshed o.label)
        refine ⟨name, fun d hd => ?_⟩
        by_cases hn : r.name = name
        · obtain ⟨o', m', hr', -, hmm⟩ := hd.refreshRecord_ok hn hr
          have hm' := ControlPlane.agreesOn_bump name m' (.refreshed o'.label)
          rw [List.filter_cons_of_pos (by simpa using hn), refreshRecords_cons_of_outcome hb hr',
            hname _ (hm.symm.trans (hmm.trans hm'))]
          rfl
        · have hframe := (ControlPlane.agreesOn_refreshRecord hn hr).trans hm
          rw [List.filter_cons_of_neg (by simpa using hn)]
          exact hname d (hframe.symm.trans hd)

/-! ### Without faults -/

/-- How alerts are paced is never changed. It is no matter of any name, so a
name other than that of the record tells. -/
theorem pacing_refreshRecord (platforms : List Platform) (c : ControlPlane) (r : Record) :
    (refreshRecord platforms c r).2.throttle.toPacing = c.throttle.toPacing := by
  have hnames : Nontrivial String := ⟨"", "a", by decide⟩
  obtain ⟨other, hne⟩ := exists_ne r.name
  exact (ControlPlane.agreesOn_refreshRecord hne.symm rfl).throttle.pacing_eq

theorem exists_outcome_of_fits {r : Record}
    (hfits : ∀ rule ∈ NotifyRule.effective platforms r.rules, c.throttle.Fits rule) :
    ∃ o, (refreshRecord platforms c r).1 = .ok o := by
  have h := refreshes platforms c r
  generalize refreshRecord platforms c r = result at h ⊢
  cases h with
  | fault p applied fault hr hp ha hf =>
    have hnone := (fault_applyRecord_eq_none_iff platforms c.throttle c.nowNanos r p).mpr
      fun rule hm => Or.inr (hfits rule hm)
    rw [ha, hf] at hnone
    cases hnone
  | _ => exact ⟨_, rfl⟩

theorem exists_summary_of_fits
    (hfits : ∀ r ∈ rs, ∀ rule ∈ NotifyRule.effective platforms r.rules, c.throttle.Fits rule) :
    ∃ s, (refreshRecords platforms c rs).1 = .ok s := by
  induction rs generalizing c with
  | nil => exact ⟨[], rfl⟩
  | cons r rs ih =>
    rw [List.forall_mem_cons] at hfits
    cases hb : Text.isBlankText r.name with
    | true =>
      rw [refreshRecords_cons_of_blank hb]
      exact ih hfits.2
    | false =>
      obtain ⟨o, ho⟩ := exists_outcome_of_fits hfits.1
      have hpacing := pacing_refreshRecord platforms c r
      obtain ⟨s, hs⟩ := ih (c := (refreshRecord platforms c r).2.bump (.refreshed o.label))
        fun r' hr' rule hm => hpacing ▸ hfits.2 r' hr' rule hm
      refine ⟨(r.name, o) :: s, ?_⟩
      rw [refreshRecords_cons_of_outcome hb (Prod.ext ho rfl), hs]
      rfl

/-! ### Batches -/

/-- A refresh works its records off. What else it does matters for no name. -/
theorem exists_refresh_eq (c : ControlPlane) (b : Batch) :
    ∃ d, (∀ name, c.AgreesOn name d) ∧ d.throttle = c.throttle ∧
      refresh c b = refreshRecords b.platforms d b.records := by
  unfold refresh
  cases b.records with
  | nil => exact ⟨c, fun name => .refl name c, rfl, rfl⟩
  | cons r rs =>
    exact ⟨{ c with outbox := c.outbox.sync b.platforms }, fun name => .of_eq rfl rfl rfl, rfl, rfl⟩

/-- **A batch beside the records of a name.** -/
theorem exists_refresh_only {b : Batch} {s : Summary} (h : (refresh c b).1 = .ok s)
    (name : String) :
    ∃ s', (refresh c (b.only name)).1 = .ok s' ∧ s'.regardless = (s.of name).regardless ∧
      (refresh c (b.only name)).2.AgreesOn name (refresh c b).2 := by
  obtain ⟨d, hd, -, heq⟩ := exists_refresh_eq c b
  obtain ⟨d', hd', -, heq'⟩ := exists_refresh_eq c (b.only name)
  rw [heq] at h ⊢
  rw [heq']
  obtain ⟨s', e, hs', he, ho⟩ := exists_refreshRecords_filter
    ((hd name).symm.trans (hd' name)) (Prod.ext h rfl)
  have honly : refreshRecords (b.only name).platforms d' (b.only name).records = (.ok s', e) := hs'
  rw [honly]
  exact ⟨s', rfl, ho, he.symm⟩

theorem exists_summary_of_only {b : Batch}
    (h : ∀ name, ∃ s, (refresh c (b.only name)).1 = .ok s) : ∃ s, (refresh c b).1 = .ok s := by
  obtain ⟨d, hd, -, heq⟩ := exists_refresh_eq c b
  rcases hs : (refresh c b).1 with fault | s
  · rw [heq] at hs
    obtain ⟨name, hname⟩ := exists_fault_refreshRecords_filter (Prod.ext hs rfl)
    obtain ⟨d', hd', -, heq'⟩ := exists_refresh_eq c (b.only name)
    obtain ⟨s, hs'⟩ := h name
    have hfault : (refreshRecords (b.only name).platforms d' (b.only name).records).1 =
        .error fault := hname d' ((hd name).symm.trans (hd' name))
    rw [heq', hfault] at hs'
    cases hs'
  · exact ⟨s, rfl⟩

theorem filter_name_eq_of_perm {records : List Record} (hperm : rs.Perm records)
    (hnodup : (records.map (·.name)).Nodup) (name : String) :
    rs.filter (·.name = name) = records.filter (·.name = name) := by
  have hfilter := hperm.filter fun r => decide (r.name = name)
  have hsub : ((records.filter (·.name = name)).map (·.name)).Nodup :=
    hnodup.sublist (List.filter_sublist.map _)
  have hname : ∀ r ∈ records.filter (·.name = name), r.name = name := fun r hr => by
    simpa using List.of_mem_filter hr
  generalize records.filter (·.name = name) = one at hfilter hsub hname ⊢
  match one with
  | [] => exact hfilter.eq_nil
  | [r] => exact List.perm_singleton.mp hfilter
  | r :: r' :: rest =>
    have hr := hname r (by simp)
    have hr' := hname r' (by simp)
    simp [hr, hr'] at hsub

theorem refresh_perm {b : Batch} {s : Summary} (h : (refresh c b).1 = .ok s)
    (hperm : rs.Perm b.records) (hnodup : (b.records.map (·.name)).Nodup) :
    ∃ s', (refresh c { b with records := rs }).1 = .ok s' ∧
      ∀ name, (refresh c b).2.AgreesOn name (refresh c { b with records := rs }).2 := by
  have honly : ∀ name, Batch.only { b with records := rs } name = b.only name := by
    intro name
    simp only [Batch.only, filter_name_eq_of_perm hperm hnodup name]
  have hall : ∀ name, ∃ s', (refresh c (Batch.only { b with records := rs } name)).1 = .ok s' := by
    intro name
    rw [honly name]
    obtain ⟨s', hs', -⟩ := exists_refresh_only h name
    exact ⟨s', hs'⟩
  obtain ⟨s', hs'⟩ := exists_summary_of_only hall
  refine ⟨s', hs', fun name => ?_⟩
  obtain ⟨-, -, -, hagree⟩ := exists_refresh_only h name
  obtain ⟨-, -, -, hagree'⟩ := exists_refresh_only hs' name
  rw [honly name] at hagree'
  exact hagree.symm.trans hagree'

theorem refreshRecord_of_untouched {r : Record} {o : Outcome}
    (h : (refreshRecord platforms c r).1 = .ok o) (ho : o = .notFound ∨ ∃ e, o = .invalid e) :
    (refreshRecord platforms c r).2 = c := by
  have hcases := refreshes platforms c r
  generalize refreshRecord platforms c r = result at h hcases ⊢
  cases hcases with
  | invalid => rfl
  | notFound => rfl
  | fault => cases h
  | unchanged p applied =>
    cases h
    rcases ho with ho | ⟨e, ho⟩ <;> cases ho
  | changed p applied diff =>
    cases h
    rcases ho with ho | ⟨e, ho⟩ <;> cases ho

/-- **Batches are isolated by name.** A batch gives a summary exactly if the records of each name do
so by themselves, and it does if all its rules fit the throttle. The summary then has one outcome
for each record with a name, in the order of the batch, and for every name the batch leaves the pool
and its gauges as the records of the name do by themselves, with the same outcomes but for what the
outbox has room for. So the order of records of different names does not matter. And a record that
is invalid, or whose name is not registered, changes nothing at all. -/
theorem batch_isolated (c : ControlPlane) (b : Batch) :
    ((∃ s, (refresh c b).1 = .ok s) ↔ ∀ name, ∃ s, (refresh c (b.only name)).1 = .ok s) ∧
    ((∀ r ∈ b.records, ∀ rule ∈ NotifyRule.effective b.platforms r.rules, c.throttle.Fits rule) →
      ∃ s, (refresh c b).1 = .ok s) ∧
    (∀ s, (refresh c b).1 = .ok s →
      s.map (·.1) = (b.records.map (·.name)).filter (!Text.isBlankText ·) ∧
      (∀ name, ∃ s', (refresh c (b.only name)).1 = .ok s' ∧
        s'.regardless = (s.of name).regardless ∧
        (refresh c (b.only name)).2.AgreesOn name (refresh c b).2) ∧
      ∀ records, records.Perm b.records → (b.records.map (·.name)).Nodup →
        ∃ s', (refresh c { b with records }).1 = .ok s' ∧
          ∀ name, (refresh c b).2.AgreesOn name (refresh c { b with records }).2) ∧
    ∀ (d : ControlPlane) (r : Record) (o : Outcome), (refreshRecord b.platforms d r).1 = .ok o →
      (o = .notFound ∨ ∃ e, o = .invalid e) → (refreshRecord b.platforms d r).2 = d := by
  obtain ⟨m, -, hthrottle, heq⟩ := exists_refresh_eq c b
  refine ⟨⟨?_, exists_summary_of_only⟩, fun hfits => ?_, fun s hs => ⟨?_, ?_, ?_⟩,
    fun d r o h ho => refreshRecord_of_untouched h ho⟩
  · rintro ⟨s, hs⟩ name
    obtain ⟨s', hs', -⟩ := exists_refresh_only hs name
    exact ⟨s', hs'⟩
  · rw [heq]
    rw [← hthrottle] at hfits
    exact exists_summary_of_fits hfits
  · rw [heq] at hs
    exact names_refreshRecords (Prod.ext hs rfl)
  · exact exists_refresh_only hs
  · exact fun records hperm hnodup => refresh_perm hs hperm hnodup

/-- A control plane that holds two pools. -/
def holdingBoth (p q : Pool) : ControlPlane :=
  { registry := { entries := [{ serial := 0, pool := p }, { serial := 1, pool := q }], next := 2 }
    outbox := { capacity := 1, managed := true, channels := [] } }

/-- Two records of one pool, one of another, and between them an invalid one, one of an unknown name
and one without a name. -/
def mixed : Batch :=
  { platforms := [{ name := "log" }]
    records :=
      [{ name := "first", coreSize := 2, maxSize := 4 }, { name := "second", maxSize := 0 },
        { name := "unknown", maxSize := 1 }, { name := " ", maxSize := 1 },
        { name := "second", maxSize := 2 }, { name := "first", coreSize := 3, maxSize := 4 }] }

/-- The records of the second pool by themselves find the outbox empty. -/
theorem batch_isolated_mixed :
    ∃ (p q : Pool) (s s' : Summary), Pool.ofRecord { name := "first", maxSize := 1 } = .ok p ∧
      Pool.ofRecord { name := "second", maxSize := 1 } = .ok q ∧
      (refresh (holdingBoth p q) mixed).1 = .ok s ∧
      s.map (·.1) = ["first", "second", "unknown", "second", "first"] ∧
      s.map (·.2.label) = ["changed", "invalid", "not_found", "changed", "changed"] ∧
      (s.of "second").scheduled = 0 ∧
      (refresh (holdingBoth p q) (mixed.only "second")).1 = .ok s' ∧
      s'.scheduled = 1 ∧ s'.regardless = (s.of "second").regardless ∧
      (refresh (holdingBoth p q) (mixed.only "second")).2.AgreesOn "second"
        (refresh (holdingBoth p q) mixed).2 := by
  obtain ⟨p, q, s, s', hp, hq, hs, hnames, hlabels, hdropped, hs', hscheduled⟩ :
      ∃ (p q : Pool) (s s' : Summary), Pool.ofRecord { name := "first", maxSize := 1 } = .ok p ∧
        Pool.ofRecord { name := "second", maxSize := 1 } = .ok q ∧
        (refresh (holdingBoth p q) mixed).1 = .ok s ∧
        s.map (·.1) = ["first", "second", "unknown", "second", "first"] ∧
        s.map (·.2.label) = ["changed", "invalid", "not_found", "changed", "changed"] ∧
        (s.of "second").scheduled = 0 ∧
        (refresh (holdingBoth p q) (mixed.only "second")).1 = .ok s' ∧ s'.scheduled = 1 :=
    ⟨_, _, _, _, rfl, rfl, rfl, rfl, rfl, rfl, rfl, rfl⟩
  obtain ⟨-, -, hisolated, -⟩ := batch_isolated (holdingBoth p q) mixed
  obtain ⟨-, honly, -⟩ := hisolated s hs
  obtain ⟨t, ht, hsame, hagree⟩ := honly "second"
  obtain rfl : s' = t := Except.ok.inj (hs'.symm.trans ht)
  exact ⟨p, q, s, s', hp, hq, hs, hnames, hlabels, hdropped, hs', hscheduled, hsame, hagree⟩

/-- The rule of the first record is too long for the throttle, and the second pool keeps its sizes.
By itself, the second record gives it others. -/
theorem batch_not_isolated :
    ∃ (p q q' : Pool) (b : Batch) (s : Summary),
      Pool.ofRecord { name := "first", maxSize := 1 } = .ok p ∧
      Pool.ofRecord { name := "second", maxSize := 1 } = .ok q ∧
      (refresh (holdingBoth p q) b).1 = .error .intervalTooLong ∧
      (refresh (holdingBoth p q) b).2.registry.get? "second" = some q ∧
      (refresh (holdingBoth p q) (b.only "second")).1 = .ok s ∧
      (refresh (holdingBoth p q) (b.only "second")).2.registry.get? "second" = some q' ∧
      q.coreSize = 1 ∧ q'.coreSize = 2 :=
  ⟨_, _, _,
    { records :=
        [{ name := "first", maxSize := 1
           rules := [{ kind := .change, interval := some 20000000000 }] },
          { name := "second", coreSize := 2, maxSize := 4 }] },
    _, rfl, rfl, rfl, rfl, rfl, rfl, rfl, rfl⟩

end PoolControl
