import PoolControl.Proofs.Refresh.Requests

/-! # A tuned pool is settled

A tunable rests in a snapshot if a step for it changes nothing there: its request is met, or it is
refused. After a sound pool was tuned by a record every tunable rests, and what was reported on the
way is what would be reported in the end (`Tuned.settles_order`): a step that comes later does not
release what was refused before.

So the tunables that were refused are those whose requests are not met in the end
(`Tuned.fields_skipped_ofRecord`), the sizes are always met (`Tuned.isMet_sizes_ofRecord`), and
tuning the pool once more changes nothing and reports the same (`Tuned.ofRecord_again`). -/

namespace PoolControl

open Settings (Record)

namespace Tunable

/-- A step for the tunable changes nothing. -/
def Rests (r : Record) (s : Snapshot) (f : Tunable) : Prop := f.IsMet r s ∨ f.refusal r s ≠ none

/-- What a step for the tunable reports where it rests. -/
def verdict (r : Record) (s : Snapshot) (f : Tunable) : Option Skip :=
  if f.IsMet r s then none else (f.refusal r s).map fun e => { field := f.field, error := e }

variable {r : Record} {s : Snapshot} {f : Tunable}

theorem verdict_of_isMet (h : f.IsMet r s) : f.verdict r s = none := if_pos h

theorem verdict_of_refusal {e : Error} (h : ¬ f.IsMet r s) (he : f.refusal r s = some e) :
    f.verdict r s = some { field := f.field, error := e } := by
  rw [verdict, if_neg h, he]
  rfl

theorem fields_verdicts : ∀ {fs : List Tunable}, (∀ f ∈ fs, f.Rests r s) →
    (fs.filterMap (verdict r s)).map (·.field) = (fs.filter fun f => ¬ f.IsMet r s).map field
  | [], _ => rfl
  | f :: fs, h => by
    have ih := fields_verdicts fun g hg => h g (List.mem_cons_of_mem f hg)
    by_cases hm : f.IsMet r s
    · rw [List.filterMap_cons_none (verdict_of_isMet hm),
        List.filter_cons_of_neg (by simpa using hm)]
      exact ih
    · obtain ⟨e, he⟩ := Option.ne_none_iff_exists'.mp ((h f List.mem_cons_self).resolve_left hm)
      rw [List.filterMap_cons_some (verdict_of_refusal hm he),
        List.filter_cons_of_pos (by simpa using hm), List.map_cons, List.map_cons, ih]

end Tunable

namespace Tuned

variable {r : Record} {f g : Tunable} {t u : Tuned} {fs gs : List Tunable}

/-! ### What steps leave alone -/

theorem Handles.name_eq (h : Handles r f t u) : u.pool.snapshot.name = t.pool.snapshot.name := by
  cases h with
  | met => rfl
  | refused e _ _ hp => rw [hp]
  | taken _ _ hp => rw [hp, Tunable.name_give]

theorem Handles.queueKind_eq (h : Handles r f t u) :
    u.pool.snapshot.queueKind = t.pool.snapshot.queueKind := by
  cases h with
  | met => rfl
  | refused e _ _ hp => rw [hp]
  | taken _ _ hp => rw [hp, Tunable.queueKind_give]

theorem Handles.agree (h : Handles r f t u) (hg : g.IsMet r t.pool.snapshot ∨ g ≠ f) :
    g.Agree t.pool.snapshot u.pool.snapshot := by
  cases h with
  | met => exact .refl _ g
  | refused e _ _ hp =>
    rw [hp]
    exact .refl _ g
  | taken hn _ hp =>
    rw [hp]
    refine Tunable.agree_give r _ fun hgf => ?_
    subst hgf
    exact hg.elim hn fun hne => hne rfl

variable (hr : r.isCommittable = true)
include hr

theorem name_run (t : Tuned) (fs : List Tunable) :
    (t.run r fs).pool.snapshot.name = t.pool.snapshot.name := by
  induction fs generalizing t with
  | nil => rfl
  | cons f fs ih => exact (ih (t.step r f)).trans (handles_step hr t f).name_eq

theorem queueKind_run (t : Tuned) (fs : List Tunable) :
    (t.run r fs).pool.snapshot.queueKind = t.pool.snapshot.queueKind := by
  induction fs generalizing t with
  | nil => rfl
  | cons f fs ih => exact (ih (t.step r f)).trans (handles_step hr t f).queueKind_eq

theorem isMet_step (hg : g.IsMet r t.pool.snapshot) (f : Tunable) :
    g.IsMet r (t.step r f).pool.snapshot := by
  have h := handles_step hr t f
  exact ((h.agree (Or.inl hg)).isMet_iff h.queueKind_eq).mpr hg

theorem isMet_run (hg : g.IsMet r t.pool.snapshot) (fs : List Tunable) :
    g.IsMet r (t.run r fs).pool.snapshot := by
  induction fs generalizing t with
  | nil => exact hg
  | cons f fs ih => exact ih (isMet_step hr hg f)

theorem agree_run (hg : g.IsMet r t.pool.snapshot ∨ g ∉ fs) :
    g.Agree t.pool.snapshot (t.run r fs).pool.snapshot := by
  induction fs generalizing t with
  | nil => exact .refl _ g
  | cons f fs ih =>
    have hstep : g.Agree t.pool.snapshot (t.step r f).pool.snapshot :=
      (handles_step hr t f).agree (hg.imp_right List.ne_of_not_mem_cons)
    refine hstep.trans (ih ?_)
    exact hg.imp (fun hm => isMet_step hr hm f) List.not_mem_of_not_mem_cons

/-- **A run changes a tunable only to the value that the record asks for.** -/
theorem agree_or_isMet_run (t : Tuned) (fs : List Tunable) (g : Tunable) :
    g.Agree t.pool.snapshot (t.run r fs).pool.snapshot ∨
      ¬ g.IsMet r t.pool.snapshot ∧ g.IsMet r (t.run r fs).pool.snapshot := by
  induction fs generalizing t with
  | nil => exact Or.inl (.refl _ g)
  | cons f fs ih =>
    have h := handles_step hr t f
    by_cases ha : g.Agree t.pool.snapshot (t.step r f).pool.snapshot
    · have hiff : g.IsMet r (t.step r f).pool.snapshot ↔ g.IsMet r t.pool.snapshot :=
        ha.isMet_iff h.queueKind_eq
      rw [← hiff]
      exact (ih (t.step r f)).imp_left ha.trans
    · have hn : ¬ (g.IsMet r t.pool.snapshot ∨ g ≠ f) := fun hg => ha (h.agree hg)
      rw [not_or, not_not] at hn
      obtain ⟨hn, rfl⟩ := hn
      refine Or.inr ⟨hn, isMet_run hr ?_ fs⟩
      generalize t.step r g = u at h ha ⊢
      cases h with
      | met => exact absurd (.refl _ g) ha
      | refused e _ _ hp =>
        rw [hp] at ha
        exact absurd (.refl _ g) ha
      | taken _ he hp =>
        rw [hp]
        exact Tunable.isMet_give hr he

/-! ### Runs where every tunable rests -/

theorem step_of_rests (h : f.Rests r t.pool.snapshot) : (t.step r f).pool = t.pool ∧
    (t.step r f).skipped = t.skipped ++ (f.verdict r t.pool.snapshot).toList := by
  have hf := handles_step hr t f
  generalize t.step r f = u at hf ⊢
  cases hf with
  | met hm => simp [Tunable.verdict_of_isMet hm]
  | refused e hn he hp hs => exact ⟨hp, by rw [hs, Tunable.verdict_of_refusal hn he]; rfl⟩
  | taken hn he => exact absurd he (h.resolve_left hn)

theorem run_of_rests (h : ∀ f ∈ fs, f.Rests r t.pool.snapshot) : (t.run r fs).pool = t.pool ∧
    (t.run r fs).skipped = t.skipped ++ fs.filterMap (Tunable.verdict r t.pool.snapshot) := by
  induction fs generalizing t with
  | nil => exact ⟨rfl, by simp [run]⟩
  | cons f fs ih =>
    obtain ⟨hp, hs⟩ := step_of_rests hr (h f List.mem_cons_self)
    obtain ⟨hp', hs'⟩ := ih (t := t.step r f) fun g hg => by
      rw [hp]
      exact h g (List.mem_cons_of_mem f hg)
    refine ⟨hp'.trans hp, ?_⟩
    show ((t.step r f).run r fs).skipped = _
    rw [hs', hs, hp, List.append_assoc]
    cases hv : f.verdict r t.pool.snapshot with
    | none => rw [List.filterMap_cons_none hv]; rfl
    | some k => rw [List.filterMap_cons_some hv]; rfl

/-! ### Runs that settle -/

omit hr in
/-- After the run every tunable rests, with the report that the run has given. -/
structure Settles (r : Record) (t : Tuned) (fs : List Tunable) : Prop where
  rests : ∀ f ∈ fs, f.Rests r (t.run r fs).pool.snapshot
  skipped : (t.run r fs).skipped =
    t.skipped ++ fs.filterMap (Tunable.verdict r (t.run r fs).pool.snapshot)

theorem settles_singleton (t : Tuned) (f : Tunable) : Settles r t [f] := by
  have hrun : t.run r [f] = t.step r f := rfl
  have h := handles_step hr t f
  suffices hf : f.Rests r (t.step r f).pool.snapshot ∧ (t.step r f).skipped =
      t.skipped ++ (f.verdict r (t.step r f).pool.snapshot).toList by
    refine ⟨by simpa [hrun] using hf.1, ?_⟩
    rw [hrun, hf.2]
    cases hv : f.verdict r (t.step r f).pool.snapshot <;> simp [hv]
  generalize t.step r f = u at h ⊢
  cases h with
  | met hm => exact ⟨Or.inl hm, by simp [Tunable.verdict_of_isMet hm]⟩
  | refused e hn he hp hs =>
    rw [hp, hs, Tunable.verdict_of_refusal hn he]
    exact ⟨Or.inr (by simp [he]), rfl⟩
  | taken hn he hp hs =>
    have hm : f.IsMet r u.pool.snapshot := by
      rw [hp]
      exact Tunable.isMet_give hr he
    exact ⟨Or.inl hm, by simp [hs, Tunable.verdict_of_isMet hm]⟩

/-- **One run after another settles** if the second has other tunables and releases nothing that the
first one refused: the guards of those are met by then, or are no part of it. -/
theorem Settles.append (h : Settles r t fs) (h' : Settles r (t.run r fs) gs)
    (hd : ∀ f ∈ fs, f ∉ gs)
    (hg : ∀ f ∈ fs, f.IsMet r (t.run r fs).pool.snapshot ∨
      ∀ g ∈ f.guard?, g ∈ gs → g.IsMet r (t.run r fs).pool.snapshot) :
    Settles r t (fs ++ gs) := by
  have hstay : ∀ f ∈ fs, f.Rests r (t.run r (fs ++ gs)).pool.snapshot ∧
      f.verdict r (t.run r (fs ++ gs)).pool.snapshot =
        f.verdict r (t.run r fs).pool.snapshot := by
    intro f hf
    rw [run_append]
    have hk := queueKind_run hr (t.run r fs) gs
    have hiff := (agree_run hr (t := t.run r fs) (Or.inr (hd f hf))).isMet_iff (r := r) hk
    by_cases hm : f.IsMet r (t.run r fs).pool.snapshot
    · rw [Tunable.verdict_of_isMet hm, Tunable.verdict_of_isMet (hiff.mpr hm)]
      exact ⟨Or.inl (hiff.mpr hm), rfl⟩
    · have hsame := Tunable.refusal_congr (r := r) (f := f) (name_run hr (t.run r fs) gs) hk
        fun g hgf => agree_run hr (by
          by_cases hmem : g ∈ gs
          · exact Or.inl ((hg f hf).resolve_left hm g hgf hmem)
          · exact Or.inr hmem)
      unfold Tunable.Rests Tunable.verdict
      rw [hsame]
      exact ⟨Or.inr ((h.rests f hf).resolve_left hm), by rw [if_neg hm, if_neg (hiff.not.mpr hm)]⟩
  constructor
  · intro f hf
    rcases List.mem_append.mp hf with hf | hf
    · exact (hstay f hf).1
    · rw [run_append]
      exact h'.rests f hf
  · rw [run_append, h'.skipped, h.skipped, List.filterMap_append, List.append_assoc,
      ← run_append]
    congr 2
    exact List.filterMap_congr fun f hf => (hstay f hf).2.symm

/-! ### The steps of a record -/

/-- **Committable sizes are met in the end**, and nothing was reported. -/
theorem run_sizesOrder (ht : t.pool.coreSize ≤ t.pool.maxSize) :
    Tunable.coreSize.IsMet r
        (t.run r (Tunable.sizesOrder r t.pool.snapshot)).pool.snapshot ∧
      Tunable.maxSize.IsMet r
        (t.run r (Tunable.sizesOrder r t.pool.snapshot)).pool.snapshot ∧
      (t.run r (Tunable.sizesOrder r t.pool.snapshot)).skipped = t.skipped := by
  simp only [Record.isCommittable, decide_eq_true_eq] at hr
  have htakes := t.takes_sizes r.coreSize.toInt.toNat r.maxSize.toInt.toNat ht (by omega) (by omega)
  rw [sizes_eq_run] at htakes
  refine ⟨?_, ?_, htakes.skipped⟩
  · rw [htakes.snapshot]
    show ((r.coreSize.toInt.toNat : Nat) : Int) = r.coreSize.toInt
    omega
  · rw [htakes.snapshot]
    show ((r.maxSize.toInt.toNat : Nat) : Int) = r.maxSize.toInt
    omega

theorem settles_sizesOrder (ht : t.pool.coreSize ≤ t.pool.maxSize) :
    Settles r t (Tunable.sizesOrder r t.pool.snapshot) := by
  obtain ⟨hcore, hmax, hs⟩ := run_sizesOrder hr ht
  have hmet : ∀ f ∈ Tunable.sizesOrder r t.pool.snapshot,
      f.IsMet r (t.run r (Tunable.sizesOrder r t.pool.snapshot)).pool.snapshot := by
    intro f hf
    rcases Tunable.mem_sizesOrder.mp hf with rfl | rfl
    · exact hcore
    · exact hmax
  refine ⟨fun f hf => Or.inl (hmet f hf), ?_⟩
  rw [hs, List.filterMap_eq_nil_iff.mpr fun f hf => Tunable.verdict_of_isMet (hmet f hf),
    List.append_nil]

theorem settles_timingOrder (t : Tuned) : Settles r t (Tunable.timingOrder r) := by
  unfold Tunable.timingOrder
  split_ifs with hc
  · refine (settles_singleton hr t .keepAlive).append hr (settles_singleton hr _ .coreTimeout)
      (by decide) ?_
    -- A keep-alive is refused only where core workers time out, as the record asks for.
    intro f hf
    obtain rfl := List.mem_singleton.mp hf
    refine ((settles_singleton hr t .keepAlive).rests _ hf).imp_right fun he g hg _ => ?_
    obtain rfl : Tunable.coreTimeout = g := by simpa [Tunable.guard?] using hg
    simp only [Tunable.refusal, ne_eq, ite_eq_right_iff, reduceCtorEq, imp_false, not_not] at he
    exact he.2.trans hc.symm
  · refine (settles_singleton hr t .coreTimeout).append hr (settles_singleton hr _ .keepAlive)
      (by decide) ?_
    -- That core workers do not time out is never refused.
    intro f hf
    obtain rfl := List.mem_singleton.mp hf
    refine Or.inl (((settles_singleton hr t .coreTimeout).rests _ hf).resolve_right ?_)
    simp [Tunable.refusal, hc]

/-- **A sound pool is settled by a record**: whether a request is met or refused in the end, it was
met or refused on the way. -/
theorem settles_order {p : Pool} (hp : p.Sound) :
    Settles r { pool := p } (Tunable.order r p.snapshot) := by
  have hlast : ∀ t : Tuned, Settles r t [.policy, .queueCapacity] := fun t =>
    (settles_singleton hr t .policy).append hr (settles_singleton hr _ .queueCapacity) (by decide)
      fun f hf => Or.inr (by simp [List.mem_singleton.mp hf, Tunable.guard?])
  have hrest : ∀ t : Tuned, Settles r t (Tunable.timingOrder r ++ [.policy, .queueCapacity]) := by
    intro t
    refine (settles_timingOrder hr t).append hr (hlast _) ?_ ?_
    · unfold Tunable.timingOrder
      split_ifs <;> decide
    · intro f _
      refine Or.inr fun g hg hmem => ?_
      cases f <;> simp [Tunable.guard?] at hg <;> subst hg <;> simp at hmem
  have hsizes := settles_sizesOrder hr (t := { pool := p }) hp.coreSize_le
  obtain ⟨hcore, hmax, -⟩ := run_sizesOrder hr (t := { pool := p }) hp.coreSize_le
  refine hsizes.append hr (hrest _) ?_ fun f hf => Or.inl ?_
  · unfold Tunable.sizesOrder Tunable.timingOrder
    split_ifs <;> decide
  · rcases Tunable.mem_sizesOrder.mp hf with rfl | rfl
    · exact hcore
    · exact hmax

/-- **The tunables that were refused are those whose requests are not met in the end.** -/
theorem fields_skipped_ofRecord {p : Pool} (hp : p.Sound) :
    (ofRecord r p).skipped.map (·.field) = ((Tunable.order r p.snapshot).filter fun f =>
      ¬ f.IsMet r (ofRecord r p).pool.snapshot).map Tunable.field := by
  have h := settles_order hr hp
  rw [ofRecord_eq_run, h.skipped]
  exact Tunable.fields_verdicts h.rests

theorem isMet_sizes_ofRecord {p : Pool} (hp : p.Sound) :
    Tunable.coreSize.IsMet r (ofRecord r p).pool.snapshot ∧
      Tunable.maxSize.IsMet r (ofRecord r p).pool.snapshot := by
  obtain ⟨hcore, hmax, -⟩ := run_sizesOrder hr (t := { pool := p }) hp.coreSize_le
  rw [ofRecord_eq_run, Tunable.order, run_append]
  exact ⟨isMet_run hr hcore _, isMet_run hr hmax _⟩

/-- **Tuning once more** a pool that has the tunables of a tuned one changes nothing and reports
what was reported before. -/
theorem ofRecord_again {p q : Pool} (hp : p.Sound)
    (hq : q.snapshot = (ofRecord r p).pool.snapshot) :
    (ofRecord r q).pool = q ∧ (ofRecord r q).skipped = (ofRecord r p).skipped := by
  obtain ⟨hcore, hmax⟩ := isMet_sizes_ofRecord hr hp
  obtain ⟨hrests, hreport⟩ := settles_order hr hp
  rw [← ofRecord_eq_run, ← hq] at hrests hreport
  rw [← hq] at hcore hmax
  have hall : ∀ f ∈ Tunable.order r q.snapshot, f.Rests r q.snapshot := fun f _ =>
    hrests f (Tunable.mem_order r _ f)
  obtain ⟨hpool, hskipped⟩ := run_of_rests hr (t := { pool := q }) hall
  -- The sizes may have been set in the other order, but nothing is reported about them.
  have hnone : ∀ s, (Tunable.sizesOrder r s).filterMap (Tunable.verdict r q.snapshot) = [] := by
    intro s
    refine List.filterMap_eq_nil_iff.mpr fun f hf => Tunable.verdict_of_isMet ?_
    rcases Tunable.mem_sizesOrder.mp hf with rfl | rfl
    · exact hcore
    · exact hmax
  refine ⟨by rw [ofRecord_eq_run]; exact hpool, ?_⟩
  rw [hreport, ofRecord_eq_run, hskipped]
  simp only [Tunable.order, List.filterMap_append, hnone]
  rfl

end Tuned
end PoolControl
