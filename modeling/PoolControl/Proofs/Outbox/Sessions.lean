import Mathlib.Tactic.SplitIfs
import PoolControl.Proofs.Outbox.Delivery
import PoolControl.Proofs.Refresh.Outcomes
import PoolControl.Session.Perform

/-! # The outbox of a session

Whatever a session does while it settles is, for its outbox, a sequence of events: calls, workers
and tasks leave the outbox alone, the courier takes its steps and gets its answers, an alarm round
posts notices, and a look at the source may change the platforms too (`Session.leads_settle`). So
what holds of every sequence of events holds when a session closes its outbox
(`Outbox.notices_delivered`). -/

namespace PoolControl

open Settings (Batch NoticeKind NotifyRule Platform Record)

namespace Outbox

/-- Some events lead from the one outbox to the other. -/
def Leads (o q : Outbox) : Prop := ∃ es : List Event, es.foldl after o = q

variable {o p q : Outbox}

theorem Leads.refl (o : Outbox) : Leads o o := ⟨[], rfl⟩

theorem Leads.of_eq (h : q = o) : Leads o q := ⟨[], h.symm⟩

theorem Leads.of_event (o : Outbox) (e : Event) : Leads o (o.after e) := ⟨[e], rfl⟩

theorem Leads.trans (h : Leads o p) (h' : Leads p q) : Leads o q := by
  obtain ⟨es, rfl⟩ := h
  obtain ⟨es', rfl⟩ := h'
  exact ⟨es ++ es', List.foldl_append⟩

end Outbox

/-! ### Refreshes and alarm rounds -/

namespace ControlPlane

theorem leads_post (c : ControlPlane) (n : Notice) : c.outbox.Leads (c.post n).2.outbox :=
  .of_event c.outbox (.post n)

theorem leads_notifyChange (c : ControlPlane) (p : Pool) (diff : Diff) (previous : Snapshot)
    (platforms : List Platform) :
    c.outbox.Leads (notifyChange c p diff previous platforms).2.outbox := by
  unfold notifyChange
  split
  · exact .refl _
  · simp only
    split
    · exact .refl _
    · split
      · exact leads_post _ _
      · exact .refl _

theorem leads_refreshRecord (platforms : List Platform) (c : ControlPlane) (r : Record) :
    c.outbox.Leads (refreshRecord platforms c r).2.outbox := by
  have h := refreshes platforms c r
  generalize refreshRecord platforms c r = result at h ⊢
  cases h with
  | changed p applied diff => exact (leads_notifyChange (c.takeOver applied) _ _ _ _)
  | _ => exact .refl _

theorem leads_refreshRecords (platforms : List Platform) (c : ControlPlane) (rs : List Record) :
    c.outbox.Leads (refreshRecords platforms c rs).2.outbox := by
  induction rs generalizing c with
  | nil => exact .refl _
  | cons r rs ih =>
    cases hb : Text.isBlankText r.name with
    | true =>
      rw [refreshRecords_cons_of_blank hb]
      exact ih c
    | false =>
      have hr := leads_refreshRecord platforms c r
      rcases hrec : refreshRecord platforms c r with ⟨fault | o, d⟩
      · rw [refreshRecords_cons_of_fault hb hrec]
        rwa [hrec] at hr
      · rw [refreshRecords_cons_of_outcome hb hrec]
        rw [hrec] at hr
        exact hr.trans (ih (d.bump (.refreshed o.label)))

theorem leads_refresh (c : ControlPlane) (b : Batch) :
    c.outbox.Leads (refresh c b).2.outbox := by
  unfold refresh
  split
  · exact .refl _
  · exact (Outbox.Leads.of_event c.outbox (.sync b.platforms)).trans
      (leads_refreshRecords b.platforms { c with outbox := c.outbox.sync b.platforms } b.records)

theorem leads_check (c : ControlPlane) (m : Monitor) (p : Pool) (kind : NoticeKind) :
    c.outbox.Leads (Monitor.check c m p kind).2.outbox := by
  unfold Monitor.check
  split
  · exact .refl _
  · simp only
    split
    · exact leads_post _ _
    · exact .refl _

theorem leads_checkKinds (m : Monitor) (p : Pool) (kinds : List NoticeKind) (c : ControlPlane) :
    c.outbox.Leads (Monitor.checkKinds c m p kinds).2.outbox := by
  induction kinds generalizing c with
  | nil => exact .refl _
  | cons kind kinds ih => exact (leads_check c m p kind).trans (ih _)

theorem leads_checkPools (pools : List Pool) (m : Monitor) (c : ControlPlane) :
    c.outbox.Leads (Monitor.checkPools c m pools).2.outbox := by
  induction pools generalizing c m with
  | nil => exact .refl _
  | cons p ps ih =>
    exact (leads_checkKinds m p Monitor.alarmKinds c).trans
      (ih (m.remember p.name p.rejected) (Monitor.checkKinds c m p Monitor.alarmKinds).2)

theorem leads_round (m : Monitor) (c : ControlPlane) :
    c.outbox.Leads (m.round c).2.outbox := by
  unfold Monitor.round
  split
  · exact leads_checkPools _ m c
  · exact .refl _

theorem leads_watch (c : ControlPlane) (w : Watch) (source : Except Error Batch) :
    c.outbox.Leads (w.sync c source).2.outbox := by
  cases source with
  | error e => exact .refl _
  | ok b =>
    have h := leads_refresh c b
    simp only [Watch.sync]
    split_ifs
    · exact .refl _
    · exact .refl _
    · rcases hb : refresh c b with ⟨fault | summary, d⟩ <;>
        simpa [hb] using h

end ControlPlane

namespace Session

/-- Some events lead from the outbox of the one session to that of the other. -/
def Leads (s t : Session) : Prop := s.plane.outbox.Leads t.plane.outbox

variable {s t : Session}

theorem leads_foldl {α : Type} {f : Session → α → Session}
    (hf : ∀ (t : Session) (a : α), t.Leads (f t a)) (l : List α) (s : Session) :
    s.Leads (l.foldl f s) := by
  induction l generalizing s with
  | nil => exact .refl _
  | cons a l ih => exact (hf s a).trans (ih (f s a))

/-! ### Calls, workers and tasks -/

theorem plane_noteDropped (s : Session) (tasks : List Task) :
    (s.noteDropped tasks).plane = s.plane := by
  unfold noteDropped
  induction tasks generalizing s with
  | nil => rfl
  | cons t ts ih => exact ih (s.note .drop t.id)

theorem outbox_submit (s : Session) (serial : Nat) (p : Pool) (t : Task) :
    (s.submit serial p t).2.plane.outbox = s.plane.outbox := by
  have hbump : ∀ saturated : Bool,
      (if saturated then
        { s.setPool serial (p.submit t).2 with
          plane := (s.setPool serial (p.submit t).2).plane.bump (.rejected p.name) }
      else s.setPool serial (p.submit t).2).plane.outbox = s.plane.outbox := by
    intro saturated
    cases saturated <;> rfl
  unfold submit
  simp only
  split
  case h_7 =>
    rw [plane_noteDropped]
    exact hbump _
  all_goals exact hbump _

theorem outbox_submitAll (serial : Nat) (tasks : List Task) (s : Session)
    (errors : List (Option Error)) :
    (s.submitAll serial errors tasks).2.plane.outbox = s.plane.outbox := by
  induction tasks generalizing s errors with
  | nil => rfl
  | cons t left ih =>
    unfold submitAll
    split
    · rfl
    · next p hp =>
      have h := s.outbox_submit serial p t
      split
      · next error s' hs =>
        rw [hs] at h
        exact (ih _ _).trans h
      · next t' s' hs =>
        rw [hs] at h
        split
        · exact (ih _ _).trans h
        · exact h
        · split
          · exact (ih _ _).trans h
          · exact h

theorem outbox_stopPool (s : Session) (serial : Nat) :
    (s.stopPool serial).2.plane.outbox = s.plane.outbox := by
  unfold stopPool
  split
  · rfl
  · next p hp =>
    split
    · rfl
    · split
      next dropped p' hstop =>
      have hset : ((s.setPool serial p').noteDropped dropped).plane.outbox = s.plane.outbox := by
        rw [plane_noteDropped]
        rfl
      dsimp only
      split
      · exact hset
      · split
        · exact hset
        · split <;> exact hset

theorem outbox_stopAll (serials : List Nat) (s : Session) :
    (s.stopAll serials).2.plane.outbox = s.plane.outbox := by
  induction serials generalizing s with
  | nil => rfl
  | cons serial left ih =>
    have h := s.outbox_stopPool serial
    unfold stopAll
    split
    · next s' hs =>
      rw [hs] at h
      exact (ih s').trans h
    · next wait s' hs =>
      rw [hs] at h
      exact h
    · next fault s' hs =>
      rw [hs] at h
      exact h

theorem outbox_workTurn (s : Session) (work : Work) :
    (s.workTurn work).2.plane.outbox = s.plane.outbox := by
  unfold workTurn
  split
  · exact outbox_submitAll ..
  · split
    · exact outbox_submitAll ..
    · rfl
  · exact outbox_stopAll ..
  · split
    · rfl
    · split
      · exact outbox_stopAll ..
      · split
        · exact outbox_stopAll ..
        · rfl
  · split
    · rfl
    · split
      · rfl
      · split <;> rfl
  · rfl

theorem leads_callTurns (s : Session) : s.Leads s.callTurns := by
  unfold callTurns
  refine leads_foldl (fun t c => ?_) s.calls { s with calls := [] }
  exact .of_eq (t.outbox_workTurn c.work)

theorem outbox_workerTurn (s : Session) (serial id : Nat) :
    (s.workerTurn serial id).plane.outbox = s.plane.outbox := by
  unfold workerTurn
  split
  · rfl
  · simp only
    split <;> rfl

theorem outbox_endTask (s : Session) (serial id : Nat) (t : Task) :
    (s.endTask serial id t).plane.outbox = s.plane.outbox := by
  unfold endTask
  split <;> rfl

/-! ### The courier and the tickers -/

theorem plane_channelAnswer {channel : Channel} {accepted : Bool}
    (h : s.channelAnswer channel = some (accepted, t)) : t.plane = s.plane := by
  unfold channelAnswer at h
  split at h
  case h_3 =>
    split_ifs at h
    cases h
    rfl
  all_goals
    cases h
    rfl

theorem plane_arrive (s : Session) (courier : Courier) : (s.arrive courier).plane = s.plane := by
  unfold arrive
  split <;> rfl

theorem leads_courierStep? (h : s.courierStep? = some t) : s.Leads t := by
  unfold courierStep? at h
  split at h
  · next n channel left hc =>
    obtain ⟨⟨accepted, s'⟩, hs, rfl⟩ := Option.map_eq_some_iff.mp h
    show s.plane.outbox.Leads s'.plane.outbox.answered
    rw [plane_channelAnswer hs]
    exact .of_event _ (.answer accepted)
  · obtain ⟨o, ho, rfl⟩ := Option.map_eq_some_iff.mp h
    have heq : s.plane.outbox.after .move = o := by
      rw [Outbox.after, ho]
      rfl
    have hlead := Outbox.Leads.of_event s.plane.outbox .move
    rw [heq] at hlead
    unfold Leads
    rwa [plane_arrive]

theorem leads_courierTurn (n : Nat) (s : Session) : s.Leads (courierTurn n s) := by
  induction n generalizing s with
  | zero => exact .refl _
  | succ n ih =>
    unfold courierTurn
    split
    · next t ht => exact (leads_courierStep? ht).trans (ih t)
    · exact .refl _

theorem leads_tick (s : Session) (kind : TickerKind) : s.Leads (s.tick kind).2 := by
  cases kind with
  | monitor => exact ControlPlane.leads_round s.monitor s.plane
  | watch =>
    have h : s.Leads s.syncWatch.2 := ControlPlane.leads_watch s.plane s.watch s.source
    rcases hs : s.syncWatch with ⟨result, s'⟩
    rw [hs] at h
    cases result <;> simpa only [tick, hs] using h

theorem leads_tickerTurn (n : Nat) (s : Session) (t : Ticker) :
    s.Leads (tickerTurn n s t).2 := by
  induction n generalizing s t with
  | zero => exact .refl _
  | succ n ih =>
    unfold tickerTurn
    split
    · exact (s.leads_tick t.kind).trans (ih _ _)
    · exact .refl _

theorem leads_tickerTurns (s : Session) : s.Leads s.tickerTurns := by
  unfold tickerTurns
  refine leads_foldl (fun t ticker => ?_) s.tickers { s with tickers := [] }
  exact leads_tickerTurn _ t ticker

/-! ### Rounds -/

theorem leads_round (s : Session) : s.Leads s.round := by
  have hworkers (t : Session) (ids : List (Nat × Nat)) :
      t.Leads (ids.foldl (fun t e => t.workerTurn e.1 e.2) t) :=
    leads_foldl (fun t e => .of_eq (t.outbox_workerTurn e.1 e.2)) ids t
  have htasks (t : Session) (ends : List (Nat × Nat × Task)) :
      t.Leads (ends.foldl (fun t e => t.endTask e.1 e.2.1 e.2.2) t) :=
    leads_foldl (fun t e => .of_eq (t.outbox_endTask e.1 e.2.1 e.2.2)) ends t
  unfold round
  exact ((((leads_callTurns s).trans (hworkers _ _)).trans (htasks _ _)).trans
    (leads_courierTurn _ _)).trans (leads_tickerTurns _)

theorem leads_rounds (n : Nat) (s : Session) : s.Leads (rounds n s) := by
  induction n generalizing s with
  | zero => exact .refl _
  | succ n ih =>
    unfold rounds
    split
    · exact .refl _
    · exact s.leads_round.trans (ih _)

/-- **Settling is a sequence of events** for the outbox. -/
theorem leads_settle (s : Session) : s.Leads s.settle := leads_rounds _ s

/-! ### Closing -/

theorem leads_closeOutbox (hopen : s.plane.outbox.isOpen = true) :
    s.plane.outbox.close.Leads s.closeOutbox.2.plane.outbox ∧
      (s.closeOutbox.1 = .timedOut false → s.closeOutbox.2.plane.outbox.courier = .gone) := by
  have hsettle :=
    leads_settle { s with plane := { s.plane with outbox := s.plane.outbox.close } }
  unfold closeOutbox
  simp only [hopen, Bool.not_true, Bool.false_eq_true, if_false]
  split
  · next hgone => exact ⟨hsettle, fun _ => hgone⟩
  · exact ⟨hsettle.trans (leads_settle (moveClocks _ drainLimit 0)), nofun⟩

theorem closeOutbox_of_closed (hopen : s.plane.outbox.isOpen = false) :
    s.closeOutbox = (.timedOut false, s) := by
  unfold closeOutbox
  simp only [hopen, Bool.not_false, if_true]

end Session

namespace Outbox

variable {s : InUse} {wanted : Nat} {managed : Bool}

/-- **Closing the outbox of a session** is a sequence of events, at the end of which the courier has
left unless the closing takes too long. -/
theorem Reach.closeOutbox (h : Reach wanted managed s) {t : Session}
    (ht : t.plane.outbox = s.outbox) (hclosed : s.ledger.closed = false) :
    ∃ es, (s.follow (.close :: es)).outbox = t.closeOutbox.2.plane.outbox ∧
      (t.closeOutbox.1 = .timedOut false →
        (s.follow (.close :: es)).outbox.courier = .gone ∧
          (s.follow (.close :: es)).Processed) := by
  have hopen : t.plane.outbox.isOpen = true := by
    rw [ht, h.kept.isOpen_eq, hclosed]
    rfl
  obtain ⟨⟨es, hes⟩, hgone⟩ := Session.leads_closeOutbox hopen
  have heq : (s.follow (.close :: es)).outbox = t.closeOutbox.2.plane.outbox := by
    rw [s.outbox_follow, ← hes, ht]
    rfl
  refine ⟨es, heq, fun hanswer => ?_⟩
  have hleft : (s.follow (.close :: es)).outbox.courier = .gone := by
    rw [heq]
    exact hgone hanswer
  exact ⟨hleft, (h.follow _).kept.processed_of_gone hleft⟩

/-- **Every scheduled notice is sent once to the channels that it calls for, in order.** -/
theorem notices_delivered (h : Reach wanted managed s) :
    s.outbox.pending ≤ max wanted 1 ∧ s.outbox.backlog.length ≤ max wanted 1 ∧
    (∀ n, (s.outbox.post n).1 = false ↔
      s.outbox.backlog.length = max wanted 1 ∨ s.ledger.closed = true) ∧
    s.ledger.scheduled = s.ledger.taken.map (·.1) ++ s.outbox.backlog ∧
    s.ledger.sent ++ s.outbox.courier.left = s.ledger.taken.flatMap deliveries ∧
    s.ledger.sent = s.ledger.answers.map (·.1) ++ s.outbox.courier.awaited ∧
    (∀ d ∈ s.ledger.sent, d.1 ∈ s.ledger.scheduled ∧
      ∃ name ∈ d.1.platforms, Text.foldAscii name = Text.foldAscii d.2.platform) ∧
    (managed = true → s.outbox.channels = Channel.ofPlatforms s.ledger.synced) ∧
    (∀ answers : Nat → Bool, ∃ n, (s.work answers n).Processed ∧
      (s.work answers n).ledger.scheduled = s.ledger.scheduled ∧
      (s.ledger.closed = true → (s.work answers n).outbox.courier = .gone)) ∧
    (s.outbox.courier = .gone → s.Processed) ∧
    ∀ t : Session, t.plane.outbox = s.outbox →
      (s.ledger.closed = true → t.closeOutbox = (.timedOut false, t)) ∧
      (s.ledger.closed = false →
        ∃ es, (s.follow (.close :: es)).outbox = t.closeOutbox.2.plane.outbox ∧
          (t.closeOutbox.1 = .timedOut false →
            (s.follow (.close :: es)).outbox.courier = .gone ∧
              (s.follow (.close :: es)).Processed)) := by
  have hk := h.kept
  refine ⟨hk.pending_le, hk.capacity_eq ▸ hk.backlog_le, hk.post_eq_false_iff, hk.scheduled_eq,
    hk.sent_eq, hk.answers_eq, fun d hd => hk.scheduled_of_sent hd,
    fun hm => (hk.channels_eq hm).2, hk.exists_processed, hk.processed_of_gone,
    fun t ht => ⟨fun hclosed => t.closeOutbox_of_closed ?_, h.closeOutbox ht⟩⟩
  rw [ht, hk.isOpen_eq, hclosed]
  rfl

/-- An alarm of a pool to the platform of the log. -/
def rejection (pool : String) : Notice :=
  .alarm {
    pool, kind := .reject, threshold := 1, value := 1, size := 1, largest := 1, active := 1
    queued := 1, queueCapacity := 1, rejected := 1, platforms := ["Log", "log"]
    timestamp := ⟨0, 0⟩ }

/-- Notices of two pools and a change of the platforms while the courier has the first of them. The
second is dropped at first, as one notice fills the backlog. -/
def posting : List Event :=
  [.post (rejection "a"), .post (rejection "b"), .move, .post (rejection "b"), .move,
    .sync [{ name := "LOG" }, { name := "webhook", webhookUrl := "http://host" }]]

theorem notices_delivered_resynced :
    ∃ (o : Outbox) (s : InUse),
      Outbox.ofPlatforms [{ name := "log" }, { name := "pager" }] 0 = .ok o ∧
      ({ outbox := o, ledger := { synced := [{ name := "log" }, { name := "pager" }] } } :
        InUse).follow posting = s ∧
      s.ledger.posts.map (·.2) = [true, false, true] ∧ s.outbox.pending ≤ 1 ∧
      (s.outbox.post (rejection "c")).1 = false ∧
      s.ledger.sent ++ s.outbox.courier.left = [(rejection "a", .log "log")] ∧
      s.outbox.channels = Channel.ofPlatforms s.ledger.synced ∧
      (∃ n, (s.work (fun _ => false) n).Processed) ∧
      ({ plane := { outbox := s.outbox } } : Session).closeOutbox.1 = .timedOut false ∧
      ∃ es, (s.follow (.close :: es)).Processed := by
  have ho : Outbox.ofPlatforms [{ name := "log" }, { name := "pager" }] 0 = .ok _ := rfl
  obtain ⟨hpending, -, hdropped, -, hsent, -, -, hchannels, hwork, -, hclose⟩ :=
    notices_delivered ((Reach.ofPlatforms ho).follow posting)
  obtain ⟨n, hn, -⟩ := hwork fun _ => false
  obtain ⟨es, -, hes⟩ := (hclose { plane := { outbox := _ } } rfl).2 rfl
  exact ⟨_, _, ho, rfl, rfl, hpending, (hdropped _).mpr (Or.inl rfl), hsent, hchannels rfl,
    ⟨n, hn⟩, rfl, es, (hes rfl).2⟩

/-- An outbox that is closed a second time does not wait for its courier, which here has a notice
that no channel has answered yet. -/
theorem closed_again_undelivered :
    ∃ (o : Outbox) (s : InUse) (t u : Session),
      Outbox.ofChannels [.host "log" .gated] 1 = .ok o ∧
      ({ outbox := o } : InUse).follow [.post (rejection "a"), .close, .move, .move] = s ∧
      t.plane.outbox = (o.post (rejection "a")).2 ∧
      t.closeOutbox = (.timedOut true, u) ∧ u.plane.outbox = s.outbox ∧
      u.closeOutbox = (.timedOut false, u) ∧
      s.ledger.scheduled = [rejection "a"] ∧ s.ledger.answers = [] ∧ ¬ s.Processed := by
  refine ⟨_, _, { plane := { outbox := _ } }, _, rfl, rfl, rfl, rfl, rfl, rfl, rfl, rfl, ?_⟩
  rintro ⟨-, -, hanswers⟩
  cases hanswers

end Outbox
end PoolControl
