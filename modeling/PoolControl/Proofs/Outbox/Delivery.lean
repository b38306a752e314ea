import Mathlib.Tactic.SplitIfs
import PoolControl.Outbox

/-! # Every scheduled notice is sent once

`Outbox.InUse` is an outbox at a moment, with a `Ledger` of what was posted, taken, sent and
answered. An `Event` is a post, a change of the platforms, a step of the courier, an answer of the
channel that it waits for, or the closing; events come in any order.

The account of the ledger is kept by every event (`Outbox.Kept`): the scheduled notices are those
that were taken and then those of the backlog, and what was sent is, in order, what the taken
notices call for, but for the channels that the courier has still ahead. Left to itself, the courier
works the backlog off whatever the channels answer (`Outbox.Kept.exists_processed`). -/

namespace PoolControl

open Settings (Platform)

namespace Courier

/-- What the courier has still to send of the notice that it has. -/
def left : Courier → List (Notice × Channel)
  | delivering n left | sending n _ left => left.map (n, ·)
  | _ => []

/-- What the courier waits for an answer to. -/
def awaited : Courier → List (Notice × Channel)
  | sending n channel _ => [(n, channel)]
  | _ => []

end Courier

theorem Channel.serves_iff {c : Channel} {n : Notice} :
    c.serves n = true ↔ ∃ name ∈ n.platforms, Text.foldAscii name = Text.foldAscii c.platform := by
  simp only [serves, List.any_eq_true, Text.sameName_iff]

namespace Outbox

/-! ### Events -/

/-- What happens to an outbox. -/
inductive Event where
  | post (notice : Notice)
  | sync (platforms : List Platform)
  /-- The courier takes a step that needs no answer, if there is one. -/
  | move
  /-- The channel that the courier waits for answers, well or badly. -/
  | answer (accepted : Bool)
  | close
  deriving DecidableEq, Repr

/-- The outbox after an event. -/
def after (o : Outbox) : Event → Outbox
  | .post n => (o.post n).2
  | .sync platforms => o.sync platforms
  | .move => o.move?.getD o
  | .answer _ => o.answered
  | .close => o.close

/-- What was done with the notices. -/
structure Ledger where
  /-- Every post with its answer, in order. -/
  posts : List (Notice × Bool) := []
  /-- The notices that the courier took, in order, with the channels in force then. -/
  taken : List (Notice × List Channel) := []
  /-- What was sent to which channel, in order. -/
  sent : List (Notice × Channel) := []
  /-- What the channels have answered. -/
  answers : List ((Notice × Channel) × Bool) := []
  /-- The platforms of the last synchronization. -/
  synced : List Platform := []
  closed : Bool := false
  deriving DecidableEq, Repr

namespace Ledger

/-- The notices that were taken into the backlog, in order. -/
def scheduled (l : Ledger) : List Notice := (l.posts.filter (·.2)).map (·.1)

/-- The ledger after a step of the courier that leads to this outbox. -/
def move (l : Ledger) (o : Outbox) : Ledger :=
  match o.courier with
  | .delivering n _ => { l with taken := l.taken ++ [(n, o.channels)] }
  | .sending n channel _ => { l with sent := l.sent ++ [(n, channel)] }
  | _ => l

end Ledger

/-- An outbox at a moment, with what was done with the notices so far. -/
structure InUse where
  outbox : Outbox
  ledger : Ledger := {}
  deriving DecidableEq, Repr

namespace InUse

/-- The state after an event. -/
def after (s : InUse) : Event → InUse
  | .post n =>
    { outbox := s.outbox.after (.post n)
      ledger := { s.ledger with posts := s.ledger.posts ++ [(n, (s.outbox.post n).1)] } }
  | .sync platforms =>
    { outbox := s.outbox.after (.sync platforms), ledger := { s.ledger with synced := platforms } }
  | .move =>
    match s.outbox.move? with
    | some outbox => { outbox, ledger := s.ledger.move outbox }
    | none => s
  | .answer accepted =>
    { outbox := s.outbox.after (.answer accepted)
      ledger :=
        { s.ledger with
          answers := s.ledger.answers ++ s.outbox.courier.awaited.map (·, accepted) } }
  | .close => { outbox := s.outbox.after .close, ledger := { s.ledger with closed := true } }

/-- The state after a sequence of events. -/
def follow (s : InUse) (es : List Event) : InUse := es.foldl after s

end InUse

/-- The states that events lead to from an outbox with that wanted capacity, managed or not. -/
inductive Reach (wanted : Nat) : Bool → InUse → Prop
  | ofPlatforms {platforms : List Platform} {o : Outbox}
    (h : Outbox.ofPlatforms platforms wanted = .ok o) :
    Reach wanted true { outbox := o, ledger := { synced := platforms } }
  | ofChannels {channels : List Channel} {o : Outbox}
    (h : Outbox.ofChannels channels wanted = .ok o) : Reach wanted false { outbox := o }
  | next {managed : Bool} {s : InUse} (h : Reach wanted managed s) (e : Event) :
    Reach wanted managed (s.after e)

variable {o q : Outbox} {s : InUse} {wanted : Nat} {managed : Bool}

theorem Reach.follow (h : Reach wanted managed s) (es : List Event) :
    Reach wanted managed (s.follow es) := by
  induction es generalizing s with
  | nil => exact h
  | cons e es ih => exact ih (h.next e)

theorem InUse.outbox_after (s : InUse) (e : Event) : (s.after e).outbox = s.outbox.after e := by
  cases e with
  | move =>
    simp only [InUse.after, Outbox.after]
    cases s.outbox.move? <;> rfl
  | _ => rfl

theorem InUse.outbox_follow (s : InUse) (es : List Event) :
    (s.follow es).outbox = es.foldl Outbox.after s.outbox := by
  induction es generalizing s with
  | nil => rfl
  | cons e es ih =>
    rw [List.foldl_cons, ← s.outbox_after e]
    exact ih (s.after e)

/-! ### What an event does -/

/-- **The cases of a step of the courier.** -/
inductive Moved (o : Outbox) : Outbox → Prop
  | takes (n : Notice) (backlog : List Notice) (hc : o.courier = .idle)
    (hb : o.backlog = n :: backlog) :
    Moved o { o with backlog, courier := .delivering n (o.channels.filter (·.serves n)) }
  | leaves (hc : o.courier = .idle) (hb : o.backlog = []) (ho : o.isOpen = false) :
    Moved o { o with courier := .gone }
  | finishes (n : Notice) (hc : o.courier = .delivering n []) : Moved o { o with courier := .idle }
  | sends (n : Notice) (channel : Channel) (left : List Channel)
    (hc : o.courier = .delivering n (channel :: left)) :
    Moved o { o with courier := .sending n channel left }

theorem moved (h : o.move? = some q) : Moved o q := by
  unfold move? at h
  split at h
  · next hc =>
    split at h
    · next n backlog hb =>
      rw [← Option.some.inj h]
      exact .takes n backlog hc hb
    · next hb =>
      split_ifs at h with ho
      rw [← Option.some.inj h]
      exact .leaves hc hb (by simpa using ho)
  · next n hc =>
    rw [← Option.some.inj h]
    exact .finishes n hc
  · next n channel left hc =>
    rw [← Option.some.inj h]
    exact .sends n channel left hc
  · cases h
  · cases h

theorem post_cases (o : Outbox) (n : Notice) :
    (o.isOpen = true ∧ o.backlog.length < o.capacity ∧
      o.post n = (true, { o with backlog := o.backlog ++ [n] })) ∨
    ((o.isOpen = false ∨ o.capacity ≤ o.backlog.length) ∧ o.post n = (false, o)) := by
  unfold post
  split_ifs with h
  · exact Or.inl ⟨h.1, h.2, rfl⟩
  · refine Or.inr ⟨?_, rfl⟩
    by_cases ho : o.isOpen = true
    · exact Or.inr (Nat.le_of_not_lt fun hlt => h ⟨ho, hlt⟩)
    · left
      simpa using ho

/-! ### The account -/

/-- What a notice calls for: it is sent, in order, to each channel in force that is for one of its
platforms, whatever the case of the names. -/
def deliveries : Notice × List Channel → List (Notice × Channel)
  | (n, channels) =>
    let wanted := n.platforms.map Text.foldAscii
    (channels.filter fun c => wanted.contains (Text.foldAscii c.platform)).map (n, ·)

theorem deliveries_eq (n : Notice) (channels : List Channel) :
    deliveries (n, channels) = (channels.filter (·.serves n)).map (n, ·) := by
  have hserves : ∀ c : Channel,
      (n.platforms.map Text.foldAscii).contains (Text.foldAscii c.platform) = c.serves n := by
    intro c
    rw [Bool.eq_iff_iff, Channel.serves_iff, List.contains_iff_mem, List.mem_map]
  simp only [deliveries, hserves]

/-- **The account of the notices.** -/
structure Kept (wanted : Nat) (managed : Bool) (s : InUse) : Prop where
  capacity_eq : s.outbox.capacity = max wanted 1
  backlog_le : s.outbox.backlog.length ≤ s.outbox.capacity
  isOpen_eq : s.outbox.isOpen = !s.ledger.closed
  scheduled_eq : s.ledger.scheduled = s.ledger.taken.map (·.1) ++ s.outbox.backlog
  sent_eq : s.ledger.sent ++ s.outbox.courier.left = s.ledger.taken.flatMap deliveries
  answers_eq : s.ledger.sent = s.ledger.answers.map (·.1) ++ s.outbox.courier.awaited
  gone : s.outbox.courier = .gone → s.outbox.isOpen = false ∧ s.outbox.backlog = []
  managed_eq : s.outbox.managed = managed
  channels_eq : managed = true →
    s.outbox.platforms = s.ledger.synced ∧
      s.outbox.channels = Channel.ofPlatforms s.ledger.synced

theorem capacityOf_eq_ok {capacity : Nat} (h : capacityOf wanted = .ok capacity) :
    capacity = max wanted 1 := by
  unfold capacityOf at h
  split_ifs at h
  exact (Except.ok.inj h).symm

theorem kept_ofPlatforms {platforms : List Platform}
    (h : Outbox.ofPlatforms platforms wanted = .ok o) :
    Kept wanted true { outbox := o, ledger := { synced := platforms } } := by
  unfold Outbox.ofPlatforms at h
  cases hc : capacityOf wanted with
  | error fault =>
    rw [hc] at h
    cases h
  | ok capacity =>
    rw [hc] at h
    cases h
    exact ⟨capacityOf_eq_ok hc, Nat.zero_le _, rfl, rfl, rfl, rfl, nofun, rfl, fun _ => ⟨rfl, rfl⟩⟩

theorem kept_ofChannels {channels : List Channel} (h : Outbox.ofChannels channels wanted = .ok o) :
    Kept wanted false { outbox := o } := by
  unfold Outbox.ofChannels at h
  cases hc : capacityOf wanted with
  | error fault =>
    rw [hc] at h
    cases h
  | ok capacity =>
    rw [hc] at h
    cases h
    exact ⟨capacityOf_eq_ok hc, Nat.zero_le _, rfl, rfl, rfl, rfl, nofun, rfl, nofun⟩

theorem scheduled_post (l : Ledger) (n : Notice) (accepted : Bool) :
    ({ l with posts := l.posts ++ [(n, accepted)] } : Ledger).scheduled =
      l.scheduled ++ if accepted then [n] else [] := by
  cases accepted <;> simp [Ledger.scheduled]

theorem Kept.post (h : Kept wanted managed s) (n : Notice) :
    Kept wanted managed (s.after (.post n)) := by
  simp only [InUse.after, Outbox.after]
  rcases s.outbox.post_cases n with ⟨hopen, hlt, heq⟩ | ⟨-, heq⟩
  · rw [heq]
    refine ⟨h.capacity_eq, ?_, h.isOpen_eq, ?_, h.sent_eq, h.answers_eq, fun hgone => ?_,
      h.managed_eq, h.channels_eq⟩
    · rw [List.length_append]
      exact hlt
    · rw [scheduled_post, h.scheduled_eq, List.append_assoc]
      rfl
    · have hclosed := (h.gone hgone).1
      rw [hopen] at hclosed
      cases hclosed
  · rw [heq]
    refine ⟨h.capacity_eq, h.backlog_le, h.isOpen_eq, ?_, h.sent_eq, h.answers_eq, h.gone,
      h.managed_eq, h.channels_eq⟩
    rw [scheduled_post, h.scheduled_eq]
    exact List.append_nil _

theorem Kept.sync (h : Kept wanted managed s) (platforms : List Platform) :
    Kept wanted managed (s.after (.sync platforms)) := by
  simp only [InUse.after, Outbox.after]
  unfold Outbox.sync
  split_ifs with hneeds
  · exact ⟨h.capacity_eq, h.backlog_le, h.isOpen_eq, h.scheduled_eq, h.sent_eq, h.answers_eq,
      h.gone, h.managed_eq, fun _ => ⟨rfl, rfl⟩⟩
  · refine ⟨h.capacity_eq, h.backlog_le, h.isOpen_eq, h.scheduled_eq, h.sent_eq, h.answers_eq,
      h.gone, h.managed_eq, fun hm => ?_⟩
    -- The platforms are those of the last synchronization already.
    have hsame : s.outbox.platforms = platforms := by
      simpa [needsSync, h.managed_eq, hm] using hneeds
    obtain ⟨hsynced, hchannels⟩ := h.channels_eq hm
    rw [← hsynced, hsame] at hchannels
    exact ⟨hsame, hchannels⟩

theorem Kept.move (h : Kept wanted managed s) : Kept wanted managed (s.after .move) := by
  simp only [InUse.after]
  cases hm : s.outbox.move? with
  | none => exact h
  | some o =>
    have hsent := h.sent_eq
    have hanswers := h.answers_eq
    cases moved hm with
    | takes n backlog hc hb =>
      rw [hc] at hsent hanswers
      refine ⟨h.capacity_eq, ?_, h.isOpen_eq, ?_, ?_, hanswers, nofun, h.managed_eq, h.channels_eq⟩
      · have hle := h.backlog_le
        rw [hb, List.length_cons] at hle
        exact Nat.le_of_succ_le hle
      · have heq := h.scheduled_eq
        rw [hb] at heq
        simp only [Ledger.move, List.map_append, List.map_cons, List.map_nil, List.append_assoc,
          List.singleton_append]
        exact heq
      · simp only [Courier.left, List.append_nil] at hsent
        simp only [Ledger.move, Courier.left, List.flatMap_append, List.flatMap_singleton, ← hsent,
          deliveries_eq]
    | leaves hc hb ho =>
      rw [hc] at hsent hanswers
      exact ⟨h.capacity_eq, h.backlog_le, h.isOpen_eq, h.scheduled_eq, hsent, hanswers,
        fun _ => ⟨ho, hb⟩, h.managed_eq, h.channels_eq⟩
    | finishes n hc =>
      rw [hc] at hsent hanswers
      exact ⟨h.capacity_eq, h.backlog_le, h.isOpen_eq, h.scheduled_eq, hsent, hanswers, nofun,
        h.managed_eq, h.channels_eq⟩
    | sends n channel left hc =>
      rw [hc] at hsent hanswers
      refine ⟨h.capacity_eq, h.backlog_le, h.isOpen_eq, h.scheduled_eq, ?_, ?_, nofun,
        h.managed_eq, h.channels_eq⟩
      · simp only [Courier.left, List.map_cons] at hsent
        simp only [Ledger.move, Courier.left, List.append_assoc, List.singleton_append]
        exact hsent
      · simp only [Courier.awaited, List.append_nil] at hanswers
        simp only [Ledger.move, Courier.awaited, hanswers]

theorem Kept.answer (h : Kept wanted managed s) (accepted : Bool) :
    Kept wanted managed (s.after (.answer accepted)) := by
  have hsent := h.sent_eq
  have hanswers := h.answers_eq
  simp only [InUse.after, Outbox.after, answered]
  cases hc : s.outbox.courier with
  | sending n channel left =>
    rw [hc] at hsent hanswers
    refine ⟨h.capacity_eq, h.backlog_le, h.isOpen_eq, h.scheduled_eq, hsent, ?_, nofun,
      h.managed_eq, h.channels_eq⟩
    simp only [Courier.awaited] at hanswers ⊢
    simpa using hanswers
  | _ =>
    refine ⟨h.capacity_eq, h.backlog_le, h.isOpen_eq, h.scheduled_eq, h.sent_eq, ?_, h.gone,
      h.managed_eq, h.channels_eq⟩
    simp only [Courier.awaited, List.map_nil, List.append_nil]
    rw [hc] at hanswers
    simpa [hc, Courier.awaited] using hanswers

theorem Kept.close (h : Kept wanted managed s) : Kept wanted managed (s.after .close) :=
  ⟨h.capacity_eq, h.backlog_le, rfl, h.scheduled_eq, h.sent_eq, h.answers_eq,
    fun hgone => ⟨rfl, (h.gone hgone).2⟩, h.managed_eq, h.channels_eq⟩

/-- **Every event keeps the account.** -/
theorem Kept.after (h : Kept wanted managed s) (e : Event) : Kept wanted managed (s.after e) := by
  cases e with
  | post n => exact h.post n
  | sync platforms => exact h.sync platforms
  | move => exact h.move
  | answer accepted => exact h.answer accepted
  | close => exact h.close

theorem Reach.kept (h : Reach wanted managed s) : Kept wanted managed s := by
  induction h with
  | ofPlatforms h => exact kept_ofPlatforms h
  | ofChannels h => exact kept_ofChannels h
  | next _ e ih => exact ih.after e

theorem Kept.pending_le (h : Kept wanted managed s) : s.outbox.pending ≤ max wanted 1 := by
  have hle := h.backlog_le
  rw [h.capacity_eq] at hle
  unfold pending
  split_ifs
  · exact hle
  · exact Nat.zero_le _

theorem Kept.post_eq_false_iff (h : Kept wanted managed s) (n : Notice) :
    (s.outbox.post n).1 = false ↔
      s.outbox.backlog.length = max wanted 1 ∨ s.ledger.closed = true := by
  have hle := h.backlog_le
  have hopen := h.isOpen_eq
  rw [h.capacity_eq] at hle
  rcases s.outbox.post_cases n with ⟨ho, hlt, heq⟩ | ⟨hfull, heq⟩
  · rw [heq]
    rw [ho] at hopen
    rw [h.capacity_eq] at hlt
    constructor
    · nofun
    · rintro (hlen | hclosed)
      · omega
      · rw [hclosed] at hopen
        cases hopen
  · rw [heq, h.capacity_eq] at *
    refine ⟨fun _ => ?_, fun _ => rfl⟩
    rcases hfull with ho | hge
    · right
      rw [ho] at hopen
      simpa using hopen
    · left
      omega

theorem Kept.scheduled_of_sent (h : Kept wanted managed s) {d : Notice × Channel}
    (hd : d ∈ s.ledger.sent) :
    d.1 ∈ s.ledger.scheduled ∧
      ∃ name ∈ d.1.platforms, Text.foldAscii name = Text.foldAscii d.2.platform := by
  have hmem : d ∈ s.ledger.taken.flatMap deliveries := by
    rw [← h.sent_eq]
    exact List.mem_append_left _ hd
  obtain ⟨⟨n, channels⟩, htaken, hin⟩ := List.mem_flatMap.mp hmem
  rw [deliveries_eq] at hin
  obtain ⟨channel, hchannel, rfl⟩ := List.mem_map.mp hin
  refine ⟨?_, Channel.serves_iff.mp (List.mem_filter.mp hchannel).2⟩
  rw [h.scheduled_eq]
  exact List.mem_append_left _ (List.mem_map_of_mem htaken)

/-! ### The courier by itself -/

/-- The next step of the courier, where the channel that it waits for answers in that way. -/
def Courier.next (accepted : Bool) : Courier → Event
  | .sending .. => .answer accepted
  | _ => .move

/-- The state after so many steps of the courier, with that answer in each step that needs one. -/
def InUse.work (s : InUse) (answers : Nat → Bool) : Nat → InUse
  | 0 => s
  | n + 1 => (s.after (Courier.next (answers 0) s.outbox.courier)).work (fun i => answers (i + 1)) n

/-- How many steps of the courier the outbox has work for. -/
def load (o : Outbox) : Nat :=
  o.backlog.foldr (fun n m => 2 * (o.channels.filter (·.serves n)).length + 2 + m) 0 +
    match o.courier with
    | .delivering _ left => 2 * left.length + 1
    | .sending _ _ left => 2 * left.length + 2
    | _ => 0

/-- Every scheduled notice was taken, sent to the channels that it calls for, and answered. -/
def InUse.Processed (s : InUse) : Prop :=
  s.ledger.taken.map (·.1) = s.ledger.scheduled ∧
    s.ledger.sent = s.ledger.taken.flatMap deliveries ∧
    s.ledger.answers.map (·.1) = s.ledger.sent

theorem load_eq_zero_iff :
    o.load = 0 ↔ o.backlog = [] ∧ (o.courier = .idle ∨ o.courier = .gone) := by
  unfold load
  cases o.courier <;> cases o.backlog <;> simp

theorem Kept.processed (h : Kept wanted managed s) (hload : s.outbox.load = 0) : s.Processed := by
  obtain ⟨hb, hc⟩ := load_eq_zero_iff.mp hload
  have hscheduled := h.scheduled_eq
  have hsent := h.sent_eq
  have hanswers := h.answers_eq
  have hidle : s.outbox.courier.left = [] ∧ s.outbox.courier.awaited = [] := by
    rcases hc with hc | hc <;> rw [hc] <;> exact ⟨rfl, rfl⟩
  rw [hb, List.append_nil] at hscheduled
  rw [hidle.1, List.append_nil] at hsent
  rw [hidle.2, List.append_nil] at hanswers
  exact ⟨hscheduled.symm, hsent, hanswers.symm⟩

theorem Kept.processed_of_gone (h : Kept wanted managed s) (hc : s.outbox.courier = .gone) :
    s.Processed :=
  h.processed (load_eq_zero_iff.mpr ⟨(h.gone hc).2, Or.inr hc⟩)

/-- **Every step of the courier leaves less load.** -/
theorem load_after_next (hgone : o.courier = .gone → o.backlog = []) (hload : o.load ≠ 0)
    (accepted : Bool) : (o.after (Courier.next accepted o.courier)).load < o.load := by
  cases hc : o.courier with
  | idle =>
    cases hb : o.backlog with
    | nil => exact absurd (load_eq_zero_iff.mpr ⟨hb, Or.inl hc⟩) hload
    | cons n backlog =>
      simp only [Courier.next, after, move?, hc, hb, Option.getD_some, load, List.foldr_cons]
      omega
  | delivering n left =>
    cases left with
    | nil => simp [Courier.next, after, move?, hc, load]
    | cons channel left => simp [Courier.next, after, move?, hc, load]; omega
  | sending n channel left => simp [Courier.next, after, answered, hc, load]
  | gone => exact absurd (load_eq_zero_iff.mpr ⟨hgone hc, Or.inr hc⟩) hload

theorem Kept.work (h : Kept wanted managed s) (answers : Nat → Bool) (n : Nat) :
    Kept wanted managed (s.work answers n) := by
  induction n generalizing s answers with
  | zero => exact h
  | succ n ih => exact ih (h.after _) _

theorem InUse.after_next (s : InUse) (accepted : Bool) (courier : Courier) :
    (s.after (Courier.next accepted courier)).ledger.posts = s.ledger.posts ∧
      (s.after (Courier.next accepted courier)).ledger.closed = s.ledger.closed := by
  cases courier with
  | sending n channel left => exact ⟨rfl, rfl⟩
  | _ =>
    simp only [Courier.next, InUse.after]
    cases s.outbox.move? with
    | none => exact ⟨rfl, rfl⟩
    | some o =>
      simp only [Ledger.move]
      cases o.courier <;> exact ⟨rfl, rfl⟩

theorem InUse.work_ledger (s : InUse) (answers : Nat → Bool) (n : Nat) :
    (s.work answers n).ledger.posts = s.ledger.posts ∧
      (s.work answers n).ledger.closed = s.ledger.closed := by
  induction n generalizing s answers with
  | zero => exact ⟨rfl, rfl⟩
  | succ n ih =>
    obtain ⟨hposts, hclosed⟩ := s.after_next (answers 0) s.outbox.courier
    obtain ⟨hposts', hclosed'⟩ :=
      ih (s.after (Courier.next (answers 0) s.outbox.courier)) fun i => answers (i + 1)
    exact ⟨hposts'.trans hposts, hclosed'.trans hclosed⟩

theorem Kept.exists_load_eq_zero (h : Kept wanted managed s) (answers : Nat → Bool) :
    ∃ n, (s.work answers n).outbox.load = 0 ∧
      (s.ledger.closed = true → (s.work answers n).outbox.courier = .gone) := by
  induction hl : s.outbox.load using Nat.strongRecOn generalizing s answers with
  | ind load ih =>
    by_cases hload : s.outbox.load = 0
    · obtain ⟨hb, hc | hc⟩ := load_eq_zero_iff.mp hload
      · cases hclosed : s.ledger.closed with
        | false => exact ⟨0, hload, nofun⟩
        | true =>
          have hopen := h.isOpen_eq
          rw [hclosed] at hopen
          have hleft : (s.work answers 1).outbox = { s.outbox with courier := .gone } := by
            show (s.after (Courier.next (answers 0) s.outbox.courier)).outbox = _
            rw [s.outbox_after, hc]
            simp [Courier.next, Outbox.after, move?, hc, hb, hopen]
          refine ⟨1, ?_, fun _ => ?_⟩
          · rw [hleft]
            exact load_eq_zero_iff.mpr ⟨hb, Or.inr rfl⟩
          · rw [hleft]
      · exact ⟨0, hload, fun _ => hc⟩
    · have hlt := load_after_next (fun hc => (h.gone hc).2) hload (answers 0)
      rw [← s.outbox_after] at hlt
      obtain ⟨n, hn, hgone⟩ := ih _ (hl ▸ hlt) (h.after _) (fun i => answers (i + 1)) rfl
      exact ⟨n + 1, hn, fun hclosed => hgone ((s.after_next _ _).2.trans hclosed)⟩

/-- **Left to itself, the courier processes every notice**, whatever the channels answer, and leaves
if the outbox is closed. -/
theorem Kept.exists_processed (h : Kept wanted managed s) (answers : Nat → Bool) :
    ∃ n, (s.work answers n).Processed ∧
      (s.work answers n).ledger.scheduled = s.ledger.scheduled ∧
      (s.ledger.closed = true → (s.work answers n).outbox.courier = .gone) := by
  obtain ⟨n, hn, hgone⟩ := h.exists_load_eq_zero answers
  refine ⟨n, (h.work answers n).processed hn, ?_, hgone⟩
  rw [Ledger.scheduled, (s.work_ledger answers n).1]
  rfl

end Outbox
end PoolControl
