import PoolControl.Proofs.Outbox.Sessions
import PoolControl.Proofs.Pool.Retuning
import PoolControl.Proofs.Refresh.Fresh

/-! # Shutting pools down within the clock

A pool that waits for its tasks on shutdown is given a deadline, and the clock may end before it
(`Pool.Overruns`). How a pool shuts down is taken over from a record without a check, so a record
that is otherwise fine can ask for such a wait.

A shutdown stops its pools one after the other, over as many turns as it takes, while anything may
happen to the session between two of them. A turn stops the pools that it reaches and leaves the
others alone (`Reaches`), and it breaks off at the first pool that overruns the clock (`Ends`). So
every pool is reached unless one overruns when its turn has come, and then those behind it are not
(`shutdown_breaks_at_first_overrun`). -/

namespace PoolControl

open Settings (Platform Record)

/-! ### The end of the clock -/

theorem Termination.start?_eq_none_iff {clock : Clock} {span : Duration} :
    Termination.start? clock span = none ↔
      clockEnd ≤ (clock.nanos + span.nanos) / 1000000000 := by
  simp [Termination.start?]

namespace Pool

/-- Shutting the pool down at that moment would mean to wait longer than the clock lasts. -/
structure Overruns (p : Pool) (clock : Clock) : Prop where
  running : p.running = true
  waits : p.waitOnShutdown = true
  late : clockEnd ≤ clock.nanos / 1000000000 + p.awaitSeconds.toNat

/-- The pool after a shutdown reached it. -/
def stopped (p : Pool) : Pool := if p.running then p.stop.2 else p

variable {p : Pool} {clock : Clock}

theorem start?_awaitSpan_eq_none_iff : Termination.start? clock p.awaitSpan = none ↔
    clockEnd ≤ clock.nanos / 1000000000 + p.awaitSeconds.toNat := by
  have hsecs : (clock.nanos + p.awaitSeconds.toNat * 1000000000) / 1000000000 =
      clock.nanos / 1000000000 + p.awaitSeconds.toNat := by omega
  rw [Termination.start?_eq_none_iff, awaitSpan, Duration.ofSecs, hsecs]

theorem stop_eq (p : Pool) : ∃ queue, p.stop.2 = { p with running := false, queue } := by
  unfold stop
  dsimp only
  split
  · exact ⟨_, rfl⟩
  · exact ⟨_, rfl⟩

@[simp] theorem waitOnShutdown_stop (p : Pool) :
    p.stop.2.waitOnShutdown = p.waitOnShutdown := by
  obtain ⟨queue, h⟩ := p.stop_eq
  rw [h]

@[simp] theorem awaitSpan_stop (p : Pool) : p.stop.2.awaitSpan = p.awaitSpan := by
  obtain ⟨queue, h⟩ := p.stop_eq
  rw [h]
  rfl

@[simp] theorem running_stopped (p : Pool) : p.stopped.running = false := by
  unfold stopped
  split_ifs with h
  · obtain ⟨queue, hq⟩ := p.stop_eq
    rw [hq]
  · simpa using h

theorem stopped_of_not_running (h : p.running = false) : p.stopped = p := by
  simp [stopped, h]

@[simp] theorem stopped_stopped (p : Pool) : p.stopped.stopped = p.stopped :=
  stopped_of_not_running p.running_stopped

/-- How a pool shuts down is taken from its record, and whether the record describes a pool does not
depend on it. -/
theorem ofRecord_shutdown (r : Record) (wait : Bool) (seconds : UInt64) :
    ofRecord { r with waitOnShutdown := wait, awaitSeconds := seconds } =
      (ofRecord r).map fun p => { p with waitOnShutdown := wait, awaitSeconds := seconds } := by
  have hcheck : checkRecord { r with waitOnShutdown := wait, awaitSeconds := seconds } =
      checkRecord r := rfl
  have htime : Record.keepAlive? { r with waitOnShutdown := wait, awaitSeconds := seconds } =
      r.keepAlive? := rfl
  unfold ofRecord
  rw [hcheck, htime]
  cases checkRecord r with
  | error e => rfl
  | ok u =>
    cases SaturationPolicy.resolve r.policyName with
    | error e => rfl
    | ok policy =>
      dsimp only [Bind.bind, Except.bind]
      split_ifs
      · rfl
      · rfl

theorem overruns_applyRecord (platforms : List Platform) (throttle : Throttle) (now : Nat)
    (r : Record) (p : Pool) (clock : Clock) :
    (applyRecord platforms throttle now r p).pool.Overruns clock ↔
      p.running = true ∧ r.waitOnShutdown = true ∧
        clockEnd ≤ clock.nanos / 1000000000 + r.awaitSeconds.toNat := by
  obtain ⟨hwait, hseconds⟩ := shutdown_applyRecord platforms throttle now r p
  have hrunning := (retuned_applyRecord platforms throttle now r p).running_eq
  rw [← hwait, ← hseconds, ← hrunning]
  exact ⟨fun ⟨hr, hw, hl⟩ => ⟨hr, hw, hl⟩, fun ⟨hr, hw, hl⟩ => ⟨hr, hw, hl⟩⟩

end Pool

/-- The pools that a shutdown has still to reach. -/
def Work.unreached? : Work → Option (List Nat)
  | .stopping left => some left
  | .draining _ _ left => some left
  | _ => none

namespace Session

variable {s t u : Session} {serial : Nat} {serials left : List Nat}

/-! ### The pools of a session -/

theorem pool?_noteDropped (s : Session) (tasks : List Task) (serial : Nat) :
    (s.noteDropped tasks).pool? serial = s.pool? serial := by
  unfold noteDropped
  induction tasks generalizing s with
  | nil => rfl
  | cons t ts ih => exact ih (s.note .drop t.id)

theorem pool?_setPool (s : Session) (serial other : Nat) (p : Pool) :
    (s.setPool serial p).pool? other =
      if other = serial then (s.pool? serial).map fun _ => p else s.pool? other := by
  have hserial : ((fun e : Registered => e.serial == other) ∘
      fun e => if e.serial = serial then { e with pool := p } else e) =
        fun e => e.serial == other := by
    funext e
    simp only [Function.comp]
    split_ifs <;> rfl
  unfold pool? setPool everyPool
  dsimp only
  rw [← List.map_append, List.find?_map, hserial]
  generalize s.plane.registry.entries ++ s.replaced = entries
  cases he : entries.find? (·.serial == other) with
  | none =>
    split_ifs with hother
    · rw [← hother, he]
      rfl
    · rfl
  | some e =>
    have hfound : e.serial = other := by simpa using List.find?_some he
    split_ifs with hother
    · rw [← hother, he]
      simp [hfound, hother]
    · simp [hfound, hother]

/-- The pool of that serial number overruns the clock if it is shut down now. -/
def OverrunsAt (s : Session) (serial : Nat) : Prop :=
  ∃ p, s.pool? serial = some p ∧ p.Overruns s.clock

/-- These pools are stopped, and the others are as they were. -/
structure Reaches (s t : Session) (serials : List Nat) : Prop where
  stopped : ∀ serial ∈ serials, t.pool? serial = (s.pool? serial).map Pool.stopped
  others : ∀ serial ∉ serials, t.pool? serial = s.pool? serial
  clock_eq : t.clock = s.clock

theorem Reaches.refl (s : Session) : Reaches s s [] := ⟨nofun, fun _ _ => rfl, rfl⟩

theorem Reaches.append {serials' : List Nat} (h : Reaches s t serials) (h' : Reaches t u serials') :
    Reaches s u (serials ++ serials') := by
  refine ⟨fun serial hs => ?_, fun serial hs => ?_, h'.clock_eq.trans h.clock_eq⟩
  · by_cases hlater : serial ∈ serials'
    · rw [h'.stopped serial hlater]
      by_cases hfirst : serial ∈ serials
      · rw [h.stopped serial hfirst, Option.map_map]
        congr 1
        funext p
        exact p.stopped_stopped
      · rw [h.others serial hfirst]
    · rw [h'.others serial hlater]
      exact h.stopped serial ((List.mem_append.mp hs).resolve_right hlater)
  · rw [List.mem_append, not_or] at hs
    rw [h'.others serial hs.2, h.others serial hs.1]

theorem Reaches.overrunsAt_iff (h : Reaches s t serials) :
    t.OverrunsAt serial ↔ s.OverrunsAt serial ∧ serial ∉ serials := by
  unfold OverrunsAt
  by_cases hs : serial ∈ serials
  · simp only [hs, not_true, and_false, iff_false, h.stopped serial hs]
    rintro ⟨p, hp, hover⟩
    obtain ⟨q, -, rfl⟩ := Option.map_eq_some_iff.mp hp
    simpa using hover.running
  · rw [h.others serial hs, h.clock_eq]
    simp [hs]

/-! ### One pool -/

theorem reaches_of_not_running (h : ∀ p, s.pool? serial = some p → p.running = false) :
    Reaches s s [serial] := by
  refine ⟨fun other hs => ?_, fun _ _ => rfl, rfl⟩
  rw [List.mem_singleton.mp hs]
  cases hp : s.pool? serial with
  | none => rfl
  | some p => rw [Option.map_some, Pool.stopped_of_not_running (h p hp)]

theorem reaches_stop {p : Pool} (hp : s.pool? serial = some p) (hrunning : p.running = true) :
    Reaches s ((s.setPool serial p.stop.2).noteDropped p.stop.1) [serial] := by
  refine ⟨fun other hs => ?_, fun other hs => ?_, ?_⟩
  · rw [List.mem_singleton.mp hs, pool?_noteDropped, pool?_setPool, if_pos rfl, hp]
    simp [Pool.stopped, hrunning]
  · rw [pool?_noteDropped, pool?_setPool, if_neg (by simpa using hs)]
  · unfold clock
    rw [plane_noteDropped]
    rfl

theorem overrunsAt_iff_of_pool? {p : Pool} (hp : s.pool? serial = some p) :
    s.OverrunsAt serial ↔ p.Overruns s.clock := by
  simp [OverrunsAt, hp]

theorem stopPool_of_running {p : Pool} (hp : s.pool? serial = some p)
    (hrunning : p.running = true) :
    (s.stopPool serial).2 = (s.setPool serial p.stop.2).noteDropped p.stop.1 ∧
      ((s.stopPool serial).1 = .error .clockOverflow ∧ p.Overruns s.clock ∨
        (∃ wait, (s.stopPool serial).1 = .ok wait) ∧ ¬ p.Overruns s.clock) := by
  have hclock := (reaches_stop hp hrunning).clock_eq
  have hwaits := p.waitOnShutdown_stop
  have hspan := p.awaitSpan_stop
  unfold stopPool
  split
  · next hno => simp [hp] at hno
  next q hq =>
  obtain rfl := Option.some.inj (hp.symm.trans hq)
  split
  · next hoff => simp [hrunning] at hoff
  split
  next dropped p' hstop =>
  rw [hstop] at hclock hwaits hspan ⊢
  dsimp only at hclock hwaits hspan ⊢
  rw [hclock, hwaits, hspan]
  split
  · next hno => exact ⟨rfl, Or.inr ⟨⟨_, rfl⟩, fun hover => by simp [hover.waits] at hno⟩⟩
  · next hwait =>
    split
    · next hnone =>
      have hlate := Pool.start?_awaitSpan_eq_none_iff.mp hnone
      exact ⟨rfl, Or.inl ⟨rfl, hrunning, by simpa using hwait, hlate⟩⟩
    · next wait hsome =>
      have hfits : ¬ p.Overruns s.clock := fun hover => by
        simp [Pool.start?_awaitSpan_eq_none_iff.mpr hover.late] at hsome
      split
      · exact ⟨rfl, Or.inr ⟨⟨_, rfl⟩, hfits⟩⟩
      · exact ⟨rfl, Or.inr ⟨⟨_, rfl⟩, hfits⟩⟩

/-- **A shutdown stops the pool**, and breaks off exactly if the pool overruns the clock. -/
theorem stopPool_cases (s : Session) (serial : Nat) :
    Reaches s (s.stopPool serial).2 [serial] ∧
      ((s.stopPool serial).1 = .error .clockOverflow ∧ s.OverrunsAt serial ∨
        (∃ wait, (s.stopPool serial).1 = .ok wait) ∧ ¬ s.OverrunsAt serial) := by
  by_cases hon : ∃ p, s.pool? serial = some p ∧ p.running = true
  · obtain ⟨p, hp, hrunning⟩ := hon
    obtain ⟨hsession, hresult⟩ := stopPool_of_running hp hrunning
    rw [hsession, overrunsAt_iff_of_pool? hp]
    exact ⟨reaches_stop hp hrunning, hresult⟩
  · have hoff : ∀ p, s.pool? serial = some p → p.running = false := fun p hp => by
      simpa using fun hrunning => hon ⟨p, hp, hrunning⟩
    have hsame : s.stopPool serial = (.ok none, s) := by
      unfold stopPool
      split
      · rfl
      · next p hp => rw [if_pos (by simp [hoff p hp])]
    rw [hsame]
    refine ⟨reaches_of_not_running hoff, Or.inr ⟨⟨_, rfl⟩, ?_⟩⟩
    rintro ⟨p, hp, hover⟩
    exact hon ⟨p, hp, hover.running⟩

/-! ### One turn -/

/-- How a turn that reached these pools ends, with those that are left. -/
inductive Ends (s : Session) : List Nat → List Nat → Work → Prop
  | done {reached : List Nat} (h : ∀ serial ∈ reached, ¬ s.OverrunsAt serial) :
    Ends s reached [] (.returned .done)
  | waits {reached left : List Nat} {w : Work} (h : ∀ serial ∈ reached, ¬ s.OverrunsAt serial)
    (hw : w.unreached? = some left) : Ends s reached left w
  | breaks (before left : List Nat) {last : Nat} (h : ∀ serial ∈ before, ¬ s.OverrunsAt serial)
    (hlast : s.OverrunsAt last) :
    Ends s (before ++ [last]) left (.returned (.fault .clockOverflow))

theorem Ends.cons {reached : List Nat} {w : Work} (h : Ends t reached left w)
    (hr : Reaches s t [serial]) (hs : ¬ s.OverrunsAt serial) :
    Ends s (serial :: reached) left w := by
  have hsame (other : Nat) : t.OverrunsAt other ↔ s.OverrunsAt other := by
    rw [hr.overrunsAt_iff, List.mem_singleton]
    refine ⟨And.left, fun ho => ⟨ho, ?_⟩⟩
    rintro rfl
    exact hs ho
  have hcons {reached : List Nat} (h : ∀ serial ∈ reached, ¬ t.OverrunsAt serial) :
      ∀ other ∈ serial :: reached, ¬ s.OverrunsAt other := by
    simpa [hs, hsame] using h
  cases h with
  | done h => exact .done (hcons h)
  | waits h hw => exact .waits (hcons h) hw
  | breaks before _ h hlast => exact .breaks (serial :: before) _ (hcons h) ((hsame _).mp hlast)

theorem stopAll_cases (serials : List Nat) (s : Session) :
    ∃ reached left, serials = reached ++ left ∧ Reaches s (s.stopAll serials).2 reached ∧
      Ends s reached left (s.stopAll serials).1 := by
  induction serials generalizing s with
  | nil => exact ⟨[], [], rfl, .refl s, .done nofun⟩
  | cons serial rest ih =>
    obtain ⟨hreach, hresult⟩ := s.stopPool_cases serial
    unfold stopAll
    rcases hstop : s.stopPool serial with ⟨fault | wait, t⟩
    · rw [hstop] at hreach hresult
      obtain ⟨hfault, hover⟩ | ⟨⟨wait, hwait⟩, -⟩ := hresult
      · cases hfault
        exact ⟨[serial], rest, rfl, hreach, .breaks [] rest nofun hover⟩
      · cases hwait
    · rw [hstop] at hreach hresult
      obtain ⟨hfault, -⟩ | ⟨-, hover⟩ := hresult
      · cases hfault
      · cases wait with
        | none =>
          obtain ⟨reached, left, hsplit, hrest, hend⟩ := ih t
          exact ⟨serial :: reached, left, by rw [hsplit]; rfl, hreach.append hrest,
            hend.cons hreach hover⟩
        | some wait =>
          exact ⟨[serial], rest, rfl, hreach, .waits (by simpa using hover) rfl⟩

theorem stops_workTurn {w : Work} (hw : w.unreached? = some serials) (s : Session) :
    ∃ reached left, serials = reached ++ left ∧ Reaches s (s.workTurn w).2 reached ∧
      Ends s reached left (s.workTurn w).1 := by
  cases w with
  | stopping left =>
    obtain rfl := Option.some.inj hw
    exact stopAll_cases left s
  | draining serial wait left =>
    obtain rfl := Option.some.inj hw
    have hstay (wait : Termination) : ∃ reached rest, left = reached ++ rest ∧ Reaches s s reached ∧
        Ends s reached rest (.draining serial wait left) :=
      ⟨[], left, rfl, .refl s, .waits nofun rfl⟩
    unfold workTurn
    dsimp only
    split
    · exact hstay wait
    · split
      · exact stopAll_cases left s
      · split
        · exact stopAll_cases left s
        · exact hstay _
  | submitting serial left errors => cases hw
  | inline serial t left errors => cases hw
  | waiting serial wait => cases hw
  | returned a => cases hw

theorem waiting_workTurn (s : Session) (serial : Nat) (wait : Termination) :
    (s.workTurn (.waiting serial wait)).2 = s ∧
      ((∃ b, (s.workTurn (.waiting serial wait)).1 = .returned (.bool b)) ∨
        ∃ wait', (s.workTurn (.waiting serial wait)).1 = .waiting serial wait') := by
  unfold workTurn
  dsimp only
  split
  · exact ⟨rfl, Or.inr ⟨_, rfl⟩⟩
  · split
    · exact ⟨rfl, Or.inl ⟨_, rfl⟩⟩
    · split
      · exact ⟨rfl, Or.inl ⟨_, rfl⟩⟩
      · exact ⟨rfl, Or.inr ⟨_, rfl⟩⟩

/-! ### All turns -/

/-- What a call has left to do after a turn in each of these sessions. Anything may happen to a
session between two turns, so each is any session. -/
def workAfter (w : Work) (ss : List Session) : Work := ss.foldl (fun w s => (s.workTurn w).1) w

/-- The turns of the call, each with the session before and after it. -/
def turns (w : Work) : List Session → List (Session × Session)
  | [] => []
  | s :: ss => (s, (s.workTurn w).2) :: turns (s.workTurn w).1 ss

/-- The pool overran the clock in a turn that reached it. -/
def Overran (turns : List (Session × Session)) (reached : List (List Nat)) (serial : Nat) : Prop :=
  ∃ e ∈ turns.zip reached, serial ∈ e.2 ∧ e.1.1.OverrunsAt serial

theorem overran_cons {turns : List (Session × Session)} {reached : List (List Nat)}
    {now : List Nat} : Overran ((s, t) :: turns) (now :: reached) serial ↔
      serial ∈ now ∧ s.OverrunsAt serial ∨ Overran turns reached serial := by
  simp [Overran]

theorem Overran.mem_flatten {turns : List (Session × Session)} {reached : List (List Nat)}
    (h : Overran turns reached serial) : serial ∈ reached.flatten := by
  obtain ⟨e, he, hs, -⟩ := h
  exact List.mem_flatten.mpr ⟨e.2, (List.of_mem_zip he).2, hs⟩

theorem turns_returned (a : Answer) (ss : List Session) :
    workAfter (.returned a) ss = .returned a ∧
      ∃ reached : List (List Nat), reached.flatten = [] ∧
        List.Forall₂ (fun turn now => Reaches turn.1 turn.2 now)
          (turns (.returned a) ss) reached := by
  induction ss with
  | nil => exact ⟨rfl, [], rfl, .nil⟩
  | cons s ss ih =>
    obtain ⟨hw, reached, hnone, hturns⟩ := ih
    exact ⟨hw, [] :: reached, hnone, .cons (.refl s) hturns⟩

/-- **Over all turns a shutdown reaches its pools in order**, and breaks off exactly at the first
that overruns the clock. -/
theorem stops_turns (ss : List Session) {w : Work} (hw : w.unreached? = some serials) :
    ∃ (reached : List (List Nat)) (left : List Nat),
      serials = reached.flatten ++ left ∧
      List.Forall₂ (fun turn now => Reaches turn.1 turn.2 now) (turns w ss) reached ∧
      ((∀ serial, ¬ Overran (turns w ss) reached serial) ∧
          (workAfter w ss = .returned .done ∧ left = [] ∨
            (workAfter w ss).unreached? = some left) ∨
        ∃ before serial, reached.flatten = before ++ [serial] ∧
          (∀ other, Overran (turns w ss) reached other ↔ other = serial) ∧
          workAfter w ss = .returned (.fault .clockOverflow)) := by
  induction ss generalizing w serials with
  | nil => exact ⟨[], serials, rfl, .nil, Or.inl ⟨by simp [Overran], Or.inr hw⟩⟩
  | cons s ss ih =>
    obtain ⟨now, rest, hsplit, hnow, hend⟩ := stops_workTurn hw s
    unfold workAfter turns
    rw [List.foldl_cons]
    generalize s.workTurn w = result at hnow hend ⊢
    obtain ⟨w', t⟩ := result
    cases hend with
    | done h =>
      obtain ⟨hafter, reached, hnone, hturns⟩ := turns_returned .done ss
      refine ⟨now :: reached, [], by simp [hsplit, hnone], .cons hnow hturns,
        Or.inl ⟨fun serial hover => ?_, Or.inl ⟨hafter, rfl⟩⟩⟩
      obtain ⟨hs, ho⟩ | hlater := overran_cons.mp hover
      · exact h serial hs ho
      · exact absurd hlater.mem_flatten (by simp [hnone])
    | waits h hw' =>
      obtain ⟨reached, left, hrest, hturns, hend⟩ := ih hw'
      have hlater (other : Nat) : Overran ((s, t) :: turns w' ss) (now :: reached) other ↔
          Overran (turns w' ss) reached other :=
        overran_cons.trans (or_iff_right fun ⟨hs, ho⟩ => h other hs ho)
      refine ⟨now :: reached, left, by simp [hsplit, hrest], .cons hnow hturns, ?_⟩
      simp only [hlater]
      obtain hgoes | ⟨before, serial, hlast, hover, hfault⟩ := hend
      · exact Or.inl hgoes
      · exact Or.inr ⟨now ++ before, serial, by simp [hlast], hover, hfault⟩
    | @breaks before _ serial h hs =>
      obtain ⟨hafter, reached, hnone, hturns⟩ := turns_returned (.fault .clockOverflow) ss
      refine ⟨(before ++ [serial]) :: reached, rest, by simp [hsplit, hnone], .cons hnow hturns,
        Or.inr ⟨before, serial, by simp [hnone], fun other => ?_, hafter⟩⟩
      rw [overran_cons]
      constructor
      · rintro (⟨hmem, hover⟩ | hlater)
        · obtain hmem | rfl := List.mem_append.mp hmem |>.imp_right List.mem_singleton.mp
          · exact absurd hover (h other hmem)
          · rfl
        · exact absurd hlater.mem_flatten (by simp [hnone])
      · rintro rfl
        exact Or.inl ⟨by simp, hs⟩

theorem waiting_turns (serial : Nat) (wait : Termination) (ss : List Session) :
    (∃ b, workAfter (.waiting serial wait) ss = .returned (.bool b)) ∨
      ∃ wait', workAfter (.waiting serial wait) ss = .waiting serial wait' := by
  induction ss generalizing wait with
  | nil => exact Or.inr ⟨wait, rfl⟩
  | cons s ss ih =>
    unfold workAfter
    rw [List.foldl_cons]
    obtain ⟨-, ⟨b, hb⟩ | ⟨wait', hwait⟩⟩ := s.waiting_workTurn serial wait
    · rw [hb]
      exact Or.inl ⟨b, (turns_returned (.bool b) ss).1⟩
    · rw [hwait]
      exact ih wait'

/-- A wait for a registered pool is refused if its deadline lies beyond the end of the clock,
whatever the pool does. -/
theorem begin_waitTerminated {name : String} (hname : s.serial? name = some serial)
    (span : Duration) : ∃ work, s.begin (.waitTerminated name span) = s.call work ∧
      (work = .returned (.fault .clockOverflow) ∧
          clockEnd ≤ (s.clock.nanos + span.nanos) / 1000000000 ∨
        (∃ wait, work = .waiting serial wait) ∧
          (s.clock.nanos + span.nanos) / 1000000000 < clockEnd) := by
  change ∃ work, s.callOn name _ = s.call work ∧ _
  unfold callOn
  rw [hname]
  refine ⟨_, rfl, ?_⟩
  cases hstart : Termination.start? s.clock span with
  | none => exact Or.inl ⟨rfl, Termination.start?_eq_none_iff.mp hstart⟩
  | some wait =>
    refine Or.inr ⟨⟨wait, rfl⟩, Nat.lt_of_not_le fun hlate => ?_⟩
    simp [Termination.start?_eq_none_iff.mpr hlate] at hstart

/-- **A shutdown reaches every pool unless one overruns the clock.** A pool can be given any wait by
its record or by a refresh. A shutdown stops the pool and fails exactly if it overruns the clock,
and so over all turns it reaches its pools, in the order of the registry for all of them, up to the
first that does. Waiting for a pool fails exactly if the deadline lies beyond the end of the
clock. -/
theorem shutdown_breaks_at_first_overrun (s : Session) (ss : List Session) {w : Work}
    {serials : List Nat} (hw : w.unreached? = some serials) :
    (∀ (r : Record) (p : Pool), Pool.ofRecord r = .ok p →
      ∀ (wait : Bool) (seconds : UInt64), ∃ q,
        Pool.ofRecord { r with waitOnShutdown := wait, awaitSeconds := seconds } = .ok q ∧
        (q.Overruns s.clock ↔
          wait = true ∧ clockEnd ≤ s.clock.nanos / 1000000000 + seconds.toNat)) ∧
    (∀ (platforms : List Platform) (throttle : Throttle) (now : Nat) (r : Record) (p : Pool),
      (applyRecord platforms throttle now r p).pool.Overruns s.clock ↔
        p.running = true ∧ r.waitOnShutdown = true ∧
          clockEnd ≤ s.clock.nanos / 1000000000 + r.awaitSeconds.toNat) ∧
    (∀ serial, Reaches s (s.stopPool serial).2 [serial] ∧
      ((s.stopPool serial).1 = .error .clockOverflow ∧ s.OverrunsAt serial ∨
        (∃ wait, (s.stopPool serial).1 = .ok wait) ∧ ¬ s.OverrunsAt serial)) ∧
    s.begin .shutdownAll = s.call (.stopping (s.plane.registry.entries.map (·.serial))) ∧
    (∃ (reached : List (List Nat)) (left : List Nat),
      serials = reached.flatten ++ left ∧
      List.Forall₂ (fun turn now => Reaches turn.1 turn.2 now) (turns w ss) reached ∧
      ((∀ serial, ¬ Overran (turns w ss) reached serial) ∧
          (workAfter w ss = .returned .done ∧ left = [] ∨
            (workAfter w ss).unreached? = some left) ∨
        ∃ before serial, reached.flatten = before ++ [serial] ∧
          (∀ other, Overran (turns w ss) reached other ↔ other = serial) ∧
          workAfter w ss = .returned (.fault .clockOverflow))) ∧
    (∀ (name : String) (serial : Nat) (span : Duration), s.serial? name = some serial →
      ∃ work, s.begin (.waitTerminated name span) = s.call work ∧
        (work = .returned (.fault .clockOverflow) ∧
            clockEnd ≤ (s.clock.nanos + span.nanos) / 1000000000 ∨
          (∃ wait, work = .waiting serial wait) ∧
            (s.clock.nanos + span.nanos) / 1000000000 < clockEnd)) ∧
    ∀ (serial : Nat) (wait : Termination),
      (∃ b, workAfter (.waiting serial wait) ss = .returned (.bool b)) ∨
        ∃ wait', workAfter (.waiting serial wait) ss = .waiting serial wait' := by
  refine ⟨fun r p hr wait seconds => ?_,
    fun platforms throttle now r p => Pool.overruns_applyRecord platforms throttle now r p s.clock,
    s.stopPool_cases, rfl, stops_turns ss hw,
    fun name serial span hname => begin_waitTerminated hname span,
    fun serial wait => waiting_turns serial wait ss⟩
  have hq := Pool.ofRecord_shutdown r wait seconds
  rw [hr] at hq
  obtain ⟨-, -, policy, -, rfl⟩ := Pool.ofRecord_eq_ok_iff.mp hr
  exact ⟨_, hq, fun ⟨_, hw, hl⟩ => ⟨hw, hl⟩, fun ⟨hw, hl⟩ => ⟨rfl, hw, hl⟩⟩

/-- A record whose pool waits on shutdown for as long as it can be told to. -/
def lasting : Record :=
  { name := "a", maxSize := 1, waitOnShutdown := true, awaitSeconds := 18446744073709551615 }

/-- A session in which a lasting pool is registered before another. -/
def lastingFirst : Session :=
  (register (register { plane := { outbox := { capacity := 1, managed := true, channels := [] } } }
    lasting).2 { name := "b", maxSize := 1 }).2

theorem shutdown_breaks_at_first_overrun_lasting :
    (∃ p, Pool.ofRecord lasting = .ok p ∧ p.Overruns lastingFirst.clock) ∧
    (∃ reached left, [0, 1] = reached.flatten ++ left ∧
      ∃ before serial, reached.flatten = before ++ [serial] ∧
        Overran (turns (.stopping [0, 1]) [lastingFirst]) reached serial) ∧
    ∃ work, lastingFirst.begin (.waitTerminated "b" (.ofSecs 5)) = lastingFirst.call work ∧
      ∃ wait, work = .waiting 1 wait := by
  obtain ⟨hrecord, -, -, -, ⟨reached, left, hsplit, -, hend⟩, hwait, -⟩ :=
    shutdown_breaks_at_first_overrun lastingFirst [lastingFirst] (w := .stopping [0, 1]) rfl
  have hplain : Pool.ofRecord { name := "a", maxSize := 1 } = .ok _ := rfl
  obtain ⟨p, hp, hover⟩ := hrecord _ _ hplain true 18446744073709551615
  refine ⟨⟨p, hp, hover.mpr ⟨rfl, by decide⟩⟩, ⟨reached, left, hsplit, ?_⟩, ?_⟩
  · obtain ⟨-, ⟨hdone, -⟩ | hleft⟩ | ⟨before, serial, hlast, hover, -⟩ := hend
    · cases hdone
    · cases hleft
    · exact ⟨before, serial, hlast, (hover serial).mpr rfl⟩
  · obtain ⟨work, hbegin, ⟨-, hlate⟩ | ⟨hwait, -⟩⟩ := hwait "b" 1 (.ofSecs 5) rfl
    · exact absurd hlate (by decide)
    · exact ⟨work, hbegin, hwait⟩

/-- Shutting all pools down fails at the first, and the second still runs. -/
theorem shutdown_unreached :
    lastingFirst.plane.registry.entries.map (·.serial) = [0, 1] ∧
      (lastingFirst.perform .shutdownAll).1.answer = .fault .clockOverflow ∧
      ((lastingFirst.perform .shutdownAll).2.pool? 1).map (·.running) = some true := by
  exact ⟨rfl, rfl, rfl⟩

end Session
end PoolControl
