import PoolControl.Proofs.Refresh.Setups
import PoolControl.Proofs.Settings.Encoding
import PoolControl.Watch

/-! # A watch loses no update

A watch that passes over the batch that it applied last is compared with one that compares nothing
and applies whatever is switched on (`Watch.push`). Two equal planes are polled side by side, one by
each, from a start without any batch or from a bind (`Watch.Polled`). As long as no batch ends in a
fault, their pools are set up alike after each poll (`Watch.no_update_lost`).

What makes it sound to pass over a batch is that the pools are set up as the batch last fetched has
them already (`Watch.Abreast`): applied once more, it would change nothing. -/

namespace PoolControl

open Pool (holding)
open Settings (Batch NotifyRule)

/-- What may happen to a plane between two polls: its pools work, and are not set up anew. -/
structure ControlPlane.Idles (c d : ControlPlane) : Prop where
  setup?_eq : ∀ name, d.setup? name = c.setup? name
  pacing_eq : d.throttle.toPacing = c.throttle.toPacing
  inService : d.InService

theorem ControlPlane.InService.idles {c : ControlPlane} (h : c.InService) : c.Idles c :=
  ⟨fun _ => rfl, rfl, h⟩

namespace Watch

variable {c d : ControlPlane} {w : Watch} {b : Batch}

/-! ### Batches that are told apart -/

/-- **Batches of one fingerprint** are equal. -/
theorem fingerprint_injective : Function.Injective fingerprint := Batch.write_toDatum_injective

theorem isNew_iff {last : Option Batch} (h : w.applied = last.map fingerprint) :
    w.isNew b = true ↔ last ≠ some b := by
  unfold isNew
  rw [h, bne_iff_ne, ← Option.map_some (f := fingerprint),
    (Option.map_injective fingerprint_injective).ne_iff]

theorem sync_of_not_isNew (h : w.isNew b = false) : sync c w (.ok b) = ((.unchanged, w), c) := by
  simp [sync, h]

theorem sync_of_off (h : w.isNew b = true) (hb : b.enabled = false) :
    sync c w (.ok b) = ((.changed [], w.mark b), c) := by
  simp [sync, h, hb]

theorem sync_of_summary (h : w.isNew b = true) (hb : b.enabled = true) {s : Summary}
    (hs : (refresh c b).1 = .ok s) :
    sync c w (.ok b) = ((.changed s, w.mark b), (refresh c b).2) := by
  have heq : refresh c b = (.ok s, (refresh c b).2) := Prod.ext hs rfl
  simp only [sync, h, hb, Bool.not_true, Bool.false_eq_true, if_false]
  rw [heq]

theorem sync_of_fault (h : w.isNew b = true) (hb : b.enabled = true) {fault : Fault}
    (hs : (refresh c b).1 = .error fault) :
    sync c w (.ok b) = ((.broken fault, w), (refresh c b).2) := by
  have heq : refresh c b = (.error fault, (refresh c b).2) := Prod.ext hs rfl
  simp only [sync, h, hb, Bool.not_true, Bool.false_eq_true, if_false]
  rw [heq]

/-! ### Two planes with one source -/

/-- Applies whatever is switched on. -/
def push (c : ControlPlane) : Except Error Batch → Except Fault Summary × ControlPlane
  | .error _ => (.ok [], c)
  | .ok b => if b.enabled then refresh c b else (.ok [], c)

/-- **Where every interval fits the throttle** nothing that is pushed ends in a fault. -/
theorem exists_push_of_fits {result : Except Error Batch}
    (hfits : ∀ b, result = .ok b → ∀ r ∈ b.records,
      ∀ rule ∈ NotifyRule.effective b.platforms r.rules, c.throttle.Fits rule) :
    ∃ s, (push c result).1 = .ok s := by
  cases result with
  | error e => exact ⟨[], rfl⟩
  | ok b =>
    unfold push
    simp only
    split_ifs
    · obtain ⟨m, -, hthrottle, heq⟩ := exists_refresh_eq c b
      rw [heq]
      refine exists_summary_of_fits ?_
      rw [hthrottle]
      exact hfits b rfl
    · exact ⟨[], rfl⟩

/-- A plane that is watched, and one that every batch is pushed to. -/
structure Twins where
  watched : ControlPlane
  watch : Watch
  pushed : ControlPlane

/-- Both planes deal with what the source gave. -/
def Twins.poll (t : Twins) (result : Except Error Batch) : Twins :=
  { watched := (sync t.watched t.watch result).2
    watch := (sync t.watched t.watch result).1.2
    pushed := (push t.pushed result).2 }

/-- The batch that was fetched last, or else the one that was marked at the start. -/
def latest? (start : Option Batch) (polls : List (Except Error Batch)) : Option Batch :=
  (polls.filterMap Except.toOption).getLast?.or start

/-- The twins after the polls, from pools that no batch was applied to or from a bind. No batch that
was pushed ended in a fault. -/
inductive Polled : Option Batch → List (Except Error Batch) → Twins → Prop
  | fresh {c : ControlPlane} (h : c.InService) : Polled none [] ⟨c, {}, c⟩
  | bound {c : ControlPlane} {b : Batch} (h : c.InService) (hdistinct : c.registry.Distinct)
      (hnamed : ∀ name, Text.isBlankText name = true → c.setup? name = none)
      (hfault : (bind c b).1.2 = none) :
      Polled (some b) [] ⟨(bind c b).2, ({} : Watch).mark b, (bind c b).2⟩
  | poll {start : Option Batch} {polls : List (Except Error Batch)} {t u : Twins} {s : Summary}
      (h : Polled start polls t) (hwatch : u.watch = t.watch) (hwatched : t.watched.Idles u.watched)
      (hpushed : t.pushed.Idles u.pushed) (result : Except Error Batch)
      (hs : (push u.pushed result).1 = .ok s) : Polled start (polls ++ [result]) (u.poll result)

theorem latest?_append_error (start : Option Batch) (polls : List (Except Error Batch))
    (e : Error) : latest? start (polls ++ [.error e]) = latest? start polls := by
  simp [latest?, Except.toOption]

theorem latest?_append_ok (start : Option Batch) (polls : List (Except Error Batch)) (b : Batch) :
    latest? start (polls ++ [.ok b]) = some b := by
  simp [latest?, Except.toOption]

/-! ### Planes that stay abreast -/

/-- Both planes have the same setups, the watch remembers the batch that was fetched last, and if
that is switched on it would change no setup. -/
structure Abreast (last : Option Batch) (t : Twins) : Prop where
  watched : t.watched.InService
  pushed : t.pushed.InService
  setup?_eq : ∀ name, t.watched.setup? name = t.pushed.setup? name
  pacing_eq : t.watched.throttle.toPacing = t.pushed.throttle.toPacing
  applied_eq : t.watch.applied = last.map fingerprint
  settled : ∀ b, last = some b → b.enabled = true →
    ∀ name x, t.pushed.setup? name = some x → b.setUp name x = x

variable {last : Option Batch} {t u : Twins}

theorem Abreast.idles (h : Abreast last t) (hwatch : u.watch = t.watch)
    (hwatched : t.watched.Idles u.watched) (hpushed : t.pushed.Idles u.pushed) :
    Abreast last u where
  watched := hwatched.inService
  pushed := hpushed.inService
  setup?_eq name := by
    rw [hwatched.setup?_eq, hpushed.setup?_eq]
    exact h.setup?_eq name
  pacing_eq := by
    rw [hwatched.pacing_eq, hpushed.pacing_eq]
    exact h.pacing_eq
  applied_eq := by
    rw [hwatch]
    exact h.applied_eq
  settled b hlast hb name x hx := by
    rw [hpushed.setup?_eq] at hx
    exact h.settled b hlast hb name x hx

/-- **A batch that does not end in a fault where it is pushed** does not do so where it is new
either. -/
theorem Abreast.exists_summary (h : Abreast last t) {s : Summary}
    (hs : (refresh t.pushed b).1 = .ok s) : ∃ s', (refresh t.watched b).1 = .ok s' :=
  exists_summary_of_setups h.watched h.pushed (fun name => (h.setup?_eq name).symm)
    h.pacing_eq.symm hs

/-- A batch that is applied to both planes, or to the pushed one although it is the last. -/
theorem Abreast.refresh_pushed (h : Abreast (some b) t) (hb : b.enabled = true) {s : Summary}
    (hs : (refresh t.pushed b).1 = .ok s) :
    Abreast (some b) { t with pushed := (refresh t.pushed b).2 } := by
  obtain ⟨hservice, hsetup⟩ := setup?_refresh h.pushed hs
  have hsame : ∀ name, (refresh t.pushed b).2.setup? name = t.pushed.setup? name := by
    intro name
    rw [hsetup name]
    cases hx : t.pushed.setup? name with
    | none => rfl
    | some x => rw [Option.map_some, h.settled b rfl hb name x hx]
  exact h.idles rfl h.watched.idles ⟨hsame, pacing_refresh t.pushed b, hservice⟩

theorem Abreast.refresh_both (h : Abreast last t) {s s' : Summary}
    (hs : (refresh t.pushed b).1 = .ok s) (hs' : (refresh t.watched b).1 = .ok s') :
    Abreast (some b) ⟨(refresh t.watched b).2, t.watch.mark b, (refresh t.pushed b).2⟩ := by
  obtain ⟨hpushed, hsetup⟩ := setup?_refresh h.pushed hs
  obtain ⟨hwatched, hsetup'⟩ := setup?_refresh h.watched hs'
  refine ⟨hwatched, hpushed, fun name => ?_, ?_, rfl, fun b' hb' _ name x hx => ?_⟩
  · rw [hsetup' name, hsetup name, h.setup?_eq name]
  · rw [pacing_refresh, pacing_refresh]
    exact h.pacing_eq
  · cases hb'
    rw [hsetup name] at hx
    obtain ⟨y, -, rfl⟩ := Option.map_eq_some_iff.mp hx
    exact b.setUp_setUp name y

theorem Abreast.mark_off (h : Abreast last t) (hb : b.enabled = false) :
    Abreast (some b) { t with watch := t.watch.mark b } where
  watched := h.watched
  pushed := h.pushed
  setup?_eq := h.setup?_eq
  pacing_eq := h.pacing_eq
  applied_eq := rfl
  settled b' hb' hon := by
    cases hb'
    rw [hb] at hon
    cases hon

/-- **A poll** keeps the planes abreast. -/
theorem Abreast.poll {start : Option Batch} {polls : List (Except Error Batch)}
    (h : Abreast (latest? start polls) t) {result : Except Error Batch} {s : Summary}
    (hs : (push t.pushed result).1 = .ok s) :
    Abreast (latest? start (polls ++ [result])) (t.poll result) := by
  cases result with
  | error e =>
    rw [latest?_append_error]
    exact h
  | ok b =>
    rw [latest?_append_ok]
    unfold Twins.poll
    simp only [push] at hs ⊢
    cases hnew : t.watch.isNew b with
    | false =>
      have hlast : latest? start polls = some b := by
        by_contra hne
        rw [(isNew_iff h.applied_eq).mpr hne] at hnew
        cases hnew
      rw [hlast] at h
      rw [sync_of_not_isNew hnew]
      split_ifs at hs ⊢ with hb
      · exact h.refresh_pushed hb hs
      · exact h
    | true =>
      split_ifs at hs ⊢ with hb
      · obtain ⟨s', hs'⟩ := h.exists_summary hs
        rw [sync_of_summary hnew hb hs']
        exact h.refresh_both hs hs'
      · have hoff : b.enabled = false := by simpa using hb
        rw [sync_of_off hnew hoff]
        exact h.mark_off hoff

/-- **All polls** keep the planes abreast. -/
theorem Polled.abreast {start : Option Batch} {polls : List (Except Error Batch)} {t : Twins}
    (h : Polled start polls t) : Abreast (latest? start polls) t := by
  induction h with
  | fresh h => exact ⟨h, h, fun _ => rfl, rfl, rfl, fun _ hlast => nomatch hlast⟩
  | bound h hdistinct hnamed hfault =>
    obtain ⟨hservice, hsetup⟩ := setup?_bind h hdistinct hnamed hfault
    refine ⟨hservice, hservice, fun _ => rfl, rfl, rfl, fun b hb _ name x hx => ?_⟩
    cases hb
    rw [hsetup name] at hx
    obtain ⟨y, -, rfl⟩ := Option.map_eq_some_iff.mp hx
    exact Batch.setUp_fillRules_setUp ..
  | poll _ hwatch hwatched hpushed _ hs ih =>
    exact (ih.idles hwatch hwatched hpushed).poll hs

/-- **A watch loses no update.** After each poll the pools are set up as if every batch that is
switched on had been applied. A failure changes nothing. A batch that is switched off sets up no
pool. Any other is applied, unless it is the one that was fetched last. None of it ends in a fault
where it would not do so on the plane that every batch is pushed to, and nothing does there if the
intervals fit the throttle. -/
theorem no_update_lost {start : Option Batch} {polls : List (Except Error Batch)} {t : Twins}
    (h : Polled start polls t) :
    (∀ name, t.watched.setup? name = t.pushed.setup? name) ∧
    t.watch.applied = (latest? start polls).map fingerprint ∧
    (∀ d result, t.pushed.Idles d →
      (∀ b, result = .ok b → ∀ r ∈ b.records,
        ∀ rule ∈ NotifyRule.effective b.platforms r.rules, t.pushed.throttle.Fits rule) →
      ∃ s, (push d result).1 = .ok s) ∧
    ∀ c, t.watched.Idles c →
      (∀ e, sync c t.watch (.error e) = ((.failed e, t.watch), c)) ∧
      (∀ b, latest? start polls = some b → sync c t.watch (.ok b) = ((.unchanged, t.watch), c)) ∧
      (∀ b, latest? start polls ≠ some b → b.enabled = false →
        sync c t.watch (.ok b) = ((.changed [], t.watch.mark b), c)) ∧
      ∀ b, latest? start polls ≠ some b → b.enabled = true →
        ∀ d s, t.pushed.Idles d → (refresh d b).1 = .ok s → ∃ s', (refresh c b).1 = .ok s' ∧
          sync c t.watch (.ok b) = ((.changed s', t.watch.mark b), (refresh c b).2) := by
  have habreast := h.abreast
  have hnew : ∀ b, t.watch.isNew b = true ↔ latest? start polls ≠ some b := fun b =>
    isNew_iff habreast.applied_eq
  refine ⟨habreast.setup?_eq, habreast.applied_eq, ?_, fun c hc => ⟨fun _ => rfl, ?_, ?_, ?_⟩⟩
  · intro d result hd hfits
    refine exists_push_of_fits fun b hb r hr rule hrule => ?_
    rw [hd.pacing_eq]
    exact hfits b hb r hr rule hrule
  · intro b hlast
    refine sync_of_not_isNew ?_
    by_contra hn
    exact (hnew b).mp (by simpa using hn) hlast
  · intro b hlast hb
    exact sync_of_off ((hnew b).mpr hlast) hb
  · intro b hlast hb d s hd hs
    have hidle : Abreast (latest? start polls) ⟨c, t.watch, d⟩ := habreast.idles rfl hc hd
    obtain ⟨s', hs'⟩ := hidle.exists_summary hs
    exact ⟨s', hs', sync_of_summary ((hnew b).mpr hlast) hb hs'⟩

/-- More core workers than before. -/
def wider : Batch := { records := [{ name := "io", coreSize := 2, maxSize := 4 }] }

/-- The batch was applied, fetching failed once, and then a batch came that is switched off. -/
theorem no_update_lost_again : ∃ (t : Twins) (s : Summary),
    Polled none [.ok wider, .error (.notFound "io"), .ok { wider with enabled := false }] t ∧
    (t.watched.setup? "io").map (·.snapshot.coreSize) = some 2 ∧
    sync t.watched t.watch (.ok wider) =
      ((.changed s, t.watch.mark wider), (refresh t.watched wider).2) := by
  obtain ⟨p, s, s', hp, hs, hs', hcore⟩ : ∃ (p : Pool) (s s' : Summary),
      Pool.ofRecord { name := "io", maxSize := 1 } = .ok p ∧
      (push (holding p) (.ok wider)).1 = .ok s ∧
      (refresh (push (holding p) (.ok wider)).2 wider).1 = .ok s' ∧
      ((push (holding p) (.ok wider)).2.setup? "io").map (·.snapshot.coreSize) = some 2 :=
    ⟨_, _, _, rfl, rfl, rfl, rfl⟩
  have hstart : Polled none [] ⟨holding p, {}, holding p⟩ := .fresh (Pool.inService_holding hp)
  have hon := hstart.poll rfl hstart.abreast.watched.idles hstart.abreast.pushed.idles _ hs
  have herror := hon.poll rfl hon.abreast.watched.idles hon.abreast.pushed.idles
    (.error (.notFound "io")) rfl
  have hoff := herror.poll rfl herror.abreast.watched.idles herror.abreast.pushed.idles
    (.ok { wider with enabled := false }) rfl
  obtain ⟨hsetup, -, -, h⟩ := no_update_lost hoff
  obtain ⟨s'', -, hsync⟩ := (h _ hoff.abreast.watched.idles).2.2.2 wider (by decide) rfl _ s'
    hoff.abreast.pushed.idles hs'
  exact ⟨_, s'', hoff, (congrArg _ (hsetup "io")).trans hcore, hsync⟩

/-- No core workers, and an interval that is too long for the throttle. -/
def overlong : Batch :=
  { records :=
      [{ name := "io", maxSize := 1, coreSize := 0
         rules := [{ kind := .change, interval := some 20000000000 }] }] }

/-- The second batch ends in a fault when its core size was set already. The watch still remembers
the first batch, and passes over it when it is fetched again. -/
theorem update_lost : ∃ (p : Pool) (t : Twins),
    Pool.ofRecord { name := "io", maxSize := 1 } = .ok p ∧
    t = (((⟨holding p, {}, holding p⟩ : Twins).poll (.ok wider)).poll (.ok overlong)).poll
      (.ok wider) ∧
    (t.watched.setup? "io").map (·.snapshot.coreSize) = some 0 ∧
    (t.pushed.setup? "io").map (·.snapshot.coreSize) = some 2 := by
  obtain ⟨p, s, hp, hs, hfault, hwatched, hpushed⟩ : ∃ (p : Pool) (s : Summary),
      Pool.ofRecord { name := "io", maxSize := 1 } = .ok p ∧
      (refresh (holding p) wider).1 = .ok s ∧
      (refresh (refresh (holding p) wider).2 overlong).1 = .error .intervalTooLong ∧
      (((refresh (refresh (holding p) wider).2 overlong).2).setup? "io").map
        (·.snapshot.coreSize) = some 0 ∧
      ((refresh (refresh (refresh (holding p) wider).2 overlong).2 wider).2.setup? "io").map
        (·.snapshot.coreSize) = some 2 :=
    ⟨_, _, rfl, rfl, rfl, rfl, rfl⟩
  have hne : fingerprint wider ≠ fingerprint overlong := fun h =>
    absurd (fingerprint_injective h) (by decide)
  have hfirst : sync (holding p) {} (.ok wider) = _ := sync_of_summary rfl rfl hs
  have hsecond : sync (refresh (holding p) wider).2 (({} : Watch).mark wider) (.ok overlong) = _ :=
    sync_of_fault (by simpa [isNew, mark] using hne) rfl hfault
  have hthird := sync_of_not_isNew (c := (refresh (refresh (holding p) wider).2 overlong).2)
    (w := ({} : Watch).mark wider) (b := wider) (by simp [isNew, mark])
  refine ⟨p, _, hp, rfl, ?_, hpushed⟩
  simp only [Twins.poll, hfirst, hsecond, hthird]
  exact hwatched

end Watch
end PoolControl
