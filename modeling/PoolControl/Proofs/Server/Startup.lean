import PoolControl.Proofs.Refresh.Alertable
import PoolControl.Proofs.Watch.Startup

/-! # Starting from a configuration that was loaded

The check of a configuration looks at its backlog and at the times between two rounds, and refuses
zeros. What a configuration says beyond that can still keep the server from starting: a backlog that
no outbox can have, and rules for which there are no gauges. It starts exactly where there is
neither (`Startable`, `start_of_load`). It then runs what the configuration asks for
(`Running.Runs`): an outbox, a pool for each name that a record describes one for, and the alarm
rounds and the watch as far as they are switched on. -/

namespace PoolControl

open Settings (Batch NotifyRule Platform Record)

/-! ### Registering one pool after the other -/

namespace Registry

/-- The registry after pools were registered, one after the other. -/
def registerAll (reg : Registry) (ps : List Pool) : Registry :=
  ps.foldl (fun reg p => (reg.register p).2) reg

/-- **Of the pools that were registered under a name**, the last is found. -/
theorem get?_registerAll (reg : Registry) (ps : List Pool) (name : String) :
    (reg.registerAll ps).get? name =
      (ps.reverse.find? (·.name == name)).or (reg.get? name) := by
  induction ps generalizing reg with
  | nil => rfl
  | cons p ps ih =>
    rw [registerAll, List.foldl_cons, ← registerAll, ih, get?_register, List.reverse_cons,
      List.find?_append]
    by_cases hn : p.name = name
    · cases ps.reverse.find? (·.name == name) <;> simp [hn]
    · cases ps.reverse.find? (·.name == name) <;> simp [hn]

theorem Distinct.registerAll {reg : Registry} (h : reg.Distinct) (ps : List Pool) :
    (reg.registerAll ps).Distinct := by
  induction ps generalizing reg with
  | nil => exact h
  | cons p ps ih => exact ih (h.register p)

end Registry

/-! ### What goes on in the background -/

/-- Tickers of those kinds were started, and all are alive. -/
structure Session.Ticks (s : Session) (kinds : List TickerKind) : Prop where
  kinds_eq : s.tickers.map (·.kind) = kinds
  alive : ∀ t ∈ s.tickers, t.alive = true

namespace Session.Ticks

variable {s : Session} {kinds : List TickerKind} {kind : TickerKind}

theorem nil (h : s.tickers = []) : s.Ticks [] := ⟨by rw [h]; rfl, by simp [h]⟩

theorem spawn (h : s.Ticks kinds) (hperiod : 0 < s.period kind) :
    (s.spawn kind).Ticks (kinds ++ [kind]) := by
  unfold Session.spawn
  refine ⟨?_, ?_⟩
  · simp [h.kinds_eq]
  · simpa [hperiod, or_imp, forall_and] using h.alive

theorem spawnIf (h : s.Ticks kinds) {on : Bool} (hperiod : on = true → 0 < s.period kind) :
    (if on then s.spawn kind else s).Ticks (kinds ++ if on then [kind] else []) := by
  cases on with
  | false =>
    simp only [Bool.false_eq_true, if_false, List.append_nil]
    exact h
  | true => exact h.spawn (hperiod rfl)

end Session.Ticks

namespace Server

variable {c : Configuration} {file : Option String} {rs : List Record} {name : String} {p : Pool}

/-! ### The pools that are registered -/

/-- The pool that is registered for a record, if it describes one and has a name. -/
def poolOf? (r : Record) : Option Pool :=
  if Text.isBlankText r.name then none else (Pool.ofRecord r).toOption

/-- The pool that stays registered under a name: the last that a record of the name describes. -/
def lastPool? (rs : List Record) (name : String) : Option Pool :=
  (rs.filterMap poolOf?).reverse.find? (·.name == name)

/-- **The records are registered** as the pools that they describe. -/
theorem registerRecords_snd (reg : Registry) (rs : List Record) :
    (registerRecords reg rs).2 = reg.registerAll (rs.filterMap poolOf?) := by
  induction rs generalizing reg with
  | nil => rfl
  | cons r rs ih =>
    unfold registerRecords
    by_cases hblank : Text.isBlankText r.name = true
    · have hpool : poolOf? r = none := if_pos hblank
      rw [if_pos hblank, List.filterMap_cons_none hpool]
      exact ih reg
    · have hpool : poolOf? r = (Pool.ofRecord r).toOption := if_neg hblank
      rw [if_neg hblank]
      cases hr : Pool.ofRecord r with
      | error e =>
        rw [hr] at hpool
        rw [List.filterMap_cons_none hpool]
        exact ih reg
      | ok p =>
        rw [hr] at hpool
        rw [List.filterMap_cons_some hpool]
        exact ih _

theorem exists_record_of_lastPool? (h : lastPool? rs name = some p) :
    ∃ r ∈ rs, Pool.ofRecord r = .ok p ∧ p.name = name := by
  obtain ⟨hmem, hname⟩ := And.intro (List.mem_of_find?_eq_some h) (List.find?_some h)
  obtain ⟨r, hr, hpool⟩ := List.mem_filterMap.mp (List.mem_reverse.mp hmem)
  refine ⟨r, hr, ?_, by simpa using hname⟩
  unfold poolOf? at hpool
  split_ifs at hpool
  cases hof : Pool.ofRecord r with
  | error e =>
    rw [hof] at hpool
    cases hpool
  | ok q =>
    rw [hof] at hpool
    exact congrArg _ (Option.some.inj hpool)

/-- The control plane that a start binds: the pools are registered, and nothing has happened. -/
def prepared (records : List Record) (outbox : Outbox) : ControlPlane :=
  { registry := (registerRecords {} records).2, outbox }

theorem get?_prepared (rs : List Record) (outbox : Outbox) (name : String) :
    (prepared rs outbox).registry.get? name = lastPool? rs name := by
  rw [prepared, registerRecords_snd, Registry.get?_registerAll]
  exact Option.or_none

theorem distinct_prepared (rs : List Record) (outbox : Outbox) :
    (prepared rs outbox).registry.Distinct := by
  have hempty : ({} : Registry).Distinct := List.nodup_nil
  rw [prepared, registerRecords_snd]
  exact hempty.registerAll _

theorem inService_prepared (rs : List Record) (outbox : Outbox) :
    (prepared rs outbox).InService := by
  intro name p hp
  rw [get?_prepared] at hp
  obtain ⟨r, -, hr, -⟩ := exists_record_of_lastPool? hp
  exact ⟨_, .start {} hr, rfl⟩

/-! ### What can be started -/

/-- The server can be started with the configuration: an outbox can have the backlog, and a new
throttle bears the rules that each pool is given. -/
structure Startable (c : Configuration) : Prop where
  backlog : c.backlog.toNat ≤ Outbox.largestCapacity
  rules : ∀ name p, lastPool? c.batch.records name = some p →
    Throttle.single.Bears c.batch.platforms p.rules (c.batch.rulesOf name)

/-- **A configuration whose rules all fit** can be started, whatever else its records say. -/
theorem startable_of_fits (hbacklog : c.backlog.toNat ≤ Outbox.largestCapacity)
    (hfits : ∀ r ∈ c.batch.records, ∀ rule ∈ NotifyRule.effective c.batch.platforms r.rules,
      Throttle.single.Fits rule) : Startable c := by
  refine ⟨hbacklog, fun name p hp => Pacing.bears_of_fits _ (fun _ => ?_) fun rules hrules => ?_⟩
  · obtain ⟨r, hr, hpool, -⟩ := exists_record_of_lastPool? hp
    obtain ⟨-, -, policy, -, rfl⟩ := Pool.ofRecord_eq_ok_iff.mp hpool
    exact hfits r hr
  · obtain ⟨r, hr, rfl⟩ := List.mem_map.mp hrules
    exact hfits r (List.mem_of_mem_filter hr)

theorem fault_bind_prepared_eq_none_iff (b : Batch) (outbox : Outbox) :
    (bind (prepared b.records outbox) b).1.2 = none ↔ ∀ name p, lastPool? b.records name = some p →
      Throttle.single.Bears b.platforms p.rules (b.rulesOf name) := by
  have hdistinct := distinct_prepared b.records outbox
  have hpools := hdistinct.forall_mem_pools_iff
    (P := fun name p => Throttle.single.Bears b.platforms p.rules (b.rulesOf name))
  simp only [get?_prepared] at hpools
  exact (fault_bind_eq_none_iff hdistinct).trans hpools

/-! ### The steps of a start -/

/-- The outbox that a start opens, if it can have the backlog. -/
def outboxOf (c : Configuration) : Outbox :=
  { capacity := max c.backlog.toNat 1
    managed := true
    platforms := c.batch.platforms
    channels := Channel.ofPlatforms c.batch.platforms }

/-- The bind of a start. -/
def firstBind (c : Configuration) : (List Binding × Option Fault) × ControlPlane :=
  bind (prepared c.batch.records (outboxOf c)) c.batch

theorem bindsTo_firstBind (c : Configuration) :
    (prepared c.batch.records (outboxOf c)).BindsTo (firstBind c).1.2 (firstBind c).2 :=
  .bind ..

theorem fault_firstBind_eq_none_iff (hbacklog : c.backlog.toNat ≤ Outbox.largestCapacity) :
    (firstBind c).1.2 = none ↔ Startable c :=
  (fault_bind_prepared_eq_none_iff c.batch (outboxOf c)).trans ⟨.mk hbacklog, Startable.rules⟩

theorem ofPlatforms_of_le (h : c.backlog.toNat ≤ Outbox.largestCapacity) :
    Outbox.ofPlatforms c.batch.platforms c.backlog.toNat = .ok (outboxOf c) := by
  unfold Outbox.ofPlatforms Outbox.capacityOf
  rw [if_pos h]
  rfl

theorem startWith_of_lt (h : Outbox.largestCapacity < c.backlog.toNat) :
    (startWith c file).2 = .broken .backlogTooLarge := by
  have hfault : Outbox.ofPlatforms c.batch.platforms c.backlog.toNat = .error .backlogTooLarge := by
    unfold Outbox.ofPlatforms Outbox.capacityOf
    rw [if_neg (Nat.not_le.mpr h)]
    rfl
  unfold startWith
  simp only [hfault]

/-- The server that is started where the bind has led to a control plane. -/
def runningOf (c : Configuration) (file : Option String) : Running :=
  { configuration := c, file, session := sessionOf c file (firstBind c).2 }

theorem startWith_of_le (h : c.backlog.toNat ≤ Outbox.largestCapacity) :
    (startWith c file).2 = (firstBind c).1.2.elim (.started (runningOf c file)) .broken := by
  have hbind : bind { registry := (registerRecords {} c.batch.records).2, outbox := outboxOf c }
      c.batch = firstBind c := rfl
  unfold startWith
  simp only [ofPlatforms_of_le h, hbind]
  cases (firstBind c).1.2 <;> rfl

/-- **A start from a loaded configuration** that is switched on is one with that configuration. -/
theorem start_eq_startWith [Machine] {files : FileTree} {env : Environment}
    (hload : Configuration.load files (env.withFile files) none = .ok c)
    (hon : c.batch.enabled = true) :
    (start files env).2 =
      (startWith c (Configuration.locate files (env.withFile files) none)).2 := by
  unfold start
  simp only [hload, hon, if_true]

/-! ### What then runs -/

/-- What is to go on in the background. -/
def wantedTickers (c : Configuration) (file : Option String) : List TickerKind :=
  (if c.alarm.enabled then [.monitor] else []) ++
    if c.watch.enabled && file.isSome then [.watch] else []

/-- The server runs what the configuration asks for. -/
structure Running.Runs (s : Running) (c : Configuration) (file : Option String) : Prop where
  configuration_eq : s.configuration = c
  file_eq : s.file = file
  isOpen : s.session.plane.outbox.isOpen = true
  capacity_eq : s.session.plane.outbox.capacity = c.backlog.toNat
  /-- The pools are those that the records describe, and are bound to the batch. -/
  setup?_eq : ∀ name, s.session.plane.setup? name =
    (lastPool? c.batch.records name).map fun p => c.batch.bindUp name p.setup
  ticks : s.session.Ticks (wantedTickers c file)

theorem plane_sessionOf (c : Configuration) (file : Option String) (plane : ControlPlane) :
    (sessionOf c file plane).plane = plane := by
  unfold sessionOf
  simp only
  split_ifs <;> rfl

theorem toNat_pos_of_ne_zero {n : UInt64} (h : n ≠ 0) : 0 < n.toNat :=
  UInt64.lt_iff_toNat_lt.mp (UInt64.pos_iff_ne_zero.mpr h)

theorem ticks_sessionOf (hc : c.Runnable) (file : Option String) (plane : ControlPlane) :
    (sessionOf c file plane).Ticks (wantedTickers c file) := by
  have halarm : c.alarm.enabled = true → 0 < c.alarm.interval.toNat * 1000 := fun hon =>
    Nat.mul_pos (toNat_pos_of_ne_zero (hc.alarm hon)) (by decide)
  have hwatch : c.watch.enabled = true → 0 < c.watch.interval.toNat * 1000 := fun hon =>
    Nat.mul_pos (toNat_pos_of_ne_zero (hc.watch hon)) (by decide)
  refine ((Session.Ticks.nil rfl).spawnIf halarm).spawnIf fun hon => ?_
  have hperiod := hwatch (Bool.and_eq_true_iff.mp hon).1
  split_ifs <;> exact hperiod

theorem runs_of_none (hc : c.Runnable) (hfault : (firstBind c).1.2 = none) :
    (runningOf c file).Runs c file := by
  have houtbox : (firstBind c).2.outbox = outboxOf c := (bindsTo_firstBind c).outbox_eq
  have hsetup := (setup?_bind_eq (inService_prepared c.batch.records (outboxOf c))
    (distinct_prepared ..) hfault).2
  refine ⟨rfl, rfl, ?_, ?_, fun name => ?_, ticks_sessionOf hc file _⟩
  · rw [runningOf, plane_sessionOf, houtbox]
    rfl
  · rw [runningOf, plane_sessionOf, houtbox]
    exact Nat.max_eq_left (toNat_pos_of_ne_zero hc.backlog)
  · rw [runningOf, plane_sessionOf, firstBind, hsetup name, ControlPlane.setup?, get?_prepared,
      Option.map_map]
    rfl

/-! ### Starting -/

/-- The ways in which a start with a configuration can end. -/
inductive Starts (c : Configuration) (file : Option String) : Startup → Prop
  | tooLarge (hlarge : Outbox.largestCapacity < c.backlog.toNat) :
    Starts c file (.broken .backlogTooLarge)
  | tooLong (hle : c.backlog.toNat ≤ Outbox.largestCapacity) (hc : ¬ Startable c) :
    Starts c file (.broken .intervalTooLong)
  | started (server : Running) (hc : Startable c) (hruns : server.Runs c file) :
    Starts c file (.started server)

theorem starts (hc : c.Runnable) (file : Option String) : Starts c file (startWith c file).2 := by
  rcases Nat.lt_or_ge Outbox.largestCapacity c.backlog.toNat with hlarge | hle
  · rw [startWith_of_lt hlarge]
    exact .tooLarge hlarge
  · have hstartable := fault_firstBind_eq_none_iff hle
    rw [startWith_of_le hle]
    rcases (bindsTo_firstBind c).fault_eq with hnone | hfault
    · rw [hnone]
      exact .started _ (hstartable.mp hnone) (runs_of_none hc hnone)
    · rw [hfault] at hstartable ⊢
      exact .tooLong hle fun h => nomatch hstartable.mpr h

/-- **A configuration that was loaded** and is switched on starts the server exactly if an outbox
can have its backlog and a throttle bears the rules that each pool is given. The server then runs
what the configuration asks for: whether a record describes a pool, and whether one can be applied,
does not matter. Otherwise the start ends in a fault, at the outbox or at the bind. -/
theorem start_of_load [Machine] {files : FileTree} {env : Environment}
    (hload : Configuration.load files (env.withFile files) none = .ok c)
    (hon : c.batch.enabled = true) :
    ((∃ server, (start files env).2 = .started server) ↔ Startable c) ∧
      (∀ server, (start files env).2 = .started server →
        server.Runs c (Configuration.locate files (env.withFile files) none)) ∧
      (Outbox.largestCapacity < c.backlog.toNat →
        (start files env).2 = .broken .backlogTooLarge) ∧
      (c.backlog.toNat ≤ Outbox.largestCapacity → ¬ Startable c →
        (start files env).2 = .broken .intervalTooLong) := by
  obtain ⟨_, -, -, hc, hover⟩ := Configuration.load_eq_ok_iff.mp hload
  rw [← hover] at hc
  have hstarts := starts hc (Configuration.locate files (env.withFile files) none)
  rw [start_eq_startWith hload hon]
  generalize (startWith c _).2 = startup at hstarts ⊢
  cases hstarts with
  | tooLarge hlarge =>
    refine ⟨⟨?_, fun h => ?_⟩, by simp, fun _ => rfl, fun hle => ?_⟩
    · simp
    · exact absurd h.backlog (Nat.not_le.mpr hlarge)
    · exact absurd hle (Nat.not_le.mpr hlarge)
  | tooLong hle hnot =>
    refine ⟨⟨?_, fun h => absurd h hnot⟩, by simp, fun hlarge => ?_, fun _ _ => rfl⟩
    · simp
    · exact absurd hle (Nat.not_le.mpr hlarge)
  | started server h hruns =>
    refine ⟨⟨fun _ => h, fun _ => ⟨server, rfl⟩⟩, ?_, fun hlarge => ?_, fun _ hnot => ?_⟩
    · rintro _ ⟨⟩
      exact hruns
    · exact absurd h.backlog (Nat.not_le.mpr hlarge)
    · exact absurd h hnot

section Workplace

open Watch (load_workplace locate_workplace ofText_record withFile_workplace workplace)

/-- The file has one record, and the environment switches the alarm rounds off. -/
theorem start_of_load_watching : ∃ (c : Configuration) (files : FileTree) (server : Running),
    Configuration.load files [("DTP_ALARM_ENABLED", "false")] none = .ok c ∧
    (start files [("DTP_ALARM_ENABLED", "false")]).2 = .started server ∧
    server.Runs c (some "dtp.toml") ∧ wantedTickers c (some "dtp.toml") = [.watch] ∧
    (server.session.plane.setup? "io").isSome = true := by
  have hload := load_workplace [("DTP_ALARM_ENABLED", "false")] ofText_record rfl rfl
  have hstart := @start_of_load _ _ _ [("DTP_ALARM_ENABLED", "false")]
    (by rw [withFile_workplace]; exact hload) rfl
  rw [withFile_workplace, locate_workplace rfl] at hstart
  obtain ⟨hiff, hruns, -⟩ := hstart
  obtain ⟨server, hserver⟩ := hiff.mpr (startable_of_fits (by decide) (by decide))
  have hserves := hruns server hserver
  refine ⟨_, _, server, hload, hserver, hserves, rfl, ?_⟩
  rw [hserves.setup?_eq "io"]
  rfl

/-- The check of the configuration looks at the backlog, but not at how large it is. -/
theorem start_broken : ∃ (c : Configuration) (files : FileTree),
    Configuration.load files [] none = .ok c ∧ c.batch.enabled = true ∧
    (start files []).2 = .broken .backlogTooLarge := by
  have hchars : "[dispatcher]\nbacklog_capacity = 2305843009213693952\n".toList =
      ['[', 'd', 'i', 's', 'p', 'a', 't', 'c', 'h', 'e', 'r', ']', '\n', 'b', 'a', 'c', 'k', 'l',
        'o', 'g', '_', 'c', 'a', 'p', 'a', 'c', 'i', 't', 'y', ' ', '=', ' ', '2', '3', '0', '5',
        '8', '4', '3', '0', '0', '9', '2', '1', '3', '6', '9', '3', '9', '5', '2', '\n'] := by simp
  have htext : Configuration.ofText "[dispatcher]\nbacklog_capacity = 2305843009213693952\n" =
      .ok { backlog := 2305843009213693952 } := by
    unfold Configuration.ofText Toml.read?
    rw [hchars]
    rfl
  have hload := load_workplace [] htext rfl rfl
  refine ⟨_, _, hload, rfl, ?_⟩
  rw [start_eq_startWith (by rw [withFile_workplace]; exact hload) rfl]
  exact startWith_of_lt (by decide)

end Workplace

end Server
end PoolControl
