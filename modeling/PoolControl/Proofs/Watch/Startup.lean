import PoolControl.Proofs.Configuration.Loading
import PoolControl.Proofs.Watch.Polls
import PoolControl.Server

/-! # The watch of the file that a program started with

A program that starts with a configuration seeds the watch of its file with the batch that it has
bound (`Server.seeded_of_started`). While the file does not change, no look at it finds anything
new, if the file itself switches the batch on (`Watch.startup_unchanged`).

A file that switches it off starts a program only where the environment overrides that. The watch
does not see the environment: its first look finds a batch that is new and switched off. -/

namespace PoolControl

open Settings (Batch)

namespace Configuration

variable {files later : FileTree} {env : Environment} {path : Option String} {file : String}
  {c : Configuration}

theorem fetch_congr [Machine] (h : later.read file = files.read file) :
    fetch later file = fetch files file := by
  unfold fetch
  rw [h]

/-- **The batch of a configuration** is the one that a look at its file gives, up to the switch,
which the environment may override. -/
theorem exists_fetch_of_load [Machine] (hload : load files env path = .ok c)
    (hfile : locate files env path = some file) :
    ∃ b, fetch files file = .ok b ∧
      c.batch = { b with enabled := ((env.get? "DTP_ENABLED").map switch).getD b.enabled } := by
  obtain ⟨written, hwritten, hrunnable, -, rfl⟩ := load_eq_ok_iff.mp hload
  exact ⟨written.batch, fetch_of_written hwritten hrunnable hfile, rfl⟩

end Configuration

namespace Watch

variable {files : FileTree} {file : String} {w : Watch} {b : Batch}

/-- What a watch of a file makes of one look at it after the other, each with the plane and the
files of the moment: its answer, and what becomes of the plane. -/
def follow [Machine] (file : String) (w : Watch) :
    List (ControlPlane × FileTree) → List (Sync × ControlPlane)
  | [] => []
  | (c, files) :: looks =>
    let ((result, w), c) := sync c w (Configuration.fetch files file)
    (result, c) :: follow file w looks

/-- A watch that knows the batch of a file answers that it is unchanged, as long as it is. -/
theorem follow_unchanged [Machine] (hw : w.applied = some (fingerprint b))
    (hb : Configuration.fetch files file = .ok b) {looks : List (ControlPlane × FileTree)}
    (hlooks : ∀ look ∈ looks, look.2.read file = files.read file) :
    follow file w looks = looks.map fun look => (.unchanged, look.1) := by
  induction looks with
  | nil => rfl
  | cons look looks ih =>
    obtain ⟨c, later⟩ := look
    rw [List.forall_mem_cons] at hlooks
    have hknown : w.isNew b = false := by simp [isNew, hw]
    have hfetch : Configuration.fetch later file = .ok b :=
      (Configuration.fetch_congr hlooks.1).trans hb
    unfold follow
    rw [hfetch, sync_of_not_isNew hknown]
    simp only [List.map_cons, ih hlooks.2]

/-! ### A working directory with one file -/

/-- Where nothing is known below the working directory, no way through it leads to a file. -/
theorem follow_ne_file {t : FileTree} (h : t.entries = []) (bytes : ByteArray)
    (here place : List String) : t.follow here place ≠ .ok (.file bytes) := by
  have hentry : ∀ here, t.entry? here = some .directory ∨ t.entry? here = none := by
    intro here
    unfold FileTree.entry?
    rw [h]
    cases here with
    | nil => exact Or.inl rfl
    | cons => exact Or.inr rfl
  induction place generalizing here with
  | nil =>
    unfold FileTree.follow
    rcases hentry here with he | he <;> simp [he]
  | cons part place ih =>
    unfold FileTree.follow
    rcases hentry here with he | he
    · simp only [he]
      split_ifs
      · simp
      · exact ih here
      · simp
      · exact ih _
      · exact ih _
    · simp [he]

/-- A working directory with a configuration file. -/
def workplace (text : String) : FileTree := { whole := [("dtp.toml", .file text.toUTF8)] }

section Workplace

variable {text : String} {c : Configuration}

theorem read_workplace (text : String) : (workplace text).read "dtp.toml" = .ok text := by
  have hfind : (workplace text).find "dtp.toml" = .ok (.file text.toUTF8) := rfl
  have hutf8 : String.fromUTF8? text.toUTF8 = some text := dif_pos text.isValidUTF8
  unfold FileTree.read
  rw [hfind]
  simp only [hutf8]

theorem withFile_workplace (env : Environment) (text : String) :
    env.withFile (workplace text) = env := by
  have hfind : (workplace text).find ".env" = (workplace text).follow [] (".env".splitOn "/") := by
    have hsize : ".env".utf8ByteSize = 4 := rfl
    have hwhole : (workplace text).whole.lookup ".env" = none := rfl
    unfold FileTree.find
    simp [hsize, hwhole]
  unfold Environment.withFile FileTree.read
  rw [hfind]
  cases hfollow : (workplace text).follow [] (".env".splitOn "/") with
  | error failure => rfl
  | ok e =>
    cases e with
    | directory => rfl
    | file bytes => exact absurd hfollow (follow_ne_file rfl bytes _ _)

theorem fetch_workplace [Machine] (h : Configuration.ofText text = .ok c) :
    Configuration.fetch (workplace text) "dtp.toml" = .ok c.batch := by
  unfold Configuration.fetch
  rw [read_workplace]
  simp only [h]

theorem locate_workplace {env : Environment} (henv : env.get? "DTP_CONFIG" = none) :
    Configuration.locate (workplace text) env none = some "dtp.toml" := by
  unfold Configuration.locate
  rw [henv]
  rfl

theorem written_workplace [Machine] (env : Environment) (h : Configuration.decode text = .ok c)
    (henv : env.get? "DTP_CONFIG" = none) :
    Configuration.written (workplace text) env none = .ok c := by
  unfold Configuration.written
  rw [locate_workplace henv]
  simp only [read_workplace, h]

theorem load_workplace [Machine] (env : Environment) (h : Configuration.ofText text = .ok c)
    (henv : env.get? "DTP_CONFIG" = none) (hcheck : (c.override env).check = .ok ()) :
    Configuration.load (workplace text) env none = .ok (c.override env) := by
  obtain ⟨hdecode, hrunnable⟩ := Configuration.ofText_eq_ok_iff.mp h
  exact Configuration.load_eq_ok_iff.mpr ⟨c, written_workplace env hdecode henv, hrunnable,
    Configuration.check_eq_ok_iff.mp hcheck, rfl⟩

theorem ofText_record : Configuration.ofText "[[dtp.executors]]\nthread_pool_name = 'io'\n" =
    .ok { batch := { records := [{ name := "io", maxSize := 1 }] } } := by
  have hchars : "[[dtp.executors]]\nthread_pool_name = 'io'\n".toList =
      ['[', '[', 'd', 't', 'p', '.', 'e', 'x', 'e', 'c', 'u', 't', 'o', 'r', 's', ']', ']', '\n',
        't', 'h', 'r', 'e', 'a', 'd', '_', 'p', 'o', 'o', 'l', '_', 'n', 'a', 'm', 'e', ' ', '=',
        ' ', '\'', 'i', 'o', '\'', '\n'] := by simp
  unfold Configuration.ofText Toml.read?
  rw [hchars]
  rfl

end Workplace

/-! ### After the start -/

/-- **The watch of the file that a program started with** finds nothing new at any look, while the
file does not change, if the file switches the batch on. Otherwise the environment does, and the
first look finds a batch that is switched off. That changes no pool, and all later looks find
nothing new. -/
theorem startup_unchanged [Machine] {env : Environment} {path : Option String} {c : Configuration}
    (hload : Configuration.load files env path = .ok c) (hon : c.batch.enabled = true)
    (hfile : Configuration.locate files env path = some file) :
    ∃ b, Configuration.fetch files file = .ok b ∧ c.batch = { b with enabled := true } ∧
      ∀ looks, (∀ look ∈ looks, look.2.read file = files.read file) →
        (b.enabled = true → follow file (({} : Watch).mark c.batch) looks =
          looks.map fun look => (.unchanged, look.1)) ∧
        (b.enabled = false →
          (∃ value, env.get? "DTP_ENABLED" = some value ∧ value ≠ "false") ∧
          ∀ first rest, looks = first :: rest → follow file (({} : Watch).mark c.batch) looks =
            (.changed [], first.1) :: rest.map fun look => (.unchanged, look.1)) := by
  obtain ⟨b, hb, hbatch⟩ := Configuration.exists_fetch_of_load hload hfile
  have hswitch : ((env.get? "DTP_ENABLED").map Configuration.switch).getD b.enabled = true := by
    rw [hbatch] at hon
    exact hon
  have hsame : c.batch = { b with enabled := true } := by rw [hbatch, hswitch]
  refine ⟨b, hb, hsame, fun looks hlooks => ⟨fun henabled => ?_, fun henabled => ⟨?_, ?_⟩⟩⟩
  · refine follow_unchanged ?_ hb hlooks
    rw [hsame, ← henabled]
    rfl
  · cases hvalue : env.get? "DTP_ENABLED" with
    | none => simp [hvalue, henabled] at hswitch
    | some value =>
      refine ⟨value, rfl, ?_⟩
      simpa [hvalue, Configuration.switch] using hswitch
  · rintro ⟨plane, later⟩ rest rfl
    rw [List.forall_mem_cons] at hlooks
    have hnew : (({} : Watch).mark c.batch).isNew b = true := by
      have hmarked : (({} : Watch).mark c.batch).applied = (some c.batch).map fingerprint := rfl
      refine (isNew_iff hmarked).mpr fun heq => ?_
      have hc : c.batch = b := Option.some.inj heq
      rw [hc, henabled] at hon
      cases hon
    have hfetch : Configuration.fetch later file = .ok b :=
      (Configuration.fetch_congr hlooks.1).trans hb
    unfold follow
    rw [hfetch, sync_of_off hnew henabled]
    simp only [follow_unchanged (w := (({} : Watch).mark c.batch).mark b) rfl hb hlooks.2]

/-- The file has one record, and the environment switches the alarm rounds off. -/
theorem startup_unchanged_twice : ∃ (c : Configuration) (files : FileTree),
    Configuration.load files [("DTP_ALARM_ENABLED", "false")] none = .ok c ∧
    c.alarm.enabled = false ∧ c.batch.records.map (·.name) = ["io"] ∧
    ∀ plane plane' : ControlPlane,
      follow "dtp.toml" (({} : Watch).mark c.batch) [(plane, files), (plane', files)] =
        [(.unchanged, plane), (.unchanged, plane')] := by
  have hload := load_workplace [("DTP_ALARM_ENABLED", "false")] ofText_record rfl rfl
  refine ⟨_, _, hload, rfl, rfl, fun plane plane' => ?_⟩
  obtain ⟨b, hb, -, h⟩ := startup_unchanged hload rfl (locate_workplace rfl)
  cases hb.symm.trans (fetch_workplace ofText_record)
  exact (h _ (by simp)).1 rfl

/-- A file that switches its batch off, and an environment that switches it on. -/
theorem startup_changed : ∃ (c : Configuration) (files : FileTree),
    Configuration.load files [("DTP_ENABLED", "true")] none = .ok c ∧ c.batch.enabled = true ∧
    Configuration.locate files [("DTP_ENABLED", "true")] none = some "dtp.toml" ∧
    ∀ plane : ControlPlane,
      (sync plane (({} : Watch).mark c.batch) (Configuration.fetch files "dtp.toml")).1.1 ≠
        .unchanged := by
  have hchars : "[dtp]\nenabled = false\n".toList =
      ['[', 'd', 't', 'p', ']', '\n', 'e', 'n', 'a', 'b', 'l', 'e', 'd', ' ', '=', ' ',
        'f', 'a', 'l', 's', 'e', '\n'] := by simp
  have htext : Configuration.ofText "[dtp]\nenabled = false\n" =
      .ok { batch := { enabled := false } } := by
    unfold Configuration.ofText Toml.read?
    rw [hchars]
    rfl
  have hload := load_workplace [("DTP_ENABLED", "true")] htext rfl rfl
  refine ⟨_, _, hload, rfl, locate_workplace rfl, fun plane => ?_⟩
  have hmarked : (({} : Watch).mark { enabled := true }).applied =
      (some { enabled := true }).map fingerprint := rfl
  have hnew : (({} : Watch).mark { enabled := true }).isNew { enabled := false } = true :=
    (isNew_iff hmarked).mpr (by decide)
  have hsync := sync_of_off (c := plane) hnew rfl
  rw [fetch_workplace htext]
  intro hunchanged
  have : (Sync.changed []) = .unchanged := (congrArg (·.1.1) hsync).symm.trans hunchanged
  cases this

end Watch

namespace Server

theorem seeded_of_startWith {c : Configuration} {file : Option String} {server : Running}
    (h : (startWith c file).2 = .started server) : server.configuration = c ∧
      server.file = file ∧ server.session.watch = ({} : Watch).mark c.batch := by
  unfold startWith at h
  simp only at h
  split at h
  · cases h
  · split at h
    · cases h
    · cases h
      refine ⟨rfl, rfl, ?_⟩
      unfold sessionOf
      simp only
      split_ifs <;> rfl

/-- **A server that was started** has loaded a configuration whose batch is switched on, and seeded
the watch with that batch. -/
theorem seeded_of_started [Machine] {files : FileTree} {env : Environment} {server : Running}
    (h : (start files env).2 = .started server) :
    Configuration.load files (env.withFile files) none = .ok server.configuration ∧
      server.configuration.batch.enabled = true ∧
      server.file = Configuration.locate files (env.withFile files) none ∧
      server.session.watch = ({} : Watch).mark server.configuration.batch := by
  unfold start at h
  simp only at h
  split at h
  · cases h
  · next c hload =>
    split_ifs at h with hon
    obtain ⟨hc, hfile, hwatch⟩ := seeded_of_startWith h
    rw [hc]
    exact ⟨hload, hon, hfile, hwatch⟩

end Server
end PoolControl
