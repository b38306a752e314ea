import PoolControl.Proofs.Watch.Startup

/-! # Settings that the environment overrides

A file that can be run as it is written is overridden and then checked, and that is all that decides
(`Configuration.load_overrides`). But a file with a flaw is refused even if the environment replaces
the flawed value (`Configuration.load_refuses`). -/

namespace PoolControl

namespace Configuration

variable {files : FileTree} {env : Environment} {path : Option String} {c : Configuration}

theorem exists_locate_of_not_runnable [Machine] (h : written files env path = .ok c)
    (hc : ¬ c.Runnable) : ∃ file, locate files env path = some file := by
  unfold written at h
  cases hfile : locate files env path with
  | none =>
    rw [hfile] at h
    cases h
    exact absurd runnable_default hc
  | some file => exact ⟨file, rfl⟩

/-- **The environment overrides a file that can be run as it is written.** The check lets a
configuration pass exactly if the control plane can run with it. Let a file be found that is
readable and well-formed, or none be found. If the settings that are written there, or the defaults,
pass the check, then loading succeeds exactly if they still do once they are overridden, and gives
them, so that no value matters that is replaced. Otherwise the file is refused for its flaw,
whatever the environment says. -/
theorem load_overrides [Machine] (h : written files env path = .ok c) :
    (∀ d : Configuration, d.check = .ok () ↔ d.Runnable) ∧
    (c.Runnable → ∀ d, load files env path = .ok d ↔
      (c.override env).check = .ok () ∧ d = c.override env) ∧
    (¬ c.Runnable → ∃ file flaw, locate files env path = some file ∧ c.check = .error flaw ∧
      load files env path = .error (.invalid flaw)) := by
  refine ⟨fun d => check_eq_ok_iff, fun hc d => ?_, fun hc => ?_⟩
  · rw [load_of_runnable h hc, checked_eq_ok_iff, check_eq_ok_iff]
  · obtain ⟨file, hfile⟩ := exists_locate_of_not_runnable h hc
    obtain ⟨flaw, hflaw⟩ := exists_flaw_of_not_runnable hc
    exact ⟨file, flaw, hfile, hflaw, load_of_flaw h hflaw⟩

section Workplace

open Watch (written_workplace)

/-- The file switches the watch off and gives it no interval, and the environment does both the
other way. It has no number for the backlog. -/
theorem load_overrides_watch : ∃ (files : FileTree) (env : Environment),
    env.get? "DTP_DISPATCHER_BACKLOG" = some "many" ∧
    written files env none = .ok { watch := { enabled := false, interval := 0 } } ∧
    load files env none = .ok { watch := { enabled := true, interval := 9 } } := by
  have hchars : "[watch]\nenabled = false\npoll_interval_seconds = 0\n".toList =
      ['[', 'w', 'a', 't', 'c', 'h', ']', '\n', 'e', 'n', 'a', 'b', 'l', 'e', 'd', ' ', '=', ' ',
        'f', 'a', 'l', 's', 'e', '\n', 'p', 'o', 'l', 'l', '_', 'i', 'n', 't', 'e', 'r', 'v', 'a',
        'l', '_', 's', 'e', 'c', 'o', 'n', 'd', 's', ' ', '=', ' ', '0', '\n'] := by simp
  have htext : decode "[watch]\nenabled = false\npoll_interval_seconds = 0\n" =
      .ok { watch := { enabled := false, interval := 0 } } := by
    unfold decode Toml.read?
    rw [hchars]
    rfl
  have hwritten := written_workplace [("DTP_WATCH_ENABLED", "yes"), ("DTP_WATCH_INTERVAL", "+9"),
    ("DTP_DISPATCHER_BACKLOG", "many")] htext rfl
  have hrunnable : ({ watch := { enabled := false, interval := 0 } } : Configuration).Runnable :=
    check_eq_ok_iff.mp rfl
  obtain ⟨-, hload, -⟩ := load_overrides hwritten
  exact ⟨_, _, rfl, hwritten, (hload hrunnable _).mpr ⟨rfl, rfl⟩⟩

/-- The environment replaces the only flaw of the file, which is refused all the same. -/
theorem load_refuses : ∃ (files : FileTree) (env : Environment) (c : Configuration),
    written files env none = .ok c ∧ (c.override env).check = .ok () ∧
    (c.override env).backlog = 5 ∧ load files env none = .error (.invalid .zeroBacklog) := by
  have hchars : "[dispatcher]\nbacklog_capacity = 0\n".toList =
      ['[', 'd', 'i', 's', 'p', 'a', 't', 'c', 'h', 'e', 'r', ']', '\n', 'b', 'a', 'c', 'k', 'l',
        'o', 'g', '_', 'c', 'a', 'p', 'a', 'c', 'i', 't', 'y', ' ', '=', ' ', '0', '\n'] := by simp
  have htext : decode "[dispatcher]\nbacklog_capacity = 0\n" = .ok { backlog := 0 } := by
    unfold decode Toml.read?
    rw [hchars]
    rfl
  have hwritten := written_workplace [("DTP_DISPATCHER_BACKLOG", "5")] htext rfl
  exact ⟨_, _, _, hwritten, rfl, rfl, load_of_flaw hwritten rfl⟩

end Workplace

end Configuration
end PoolControl
