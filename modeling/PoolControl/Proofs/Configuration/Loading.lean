import Mathlib.Tactic.SplitIfs
import PoolControl.Configuration.Load

/-! # What is loaded

The settings that the environment is to override are those of the file that is found, or the
defaults where there is none (`Configuration.written`). They are checked twice, as they are written
and once they are overridden (`Configuration.load_eq`). So what is loaded are settings that the
control plane can run with both times (`Configuration.load_eq_ok_iff`). -/

namespace PoolControl

/-- The activity is switched off or has an interval. -/
def Periodic.Runnable (p : Periodic) : Prop := p.enabled = true → p.interval ≠ 0

namespace Configuration

/-- The control plane can run with the configuration. -/
structure Runnable (c : Configuration) : Prop where
  backlog : c.backlog ≠ 0
  alarm : c.alarm.Runnable
  watch : c.watch.Runnable

variable {files : FileTree} {env : Environment} {path : Option String} {file : String}
  {c d : Configuration}

/-! ### The check -/

theorem check_eq_ok_iff : c.check = .ok () ↔ c.Runnable := by
  constructor
  · intro h
    unfold check at h
    split_ifs at h with hbacklog halarm hwatch
    exact ⟨hbacklog, fun hon hzero => halarm ⟨hon, hzero⟩, fun hon hzero => hwatch ⟨hon, hzero⟩⟩
  · rintro ⟨hbacklog, halarm, hwatch⟩
    unfold check
    rw [if_neg hbacklog, if_neg fun h => halarm h.1 h.2, if_neg fun h => hwatch h.1 h.2]

theorem exists_flaw_of_not_runnable (h : ¬ c.Runnable) : ∃ flaw, c.check = .error flaw := by
  rw [← check_eq_ok_iff] at h
  cases hc : c.check with
  | ok _ => exact absurd hc h
  | error flaw => exact ⟨flaw, rfl⟩

/-- The configuration itself, if it passes the check. -/
def checked (c : Configuration) : Except LoadError Configuration :=
  match c.check with
  | .ok _ => .ok c
  | .error flaw => .error (.invalid flaw)

theorem checked_of_runnable (h : c.Runnable) : c.checked = .ok c := by
  rw [checked, check_eq_ok_iff.mpr h]

theorem checked_of_flaw {flaw : ConfigurationFlaw} (h : c.check = .error flaw) :
    c.checked = .error (.invalid flaw) := by
  rw [checked, h]

theorem checked_eq_ok_iff : c.checked = .ok d ↔ c.Runnable ∧ d = c := by
  constructor
  · intro h
    by_cases hc : c.Runnable
    · rw [checked_of_runnable hc] at h
      exact ⟨hc, (Except.ok.inj h).symm⟩
    · obtain ⟨flaw, hflaw⟩ := exists_flaw_of_not_runnable hc
      rw [checked_of_flaw hflaw] at h
      cases h
  · rintro ⟨hc, rfl⟩
    exact checked_of_runnable hc

/-! ### Before the environment -/

/-- The configuration that a text describes, whether or not it passes the check. -/
def decode [Machine] (text : String) : Except LoadError Configuration :=
  match (Toml.read? text).bind ofDatum? with
  | some c => .ok c
  | none => .error .malformed

/-- The settings that the environment is to override: those of the file that is found, whether or
not they pass the check, or the defaults where there is none. -/
def written [Machine] (files : FileTree) (env : Environment) (path : Option String) :
    Except LoadError Configuration :=
  match locate files env path with
  | none => .ok {}
  | some file =>
    match files.read file with
    | .ok text => decode text
    | .error failure => .error (.unreadable failure)

theorem ofText_eq [Machine] (text : String) : ofText text = decode text >>= checked := by
  unfold ofText decode
  cases (Toml.read? text).bind ofDatum? <;> rfl

theorem step_eq_ok_iff {x : Except LoadError Configuration}
    {f : Configuration → Except LoadError Configuration} :
    x >>= f = .ok d ↔ ∃ c, x = .ok c ∧ f c = .ok d := by
  constructor
  · intro h
    cases x with
    | error e => cases h
    | ok c => exact ⟨c, rfl, h⟩
  · rintro ⟨c, rfl, h⟩
    exact h

theorem ofText_eq_ok_iff [Machine] {text : String} :
    ofText text = .ok c ↔ decode text = .ok c ∧ c.Runnable := by
  simp only [ofText_eq, step_eq_ok_iff, checked_eq_ok_iff]
  constructor
  · rintro ⟨_, h, hc, rfl⟩
    exact ⟨h, hc⟩
  · rintro ⟨h, hc⟩
    exact ⟨c, h, hc, rfl⟩

theorem runnable_default : ({} : Configuration).Runnable := check_eq_ok_iff.mp rfl

/-- **What is loaded**: the settings as they are written are checked, and checked once more when the
environment has overridden them. -/
theorem load_eq [Machine] (files : FileTree) (env : Environment) (path : Option String) :
    load files env path =
      written files env path >>= checked >>= fun c => (c.override env).checked := by
  unfold load written
  cases locate files env path with
  | none =>
    show _ = ({} : Configuration).checked >>= fun c => (c.override env).checked
    rw [checked_of_runnable runnable_default]
    rfl
  | some file =>
    simp only [ofFile]
    cases files.read file with
    | error failure => rfl
    | ok text =>
      simp only [ofText_eq]
      rfl

/-! ### After the environment -/

theorem load_of_runnable [Machine] (h : written files env path = .ok c) (hc : c.Runnable) :
    load files env path = (c.override env).checked := by
  rw [load_eq, h]
  show c.checked >>= _ = _
  rw [checked_of_runnable hc]
  rfl

theorem load_of_flaw [Machine] (h : written files env path = .ok c) {flaw : ConfigurationFlaw}
    (hflaw : c.check = .error flaw) : load files env path = .error (.invalid flaw) := by
  rw [load_eq, h]
  show c.checked >>= _ = _
  rw [checked_of_flaw hflaw]
  rfl

/-- **A configuration is loaded** exactly if the control plane can run with what is written and with
what that is overridden to. -/
theorem load_eq_ok_iff [Machine] : load files env path = .ok d ↔
    ∃ c, written files env path = .ok c ∧ c.Runnable ∧ (c.override env).Runnable ∧
      d = c.override env := by
  simp only [load_eq, step_eq_ok_iff, checked_eq_ok_iff]
  constructor
  · rintro ⟨_, ⟨c, hwritten, hc, rfl⟩, hover, rfl⟩
    exact ⟨_, hwritten, hc, hover, rfl⟩
  · rintro ⟨c, hwritten, hc, hover, rfl⟩
    exact ⟨c, ⟨c, hwritten, hc, rfl⟩, hover, rfl⟩

theorem fetch_of_written [Machine] (h : written files env path = .ok c) (hc : c.Runnable)
    (hfile : locate files env path = some file) : fetch files file = .ok c.batch := by
  simp only [written, hfile] at h
  unfold fetch
  cases hread : files.read file with
  | error failure =>
    rw [hread] at h
    cases h
  | ok text =>
    rw [hread] at h
    have htext : ofText text = .ok c := ofText_eq_ok_iff.mpr ⟨h, hc⟩
    simp only [htext]

end Configuration
end PoolControl
