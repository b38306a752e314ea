import PoolControl.Error
import PoolControl.Limiter
import PoolControl.Settings.NotifyRule

/-! # Throttling alerts

A `Throttle` keeps one gauge for each pool and kind of notice and says whether another alert is due.
A gauge has an interval and what its limiter remembers. One without an interval has no limiter and
never refuses. A key that has no gauge gets one of the default interval when it is first asked, and
so a throttle is built only where there can be such a gauge (`Pacing.makes_default`). -/

namespace PoolControl

open Settings (NoticeKind NotifyRule)

/-- The pool and the kind of notice that a gauge is for. -/
abbrev GaugeKey := String × NoticeKind

/-- What one key has been let through. -/
structure Gauge where
  interval : Nat
  /-- The moment when the gauge was made. -/
  madeAt : Nat
  /-- What the limiter remembers. -/
  word : Nat
  deriving DecidableEq, Repr

-- The number stands first, since a product unfolds into as many sums as its second factor.
/-- An interval in nanoseconds. -/
def nanosOfSecs (secs : Nat) : Nat := 1000000000 * secs

/-- The interval of a gauge that was asked for before it was set. -/
def defaultNanos : Nat := nanosOfSecs NotifyRule.defaultInterval.toNat

/-! ### Pacing -/

/-- How the alerts of a throttle are paced. -/
structure Pacing where
  /-- How many alerts a fresh gauge lets through at once. -/
  burst : Nat := 1
  limiter : Limiter := .cellRate
  makes_default : limiter.makes ⟨defaultNanos, burst⟩ = true := by rfl

namespace Pacing

variable (s : Pacing)

/-- What a gauge of an interval lets through. -/
def quota (interval : Nat) : Quota := ⟨interval, s.burst⟩

/-- Whether there can be a gauge of the interval. -/
def Makes (interval : Nat) : Prop := interval = 0 ∨ s.limiter.makes (s.quota interval) = true

instance (interval : Nat) : Decidable (s.Makes interval) := by unfold Makes; infer_instance

/-- A fresh gauge of the interval. -/
def fresh (interval now : Nat) : Gauge :=
  { interval, madeAt := now, word := s.limiter.fresh (s.quota interval) }

/-- Makes a gauge. -/
def build (interval now : Nat) : Except Fault Gauge :=
  if s.Makes interval then .ok (s.fresh interval now) else .error .intervalTooLong

theorem build_of_makes {s : Pacing} {interval : Nat} (h : s.Makes interval) (now : Nat) :
    s.build interval now = .ok (s.fresh interval now) := if_pos h

theorem build_of_not_makes {s : Pacing} {interval : Nat} (h : ¬ s.Makes interval) (now : Nat) :
    s.build interval now = .error .intervalTooLong := if_neg h

theorem build_default (now : Nat) :
    s.build defaultNanos now = .ok (s.fresh defaultNanos now) :=
  build_of_makes (.inr s.makes_default) now

/-- The gauge of a key that was asked for before it was set. -/
def spare (now : Nat) : Gauge :=
  (s.build defaultNanos now).toOption.get (by rw [build_default]; rfl)

theorem spare_eq (now : Nat) : s.spare now = s.fresh defaultNanos now := by
  simp [spare, build_default, Except.toOption]

end Pacing

/-- Asks for one alert at a moment. -/
def Gauge.ask (g : Gauge) (s : Pacing) (now : Nat) : Bool × Gauge :=
  if g.interval = 0 then (true, g)
  else
    let (granted, word) := s.limiter.check (s.quota g.interval) g.word (now - g.madeAt)
    (granted, { g with word })

/-! ### Throttles -/

/-- The gauges of all keys that were set or asked so far. -/
structure Throttle extends Pacing where
  gauges : List (GaugeKey × Gauge) := []

namespace Throttle

/-- The throttle that lets through one alert an interval and has no gauges yet. -/
def single : Throttle := {}

/-- The gauge of a key. -/
def gauge? (t : Throttle) (key : GaugeKey) : Option Gauge :=
  (t.gauges.find? (·.1 == key)).map (·.2)

/-- Whether the key has a gauge. -/
def contains (t : Throttle) (key : GaugeKey) : Bool := (t.gauge? key).isSome

/-- The throttle with that gauge for the key. -/
def setGauge (t : Throttle) (key : GaugeKey) (g : Gauge) : Throttle :=
  if t.contains key then
    { t with gauges := t.gauges.map fun e => if e.1 = key then (key, g) else e }
  else { t with gauges := t.gauges ++ [(key, g)] }

/-- Gives the key a fresh gauge of the rule's interval. -/
def reset (t : Throttle) (now : Nat) (pool : String) (rule : NotifyRule) : Except Fault Throttle :=
  (t.build (nanosOfSecs rule.intervalSecs) now).map (t.setGauge (pool, rule.kind))

/-- The gauge that is asked for a key. -/
def gaugeAt (t : Throttle) (key : GaugeKey) (now : Nat) : Gauge := (t.gauge? key).getD (t.spare now)

/-- Asks for one alert of a kind for a pool, at a moment. -/
def ask (t : Throttle) (key : GaugeKey) (now : Nat) : Bool × Throttle :=
  let (granted, g) := (t.gaugeAt key now).ask t.toPacing now
  (granted, t.setGauge key g)

/-! ### Looking up what was set -/

theorem gauge?_setGauge_self (t : Throttle) (key : GaugeKey) (g : Gauge) :
    (t.setGauge key g).gauge? key = some g := by
  obtain ⟨pacing, gauges⟩ := t
  by_cases h : (Throttle.mk pacing gauges).contains key = true
  · simp only [setGauge, h, if_true, gauge?]
    simp only [contains, gauge?, Option.isSome_map] at h
    induction gauges with
    | nil => simp at h
    | cons e es ih =>
      by_cases he : e.1 = key
      · simp [he]
      · rw [List.find?_cons_of_neg (by simpa using he)] at h
        rw [List.map_cons, List.find?_cons_of_neg (by simp [he])]
        exact ih h
  · have hn : gauges.find? (·.1 == key) = none := by
      simpa only [contains, gauge?, Option.isSome_map, Option.not_isSome_iff_eq_none] using h
    simp [setGauge, h, gauge?, List.find?_append, hn]

theorem gauge?_setGauge_of_ne (t : Throttle) {key other : GaugeKey} (g : Gauge)
    (h : key ≠ other) : (t.setGauge key g).gauge? other = t.gauge? other := by
  obtain ⟨pacing, gauges⟩ := t
  by_cases hc : (Throttle.mk pacing gauges).contains key = true
  · simp only [setGauge, hc, if_true, gauge?]
    clear hc
    induction gauges with
    | nil => rfl
    | cons e es ih =>
      by_cases he : e.1 = key
      · have ho : e.1 ≠ other := he ▸ h
        rw [List.find?_cons_of_neg (by simpa using ho), List.map_cons,
          List.find?_cons_of_neg (by simpa [he] using h)]
        exact ih
      · by_cases ho : e.1 = other
        · rw [List.map_cons, if_neg he, List.find?_cons_of_pos (by simpa using ho),
            List.find?_cons_of_pos (by simpa using ho)]
        · rw [List.find?_cons_of_neg (by simpa using ho), List.map_cons,
            List.find?_cons_of_neg (by simpa [he] using ho)]
          exact ih
  · simp [setGauge, hc, gauge?, h]

@[simp] theorem toPacing_setGauge (t : Throttle) (key : GaugeKey) (g : Gauge) :
    (t.setGauge key g).toPacing = t.toPacing := by
  unfold setGauge
  split <;> rfl

end Throttle
end PoolControl
