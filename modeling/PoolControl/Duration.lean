/-! # Durations

A `Duration` is a span of time in whole nanoseconds. Configured spans come as a count of seconds or
milliseconds, a pool keeps its keep-alive in milliseconds clipped to a machine word
(`Duration.wordMillis`), and logs show a span in its largest unit (`Duration.text`). -/

namespace PoolControl

/-- The largest value of an unsigned 64-bit word. -/
def maxWord : Nat := UInt64.size - 1

/-- A span of time in whole nanoseconds. -/
structure Duration where
  nanos : Nat
  deriving DecidableEq, Repr, Inhabited

namespace Duration

/-- A span of `n` milliseconds. -/
def ofMillis (n : Nat) : Duration := ⟨n * 1000000⟩

/-- A span of `n` seconds. -/
def ofSecs (n : Nat) : Duration := ⟨n * 1000000000⟩

/-- The whole milliseconds of a span. -/
def millis (d : Duration) : Nat := d.nanos / 1000000

/-- The whole seconds of a span. -/
def secs (d : Duration) : Nat := d.nanos / 1000000000

/-- The nanoseconds of a span beyond its whole seconds. -/
def subsecNanos (d : Duration) : Nat := d.nanos % 1000000000

/-- The whole milliseconds of a span, clipped to a machine word. -/
def wordMillis (d : Duration) : UInt64 := UInt64.ofNat (min d.millis maxWord)

/-- A decimal fraction of `width` digits without its trailing zeros, with its point. -/
private def fractionText (width n : Nat) : String :=
  let digits := Nat.toDigits 10 n
  let all := List.replicate (width - digits.length) '0' ++ digits
  match (all.reverse.dropWhile (· == '0')).reverse with
  | [] => ""
  | kept => String.ofList ('.' :: kept)

/-- A span in its largest unit that is not zero, as an exact decimal. -/
def text (d : Duration) : String :=
  if 1000000000 ≤ d.nanos then
    toString d.secs ++ fractionText 9 d.subsecNanos ++ "s"
  else if 1000000 ≤ d.nanos then
    toString (d.nanos / 1000000) ++ fractionText 6 (d.nanos % 1000000) ++ "ms"
  else if 1000 ≤ d.nanos then
    toString (d.nanos / 1000) ++ fractionText 3 (d.nanos % 1000) ++ "µs"
  else toString d.nanos ++ "ns"

theorem millis_ofMillis (n : Nat) : (ofMillis n).millis = n := by
  simp [ofMillis, millis]

theorem secs_ofSecs (n : Nat) : (ofSecs n).secs = n := by
  simp [ofSecs, secs]

theorem toNat_wordMillis (d : Duration) : d.wordMillis.toNat = min d.millis maxWord := by
  have h : min d.millis maxWord < UInt64.size := by
    have := Nat.min_le_right d.millis maxWord
    simp only [maxWord, UInt64.size] at *
    omega
  simp [wordMillis, UInt64.toNat_ofNat_of_lt' h]

end Duration
end PoolControl
