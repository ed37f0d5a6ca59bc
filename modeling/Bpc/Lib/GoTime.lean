/-
  INSTANTS AND DURATIONS — as Go's `time` package counts them.

  An instant is a number of nanoseconds since the ZERO TIME, which doubles as "not set".
  `Time.sub` is CUT to 64 bits; a second counter is below a bound exactly before its instant
  (`unix_lt_iff`).
-/
import Mathlib

namespace Bpc.Time

/-- `time.Time{}`. -/
def zero : Int := 0

/-- `time.Second`. -/
def second : Int := 1000000000

/-- `time.Millisecond`. -/
def millisecond : Int := 1000000

/-- The instant at which Unix seconds start: 1 January 1970. -/
def epoch : Int := 62135596800 * second

/-- `Time.Unix`. -/
def unix (t : Int) : Int := (t - epoch) / second

/-- `time.Unix(s, 0)`. -/
def ofUnix (s : Int) : Int := epoch + s * second

/-- `UnixNano`: nanoseconds since 1970, in 64 bits. -/
def unixNano (t : Int) : Int := (t - epoch).bmod (2 ^ 64)

/-- `time.Unix(0, ns)`. -/
def ofUnixNano (ns : Int) : Int := epoch + ns

/-- `Sub`: the difference, or the nearest duration that 64 bits hold. -/
def sub (t u : Int) : Int := max (-(2 ^ 63)) (min (2 ^ 63 - 1) (t - u))

/-- The cut difference exceeds a bound when the real one does. -/
theorem lt_sub {d t u : Int} (hd : d < 2 ^ 63 - 1) (h : d < t - u) : d < sub t u := by
  unfold sub
  omega

/-- **Seconds and instants agree**: the counter is below `s` exactly before second `s` begins. -/
theorem unix_lt_iff {t s : Int} : unix t < s ↔ t < ofUnix s := by
  have h : (t - epoch) / second < s ↔ t - epoch < s * second :=
    Int.ediv_lt_iff_lt_mul (by decide)
  unfold unix ofUnix
  omega

theorem unix_mono {t u : Int} (h : t ≤ u) : unix t ≤ unix u :=
  Int.ediv_le_ediv (by decide) (by omega)

theorem ofUnix_unix_le (t : Int) : ofUnix (unix t) ≤ t := by
  by_contra h
  have h2 : unix t < unix t := unix_lt_iff.mpr (by omega)
  omega

end Bpc.Time
