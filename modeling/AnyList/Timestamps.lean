import Mathlib.Data.Int.Basic
import Mathlib.Data.Int.Order.Basic

namespace AnyList.Timestamps

/-- A Python `datetime`: its wall clock in microseconds and, for an aware value,
its UTC offset. A naive UTC datetime is written as its `Int` of microseconds. -/
structure DateTime where
  wall : Int
  utcOffset : Option Int
  deriving DecidableEq

def DateTime.naive (t : Int) : DateTime := ⟨t, none⟩

def milliseconds (t : Int) : Int := t - t % 1000

def DateTime.instant (value : DateTime) : Int := value.wall - value.utcOffset.getD 0

/-- `naive_utc` of a present value: converted to UTC, then truncated. -/
def naiveUtc (value : DateTime) : Int := milliseconds value.instant

theorem milliseconds_le (t : Int) : milliseconds t ≤ t := by
  unfold milliseconds
  omega

theorem lt_milliseconds_add (t : Int) : t < milliseconds t + 1000 := by
  unfold milliseconds
  omega

@[simp] theorem milliseconds_idem (t : Int) :
    milliseconds (milliseconds t) = milliseconds t := by
  unfold milliseconds
  omega

theorem milliseconds_mono {s t : Int} (h : s ≤ t) : milliseconds s ≤ milliseconds t := by
  unfold milliseconds
  omega

@[simp] theorem instant_naive (t : Int) : (DateTime.naive t).instant = t := by
  simp [DateTime.instant, DateTime.naive]

@[simp] theorem naiveUtc_naive (t : Int) : naiveUtc (.naive t) = milliseconds t := by
  simp [naiveUtc]

@[simp] theorem milliseconds_naiveUtc (d : DateTime) : milliseconds (naiveUtc d) = naiveUtc d := by
  simp [naiveUtc]

/-- Storing a normalised clock and reading it back changes nothing. -/
theorem naiveUtc_stored (d : DateTime) : naiveUtc (.naive (naiveUtc d)) = naiveUtc d := by
  simp

end AnyList.Timestamps
