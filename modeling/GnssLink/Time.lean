/-!
# Instants and time limits

Time is read from a clock that counts microseconds; time limits are milliseconds.  The time that has
passed since an instant is never negative: a clock that stands before the instant has let no time
pass.

## Main definitions

* `Instant`, `Instant.since` — a reading of the clock, and the microseconds between two readings.
* `Milliseconds.toMicros` — a limit in the unit of the clock.
* `Timing` — the limits of the negotiation.
-/

namespace GnssLink

/-- A reading of the clock, in microseconds. -/
structure Instant where
  micros : Nat
  deriving DecidableEq, Repr

/-- The microseconds from an earlier reading to this one, and none if this one is the earlier. -/
def Instant.since (now earlier : Instant) : Nat :=
  now.micros - earlier.micros

/-- A time limit in milliseconds. -/
abbrev Milliseconds := Nat

/-- The limit in microseconds. -/
def Milliseconds.toMicros (limit : Milliseconds) : Nat :=
  1000 * limit

namespace Timing

/-- The wait for the answer to one command or one version request. -/
def commandWait : Milliseconds := 200

/-- The number of version requests before the hardware is taken as unknown. -/
def versionAttempts : UInt8 := 2

/-- The ceiling of a group of configuration commands. -/
def groupCeiling : Milliseconds := 500

/-- The ceiling of the version query, of the alignment to a known speed, and of the time without a
solution. -/
def phaseCeiling : Milliseconds := 1000

/-- The pause after a sentence that switches the speed. -/
def baudSettling : Milliseconds := 100

/-- The ceiling of the alignment to an unknown speed: for each of the six candidates the pause and
time to transmit. -/
def autoBaudCeiling : Milliseconds := (baudSettling + 50) * 6

end Timing

end GnssLink
