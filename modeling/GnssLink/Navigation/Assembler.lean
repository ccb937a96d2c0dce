import GnssLink.Message.Basic
import GnssLink.Navigation.Solution

/-!
# Assembling solutions

The assembler keeps a working solution and applies one message after the other to it.  Whenever both
a report of the position and a report of the velocity were applied since the last completion, the
epoch is complete and the working solution is handed out.

The kind of fix follows rules of its own.  A status or summary report that vouches for no fix takes
the fix away at once; one that vouches for a fix only prepares it, and the next report of the
position brings it in.  The report of position, velocity and time sets it at once.

## Main definitions

* `EpochLatch` — which halves of the epoch have arrived.
* `Assembler` — the working solution, the prepared fix and the latch.
* `Assembler.apply` — apply a message, and hand out the solution of a complete epoch.
* `clampAccuracy`, `courseOfHeading`, `millisOfNanos` — the conversions.
-/

namespace GnssLink

/-! ### The halves of an epoch -/

/-- Whether the position and the velocity of the epoch have arrived. -/
structure EpochLatch where
  position : Bool
  velocity : Bool
  deriving DecidableEq, Repr

namespace EpochLatch

/-- Nothing has arrived. -/
def clear : EpochLatch :=
  ⟨false, false⟩

/-- The position has arrived. -/
def markPosition (l : EpochLatch) : EpochLatch :=
  { l with position := true }

/-- The velocity has arrived. -/
def markVelocity (l : EpochLatch) : EpochLatch :=
  { l with velocity := true }

/-- Whether both have arrived; if so, the next epoch begins. -/
def takeComplete (l : EpochLatch) : Bool × EpochLatch :=
  if l.position && l.velocity then (true, clear) else (false, l)

end EpochLatch

/-! ### Conversions -/

/-- The largest accuracy, and the largest dilution, that a solution shows. -/
def maxAccuracy : UInt16 := 9999

/-- An accuracy, or `maxAccuracy` if that is smaller. -/
def clampAccuracy (value : UInt32) : UInt16 :=
  if value ≤ maxAccuracy.toUInt32 then value.toUInt16 else maxAccuracy

/-- A heading in 10⁻⁵ degrees as a course in tenths of a degree.  The quotient is cut toward zero
and taken modulo 2¹⁶, so a negative heading becomes a large course. -/
def courseOfHeading (heading : Int32) : UInt16 :=
  (heading / 10000).toUInt32.toUInt16

/-- Nanoseconds as whole milliseconds from 0 to 999; values outside go to the nearer end. -/
def millisOfNanos (nanos : Int32) : UInt16 :=
  let millis := nanos / 1000000
  if millis < 0 then 0
  else if 999 < millis then 999
  else millis.toUInt32.toUInt16

/-! ### The assembler -/

/-- The working solution, the fix that the next report of the position brings in, and the halves of
the epoch that have arrived. -/
structure Assembler where
  working : Solution
  nextFix : FixType
  latch : EpochLatch
  deriving DecidableEq, Repr

namespace Assembler

/-- An assembler before any message. -/
def initial : Assembler :=
  ⟨.blank, .none, .clear⟩

/-- Take over a position. -/
def applyPosition (a : Assembler) (r : PositionReport) : Assembler :=
  { a with
    working := { a.working with
      longitude := r.longitude
      latitude := r.latitude
      altitude := r.heightAboveSea / 10
      ellipsoidAltitude := r.height / 10
      horizontalAccuracy := clampAccuracy (r.horizontalAccuracy / 10)
      verticalAccuracy := clampAccuracy (r.verticalAccuracy / 10)
      validity.positionAccuracy := true
      fixType := if a.nextFix = .none then a.working.fixType else a.nextFix }
    latch := a.latch.markPosition }

/-- Prepare a fix for the next position; no fix takes effect at once. -/
def prepareFix (a : Assembler) (fix : FixType) : Assembler :=
  { a with
    nextFix := fix
    working := { a.working with
      fixType := if fix = .none then .none else a.working.fixType } }

/-- Take over a summary. -/
def applySummary (a : Assembler) (r : SummaryReport) : Assembler :=
  let a := a.prepareFix (.ofReport (fixIsOk r.flags) r.fix)
  { a with
    working := { a.working with
      satellites := r.satellites
      dilution := clampAccuracy r.dilution.toUInt32 } }

/-- Take over a velocity. -/
def applyVelocity (a : Assembler) (r : VelocityReport) : Assembler :=
  { a with
    working := { a.working with
      groundSpeed := r.groundSpeed
      groundCourse := courseOfHeading r.heading
      velocity := ⟨r.north, r.east, r.down⟩
      speedAccuracy := clampAccuracy r.speedAccuracy
      headingAccuracy := clampAccuracy (r.headingAccuracy / 10000)
      validity.horizontalVelocity := true
      validity.verticalVelocity := true }
    latch := a.latch.markVelocity }

/-- Take over a time that is vouched for.  Any other time leaves the last one in place and marks it
as not valid. -/
def applyTime (a : Assembler) (t : UtcTime) : Assembler :=
  if t.isValid then
    { a with
      working := { a.working with
        time := ⟨t.year, t.month, t.day, t.hour, t.minute, t.second, millisOfNanos t.nanosecond⟩
        validity.time := true } }
  else
    { a with working := { a.working with validity.time := false } }

/-- Take over position, velocity and time.  Speeds arrive in millimetres per second here. -/
def applyPvt (a : Assembler) (r : PvtReport) : Assembler :=
  let fix := FixType.ofReport (fixIsOk r.flags) r.fix
  let a := { a with
    nextFix := fix
    working := { a.working with
      fixType := fix
      longitude := r.longitude
      latitude := r.latitude
      altitude := r.heightAboveSea / 10
      ellipsoidAltitude := r.height / 10
      velocity := ⟨r.north / 10, r.east / 10, r.down / 10⟩
      groundSpeed := (max (r.groundSpeed / 10) 0).toUInt32
      groundCourse := courseOfHeading r.heading
      satellites := r.satellites
      horizontalAccuracy := clampAccuracy (r.horizontalAccuracy / 10)
      verticalAccuracy := clampAccuracy (r.verticalAccuracy / 10)
      speedAccuracy := clampAccuracy (r.speedAccuracy / 10)
      headingAccuracy := clampAccuracy (r.headingAccuracy / 10000)
      dilution := clampAccuracy r.dilution.toUInt32
      validity.horizontalVelocity := true
      validity.verticalVelocity := true
      validity.positionAccuracy := true } }
  let a := a.applyTime r.time
  { a with latch := a.latch.markPosition.markVelocity }

/-- Take over what a message says about the solution, if anything. -/
def absorb (a : Assembler) : Message → Assembler
  | .position r => a.applyPosition r
  | .fix r => a.prepareFix (.ofReport (fixIsOk r.flags) r.fix)
  | .summary r => a.applySummary r
  | .velocity r => a.applyVelocity r
  | .time r => a.applyTime r.time
  | .pvt r => a.applyPvt r
  | .version _ | .accepted _ | .refused _ | .other _ => a

/-- Apply a message.  If it completes the epoch, the working solution is handed out. -/
def apply (a : Assembler) (m : Message) : Option Solution × Assembler :=
  let a := a.absorb m
  let (complete, latch) := a.latch.takeComplete
  (if complete then some a.working else none, { a with latch := latch })

end Assembler

end GnssLink
